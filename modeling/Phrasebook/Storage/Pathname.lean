/-!
# Paths

A path names a file or a directory by the names on the way to it, with slashes between. Empty
names and `.` lead nowhere, so `lang/./a` and `lang//a` name what `lang/a` names; the text of a
path is kept as it was given all the same, since diagnostics show it.

- `Pathname.join`: a path below a directory.
- `Pathname.fileName?`, `Pathname.stem?`: the last name of a path, and that name without its
  extension.
- `Pathname.parent?`: the path of the directory that a path lies in.
-/

namespace Phrasebook.Storage

/-- The name of a place in a file system. -/
structure Pathname where
  text : String
deriving DecidableEq, Repr

instance : Ord Pathname := ⟨fun p q => compare p.text q.text⟩

namespace Pathname

/-- The path starts at the root of the file system. -/
def isAbsolute (p : Pathname) : Bool :=
  p.text.toList.head? == some '/'

/-- The names between the slashes, empty ones included. -/
def names (p : Pathname) : List (List Char) :=
  p.text.toList.splitOn '/'

/-- The path that leads from a directory along another path. An absolute path leads there by
itself. -/
def join (directory path : Pathname) : Pathname :=
  if path.isAbsolute then path
  else if directory.text.isEmpty || directory.text.toList.getLast? == some '/' then
    ⟨directory.text ++ path.text⟩
  else ⟨directory.text ++ "/" ++ path.text⟩

/-- A name that leads nowhere. -/
def isIdle (name : List Char) : Bool :=
  name == [] || name == ['.']

/-- The names in reverse order, without those at the end that lead nowhere. A `.` at the very
front counts as a name. -/
def dropIdle : List (List Char) → List (List Char)
  | [] => []
  | [name] => if name.isEmpty then [] else [name]
  | name :: rest => if isIdle name then dropIdle rest else name :: rest

/-- The names in reverse order, without those at the end that lead nowhere. The root is none of
them. -/
def reverseNames (p : Pathname) : List (List Char) :=
  if p.isAbsolute then (p.names.drop 1).reverse.dropWhile isIdle else dropIdle p.names.reverse

/-- The last name of a path, unless it leads back or nowhere. -/
def fileName? (p : Pathname) : Option String :=
  match p.reverseNames with
  | [] => none
  | name :: _ => if name = ['.'] ∨ name = ['.', '.'] then none else some (String.ofList name)

/-- A name up to its last dot. A name whose only dot is at the front has no extension. -/
def stemOf (name : List Char) : List Char :=
  match name.reverse.dropWhile (· != '.') with
  | [] | [_] => name
  | _ :: stem => stem.reverse

/-- The last name of a path without its extension. -/
def stem? (p : Pathname) : Option String :=
  p.fileName?.map fun name => String.ofList (stemOf name.toList)

/-- The path of the directory that a path lies in. -/
def parent? (p : Pathname) : Option Pathname :=
  match p.reverseNames with
  | [] => none
  | _ :: rest =>
    let around := if p.isAbsolute then rest.dropWhile isIdle else dropIdle rest
    let text := String.ofList (['/'].intercalate around.reverse)
    some ⟨if p.isAbsolute then "/" ++ text else text⟩

end Pathname

end Phrasebook.Storage
