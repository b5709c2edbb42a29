import Phrasebook.Markup.Character

/-!
# Names

Elements and attributes have names that may carry the qualifier of a namespace, with a colon
between. A name is read character by character, so what is known of an unfinished one has a type
of its own.

- `Name`, `Name.ofChars?`: a name and its parts.
- `Word`: characters that have been read, with a limit to their number.
- `PartialName.extend?`: whether a character goes on a name.
-/

namespace Phrasebook.Markup

/-- The name of an element or attribute, with the qualifier of its namespace. -/
structure Name where
  qualifier : Option String
  base : String
deriving DecidableEq, Repr

namespace Name

/-- Splits a name at its colon. A name has one colon at most, with text on both sides. -/
def ofChars? (cs : List Char) : Option Name :=
  match cs.splitOn ':' with
  | [base] => if base.isEmpty then none else some ⟨none, String.ofList base⟩
  | [qualifier, base] =>
    if qualifier.isEmpty || base.isEmpty then none
    else some ⟨some (String.ofList qualifier), String.ofList base⟩
  | _ => none

/-- The qualifiers `xml` and `xmlns` belong to the syntax itself; no element has them. -/
def isReserved (name : Name) : Bool :=
  name.qualifier == some "xml" || name.qualifier == some "xmlns"

end Name

/-! ## Unfinished names -/

/-- The number of bytes after which a name may not go on. -/
def maxNameSize : Nat := 262144

/-- The characters of a name that have been read. -/
structure Word where
  /-- The characters, the last one first. -/
  read : List Char
  /-- The number of bytes they take up in UTF-8. -/
  size : Nat
deriving DecidableEq, Repr

namespace Word

/-- Nothing has been read. -/
def empty : Word :=
  ⟨[], 0⟩

/-- Adds a character. -/
def push (w : Word) (c : Char) : Word :=
  ⟨c :: w.read, w.size + c.utf8Size⟩

/-- The characters in the order they stand in. -/
def chars (w : Word) : List Char :=
  w.read.reverse

/-- The characters as a text. -/
def text (w : Word) : String :=
  String.ofList w.chars

/-- Adds a character of a plain name, if it goes on the name. -/
def extend? (w : Word) (c : Char) : Option Word :=
  if (if w.read.isEmpty then isNameStart c else isNameChar c) && w.size ≤ maxNameSize then
    some (w.push c)
  else none

end Word

/-- A name of which a part has been read. -/
structure PartialName where
  word : Word
  /-- A colon has been read after the first character. -/
  hasColon : Bool
deriving DecidableEq, Repr

namespace PartialName

/-- Nothing has been read. -/
def empty : PartialName :=
  ⟨.empty, false⟩

/-- A name of which the first character has been read. -/
def ofFirst (c : Char) : PartialName :=
  ⟨Word.empty.push c, false⟩

/-- Adds a character, if it goes on the name. A second colon does not. -/
def extend? (name : PartialName) (c : Char) : Option PartialName :=
  if c = ':' then
    if name.word.read.isEmpty || name.hasColon then none else some ⟨name.word.push ':', true⟩
  else (name.word.extend? c).map fun word => { name with word := word }

/-- The name, if it is one. -/
def name? (name : PartialName) : Option Name :=
  Name.ofChars? name.word.chars

end PartialName

end Phrasebook.Markup
