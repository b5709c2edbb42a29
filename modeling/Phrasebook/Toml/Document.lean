import Phrasebook.Toml.Value

/-!
# Files in TOML

A file is a list of lines, though a value may span several. A line is blank, or it opens a table,
or it assigns a value in the table that was opened last; a comment may follow.

- `readDocument?`: the record that a file holds.
- `writeDocument`: a file of tables with texts.
-/

namespace Phrasebook.Toml

/-! ## Reading -/

/-- What has been read so far. -/
structure Progress where
  /-- The fields of the file. -/
  fields : Fields
  /-- The names of the header that was read last. -/
  header : List String

/-- The end of a line, with blanks and a comment before it. -/
def afterLine? (cs : List Char) : Option (List Char) :=
  let rest := match dropBlanks cs with
    | '#' :: comment => comment.dropWhile isPlain
    | rest => rest
  if rest.isEmpty then some [] else afterNewline? rest

/-- A header, after its opening brackets, and what it does to the table it names. -/
def header? (p : Progress) (change : String → Fields → Option Fields) (cs : List Char) :
    Option (Progress × List Char) := do
  let (names, rest) ← readNames? cs
  let name ← names.getLast?
  let fields ← within (change name) names.dropLast p.fields
  return (⟨fields, names⟩, rest)

/-- One line up to its end. -/
def line? (p : Progress) (cs : List Char) : Option (Progress × List Char) :=
  match cs with
  | '[' :: '[' :: rest => do
    let (p, rest) ← header? p openEntry rest
    return (p, ← expect? ']' (← expect? ']' rest))
  | '[' :: rest => do
    let (p, rest) ← header? p openTable rest
    return (p, ← expect? ']' rest)
  | _ =>
    if cs.isEmpty || (afterLine? cs).isSome then some (p, cs)
    else do
      let ((names, datum), rest) ← assignment? readValue? cs
      let fields ← within (assign datum names) p.header p.fields
      return (⟨fields, p.header⟩, rest)

/-- All lines. -/
def lines? (p : Progress) (cs : List Char) : Option Progress :=
  if cs.isEmpty then some p
  else
    match line? p (dropBlanks cs) with
    | none => none
    | some (p, rest) =>
      match afterLine? rest with
      | none => none
      | some rest => if rest.length < cs.length then lines? p rest else none
termination_by cs.length

/-- The record that a file holds. A byte order mark may come first. -/
def readDocument? (text : String) : Option Datum :=
  let cs := match text.toList with
    | '\ufeff' :: cs => cs
    | cs => cs
  (lines? ⟨[], []⟩ cs).map fun p => .record (fieldData p.fields)

/-! ## Writing -/

/-- A table of texts, with a bare name for itself and for each field. -/
structure Section where
  name : String
  fields : List (String × String)

/-- The lines of a table. -/
def writeSection (s : Section) : List Char :=
  ['['] ++ s.name.toList ++ [']', '\n'] ++ s.fields.flatMap fun (name, value) =>
    name.toList ++ " = ".toList ++ writeText value.toList ++ ['\n']

/-- The sections with an empty line between two. -/
def writeSections : List Section → List Char
  | [] => []
  | [s] => writeSection s
  | s :: t :: rest => writeSection s ++ '\n' :: writeSections (t :: rest)

/-- A file of tables with texts. -/
def writeDocument (sections : List Section) : String :=
  String.ofList (writeSections sections)

end Phrasebook.Toml
