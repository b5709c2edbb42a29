import Phrasebook.Toml.Scalar
import Phrasebook.Toml.Table
import Phrasebook.Toml.Text

/-!
# Names and values in TOML

A name is bare or quoted, and several with dots between lead from table to table. A value is a
scalar, a list in brackets or a table in braces; a list may be spread over lines, with comments,
a table in braces may not.

Several readings in a row end because each leaves fewer characters than it was given. Where the
reader is a parameter, the loop checks that for itself.

- `readNames?`: the names before an equals sign or in a header.
- `readValue?`: a value. Lists and tables nest to a fixed depth, so the recursion is on what is
  left of it.
-/

namespace Phrasebook.Toml

open Text

/-- The greatest number of lists and tables around a value, and of names with dots between. -/
def nestingLimit : Nat := 79

/-! ## Names -/

/-- A character of a bare name. -/
def isBare (c : Char) : Bool :=
  c.isAlphanum || c == '_' || c == '-'

/-- A single name. -/
def readName? (cs : List Char) : Option (String × List Char) :=
  match cs with
  | [] => none
  | c :: rest =>
    if c = '"' then (basic? rest).map fun (name, rest) => (String.ofList name, rest)
    else if c = '\'' then (literal? rest).map fun (name, rest) => (String.ofList name, rest)
    else if isBare c then some (String.ofList (cs.takeWhile isBare), cs.dropWhile isBare)
    else none

/-- Names with dots between, and the blanks around them. -/
def nameList? (cs : List Char) : Option (List String × List Char) :=
  match readName? (dropBlanks cs) with
  | none => none
  | some (name, rest) =>
    match dropBlanks rest with
    | '.' :: rest =>
      if rest.length < cs.length then
        (nameList? rest).map fun (names, rest) => (name :: names, rest)
      else none
    | rest => some ([name], rest)
termination_by cs.length

/-- Names with dots between, unless there are too many. -/
def readNames? (cs : List Char) : Option (List String × List Char) :=
  (nameList? cs).filter fun found => found.1.length ≤ nestingLimit

/-! ## Values -/

/-- A reader takes something off the front, or fails. -/
abbrev Reader (α : Type) := List Char → Option (α × List Char)

/-- Drops blanks, line ends and comments inside a list. -/
def dropGap (inComment : Bool) : List Char → List Char
  | [] => []
  | '\n' :: cs => dropGap false cs
  | '\r' :: '\n' :: cs => dropGap false cs
  | c :: cs =>
    if inComment then (if isPlain c then dropGap true cs else c :: cs)
    else if c = ' ' ∨ c = '\t' then dropGap false cs
    else if c = '#' then dropGap true cs
    else c :: cs

/-- The items of a list, up to its closing bracket. A comma may follow the last one. -/
def items? (value : Reader Datum) (cs : List Char) : Option (List Datum × List Char) :=
  match dropGap false cs with
  | [] => none
  | ']' :: rest => some ([], rest)
  | start =>
    match value start with
    | none => none
    | some (datum, rest) =>
      match dropGap false rest with
      | ']' :: rest => some ([datum], rest)
      | ',' :: rest =>
        if rest.length < cs.length then
          (items? value rest).map fun (data, rest) => (datum :: data, rest)
        else none
      | _ => none
termination_by cs.length

/-- Names, an equals sign and a value, and the blanks around the value. -/
def assignment? (value : Reader Datum) (cs : List Char) :
    Option ((List String × Datum) × List Char) := do
  let (names, cs) ← readNames? cs
  let cs ← expect? '=' cs
  let (datum, cs) ← value (dropBlanks cs)
  return ((names, datum), dropBlanks cs)

/-- The assignments of a table in braces, up to the closing one. -/
def entries? (value : Reader Datum) (fields : Fields) (cs : List Char) :
    Option (Fields × List Char) :=
  match assignment? value cs with
  | none => none
  | some ((names, datum), rest) =>
    match assign datum names fields with
    | none => none
    | some fields =>
      match rest with
      | '}' :: rest => some (fields, rest)
      | ',' :: rest => if rest.length < cs.length then entries? value fields rest else none
      | _ => none
termination_by cs.length

/-- The fields of a table in braces. -/
def braces? (value : Reader Datum) (cs : List Char) : Option (Fields × List Char) :=
  match dropBlanks cs with
  | '}' :: rest => some ([], rest)
  | _ => entries? value [] cs

/-- A value. Up to `depth` lists and tables may nest. -/
def readNested? : Nat → Reader Datum
  | _, [] => none
  | depth, c :: cs =>
    if c = '"' ∨ c = '\'' then
      (readText? (c :: cs)).map fun (text, rest) => (.text (String.ofList text), rest)
    else if c = '[' then
      match depth with
      | 0 => none
      | depth + 1 => (items? (readNested? depth) cs).map fun (data, rest) => (.list data, rest)
    else if c = '{' then
      match depth with
      | 0 => none
      | depth + 1 =>
        (braces? (readNested? depth) cs).map fun (fields, rest) =>
          (.record (fieldData fields), rest)
    else readScalar? (c :: cs)

/-- A value. -/
def readValue? : Reader Datum :=
  readNested? nestingLimit

end Phrasebook.Toml
