import Phrasebook.Text.Quoted

/-!
# JSON texts

Values of the JSON data model, and their text over several lines. The fields of an object stand
in the order in which they are given.

- `Json`: null, a number by its text, a string, an array, an object.
- `Json.pretty`: the text with two spaces for each level. An empty array or object stays on one
  line.
-/

namespace Phrasebook.Text

/-- A JSON value. -/
inductive Json where
  | null
  /-- A number, by its text. -/
  | number (written : String)
  | string (value : String)
  | array (items : List Json)
  | object (fields : List (String × Json))

namespace Json

/-- The natural number as a value. -/
def natural (n : Nat) : Json :=
  .number (toString n)

/-- The string, or null for none. -/
def optional : Option String → Json
  | some s => .string s
  | none => .null

/-- The written form of a character inside a string. -/
def escape (c : Char) : String :=
  match c with
  | '"' => "\\\""
  | '\\' => "\\\\"
  | '\n' => "\\n"
  | '\r' => "\\r"
  | '\t' => "\\t"
  | '\x08' => "\\b"
  | '\x0c' => "\\f"
  | c =>
    if c < ' ' then
      let digits := Nat.toDigits 16 c.toNat
      "\\u" ++ String.ofList (List.replicate (4 - digits.length) '0' ++ digits)
    else c.toString

/-- A string value with its quotes. -/
def stringText (s : String) : String :=
  "\"" ++ String.join (s.toList.map escape) ++ "\""

/-- A line break and the indentation of a level. -/
def newLine (level : Nat) : String :=
  String.ofList ('\n' :: List.replicate (2 * level) ' ')

mutual

/-- The text of a value whose lines are indented to `level`. -/
def prettyAt (level : Nat) : Json → String
  | .null => "null"
  | .number written => written
  | .string s => stringText s
  | .array [] => "[]"
  | .array (item :: items) =>
    "[" ++ newLine (level + 1) ++ prettyAt (level + 1) item ++
      prettyItems (level + 1) items ++ newLine level ++ "]"
  | .object [] => "\x7b\x7d"
  | .object ((name, value) :: fields) =>
    "\x7b" ++ newLine (level + 1) ++ stringText name ++ ": " ++ prettyAt (level + 1) value ++
      prettyFields (level + 1) fields ++ newLine level ++ "\x7d"

/-- The items after the first one. -/
def prettyItems (level : Nat) : List Json → String
  | [] => ""
  | item :: items => "," ++ newLine level ++ prettyAt level item ++ prettyItems level items

/-- The fields after the first one. -/
def prettyFields (level : Nat) : List (String × Json) → String
  | [] => ""
  | (name, value) :: fields =>
    "," ++ newLine level ++ stringText name ++ ": " ++ prettyAt level value ++
      prettyFields level fields

end

/-- The text of a value over several lines. -/
def pretty (value : Json) : String :=
  prettyAt 0 value

end Json

end Phrasebook.Text
