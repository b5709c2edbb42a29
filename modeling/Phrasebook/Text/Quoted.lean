import Phrasebook.Text.Printable

/-!
# Quoted texts

How a diagnostic shows a text that came from outside: between double quotes, with escapes for
whatever would be misread or not be seen at all.

- `escape`: the written form of one character.
- `quoted`: a whole text between quotes.
- `listed`: a list of numbers in brackets.
-/

namespace Phrasebook.Text

/-- A number in lower-case hexadecimal without leading zeros. -/
def hexadecimal (n : Nat) : String :=
  String.ofList (Nat.toDigits 16 n)

/-- A character by its code point, in braces. -/
def escapeCodePoint (c : Char) : String :=
  "\\u\x7b" ++ hexadecimal c.toNat ++ "\x7d"

/-- The written form of a character between double quotes. A plain ASCII character stands for
itself without a look at the tables. -/
def escape (c : Char) : String :=
  match c with
  | '"' => "\\\""
  | '\\' => "\\\\"
  | '\n' => "\\n"
  | '\r' => "\\r"
  | '\t' => "\\t"
  | '\x00' => "\\0"
  | c =>
    if ' ' ≤ c && c ≤ '~' then c.toString
    else if isUnprintable c || extendsGrapheme c then escapeCodePoint c
    else c.toString

/-- A text between double quotes. -/
def quoted (s : String) : String :=
  "\"" ++ String.join (s.toList.map escape) ++ "\""

/-- Numbers in brackets, separated by a comma and a space. -/
def listed (ns : List Nat) : String :=
  "[" ++ String.intercalate ", " (ns.map toString) ++ "]"

end Phrasebook.Text
