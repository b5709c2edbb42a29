import Phrasebook.Text.Numeral

/-!
# Placeholders

Word order differs between languages, so a message names its arguments by number: `%1` is the
first argument wherever it stands. One or two digits follow the `%`, as many as there are; a
number outside 1 to 99 is no placeholder, and `%` is then a character like any other.

- `scan`: the placeholders of a text with the places they stand at, in order.
- `fill`: the text with arguments in place of placeholders. It is a single pass: an argument
  that looks like a placeholder is not read again. A placeholder without an argument stays.
- `indices`: the argument numbers a text refers to, each once, ascending.
-/

namespace Phrasebook

open Text

/-- A placeholder and the characters it takes up. -/
structure Placeholder where
  /-- The place of its `%`, in characters from the start of the text. -/
  start : Nat
  /-- The place after its last digit. -/
  stop : Nat
  /-- The number of the argument it stands for; the first is 1. -/
  index : Nat
deriving DecidableEq, Repr

namespace Placeholder

/-- The digits directly after a `%`, two at most. -/
def leadingDigits (cs : List Char) : List Char :=
  (cs.take 2).takeWhile Char.isDigit

/-- The number written by decimal digits, 0 if there are none. -/
def number (digits : List Char) : Nat :=
  ofDigits 10 (digits.filterMap (digit? 10))

/-- The placeholders of the characters from place `place` on. The first `skipped` characters
belong to a placeholder already found. -/
def scanFrom (skipped place : Nat) : List Char → List Placeholder
  | [] => []
  | c :: cs =>
    match skipped with
    | skipped + 1 => scanFrom skipped (place + 1) cs
    | 0 =>
      let digits := leadingDigits cs
      if c = '%' ∧ number digits ≠ 0 then
        ⟨place, place + 1 + digits.length, number digits⟩ ::
          scanFrom digits.length (place + 1) cs
      else
        scanFrom 0 (place + 1) cs

/-- The placeholders of a text in the order they stand in. -/
def scan (text : List Char) : List Placeholder :=
  scanFrom 0 0 text

/-- Writes out the characters `rest`, which start at place `copied`, with arguments in place of
the placeholders that have one. -/
def fillFrom (arguments : List (List Char)) (copied : Nat) (rest : List Char) :
    List Placeholder → List Char
  | [] => rest
  | p :: ps =>
    match arguments[p.index - 1]? with
    | none => fillFrom arguments copied rest ps
    | some argument =>
      rest.take (p.start - copied) ++ argument ++
        fillFrom arguments p.stop (rest.drop (p.stop - copied)) ps

/-- The characters of a text with arguments in place of placeholders. -/
def fillChars (text : List Char) (arguments : List (List Char)) : List Char :=
  fillFrom arguments 0 text (scan text)

/-- A text with arguments in place of its placeholders. -/
def fill (text : String) (arguments : List String) : String :=
  String.ofList (fillChars text.toList (arguments.map String.toList))

/-- Adds a number to an ascending list unless it is there. -/
def insertIndex (n : Nat) : List Nat → List Nat
  | [] => [n]
  | m :: ms => if n < m then n :: m :: ms else if n = m then m :: ms else m :: insertIndex n ms

/-- The argument numbers a text refers to, each once, in ascending order. -/
def indices (text : String) : List Nat :=
  (scan text.toList).foldr (fun p ns => insertIndex p.index ns) []

end Placeholder

end Phrasebook
