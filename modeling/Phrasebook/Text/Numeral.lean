/-!
# Numerals

Digits in a base from two to sixteen, read as natural numbers of any size. A reader that has a
bound compares the number with it afterwards, so no digit is ever lost to a narrow word.

- `digit?`: the value of one digit.
- `ofDigits`: the number that digits denote, the first digit being the highest.
- `natural?`: the number of a non-empty list of digits and nothing else.
- `unsigned?`: the same after an optional `+`.
- `scalar?`: the character with a code point, if there is one.
-/

namespace Phrasebook.Text

/-- The value of a digit of the given base, in either case. -/
def digit? (base : Nat) (c : Char) : Option Nat :=
  let value? :=
    if c.isDigit then some (c.toNat - '0'.toNat)
    else if 'a' ≤ c ∧ c ≤ 'f' then some (c.toNat - 'a'.toNat + 10)
    else if 'A' ≤ c ∧ c ≤ 'F' then some (c.toNat - 'A'.toNat + 10)
    else none
  value?.filter (· < base)

/-- The number denoted by digit values, the first being the highest. -/
def ofDigits (base : Nat) (digits : List Nat) : Nat :=
  digits.foldl (fun n d => n * base + d) 0

/-- The number written by a non-empty list of digits of the base. -/
def natural? (base : Nat) : List Char → Option Nat
  | [] => none
  | cs => (cs.mapM (digit? base)).map (ofDigits base)

/-- The number written by digits after an optional `+`. -/
def unsigned? (base : Nat) : List Char → Option Nat
  | '+' :: cs => natural? base cs
  | cs => natural? base cs

/-- The character with a code point; surrogates and numbers above U+10FFFF have none. -/
def scalar? (n : Nat) : Option Char :=
  if n.isValidChar then some (Char.ofNat n) else none

end Phrasebook.Text
