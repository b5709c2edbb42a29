import Phrasebook.Datum
import Phrasebook.Text.Numeral

/-!
# Numbers, truth values and times in TOML

Settings are texts, so a scalar of another kind is only recognised: a reader here takes the
characters of a scalar off the front and yields what follows, or nothing if there is no valid
scalar. Validity includes the value. An integer has to fit 64 bits, a fraction must not exceed
all numbers of double precision, and a date has to be in the calendar.

- `integer?`, `fraction?`, `truth?`, `moment?`: the kinds.
- `readScalar?`: any of them.
-/

namespace Phrasebook.Toml

open Text

/-! ## Digits -/

/-- A decimal digit. -/
def isDecimal (c : Char) : Bool :=
  (digit? 10 c).isSome

/-- The digits at the front, among which single underscores may stand between two digits. -/
def digitRun (base : Nat) : List Char → List Nat × List Char
  | [] => ([], [])
  | c :: cs =>
    match digit? base c with
    | some d =>
      let (ds, rest) := digitRun base cs
      (d :: ds, rest)
    | none =>
      if c = '_' ∧ (cs.head?.bind (digit? base)).isSome then digitRun base cs
      else ([], c :: cs)

/-- One or more digits that start with a digit. -/
def digits? (base : Nat) (cs : List Char) : Option (List Nat × List Char) :=
  if (cs.head?.bind (digit? base)).isSome then some (digitRun base cs) else none

/-- Decimal digits without a superfluous zero in front. -/
def whole? (cs : List Char) : Option (List Nat × List Char) :=
  match cs with
  | '0' :: rest => some ([0], rest)
  | cs => digits? 10 cs

/-- A number of exactly `n` decimal digits. -/
def fixed? (n : Nat) (cs : List Char) : Option (Nat × List Char) :=
  if (cs.take n).length = n then (natural? 10 (cs.take n)).map (·, cs.drop n) else none

/-- The sign at the front, as whether it is a minus, and what follows it. -/
def sign : List Char → Bool × List Char
  | '-' :: cs => (true, cs)
  | '+' :: cs => (false, cs)
  | cs => (false, cs)

/-! ## Integers -/

/-- The greatest integer; there is one more below zero. -/
def greatestInteger : Nat := Nat.pow 2 63 - 1

/-- An integer in hexadecimal, octal or binary digits. -/
def based? (cs : List Char) : Option (List Char) := do
  let (base, digits) ← match cs with
    | '0' :: 'x' :: rest => some (16, rest)
    | '0' :: 'o' :: rest => some (8, rest)
    | '0' :: 'b' :: rest => some (2, rest)
    | _ => none
  let (digits, rest) ← digits? base digits
  if ofDigits base digits ≤ greatestInteger then some rest else none

/-- An integer in decimal digits with or without a sign. -/
def decimal? (cs : List Char) : Option (List Char) := do
  let (negative, digits) := sign cs
  let (digits, rest) ← whole? digits
  let n := ofDigits 10 digits
  if n ≤ greatestInteger + (if negative then 1 else 0) then some rest else none

/-- An integer. -/
def integer? (cs : List Char) : Option (List Char) :=
  match cs with
  | '0' :: 'x' :: _ | '0' :: 'o' :: _ | '0' :: 'b' :: _ => based? cs
  | _ => decimal? cs

/-! ## Fractions -/

/-- The least number that double precision rounds to infinity. -/
def overflowBound : Nat := Nat.pow 2 1024 - Nat.pow 2 970

/-- The number with the given decimal digits, shifted by `exponent` decimal places, rounds to
infinity. Numbers of a plainly different size are told apart by their number of digits. -/
def overflows (digits : List Nat) (exponent : Int) : Bool :=
  let digits := digits.dropWhile (· == 0)
  let size := (digits.length : Int) + exponent
  if digits.isEmpty || size < 300 then false
  else if 320 < size then true
  else if 0 ≤ exponent then overflowBound ≤ ofDigits 10 digits * Nat.pow 10 exponent.toNat
  else overflowBound * Nat.pow 10 (-exponent).toNat ≤ ofDigits 10 digits

/-- An exponent, if there is one. A mark without digits is no exponent but an error. -/
def exponent? : List Char → Option (Int × List Char)
  | c :: cs =>
    if c = 'e' ∨ c = 'E' then do
      let (negative, digits) := sign cs
      let (digits, rest) ← digits? 10 digits
      let n : Int := ofDigits 10 digits
      some (if negative then -n else n, rest)
    else some (0, c :: cs)
  | [] => some (0, [])

/-- The digits after a decimal point. -/
def places? : List Char → Option (List Nat × List Char)
  | '.' :: cs => digits? 10 cs
  | cs => some ([], cs)

/-- A fraction in digits: a point or an exponent has to be there. -/
def decimalFraction? (cs : List Char) : Option (List Char) := do
  let (negative, cs) := sign cs
  let (units, afterUnits) ← whole? cs
  let (places, afterPlaces) ← places? afterUnits
  let (exponent, rest) ← exponent? afterPlaces
  if rest.length = afterUnits.length then none
  else if !negative && overflows (units ++ places) (exponent - places.length) then none
  else some rest

/-- A fraction that has a name. -/
def namedFraction? (cs : List Char) : Option (List Char) :=
  match (sign cs).2 with
  | 'i' :: 'n' :: 'f' :: rest => some rest
  | 'n' :: 'a' :: 'n' :: rest => some rest
  | _ => none

/-- A fraction. -/
def fraction? (cs : List Char) : Option (List Char) :=
  (decimalFraction? cs).or (namedFraction? cs)

/-! ## Truth values -/

/-- A truth value. -/
def truth? : List Char → Option (List Char)
  | 't' :: 'r' :: 'u' :: 'e' :: rest => some rest
  | 'f' :: 'a' :: 'l' :: 's' :: 'e' :: rest => some rest
  | _ => none

/-! ## Times -/

/-- A given character. -/
def expect? (c : Char) : List Char → Option (List Char)
  | d :: cs => if c = d then some cs else none
  | [] => none

/-- A number of two digits in a range. -/
def two? (least greatest : Nat) (cs : List Char) : Option (Nat × List Char) :=
  (fixed? 2 cs).filter fun found => least ≤ found.1 && found.1 ≤ greatest

/-- A year with a 29th of February. -/
def isLeap (year : Nat) : Bool :=
  year % 4 == 0 && (year % 100 != 0 || year % 400 == 0)

/-- The number of days in a month. -/
def daysIn (year month : Nat) : Nat :=
  if month = 2 then (if isLeap year then 29 else 28)
  else if month = 4 ∨ month = 6 ∨ month = 9 ∨ month = 11 then 30
  else 31

/-- A date, such as 1979-05-27. -/
def date? (cs : List Char) : Option (List Char) := do
  let (year, cs) ← fixed? 4 cs
  let (month, cs) ← two? 1 12 (← expect? '-' cs)
  let (_, cs) ← two? 1 (daysIn year month) (← expect? '-' cs)
  return cs

/-- The fraction of a second at the front, if there is one. -/
def dropSecondFraction (cs : List Char) : List Char :=
  match cs with
  | '.' :: c :: rest => if isDecimal c then rest.dropWhile isDecimal else cs
  | _ => cs

/-- A time of day, such as 07:32:00.5; there may be a leap second. -/
def time? (cs : List Char) : Option (List Char) := do
  let (_, cs) ← two? 0 23 cs
  let (_, cs) ← two? 0 59 (← expect? ':' cs)
  let (_, cs) ← two? 0 60 (← expect? ':' cs)
  return dropSecondFraction cs

/-- A distance from universal time, such as Z or +02:00. -/
def offset? (cs : List Char) : Option (List Char) :=
  match cs with
  | [] => none
  | c :: rest =>
    if c = 'Z' ∨ c = 'z' then some rest
    else if c = '+' ∨ c = '-' then do
      let (_, cs) ← two? 0 23 rest
      let (_, cs) ← two? 0 59 (← expect? ':' cs)
      return cs
    else none

/-- The time of day that follows a date, with its offset, if there is one. -/
def dropTime (cs : List Char) : List Char :=
  match cs with
  | [] => []
  | c :: rest =>
    if c = 'T' ∨ c = 't' ∨ c = ' ' then
      match time? rest with
      | some afterTime => (offset? afterTime).getD afterTime
      | none => cs
    else cs

/-- A date, a time of day, or both. -/
def moment? (cs : List Char) : Option (List Char) :=
  match date? cs with
  | some rest => some (dropTime rest)
  | none => time? cs

/-! ## All kinds -/

/-- What a time says to settings: it has parts, but none that a setting asks for. -/
def momentDatum : Datum :=
  .record [("moment", .other)]

/-- A scalar that is no text, and what follows it. -/
def readScalar? (cs : List Char) : Option (Datum × List Char) :=
  match moment? cs with
  | some rest => some (momentDatum, rest)
  | none => (((fraction? cs).or (integer? cs)).or (truth? cs)).map (.other, ·)

end Phrasebook.Toml
