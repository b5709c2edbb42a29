/-!
# Decimal texts of binary64 numbers

A binary64 number that is finite and not negative is the fraction `significand * 2 ^ exponent`.
Both texts below are computed from that fraction in natural numbers, so neither inherits an
error of an approximation.

- `Binary64.ofFloat`: the fraction of a `Float`.
- `Binary64.fixed`: the text with a given number of decimals, a half going to the even neighbour.
- `Binary64.shortest`: the text with the fewest digits that reads back as the same number, in
  positional notation with at least one decimal.
-/

namespace Phrasebook

/-- A finite binary64 number that is not negative. -/
structure Binary64 where
  significand : Nat
  exponent : Int
  /-- The next number below is only half as far away as the next number above. -/
  isLowerEdge : Bool
deriving DecidableEq, Repr

namespace Binary64

/-- The number with a given bit pattern, whose sign is ignored. -/
def ofBits (bits : UInt64) : Binary64 :=
  let pattern := bits.toNat
  let fraction : Nat := pattern % Nat.pow 2 52
  let biased : Nat := pattern / Nat.pow 2 52 % Nat.pow 2 11
  if biased = 0 then
    ⟨fraction, -1074, false⟩
  else
    ⟨Nat.pow 2 52 + fraction, (biased : Int) - 1075, fraction = 0 && 1 < biased⟩

/-- The number that a `Float` holds. -/
def ofFloat (x : Float) : Binary64 :=
  ofBits x.toBits

/-- A numerator of the number over `denominator`. -/
def numerator (x : Binary64) : Nat :=
  x.significand * Nat.pow 2 x.exponent.toNat

/-- The power of two under `numerator`. -/
def denominator (x : Binary64) : Nat :=
  Nat.pow 2 (-x.exponent).toNat

/-- The quotient rounded to the nearest integer, a half to the even neighbour. -/
def roundHalfEven (numerator denominator : Nat) : Nat :=
  let quotient := numerator / denominator
  let twice := 2 * (numerator % denominator)
  if twice < denominator then quotient
  else if denominator < twice then quotient + 1
  else if quotient % 2 = 0 then quotient else quotient + 1

/-- The text of `n / 10 ^ places`. -/
def decimalText (n places : Nat) : String :=
  let digits := Nat.toDigits 10 n
  let padded := List.replicate (places + 1 - digits.length) '0' ++ digits
  let whole := padded.take (padded.length - places)
  let decimals := padded.drop (padded.length - places)
  String.ofList (if decimals.isEmpty then whole else whole ++ '.' :: decimals)

/-- The text with `places` decimals. -/
def fixed (places : Nat) (x : Binary64) : String :=
  decimalText (roundHalfEven (x.numerator * Nat.pow 10 places) x.denominator) places

/-- A decimal `digits * 10 ^ -places`, or `digits * 10 ^ trailing` when `places` is 0. -/
structure Decimal where
  digits : Nat
  places : Nat
  trailing : Nat
deriving DecidableEq, Repr

/-- The power of ten of the leading digit of a number that is not zero. -/
def leadingPower (x : Binary64) : Int :=
  let whole := x.numerator / x.denominator
  if whole = 0 then
    let j := ((List.range 330).find? fun j => x.denominator ≤ x.numerator * Nat.pow 10 j).getD 330
    Int.negOfNat j
  else
    (Nat.toDigits 10 whole).length - 1

/-- The nearest multiple of `10 ^ power` among those that read back as the number: one of its
two neighbours on that grid, if at all. The interval of the reals that read back reaches half
way to the next number on either side, ends included if the significand is even. -/
def onGrid? (x : Binary64) (power : Int) : Option Decimal :=
  -- Everything is scaled by four times the denominator and by the grid.
  let up := Nat.pow 10 (-power).toNat
  let down := Nat.pow 10 power.toNat
  let unit := 4 * x.denominator * down
  let value := 4 * x.numerator * up
  let step := Nat.pow 2 x.exponent.toNat * up
  let low := value - (if x.isLowerEdge then step else 2 * step)
  let high := value + 2 * step
  let isInside := fun n : Nat =>
    if x.significand % 2 = 0 then low ≤ n && n ≤ high else low < n && n < high
  let below := value / unit
  let above := below + 1
  let chosen? :=
    match isInside (below * unit) && 0 < below, isInside (above * unit) with
    | true, true =>
      some (if 2 * value < (below + above) * unit then below
        else if (below + above) * unit < 2 * value then above
        else if below % 2 = 0 then below else above)
    | true, false => some below
    | false, true => some above
    | false, false => none
  chosen?.map fun n => ⟨n, (-power).toNat, power.toNat⟩

/-- The decimal with the fewest digits that reads back as the number; seventeen always do. -/
def shortestDecimal (x : Binary64) : Decimal :=
  let first := x.leadingPower
  ((List.range 17).findSome? fun n : Nat => x.onGrid? (first - n)).getD ⟨0, 0, 0⟩

/-- The shortest text that reads back as the number. -/
def shortest (x : Binary64) : String :=
  if x.significand = 0 then "0.0"
  else
    let d := x.shortestDecimal
    let written := decimalText (d.digits * Nat.pow 10 d.trailing) d.places
    if d.places = 0 then written ++ ".0" else written

end Binary64

end Phrasebook
