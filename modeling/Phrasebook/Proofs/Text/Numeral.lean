import Phrasebook.Proofs.Text.Letter
import Phrasebook.Text.Numeral

/-!
# Numerals and characters by number

- `isAlphanum_of_natural?`: a numeral has letters and digits only.
- `natural?_eq_some_iff`: a decimal numeral has digits only, and every list of digits is one.
- `natural?_toString`: a number is read back from its decimal numeral.
- `unsigned?_of_natural?`: a sign is optional.
- `scalar?_toNat`: a character is found by its code point.
-/

namespace Phrasebook.Text

variable {base n : Nat} {c : Char} {cs : List Char}

theorem isAlphanum_of_digit? (digit : digit? base c = some n) : c.isAlphanum = true := by
  have letter (least : 65 ≤ c.toNat ∧ c.toNat ≤ 70 ∨ 97 ≤ c.toNat ∧ c.toNat ≤ 102) :
      c.isAlphanum = true := by
    have : c.isAlpha = true := (isAlpha_iff c).mpr (by omega)
    simp [Char.isAlphanum, this]
  by_cases decimal : c.isDigit = true
  · simp [Char.isAlphanum, decimal]
  by_cases lower : 'a' ≤ c ∧ c ≤ 'f'
  · exact letter (.inr (by simpa [Char.le_def, UInt32.le_iff_toNat_le] using lower))
  by_cases upper : 'A' ≤ c ∧ c ≤ 'F'
  · exact letter (.inl (by simpa [Char.le_def, UInt32.le_iff_toNat_le] using upper))
  · simp [digit?, decimal, lower, upper] at digit

theorem natural?_eq_none (other : digit? base c = none) : natural? base (c :: cs) = none := by
  simp [natural?, List.mapM_cons, other]

/-- A numeral has letters and digits only. -/
theorem isAlphanum_of_natural? (number : natural? base cs = some n) :
    ∀ d ∈ cs, d.isAlphanum = true := by
  have digits : ∀ {cs : List Char} {values : List Nat}, cs.mapM (digit? base) = some values →
      ∀ d ∈ cs, d.isAlphanum = true := by
    intro cs
    induction cs with
    | nil => nofun
    | cons c cs ih =>
      intro values read d mem
      simp only [List.mapM_cons, Option.bind_eq_bind, Option.bind_eq_some_iff] at read
      obtain ⟨value, digit, values, rest, -⟩ := read
      rcases List.mem_cons.mp mem with rfl | mem
      · exact isAlphanum_of_digit? digit
      · exact ih rest d mem
  cases cs with
  | nil => nofun
  | cons c cs =>
    unfold natural? at number
    obtain ⟨values, read, -⟩ := Option.map_eq_some_iff.mp number
    exact digits read

theorem digit?_of_isDigit (digit : c.isDigit = true) :
    digit? 10 c = some (c.toNat - '0'.toNat) := by
  have range := (isDigit_iff c).mp digit
  have zero : '0'.toNat = 48 := rfl
  rw [digit?, if_pos digit]
  simp only [Option.filter_some, decide_eq_true_eq]
  rw [if_pos (by omega)]

theorem mapM_digit?_of_isDigit (digits : ∀ d ∈ cs, d.isDigit = true) :
    cs.mapM (digit? 10) = some (cs.map fun d => d.toNat - '0'.toNat) := by
  induction cs with
  | nil => rfl
  | cons c cs ih =>
    obtain ⟨first, rest⟩ := List.forall_mem_cons.mp digits
    rw [List.mapM_cons, digit?_of_isDigit first, ih rest]
    rfl

theorem ofDigits_map (cs : List Char) :
    ofDigits 10 (cs.map fun d => d.toNat - '0'.toNat) = Nat.ofDigitChars 10 cs 0 := by
  rw [ofDigits, Nat.ofDigitChars_eq_foldl, List.foldl_map]
  congr 1
  funext n d
  rw [Nat.mul_comm]

theorem isDigit_of_digit? (digit : digit? 10 c = some n) : c.isDigit = true := by
  by_cases decimal : c.isDigit = true
  · exact decimal
  · -- a letter counts from ten on
    unfold digit? at digit
    rw [if_neg decimal] at digit
    split at digit
    · simp at digit
      omega
    · split at digit <;> simp at digit
      omega

theorem isDigit_of_mapM_digit? {values : List Nat} (read : cs.mapM (digit? 10) = some values) :
    ∀ d ∈ cs, d.isDigit = true := by
  induction cs generalizing values with
  | nil => nofun
  | cons c cs ih =>
    simp only [List.mapM_cons, Option.bind_eq_bind, Option.bind_eq_some_iff] at read
    obtain ⟨value, digit, others, rest, -⟩ := read
    exact List.forall_mem_cons.mpr ⟨isDigit_of_digit? digit, ih rest⟩

/-- What counts as a decimal numeral, and the number that it denotes. -/
theorem natural?_eq_some_iff :
    natural? 10 cs = some n ↔
      cs ≠ [] ∧ (∀ d ∈ cs, d.isDigit = true) ∧ Nat.ofDigitChars 10 cs 0 = n := by
  cases cs with
  | nil => simp [natural?]
  | cons c cs =>
    show ((c :: cs).mapM (digit? 10)).map (ofDigits 10) = some n ↔ _
    constructor
    · intro number
      obtain ⟨values, read, -⟩ := Option.map_eq_some_iff.mp number
      have digits := isDigit_of_mapM_digit? read
      rw [mapM_digit?_of_isDigit digits, Option.map_some, ofDigits_map, Option.some_inj] at number
      exact ⟨List.cons_ne_nil c cs, digits, number⟩
    · rintro ⟨-, digits, number⟩
      rw [mapM_digit?_of_isDigit digits, Option.map_some, ofDigits_map, number]

/-- A number is read back from its decimal numeral. -/
theorem natural?_toString (n : Nat) : natural? 10 (toString n).toList = some n := by
  have digits : ∀ d ∈ Nat.toDigits 10 n, d.isDigit = true :=
    fun d mem => Nat.isDigit_of_mem_toDigits (by decide) (by decide) mem
  rw [Nat.toString_eq_ofList_toDigits, String.toList_ofList]
  have read := mapM_digit?_of_isDigit digits
  cases spelled : Nat.toDigits 10 n with
  | nil => exact absurd spelled Nat.toDigits_ne_nil
  | cons c cs =>
    rw [spelled] at read
    show ((c :: cs).mapM (digit? 10)).map (ofDigits 10) = some n
    rw [read, Option.map_some, ofDigits_map, ← spelled,
      Nat.ofDigitChars_toDigits (by decide) (by decide)]

/-- A sign is optional. -/
theorem unsigned?_of_natural? (number : natural? base cs = some n) :
    unsigned? base cs = some n := by
  unfold unsigned?
  split
  case h_1 cs =>
    have sign : digit? base '+' = none := by
      simp [digit?]
    rw [natural?_eq_none sign] at number
    cases number
  case h_2 => exact number

/-- A character is found by its code point. -/
theorem scalar?_toNat (c : Char) : scalar? c.toNat = some c := by
  have valid : c.toNat.isValidChar := c.valid
  rw [scalar?, if_pos valid, Char.ofNat_toNat]

end Phrasebook.Text
