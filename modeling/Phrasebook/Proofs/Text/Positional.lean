import Mathlib.Data.List.Induction
import Phrasebook.Proofs.Text.Numeral

/-!
# Numerals of any base

A numeral denotes a number by the places of its digits. Letters among the digits may be of either
case, and zeros may stand in front, so a number has many numerals. This module says what numerals
there are in two ways, and that both are what is read.

- `IsDigitFor`: the digits of a base, which has sixteen of them at most.
- `Denotes`, `DenotesUnsigned`: the number of a numeral, by the place of each digit.
- `Spells`: the numerals of a number, from its shortest one.
- `denotes_iff_spells`: these are the same.
- `natural?_eq_some_iff_denotes`, `unsigned?_eq_some_iff`: the numerals that are read.
-/

namespace Phrasebook.Text

/-- The character is the digit for a value, in either case. -/
def IsDigitFor (base : Nat) (c : Char) (value : Nat) : Prop :=
  value < base ∧ c.toLower = Nat.digitChar value

/-- The number that digits denote. There is at least one of them, and the first one has the
highest place. -/
inductive Denotes (base : Nat) : List Char → Nat → Prop
  | digit {c : Char} {value : Nat} (last : IsDigitFor base c value) : Denotes base [c] value
  | snoc {cs : List Char} {n : Nat} {c : Char} {value : Nat} (front : Denotes base cs n)
      (last : IsDigitFor base c value) : Denotes base (cs ++ [c]) (n * base + value)

/-- The same with or without a `+` in front. -/
inductive DenotesUnsigned (base : Nat) : List Char → Nat → Prop
  | bare {cs : List Char} {n : Nat} (number : Denotes base cs n) : DenotesUnsigned base cs n
  | plus {cs : List Char} {n : Nat} (number : Denotes base cs n) :
      DenotesUnsigned base ('+' :: cs) n

/-- The characters are the digits of a number behind any number of zeros, in either case. -/
def Spells (base n : Nat) (cs : List Char) : Prop :=
  ∃ zeros, cs.map Char.toLower = List.replicate zeros '0' ++ Nat.toDigits base n

variable {base n value : Nat} {c : Char} {cs : List Char}

/-! ## Two ways to say it -/

theorem Denotes.ne_nil (number : Denotes base cs n) : cs ≠ [] := by
  cases number with
  | digit => exact List.cons_ne_nil _ _
  | snoc => exact List.append_ne_nil_of_right_ne_nil _ (List.cons_ne_nil _ _)

/-- A zero in front changes nothing. -/
theorem Denotes.zero_cons (number : Denotes base cs n) (positive : 0 < base)
    (zero : c.toLower = '0') : Denotes base (c :: cs) n := by
  have front : Denotes base [c] 0 := .digit ⟨positive, zero⟩
  induction number with
  | digit last => simpa using front.snoc last
  | snoc _ last ih => exact ih.snoc last

/-- The shortest numeral denotes its number. -/
theorem denotes_of_toDigits (large : 1 < base) (same : cs.map Char.toLower = Nat.toDigits base n) :
    Denotes base cs n := by
  induction n using Nat.strongRecOn generalizing cs with
  | ind n ih =>
    by_cases single : n < base
    · rw [Nat.toDigits_of_lt_base single] at same
      obtain ⟨c, rfl, lower⟩ := List.map_eq_singleton_iff.mp same
      exact .digit ⟨single, lower⟩
    · -- the last digit is the remainder, and the ones before it are those of the quotient
      have positive : 0 < n / base := Nat.div_pos (Nat.le_of_not_lt single) (by omega)
      have remainder : n % base < base := Nat.mod_lt n (by omega)
      have digits := Nat.toDigits_append_toDigits large positive remainder
      rw [Nat.div_add_mod, Nat.toDigits_of_lt_base remainder] at digits
      rw [← digits] at same
      obtain ⟨front, last, rfl, quotient, rest⟩ := List.map_eq_append_iff.mp same
      obtain ⟨c, rfl, lower⟩ := List.map_eq_singleton_iff.mp rest
      have whole : n / base * base + n % base = n := Nat.div_add_mod' n base
      rw [← whole]
      exact (ih (n / base) (Nat.div_lt_self (by omega) large) quotient).snoc ⟨remainder, lower⟩

/-- **The numerals of a number** are those that denote it by the places of their digits. -/
theorem denotes_iff_spells (large : 1 < base) : Denotes base cs n ↔ Spells base n cs := by
  constructor
  · intro number
    induction number with
    | digit last => exact ⟨0, by simp [last.2, Nat.toDigits_of_lt_base last.1]⟩
    | @snoc cs n c value _ last ih =>
      obtain ⟨zeros, same⟩ := ih
      rw [Spells, List.map_append, same, List.map_singleton, last.2,
        ← Nat.toDigits_of_lt_base last.1]
      by_cases none_before : n = 0
      · -- what stood for nothing is one more zero in front
        subst none_before
        refine ⟨zeros + 1, ?_⟩
        rw [Nat.zero_mul, Nat.zero_add, List.replicate_succ', Nat.toDigits_zero]
      · refine ⟨zeros, ?_⟩
        rw [List.append_assoc, Nat.toDigits_append_toDigits large (Nat.pos_of_ne_zero none_before)
          last.1, Nat.mul_comm]
  · rintro ⟨zeros, same⟩
    induction zeros generalizing cs with
    | zero => exact denotes_of_toDigits large same
    | succ zeros ih =>
      rw [List.replicate_succ, List.cons_append] at same
      obtain ⟨c, rest, rfl, zero, same⟩ := List.map_eq_cons_iff.mp same
      exact (ih same).zero_cons (by omega) zero

/-- The digits of a number are lower case. -/
theorem map_toLower_toDigits (large : 1 < base) (small : base ≤ 16) (n : Nat) :
    (Nat.toDigits base n).map Char.toLower = Nat.toDigits base n := by
  have lower : ∀ value < 16, (Nat.digitChar value).toLower = Nat.digitChar value := by decide
  induction n using Nat.strongRecOn with
  | ind n ih =>
    by_cases single : n < base
    · rw [Nat.toDigits_of_lt_base single, List.map_singleton, lower n (by omega)]
    · have positive : 0 < n / base := Nat.div_pos (Nat.le_of_not_lt single) (by omega)
      have remainder : n % base < base := Nat.mod_lt n (by omega)
      have digits := Nat.toDigits_append_toDigits large positive remainder
      rw [Nat.div_add_mod, Nat.toDigits_of_lt_base remainder] at digits
      rw [← digits, List.map_append, ih (n / base) (Nat.div_lt_self (by omega) large),
        List.map_singleton, lower _ (by omega)]

/-! ## What is read -/

theorem toNat_digitChar (small : value < 16) :
    (Nat.digitChar value).toNat = if value < 10 then 48 + value else 87 + value := by
  revert value
  decide

theorem digit?_eq_some_iff (small : base ≤ 16) :
    digit? base c = some value ↔ IsDigitFor base c value := by
  have lower := toNat_toLower c
  have same_iff (known : value < 16) :
      c.toLower = Nat.digitChar value ↔
        c.toLower.toNat = if value < 10 then 48 + value else 87 + value := by
    rw [← toNat_digitChar known, Char.toNat_inj]
  have letter (first last : Char) :
      (first ≤ c ∧ c ≤ last) ↔ first.toNat ≤ c.toNat ∧ c.toNat ≤ last.toNat := by
    simp [Char.le_def, UInt32.le_iff_toNat_le]
  have ranges : 'a'.toNat = 97 ∧ 'f'.toNat = 102 ∧ 'A'.toNat = 65 ∧ 'F'.toNat = 70 ∧
      '0'.toNat = 48 := ⟨rfl, rfl, rfl, rfl, rfl⟩
  obtain ⟨a, f, upperA, upperF, zero⟩ := ranges
  unfold digit? IsDigitFor
  simp only [Option.filter_eq_some_iff, decide_eq_true_eq, letter, isDigit_iff, a, f, upperA,
    upperF, zero]
  constructor
  · rintro ⟨found, below⟩
    refine ⟨below, (same_iff (by omega)).mpr ?_⟩
    rw [lower]
    repeat' split at found
    all_goals cases found
    all_goals split <;> split <;> omega
  · rintro ⟨below, same⟩
    rw [same_iff (by omega), lower] at same
    refine ⟨?_, below⟩
    repeat' split
    all_goals split at same <;> split at same <;>
      simp only [Option.some_inj, reduceCtorEq] <;> omega

theorem natural?_singleton : natural? base [c] = digit? base c := by
  show ([c].mapM (digit? base)).map (ofDigits base) = digit? base c
  rw [List.mapM_cons]
  cases digit? base c with
  | none => rfl
  | some value => simp [ofDigits]

/-- One more digit moves those before it up by one place. -/
theorem natural?_snoc (nonempty : cs ≠ []) :
    natural? base (cs ++ [c])
      = (natural? base cs).bind fun n => (digit? base c).map fun value => n * base + value := by
  have opened : ∀ {ds : List Char}, ds ≠ [] →
      natural? base ds = (ds.mapM (digit? base)).map (ofDigits base) := by
    intro ds nonempty
    cases ds with
    | nil => exact absurd rfl nonempty
    | cons d ds => rfl
  rw [opened nonempty, opened (List.append_ne_nil_of_left_ne_nil nonempty _), List.mapM_append,
    List.mapM_cons, List.mapM_nil]
  cases cs.mapM (digit? base) with
  | none => rfl
  | some values =>
    cases digit? base c with
    | none => rfl
    | some value => simp [ofDigits]

/-- **The number that is read** is the one that the digits denote. -/
theorem natural?_eq_some_iff_denotes (small : base ≤ 16) :
    natural? base cs = some n ↔ Denotes base cs n := by
  constructor
  · intro read
    induction cs using List.reverseRecOn generalizing n with
    | nil => cases read
    | append_singleton cs c ih =>
      by_cases alone : cs = []
      · subst alone
        rw [List.nil_append, natural?_singleton] at read
        exact .digit ((digit?_eq_some_iff small).mp read)
      · rw [natural?_snoc alone, Option.bind_eq_some_iff] at read
        obtain ⟨m, front, read⟩ := read
        obtain ⟨value, last, rfl⟩ := Option.map_eq_some_iff.mp read
        exact (ih front).snoc ((digit?_eq_some_iff small).mp last)
  · intro number
    induction number with
    | digit last => rw [natural?_singleton, (digit?_eq_some_iff small).mpr last]
    | snoc front last ih =>
      rw [natural?_snoc front.ne_nil, ih, (digit?_eq_some_iff small).mpr last]
      rfl

/-- A `+` is not a digit. -/
theorem not_denotes_plus (small : base ≤ 16) : ¬ Denotes base ('+' :: cs) n := by
  have other : digit? base '+' = none := by simp [digit?]
  rw [← natural?_eq_some_iff_denotes small, natural?_eq_none other]
  exact Option.some_ne_none n ∘ Eq.symm

/-- A number may be read behind a `+`. -/
theorem unsigned?_eq_some_iff (small : base ≤ 16) :
    unsigned? base cs = some n ↔ DenotesUnsigned base cs n := by
  unfold unsigned?
  constructor
  · intro read
    split at read
    case h_1 => exact .plus ((natural?_eq_some_iff_denotes small).mp read)
    case h_2 => exact .bare ((natural?_eq_some_iff_denotes small).mp read)
  · intro number
    cases number with
    | bare number =>
      split
      case h_1 => exact absurd number (not_denotes_plus small)
      case h_2 => exact (natural?_eq_some_iff_denotes small).mpr number
    | plus number => exact (natural?_eq_some_iff_denotes small).mpr number

theorem scalar?_eq_some_iff : scalar? n = some c ↔ c.toNat = n := by
  constructor
  · intro found
    rw [scalar?, Option.ite_none_right_eq_some] at found
    obtain ⟨valid, same⟩ := found
    cases same
    rw [Char.ofNat, dif_pos valid]
    rfl
  · rintro rfl
    exact scalar?_toNat c

end Phrasebook.Text
