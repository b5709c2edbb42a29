import Mathlib.Algebra.Group.Int.Defs
import Mathlib.Algebra.Group.Nat.Defs
import Phrasebook.Proofs.Linguist.Hint
import Phrasebook.Proofs.Text.Numeral

/-!
# Line numbers in words

A hint gives its line as it is or relative to the last line on record for its file. Numbers are
written with any number of digits, while a machine reads them into signed words of 64 bits, adds
words, and asks whether the sum fits into 32 bits. This module says that none of these bounds can
be told from the last one, so that lines are those of integers of any size.

- `GivesLine`: the line that a text gives, in integers.
- `Answers`: what becomes of a hint, given the last line on record.
- `lineWord?`: the line that a text gives, computed in words.
- `Trail.handle`, `Trail.handleAll`: hints one after the other, refused ones among them.
- `recorded?`, `Trail.Records`: the invariant. The line on record for a file is the last one that
  was accepted for it, and it has 32 bits.
- `lines_exact`: what becomes of a hint after any others.
-/

namespace Phrasebook.Linguist

open Markup Text

/-! ## What a text gives -/

/-- Decimal digits, at least one. -/
def IsNumeral (digits : List Char) : Prop :=
  digits ≠ [] ∧ ∀ d ∈ digits, d.isDigit = true

/-- The number that decimal digits denote. -/
def numeralValue (digits : List Char) : Nat :=
  Nat.ofDigitChars 10 digits 0

/-- The line that a text gives. A signed number counts from the last line. -/
inductive GivesLine (last : Int) : List Char → Int → Prop
  | absolute {digits : List Char} (numeral : IsNumeral digits) :
      GivesLine last digits (numeralValue digits)
  | ahead {digits : List Char} (numeral : IsNumeral digits) :
      GivesLine last ('+' :: digits) (last + numeralValue digits)
  | behind {digits : List Char} (numeral : IsNumeral digits) :
      GivesLine last ('-' :: digits) (last - numeralValue digits)

/-- What becomes of a hint about a file: a location without a line, one with the line that is
given, or a fault if that is no line number. -/
inductive Answers (last : Int) (file : Option String) (hint : Element) :
    Except Fault Location → Prop
  | unnumbered (missing : hint.attribute? "line" = none) : Answers last file hint (.ok ⟨file, none⟩)
  | accepted {written : String} {n : Nat} (given : hint.attribute? "line" = some written)
      (gives : GivesLine last written.toList n) (bound : n < 2 ^ 32) :
      Answers last file hint (.ok ⟨file, some n⟩)
  | refused {written : String} (given : hint.attribute? "line" = some written)
      (outside : ∀ n, GivesLine last written.toList n → n < 0 ∨ 2 ^ 32 ≤ n) :
      Answers last file hint (.error (.invalidAttribute "location" "line" written hint.position))

theorem natural?_eq_some_iff_isNumeral {cs : List Char} {n : Nat} :
    natural? 10 cs = some n ↔ IsNumeral cs ∧ numeralValue cs = n := by
  rw [natural?_eq_some_iff, IsNumeral, numeralValue, and_assoc]

theorem not_isNumeral_of_sign {c : Char} (sign : c.isDigit = false) (cs : List Char) :
    ¬ IsNumeral (c :: cs) := by
  rintro ⟨-, digits⟩
  rw [digits c List.mem_cons_self] at sign
  cases sign

section GivesLine

variable {last n : Int} {cs : List Char}

theorem givesLine_plus_iff :
    GivesLine last ('+' :: cs) n ↔ ∃ m, natural? 10 cs = some m ∧ last + m = n := by
  simp only [natural?_eq_some_iff_isNumeral]
  constructor
  · intro gives
    cases gives with
    | absolute numeral => exact absurd numeral (not_isNumeral_of_sign rfl cs)
    | ahead numeral => exact ⟨_, ⟨numeral, rfl⟩, rfl⟩
  · rintro ⟨m, ⟨numeral, rfl⟩, rfl⟩
    exact .ahead numeral

theorem givesLine_minus_iff :
    GivesLine last ('-' :: cs) n ↔ ∃ m, natural? 10 cs = some m ∧ last - m = n := by
  simp only [natural?_eq_some_iff_isNumeral]
  constructor
  · intro gives
    cases gives with
    | absolute numeral => exact absurd numeral (not_isNumeral_of_sign rfl cs)
    | behind numeral => exact ⟨_, ⟨numeral, rfl⟩, rfl⟩
  · rintro ⟨m, ⟨numeral, rfl⟩, rfl⟩
    exact .behind numeral

theorem givesLine_unsigned_iff (plus : ∀ digits, cs ≠ '+' :: digits)
    (minus : ∀ digits, cs ≠ '-' :: digits) :
    GivesLine last cs n ↔ ∃ m : Nat, natural? 10 cs = some m ∧ m = n := by
  simp only [natural?_eq_some_iff_isNumeral]
  constructor
  · intro gives
    cases gives with
    | absolute numeral => exact ⟨_, ⟨numeral, rfl⟩, rfl⟩
    | ahead numeral => exact absurd rfl (plus _)
    | behind numeral => exact absurd rfl (minus _)
  · rintro ⟨m, ⟨numeral, rfl⟩, rfl⟩
    exact .absolute numeral

/-- A text gives one line at most. -/
theorem GivesLine.unique {other : Int} (gives : GivesLine last cs n)
    (gives' : GivesLine last cs other) : other = n := by
  cases gives with
  | absolute numeral =>
    cases gives' with
    | absolute => rfl
    | ahead => exact absurd numeral (not_isNumeral_of_sign rfl _)
    | behind => exact absurd numeral (not_isNumeral_of_sign rfl _)
  | ahead numeral =>
    obtain ⟨m, number, rfl⟩ := givesLine_plus_iff.mp gives'
    rw [(natural?_eq_some_iff_isNumeral.mp number).2]
  | behind numeral =>
    obtain ⟨m, number, rfl⟩ := givesLine_minus_iff.mp gives'
    rw [(natural?_eq_some_iff_isNumeral.mp number).2]

end GivesLine

/-- The line that is read is the one that the text gives, unless it lies before the first line. -/
theorem writtenLine?_eq_some_iff {last n : Nat} {cs : List Char} :
    writtenLine? last cs = some n ↔ GivesLine last cs n := by
  unfold writtenLine?
  split
  case h_1 digits =>
    rw [givesLine_plus_iff, Option.map_eq_some_iff]
    exact exists_congr fun m => and_congr_right fun _ => by omega
  case h_2 digits =>
    rw [givesLine_minus_iff, Option.bind_eq_some_iff]
    refine exists_congr fun m => and_congr_right fun _ => ?_
    by_cases behind : m ≤ last
    · rw [if_pos behind, Option.some_inj]
      omega
    · rw [if_neg behind]
      constructor
      · intro impossible
        cases impossible
      · intro same
        omega
  case h_3 plus minus =>
    rw [givesLine_unsigned_iff plus minus]
    simp only [Int.natCast_inj, exists_eq_right]

theorem lineNumber?_eq_some_iff {last n : Nat} {written : String} :
    lineNumber? last written = some n ↔ GivesLine last written.toList n ∧ n < 2 ^ 32 := by
  have bound : lineBound = 2 ^ 32 := rfl
  rw [lineNumber?, Option.filter_eq_some_iff, writtenLine?_eq_some_iff, decide_eq_true_eq, bound]

theorem lineNumber?_eq_none_iff {last : Nat} {written : String} :
    lineNumber? last written = none ↔
      ∀ n, GivesLine last written.toList n → n < 0 ∨ 2 ^ 32 ≤ n := by
  rw [Option.eq_none_iff_forall_ne_some]
  simp only [ne_eq, lineNumber?_eq_some_iff, not_and]
  constructor
  · intro none n gives
    rcases Int.lt_or_le n 0 with below | counted
    · exact .inl below
    · obtain ⟨m, rfl⟩ := Int.eq_ofNat_of_zero_le counted
      have := none m gives
      omega
  · intro outside n gives
    have := outside n gives
    omega

/-! ## In words -/

/-- The word of 64 bits for a number, if it has one. -/
def word? (n : Int) : Option Int64 :=
  if Int64.minValue.toInt ≤ n ∧ n ≤ Int64.maxValue.toInt then some (Int64.ofInt n) else none

/-- The word for a numeral, which may have a sign. -/
def readWord? : List Char → Option Int64
  | '+' :: digits => (natural? 10 digits).bind fun n => word? n
  | '-' :: digits => (natural? 10 digits).bind fun n => word? (-n)
  | digits => (natural? 10 digits).bind fun n => word? n

/-- The sum of two words, if it does not overflow. -/
def addWords? (a b : Int64) : Option Int64 :=
  word? (a.toInt + b.toInt)

/-- The word of 32 bits with the same value, if there is one. -/
def narrow? (a : Int64) : Option UInt32 :=
  if 0 ≤ a.toInt ∧ a.toInt < 2 ^ 32 then some (UInt32.ofNat a.toInt.toNat) else none

/-- The line that a text gives, and the word to record for it. A text with a sign is added to the
word on record. -/
def lineWord? (last : Int64) (written : List Char) : Option (Int64 × UInt32) :=
  let absolute? := match written with
    | '+' :: _ | '-' :: _ => (readWord? written).bind (addWords? last)
    | _ => readWord? written
  absolute?.bind fun absolute => (narrow? absolute).map fun line => (absolute, line)

theorem word?_eq_some_iff {n : Int} {w : Int64} : word? n = some w ↔ w.toInt = n := by
  have low : Int64.minValue.toInt = -2 ^ 63 := rfl
  have high : Int64.maxValue.toInt = 2 ^ 63 - 1 := rfl
  unfold word?
  constructor
  · intro found
    split at found
    · rename_i range
      cases found
      exact Int64.toInt_ofInt_of_le (by omega) (by omega)
    · cases found
  · rintro rfl
    rw [if_pos ⟨Int64.minValue_le_toInt w, Int64.toInt_le w⟩, Int64.ofInt_toInt]

theorem exists_toInt_eq {n : Int} (low : -2 ^ 63 ≤ n) (high : n < 2 ^ 63) :
    ∃ w : Int64, w.toInt = n :=
  ⟨Int64.ofInt n, Int64.toInt_ofInt_of_le low high⟩

theorem narrow?_eq_some_iff {a : Int64} {line : UInt32} :
    narrow? a = some line ↔ a.toInt = line.toNat := by
  have bound := line.toNat_lt
  unfold narrow?
  constructor
  · intro found
    split at found
    · cases found
      rw [UInt32.toNat_ofNat']
      omega
    · cases found
  · intro same
    rw [if_pos (by omega), same, Int.toNat_natCast, UInt32.ofNat_toNat]

theorem readWord?_unsigned {cs : List Char} (plus : ∀ digits, cs ≠ '+' :: digits)
    (minus : ∀ digits, cs ≠ '-' :: digits) :
    readWord? cs = (natural? 10 cs).bind fun n => word? n := by
  unfold readWord?
  split
  · exact absurd rfl (plus _)
  · exact absurd rfl (minus _)
  · rfl

/-- **Words lose nothing.** The line that is computed in words is the one that the text gives. -/
theorem lineWord?_eq_some_iff {last absolute : Int64} (nonneg : 0 ≤ last.toInt) {cs : List Char}
    {line : UInt32} :
    lineWord? last cs = some (absolute, line) ↔
      GivesLine last.toInt cs absolute.toInt ∧ absolute.toInt = line.toNat := by
  have bound := line.toNat_lt
  unfold lineWord?
  split
  case h_1 digits =>
    simp only [readWord?, addWords?, Option.bind_eq_some_iff, Option.map_eq_some_iff,
      word?_eq_some_iff, narrow?_eq_some_iff, givesLine_plus_iff, Prod.mk.injEq]
    constructor
    · rintro ⟨sum, ⟨delta, ⟨m, number, word⟩, sumWord⟩, small, narrowed, rfl, rfl⟩
      exact ⟨⟨m, number, by omega⟩, narrowed⟩
    · rintro ⟨⟨m, number, sum⟩, narrowed⟩
      -- a distance that no word holds leads beyond the last line
      obtain ⟨delta, word⟩ := exists_toInt_eq (n := m) (by omega) (by omega)
      exact ⟨absolute, ⟨delta, ⟨m, number, word⟩, by omega⟩, line, narrowed, rfl, rfl⟩
  case h_2 digits =>
    simp only [readWord?, addWords?, Option.bind_eq_some_iff, Option.map_eq_some_iff,
      word?_eq_some_iff, narrow?_eq_some_iff, givesLine_minus_iff, Prod.mk.injEq]
    constructor
    · rintro ⟨sum, ⟨delta, ⟨m, number, word⟩, sumWord⟩, small, narrowed, rfl, rfl⟩
      exact ⟨⟨m, number, by omega⟩, narrowed⟩
    · rintro ⟨⟨m, number, sum⟩, narrowed⟩
      have lastWord := last.toInt_lt
      obtain ⟨delta, word⟩ := exists_toInt_eq (n := -m) (by omega) (by omega)
      exact ⟨absolute, ⟨delta, ⟨m, number, word⟩, by omega⟩, line, narrowed, rfl, rfl⟩
  case h_3 plus minus =>
    rw [givesLine_unsigned_iff plus minus]
    simp only [readWord?_unsigned plus minus, Option.bind_eq_some_iff, Option.map_eq_some_iff,
      word?_eq_some_iff, narrow?_eq_some_iff, Prod.mk.injEq]
    constructor
    · rintro ⟨word, ⟨m, number, same⟩, small, narrowed, rfl, rfl⟩
      exact ⟨⟨m, number, same.symm⟩, narrowed⟩
    · rintro ⟨⟨m, number, same⟩, narrowed⟩
      exact ⟨absolute, ⟨m, number, same.symm⟩, line, narrowed, rfl, rfl⟩

/-- A distance that no word holds leads to a line that 32 bits do not hold. -/
example : lineWord? 4294967295 "-9223372036854775809".toList = none := by decide

/-- A line on record is held in a word, and the next one is computed from it without loss. -/
theorem lineWord?_eq {last : Nat} (bound : last < 2 ^ 32) (written : String) :
    lineWord? (Int64.ofNat last) written.toList
      = (lineNumber? last written).map fun n => (Int64.ofNat n, UInt32.ofNat n) := by
  have toInt_ofNat {n : Nat} (small : n < 2 ^ 32) : (Int64.ofNat n).toInt = n :=
    Int64.toInt_ofNat_of_lt (by omega)
  have held := toInt_ofNat bound
  ext ⟨absolute, line⟩
  rw [lineWord?_eq_some_iff (by omega), held, Option.map_eq_some_iff]
  simp only [lineNumber?_eq_some_iff, Prod.mk.injEq]
  constructor
  · rintro ⟨gives, narrowed⟩
    have small := line.toNat_lt
    rw [narrowed] at gives
    refine ⟨line.toNat, ⟨gives, small⟩, ?_, UInt32.ofNat_toNat⟩
    rw [← Int64.toInt_inj, toInt_ofNat small, narrowed]
  · rintro ⟨n, ⟨gives, small⟩, rfl, rfl⟩
    rw [toInt_ofNat small, UInt32.toNat_ofNat_of_lt' small]
    exact ⟨gives, rfl⟩

/-! ## One hint after the other -/

namespace Trail

/-- What becomes of a hint, and the trail after it. A hint that is refused has named its file. -/
def handle (t : Trail) (hint : Element) : Except Fault Location × Trail :=
  match t.follow hint with
  | .ok (location, after) => (.ok location, after)
  | .error fault => (.error fault, t.nameFile hint)

/-- What becomes of hints, one after the other, and the trail after them. -/
def handleAll : Trail → List Element → List (Except Fault Location) × Trail
  | t, [] => ([], t)
  | t, hint :: hints =>
    let (answer, after) := t.handle hint
    let (answers, last) := after.handleAll hints
    (answer :: answers, last)

end Trail

/-- The line that an answer puts on record for a file. -/
def acceptedFor? (name : String) : Except Fault Location → Option Nat
  | .ok place => if place.file.getD "" = name then place.line else none
  | .error _ => none

/-- The line on record for a file, the last one accepted for it. -/
def recorded? (answers : List (Except Fault Location)) (name : String) : Option Nat :=
  answers.reverse.findSome? (acceptedFor? name)

theorem recorded?_snoc (answers : List (Except Fault Location)) (answer : Except Fault Location)
    (name : String) :
    recorded? (answers ++ [answer]) name
      = (acceptedFor? name answer).or (recorded? answers name) := by
  unfold recorded?
  rw [List.reverse_append, List.reverse_singleton, List.singleton_append, List.findSome?_cons]
  cases acceptedFor? name answer <;> rfl

theorem Answers.unique {last : Int} {file : Option String} {hint : Element}
    {answer other : Except Fault Location} (h : Answers last file hint answer)
    (h' : Answers last file hint other) : other = answer := by
  cases h with
  | unnumbered missing =>
    cases h' with
    | unnumbered => rfl
    | accepted given => cases missing.symm.trans given
    | refused given => cases missing.symm.trans given
  | accepted given gives bound =>
    cases h' with
    | unnumbered missing => cases missing.symm.trans given
    | accepted given' gives' =>
      cases given.symm.trans given'
      rw [Int.ofNat.inj (gives.unique gives')]
    | refused given' outside =>
      cases given.symm.trans given'
      have := outside _ gives
      omega
  | refused given outside =>
    cases h' with
    | unnumbered missing => cases missing.symm.trans given
    | accepted given' gives bound =>
      cases given.symm.trans given'
      have := outside _ gives
      omega
    | refused given' =>
      cases given.symm.trans given'
      rfl

namespace Trail

variable (t : Trail) (hint : Element)

theorem lines_nameFile : (t.nameFile hint).lines = t.lines := by
  unfold nameFile
  split <;> rfl

/-- What a hint does: it names its file, it gets the answer that is due, and a line that is
accepted is recorded. -/
theorem handle_spec :
    Answers (t.nameFile hint).lastLine (t.nameFile hint).file hint (t.handle hint).1 ∧
    (t.handle hint).2.file = (t.nameFile hint).file ∧
    ∀ name, (t.handle hint).2.lines[name]?
      = (acceptedFor? name (t.handle hint).1).or t.lines[name]? := by
  have kept := t.lines_nameFile hint
  cases given : hint.attribute? "line" with
  | none =>
    have step : t.handle hint = (.ok ⟨(t.nameFile hint).file, none⟩, t.nameFile hint) := by
      simp only [handle, follow, given]
    rw [step]
    refine ⟨.unnumbered given, rfl, fun name => ?_⟩
    simp [acceptedFor?, kept]
  | some written =>
    cases number : lineNumber? (t.nameFile hint).lastLine written with
    | none =>
      have step : t.handle hint = (.error (.invalidAttribute "location" "line" written
          hint.position), t.nameFile hint) := by
        simp only [handle, follow, given, number]
      rw [step]
      refine ⟨.refused given (lineNumber?_eq_none_iff.mp number), rfl, fun name => ?_⟩
      simp [acceptedFor?, kept]
    | some n =>
      have step : t.handle hint = (.ok ⟨(t.nameFile hint).file, some n⟩,
          { t.nameFile hint with
            lines := (t.nameFile hint).lines.insert (t.nameFile hint).fileKey n }) := by
        simp only [handle, follow, given, number]
      rw [step]
      obtain ⟨gives, bound⟩ := lineNumber?_eq_some_iff.mp number
      refine ⟨.accepted given gives bound, rfl, fun name => ?_⟩
      show ((t.nameFile hint).lines.insert (t.nameFile hint).fileKey n)[name]? = _
      rw [Std.HashMap.getElem?_insert, kept]
      unfold acceptedFor? fileKey
      by_cases same : (t.nameFile hint).file.getD "" = name <;> simp [same]

/-- The lines on record are the last ones accepted, and all of them have 32 bits. -/
structure Records (t : Trail) (answers : List (Except Fault Location)) : Prop where
  lines : ∀ name, t.lines[name]? = recorded? answers name
  bound : ∀ (name : String) (n : Nat), t.lines[name]? = some n → n < 2 ^ 32

theorem records_start : start.Records [] where
  lines _ := Std.HashMap.getElem?_empty
  bound name n found := by
    rw [show start.lines[name]? = none from Std.HashMap.getElem?_empty] at found
    cases found

variable {t} {answers : List (Except Fault Location)}

/-- Every hint keeps the invariant. -/
theorem Records.handle (h : t.Records answers) (hint : Element) :
    (t.handle hint).2.Records (answers ++ [(t.handle hint).1]) := by
  obtain ⟨due, -, lines⟩ := t.handle_spec hint
  refine { lines := fun name => ?_, bound := fun name n found => ?_ }
  · rw [lines, h.lines, recorded?_snoc]
  · rw [lines, Option.or_eq_some_iff] at found
    rcases found with new | ⟨-, old⟩
    · generalize (t.handle hint).1 = answer at due new
      cases due with
      | accepted given gives bound =>
        simp only [acceptedFor?, Option.ite_none_right_eq_some, Option.some_inj] at new
        omega
      | unnumbered => simp [acceptedFor?] at new
      | refused => simp [acceptedFor?] at new
    · exact h.bound name n old

/-- Hints keep the invariant. -/
theorem Records.handleAll (h : t.Records answers) (hints : List Element) :
    (t.handleAll hints).2.Records (answers ++ (t.handleAll hints).1) := by
  induction hints generalizing t answers with
  | nil =>
    show t.Records (answers ++ [])
    rw [List.append_nil]
    exact h
  | cons hint hints ih =>
    have rest := ih (h.handle hint)
    rw [List.append_assoc] at rest
    exact rest

/-- A walk over hints ends at the first one that is refused. -/
theorem followAll_eq (t : Trail) (hints : List Element) :
    (t.followAll hints).map Prod.fst = (t.handleAll hints).1.mapM id := by
  induction hints generalizing t with
  | nil => rfl
  | cons hint hints ih =>
    unfold followAll handleAll handle
    rw [List.mapM_cons]
    cases t.follow hint with
    | error fault => rfl
    | ok step =>
      obtain ⟨location, after⟩ := step
      show _ = (do
        let locations ← (after.handleAll hints).1.mapM id
        return location :: locations)
      rw [← ih after]
      show (after.followAll hints >>= fun later => pure (location :: later.1, later.2)).map _ = _
      cases after.followAll hints <;> rfl

end Trail

/-- **Lines are those of integers.** After any hints, refused ones among them, what becomes of
another one follows from its text and the last line accepted for its file, in integers of any
size: digits give a line, digits behind a sign a distance from the last line, and the hint is
refused if there are no such digits or if the line does not fit into 32 bits. A line that is
accepted goes on record for the file, and nothing else changes what is on record. All of it has
32 bits, so that the next line is the same when it is computed in words. A walk over the hints
gives these answers, up to the first one that is refused. -/
theorem lines_exact (hints : List Element) (hint : Element) :
    let answers := (Trail.start.handleAll hints).1
    let t := (Trail.start.handleAll hints).2
    let file := (t.nameFile hint).file
    let last := (recorded? answers (file.getD "")).getD 0
    let answer := (t.handle hint).1
    let after := (t.handle hint).2
    (∀ other, answer = other ↔ Answers last file hint other) ∧
    (∀ name, after.lines[name]? = (acceptedFor? name answer).or t.lines[name]?) ∧
    (∀ name, t.lines[name]? = recorded? answers name) ∧
    (∀ (name : String) (n : Nat), t.lines[name]? = some n → n < 2 ^ 32) ∧
    (∀ written, lineWord? (Int64.ofNat last) written.toList
      = (lineNumber? last written).map fun n => (Int64.ofNat n, UInt32.ofNat n)) ∧
    (Trail.start.followAll hints).map Prod.fst = answers.mapM id := by
  intro answers t file last answer after
  have records : t.Records answers := Trail.records_start.handleAll hints
  obtain ⟨due, -, lines⟩ := t.handle_spec hint
  have recorded : (t.nameFile hint).lastLine = last := by
    rw [Trail.lastLine, Trail.lines_nameFile, records.lines]
    rfl
  rw [recorded] at due
  have bound : last < 2 ^ 32 := by
    show (recorded? answers (file.getD "")).getD 0 < 2 ^ 32
    cases found : recorded? answers (file.getD "") with
    | none => decide
    | some n => exact records.bound _ n (by rw [records.lines, found])
  refine ⟨?_, lines, records.lines, records.bound, lineWord?_eq bound,
    Trail.followAll_eq _ hints⟩
  intro other
  constructor
  · rintro rfl
    exact due
  · intro due'
    exact due'.unique due

end Phrasebook.Linguist
