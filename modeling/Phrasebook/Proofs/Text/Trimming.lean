import Mathlib.Data.List.TakeWhile
import Phrasebook.Proofs.Text.Letter
import Phrasebook.Text.Blank

/-!
# Trimmed texts and their pieces

A text is trimmed by walking in from both ends. This module says what the result is without the
walks, and what joining and cutting have to do with each other where there are several separators.

- `trimBlanks_around`, `exists_around_trimBlanks`: a trimmed text is what has blanks around it and
  none at its own ends.
- `splitOnP_intercalate`: cutting undoes joining.
-/

namespace Phrasebook.Text

/-! ## Blanks around a text -/

theorem isBlank_of_isAlphanum {c : Char} (alphanum : c.isAlphanum = true) : isBlank c = false := by
  rw [Char.isAlphanum, Bool.or_eq_true, isAlpha_iff, isDigit_iff] at alphanum
  rw [Bool.eq_false_iff]
  intro blank
  simp only [isBlank, Bool.or_eq_true, Bool.and_eq_true, decide_eq_true_eq, beq_iff_eq] at blank
  omega

theorem head?_dropWhile {α : Type} {p : α → Bool} {cs : List α} {c : α}
    (head : (cs.dropWhile p).head? = some c) : p c = false := by
  have stops := List.head?_dropWhile_not p cs
  rw [head] at stops
  exact stops

/-- What begins and ends with no blank is left when the blanks around it are dropped. -/
theorem trimBlanks_around {front cs back : List Char}
    (blank : ∀ c ∈ front ++ back, isBlank c = true)
    (first : ∀ c, cs.head? = some c → isBlank c = false)
    (last : ∀ c, cs.getLast? = some c → isBlank c = false) :
    trimBlanks (front ++ cs ++ back) = cs := by
  obtain ⟨before, behind⟩ := List.forall_mem_append.mp blank
  have behind' : ∀ c ∈ back.reverse, isBlank c = true :=
    fun c mem => behind c (List.mem_reverse.mp mem)
  show (((front ++ cs ++ back).dropWhile isBlank).reverse.dropWhile isBlank).reverse = cs
  rw [List.append_assoc, List.dropWhile_append_of_pos before]
  cases cs with
  | nil =>
    rw [List.nil_append, List.dropWhile_eq_nil_iff.mpr behind]
    rfl
  | cons c cs =>
    have opened : (c :: cs ++ back).dropWhile isBlank = c :: cs ++ back :=
      List.dropWhile_cons_of_neg (by rw [first c rfl]; exact Bool.false_ne_true)
    have closed : (c :: cs).reverse.dropWhile isBlank = (c :: cs).reverse := by
      refine List.dropWhile_eq_self_iff.mpr fun nonempty => ?_
      have final : (c :: cs).getLast? = some (c :: cs).reverse[0] := by
        rw [← List.head?_reverse, List.head?_eq_getElem?, List.getElem?_eq_getElem nonempty]
      rw [last _ final]
      exact Bool.false_ne_true
    rw [opened, List.reverse_append, List.dropWhile_append_of_pos behind', closed,
      List.reverse_reverse]

/-- Dropping the blanks at both ends leaves a text that has blanks around it in the whole text and
none at its own ends. -/
theorem exists_around_trimBlanks (cs : List Char) :
    (∃ front back, cs = front ++ trimBlanks cs ++ back ∧ ∀ c ∈ front ++ back, isBlank c = true) ∧
    (∀ c, (trimBlanks cs).head? = some c → isBlank c = false) ∧
    (∀ c, (trimBlanks cs).getLast? = some c → isBlank c = false) := by
  have blank : ∀ {ds : List Char}, ∀ c ∈ ds.takeWhile isBlank, isBlank c = true :=
    fun {ds} => List.all_eq_true.mp List.all_takeWhile
  have opened : cs = cs.takeWhile isBlank ++ cs.dropWhile isBlank :=
    List.takeWhile_append_dropWhile.symm
  have closed : cs.dropWhile isBlank
      = trimBlanks cs ++ ((cs.dropWhile isBlank).reverse.takeWhile isBlank).reverse := by
    rw [trimBlanks, ← List.reverse_append, List.takeWhile_append_dropWhile, List.reverse_reverse]
  refine ⟨⟨cs.takeWhile isBlank, ((cs.dropWhile isBlank).reverse.takeWhile isBlank).reverse,
    ?_, ?_⟩, ?_, ?_⟩
  · rw [List.append_assoc, ← closed, ← opened]
  · refine List.forall_mem_append.mpr ⟨blank, fun c mem => ?_⟩
    exact blank c (List.mem_reverse.mp mem)
  · intro c head
    -- the trimmed text begins where the walk from the front has stopped
    have first : (cs.dropWhile isBlank).head? = some c := by
      rw [closed, List.head?_append, head]
      rfl
    exact head?_dropWhile first
  · intro c last
    rw [trimBlanks, List.getLast?_reverse] at last
    exact head?_dropWhile last

/-! ## Pieces -/

variable {α : Type}

/-- A text from its first piece on. -/
theorem intercalate_cons (separator : α) (p : List α) (ps : List (List α)) :
    [separator].intercalate (p :: ps) = p ++ ps.flatMap fun q => separator :: q := by
  induction ps generalizing p with
  | nil => rw [List.intercalate_singleton, List.flatMap_nil, List.append_nil]
  | cons q ps ih => simp [List.intercalate_cons_cons, ih q]

/-- Cutting at any separator undoes joining with one of them, if no piece contains one. -/
theorem splitOnP_intercalate {isSeparator : α → Bool} {separator : α}
    (separates : isSeparator separator = true) {ps : List (List α)} (nonempty : ps ≠ [])
    (plain : ∀ p ∈ ps, ∀ c ∈ p, isSeparator c = false) :
    ([separator].intercalate ps).splitOnP isSeparator = ps := by
  induction ps with
  | nil => exact absurd rfl nonempty
  | cons p ps ih =>
    obtain ⟨first, others⟩ := List.forall_mem_cons.mp plain
    cases ps with
    | nil => rw [List.intercalate_singleton, List.splitOnP_eq_singleton first]
    | cons q ps =>
      rw [List.intercalate_cons_cons, List.append_assoc, List.singleton_append,
        List.splitOnP_append_cons_of_forall_mem first separator separates,
        ih (List.cons_ne_nil q ps) others]

end Phrasebook.Text
