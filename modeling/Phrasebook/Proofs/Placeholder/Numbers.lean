import Mathlib.Data.Finset.Sort
import Phrasebook.Proofs.Placeholder.Dependence

/-!
# The argument numbers of a text

A text refers to a set of arguments, and they are listed in ascending order. Two texts are
compared by these lists, which is the same as comparing the sets.

- `numbers`: the set.
- `indices_eq_sort`: the list is the set in ascending order.
- `IsFilledIn`: an argument shows in the filled text, as another one in its place would show
  another text. `isFilledIn_iff`: these are the arguments that the text has the numbers of.
-/

namespace Phrasebook.Placeholder

/-- The argument numbers that the placeholders of a text have. -/
def numbers (text : String) : Finset Nat :=
  ((scan text.toList).map Placeholder.index).toFinset

theorem mem_numbers (text : String) (i : Nat) : i ∈ numbers text ↔ i ∈ indices text := by
  rw [numbers, List.mem_toFinset, List.mem_map, mem_indices]

theorem insertIndex_ascending (n : Nat) {ns : List Nat} (ascending : ns.Pairwise (· < ·)) :
    (insertIndex n ns).Pairwise (· < ·) := by
  induction ns with
  | nil => exact List.pairwise_singleton _ n
  | cons m ms ih =>
    obtain ⟨least, rest⟩ := List.pairwise_cons.mp ascending
    unfold insertIndex
    by_cases below : n < m
    · rw [if_pos below, List.pairwise_cons]
      refine ⟨?_, ascending⟩
      intro i mem
      rcases List.mem_cons.mp mem with rfl | mem
      · exact below
      · exact Nat.lt_trans below (least i mem)
    · by_cases known : n = m
      · rw [if_neg below, if_pos known]
        exact ascending
      · rw [if_neg below, if_neg known, List.pairwise_cons]
        refine ⟨?_, ih rest⟩
        intro i mem
        rcases (mem_insertIndex n i ms).mp mem with rfl | mem
        · omega
        · exact least i mem

theorem indices_ascending (text : String) : (indices text).Pairwise (· < ·) := by
  unfold indices
  induction scan text.toList with
  | nil => exact List.Pairwise.nil
  | cons p ps ih => exact insertIndex_ascending p.index ih

/-- **The numbers are listed in ascending order**, each once. -/
theorem indices_eq_sort (text : String) : indices text = (numbers text).sort (· ≤ ·) := by
  have same : numbers text = (indices text).toFinset := by
    ext i
    rw [mem_numbers, List.mem_toFinset]
  have ascending := indices_ascending text
  rw [same]
  exact ((List.toFinset_sort _ (ascending.imp Nat.ne_of_lt)).mpr (ascending.imp Nat.le_of_lt)).symm

/-- Two texts refer to the same arguments when they have the same list of numbers. -/
theorem indices_eq_iff (text other : String) :
    indices text = indices other ↔ numbers text = numbers other := by
  constructor
  · intro same
    ext i
    rw [mem_numbers, mem_numbers, same]
  · intro same
    rw [indices_eq_sort, indices_eq_sort, same]

/-- The argument at a position shows in the filled text: with another one there the text would
be another one. -/
def IsFilledIn (text : String) (arguments : List String) (k : Nat) : Prop :=
  ∃ other, fill text (arguments.set k other) ≠ fill text arguments

/-- **The arguments that show** are those that exist and that the text has the numbers of. -/
theorem isFilledIn_iff (text : String) (arguments : List String) (k : Nat) :
    IsFilledIn text arguments k ↔ k < arguments.length ∧ k + 1 ∈ numbers text := by
  have agree : ∀ other, AgreeExcept k (arguments.set k other) arguments :=
    fun other j away => List.getElem?_set_ne (Ne.symm away)
  unfold IsFilledIn
  simp only [ne_eq, fill_eq_iff List.length_set (agree _), Classical.not_imp, mem_numbers]
  constructor
  · rintro ⟨other, mem, differ⟩
    refine ⟨Nat.lt_of_not_le fun beyond => differ ?_, mem⟩
    rw [List.set_eq_of_length_le beyond]
  · rintro ⟨given, mem⟩
    -- any text but the argument itself will do, such as a longer one
    refine ⟨arguments[k] ++ "x", mem, ?_⟩
    rw [List.getElem?_set_self given, List.getElem?_eq_getElem given, Option.some_inj]
    intro same
    have lengths := congrArg String.length same
    simp at lengths

end Phrasebook.Placeholder
