import Phrasebook.Placeholder

/-!
# Which arguments a text depends on

A translation is held against its message by the argument numbers that both refer to. That is
worth something only if those numbers say which arguments can be seen in the filled text, and
this module shows that they do.

- `mem_indices`, `pos_of_mem_indices`: the numbers of a text are those of its placeholders, and
  they count from 1.
- `AgreeExcept`: two lists of arguments that differ in one place at most.
- `fillFrom_congr`: arguments that no placeholder asks for make no difference.
- `fillFrom_length_balance`, `eq_of_fillFrom_eq`: an argument that a placeholder asks for does.
  Values of two lengths show in the length of the filled text, values of one length show at the
  first place where they stand.
- `fill_depends_on_indices`: both together, for a text and for its translation.
-/

namespace Phrasebook.Placeholder

/-! ## The numbers of a text -/

theorem mem_insertIndex (n i : Nat) (ns : List Nat) : i ∈ insertIndex n ns ↔ i = n ∨ i ∈ ns := by
  induction ns with
  | nil => simp [insertIndex]
  | cons m ms ih =>
    unfold insertIndex
    by_cases below : n < m
    · rw [if_pos below, List.mem_cons]
    · by_cases known : n = m
      · rw [if_neg below, if_pos known, known, List.mem_cons]
        simp
      · rw [if_neg below, if_neg known, List.mem_cons, ih, List.mem_cons]
        exact or_left_comm

theorem mem_indices (text : String) (i : Nat) :
    i ∈ indices text ↔ ∃ p ∈ scan text.toList, p.index = i := by
  unfold indices
  induction scan text.toList with
  | nil => simp
  | cons p ps ih =>
    rw [List.foldr_cons, mem_insertIndex, ih]
    simp [eq_comm]

theorem index_ne_zero {skipped place : Nat} {cs : List Char} {p : Placeholder}
    (mem : p ∈ scanFrom skipped place cs) : p.index ≠ 0 := by
  induction cs generalizing skipped place with
  | nil => cases mem
  | cons c cs ih =>
    cases skipped with
    | succ skipped => exact ih mem
    | zero =>
      unfold scanFrom at mem
      by_cases opens : c = '%' ∧ number (leadingDigits cs) ≠ 0
      · simp only [if_pos opens] at mem
        rcases List.mem_cons.mp mem with rfl | mem
        · exact opens.2
        · exact ih mem
      · simp only [if_neg opens] at mem
        exact ih mem

theorem pos_of_mem_indices {text : String} {i : Nat} (mem : i ∈ indices text) : 0 < i := by
  obtain ⟨p, found, rfl⟩ := (mem_indices text i).mp mem
  exact Nat.pos_of_ne_zero (index_ne_zero found)

/-! ## Arguments that are not asked for -/

/-- Filling looks at nothing but the arguments that the placeholders ask for. -/
theorem fillFrom_congr {a b : List (List Char)} {ps : List Placeholder}
    (agree : ∀ p ∈ ps, a[p.index - 1]? = b[p.index - 1]?) (copied : Nat) (rest : List Char) :
    fillFrom a copied rest ps = fillFrom b copied rest ps := by
  induction ps generalizing copied rest with
  | nil => rfl
  | cons p ps ih =>
    have tail := ih fun q mem => agree q (List.mem_cons_of_mem p mem)
    unfold fillFrom
    rw [agree p List.mem_cons_self]
    cases b[p.index - 1]? with
    | none => exact tail copied rest
    | some argument => simp only [tail]

/-! ## Arguments that are asked for -/

/-- The two lists hold the same arguments, except perhaps at one position. -/
def AgreeExcept {α : Type} (k : Nat) (a b : List α) : Prop :=
  ∀ j, j ≠ k → a[j]? = b[j]?

theorem AgreeExcept.map {α β : Type} {k : Nat} {a b : List α} (h : AgreeExcept k a b)
    (f : α → β) : AgreeExcept k (a.map f) (b.map f) := by
  intro j away
  rw [List.getElem?_map, List.getElem?_map, h j away]

/-- The number of placeholders that ask for the argument at a position. -/
def uses (k : Nat) (ps : List Placeholder) : Nat :=
  ps.countP fun p => p.index - 1 = k

theorem uses_cons (k : Nat) (p : Placeholder) (ps : List Placeholder) :
    uses k (p :: ps) = uses k ps + if p.index - 1 = k then 1 else 0 := by
  unfold uses
  rw [List.countP_cons]
  simp

section OneArgument

variable {k : Nat} {a b : List (List Char)} {x y : List Char}

/-- Each use of the argument adds its length, and nothing else tells the two texts apart. -/
theorem fillFrom_length_balance (agree : AgreeExcept k a b) (ha : a[k]? = some x)
    (hb : b[k]? = some y) (ps : List Placeholder) (copied : Nat) (rest : List Char) :
    (fillFrom a copied rest ps).length + uses k ps * y.length
      = (fillFrom b copied rest ps).length + uses k ps * x.length := by
  induction ps generalizing copied rest with
  | nil => simp [fillFrom, uses]
  | cons p ps ih =>
    rw [uses_cons]
    unfold fillFrom
    by_cases at_k : p.index - 1 = k
    · have tail := ih p.stop (rest.drop (p.stop - copied))
      rw [at_k, ha, hb, if_pos rfl, Nat.add_mul, Nat.add_mul]
      simp only [List.length_append, Nat.one_mul]
      omega
    · rw [agree _ at_k, if_neg at_k, Nat.add_zero]
      cases b[p.index - 1]? with
      | none => exact ih copied rest
      | some argument =>
        have tail := ih p.stop (rest.drop (p.stop - copied))
        simp only [List.length_append]
        omega

/-- Two values of one length are compared where the first of them stands. -/
theorem eq_of_fillFrom_eq (agree : AgreeExcept k a b) (ha : a[k]? = some x)
    (hb : b[k]? = some y) (length : x.length = y.length) (ps : List Placeholder)
    (used : 0 < uses k ps) (copied : Nat) (rest : List Char)
    (same : fillFrom a copied rest ps = fillFrom b copied rest ps) : x = y := by
  induction ps generalizing copied rest with
  | nil => exact absurd used (by simp [uses])
  | cons p ps ih =>
    unfold fillFrom at same
    by_cases at_k : p.index - 1 = k
    · rw [at_k, ha, hb] at same
      simp only [List.append_assoc] at same
      exact (List.append_inj (List.append_cancel_left same) length).1
    · have later : 0 < uses k ps := by
        rw [uses_cons, if_neg at_k] at used
        exact used
      rw [agree _ at_k] at same
      cases asked : b[p.index - 1]? with
      | none =>
        rw [asked] at same
        exact ih later copied rest same
      | some argument =>
        rw [asked] at same
        exact ih later _ _ (List.append_cancel_left same)

/-- The filled text tells two values of an argument apart if a placeholder asks for it. -/
theorem fillFrom_ne (agree : AgreeExcept k a b) (ha : a[k]? = some x) (hb : b[k]? = some y)
    (differ : x ≠ y) {ps : List Placeholder} (used : 0 < uses k ps) (copied : Nat)
    (rest : List Char) : fillFrom a copied rest ps ≠ fillFrom b copied rest ps := by
  intro same
  apply differ
  apply eq_of_fillFrom_eq agree ha hb ?_ ps used copied rest same
  -- equal texts have equal lengths, and then so have the two values
  have balance := fillFrom_length_balance agree ha hb ps copied rest
  rw [same] at balance
  exact (Nat.eq_of_mul_eq_mul_left used (Nat.add_left_cancel balance)).symm

end OneArgument

/-! ## Texts -/

variable {text : String} {a b : List String}

theorem fill_congr (length : a.length = b.length)
    (agree : ∀ i ∈ indices text, i ≤ a.length → a[i - 1]? = b[i - 1]?) :
    fill text a = fill text b := by
  unfold fill fillChars
  congr 1
  apply fillFrom_congr
  intro p mem
  rw [List.getElem?_map, List.getElem?_map]
  congr 1
  by_cases given : p.index ≤ a.length
  · exact agree p.index ((mem_indices text p.index).mpr ⟨p, mem, rfl⟩) given
  · -- neither list has an argument there
    rw [List.getElem?_eq_none (by omega), List.getElem?_eq_none (by omega)]

theorem fill_ne (length : a.length = b.length) {i : Nat} (mem : i ∈ indices text)
    (differ : a[i - 1]? ≠ b[i - 1]?) (agree : AgreeExcept (i - 1) a b) :
    fill text a ≠ fill text b := by
  have given : i - 1 < a.length := by
    apply Nat.lt_of_not_le
    intro beyond
    apply differ
    rw [List.getElem?_eq_none beyond, List.getElem?_eq_none (length ▸ beyond)]
  have ha := List.getElem?_eq_getElem given
  have hb := List.getElem?_eq_getElem (length ▸ given : i - 1 < b.length)
  have values : a[i - 1].toList ≠ b[i - 1].toList := by
    intro same
    apply differ
    rw [ha, hb, String.toList_injective same]
  have used : 0 < uses (i - 1) (scan text.toList) := by
    obtain ⟨p, found, index⟩ := (mem_indices text i).mp mem
    exact List.countP_pos_iff.mpr ⟨p, found, decide_eq_true (by rw [index])⟩
  intro same
  unfold fill fillChars at same
  refine fillFrom_ne (agree.map String.toList) ?_ ?_ values used 0 text.toList
    (String.ofList_injective same)
  · rw [List.getElem?_map, ha]
    rfl
  · rw [List.getElem?_map, hb]
    rfl

/-- Of two lists that differ at one position, the filled text tells which one it was exactly if
the text refers to that position and the arguments there differ. -/
theorem fill_eq_iff (length : a.length = b.length) {k : Nat} (agree : AgreeExcept k a b) :
    fill text a = fill text b ↔ (k + 1 ∈ indices text → a[k]? = b[k]?) := by
  constructor
  · intro same mem
    by_cases here : a[k]? = b[k]?
    · exact here
    · exact absurd same (fill_ne length mem here agree)
  · intro asked
    apply fill_congr length
    intro i mem _
    have counted := pos_of_mem_indices mem
    by_cases at_k : i - 1 = k
    · rw [at_k]
      apply asked
      rwa [← at_k, Nat.sub_add_cancel counted]
    · exact agree (i - 1) at_k

/-- **The numbers of a text are the arguments that it depends on.** Lists of one length that
agree where the text refers to them give the same text, and a difference in one argument that it
refers to can be seen. So a message and a translation with the same numbers show a change of an
argument both or not at all. -/
theorem fill_depends_on_indices (text : String) (a b : List String)
    (length : a.length = b.length) :
    ((∀ i ∈ indices text, i ≤ a.length → a[i - 1]? = b[i - 1]?) →
      fill text a = fill text b) ∧
    (∀ i ∈ indices text, a[i - 1]? ≠ b[i - 1]? → AgreeExcept (i - 1) a b →
      fill text a ≠ fill text b) ∧
    (∀ translation, indices translation = indices text → ∀ k, AgreeExcept k a b →
      (fill text a = fill text b ↔ fill translation a = fill translation b)) := by
  refine ⟨fill_congr length, fun i mem => fill_ne length mem, ?_⟩
  intro translation sameIndices k agree
  rw [fill_eq_iff length agree, fill_eq_iff length agree, sameIndices]

/-- An argument that is used twice, with values of two lengths. -/
theorem fill_depends_on_indices_swapped :
    ["a", "b"].length = ["a", "bb"].length ∧ 2 ∈ indices "%2%1%2" ∧
    fill "%2%1%2" ["a", "b"] ≠ fill "%2%1%2" ["a", "bb"] := by
  have agree : AgreeExcept 1 ["a", "b"] ["a", "bb"] := by
    intro j away
    match j with
    | 0 => rfl
    | 1 => exact absurd rfl away
    | j + 2 => rfl
  have mem : 2 ∈ indices "%2%1%2" := by decide
  exact ⟨rfl, mem, (fill_depends_on_indices "%2%1%2" ["a", "b"] ["a", "bb"] rfl).2.1 2 mem
    (by decide) agree⟩

end Phrasebook.Placeholder
