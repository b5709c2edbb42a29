import Phrasebook.Storage.Pathname

/-!
# Names at the end of paths

A path to something in a directory is made by joining the directory's path and a name, and taken
apart again by asking for its last name. These are inverse to each other whatever the path of the
directory looks like: empty, ending in slashes or in names that lead nowhere, absolute or not.

- `Proper`: a name that something in a directory can have.
- `text_join`: joining puts the name at the end, behind a slash unless it is all there is.
- `fileName?_join`: it is the last name of the joined path.
- `stem?_join`: what is left of it without its extension.
-/

namespace Phrasebook.Storage

/-- A name that something in a directory can have: it has no slash, it is not empty, and it is
neither `.` nor `..`. -/
structure Proper (name : List Char) : Prop where
  plain : '/' ∉ name
  leads : Pathname.isIdle name = false
  forward : name ≠ ['.', '.']

namespace Pathname

/-- A name at the end stays where idle names are dropped there. -/
theorem dropIdle_cons {name : List Char} (leads : isIdle name = false) (rest : List (List Char)) :
    dropIdle (name :: rest) = name :: rest := by
  cases rest with
  | nil =>
    have nonempty : name.isEmpty = false := by
      cases name with
      | nil => cases leads
      | cons c name => rfl
    rw [dropIdle, nonempty]
    rfl
  | cons first rest =>
    rw [dropIdle, leads]
    · rfl
    · simp

/-- A name that follows others, or that a relative path consists of, is the last one. -/
theorem fileName?_of_names {p : Pathname} {front : List (List Char)} {name : List Char}
    (proper : Proper name) (names : p.names = front ++ [name])
    (alone : front = [] → p.isAbsolute = false) :
    p.fileName? = some (String.ofList name) := by
  have last : ∃ rest, p.reverseNames = name :: rest := by
    unfold reverseNames
    rw [names, List.reverse_append]
    cases absolute : p.isAbsolute with
    | false => exact ⟨front.reverse, dropIdle_cons proper.leads _⟩
    | true =>
      cases front with
      | nil => exact absurd (alone rfl) (by simp [absolute])
      | cons first front => exact ⟨front.reverse, by simp [proper.leads]⟩
  obtain ⟨rest, reversed⟩ := last
  have shown : ¬ (name = ['.'] ∨ name = ['.', '.']) := by
    rintro (rfl | rfl)
    · exact absurd proper.leads (by decide)
    · exact proper.forward rfl
  unfold fileName?
  rw [reversed]
  exact if_neg shown

theorem isAbsolute_of_noSlash {p : Pathname} (plain : '/' ∉ p.text.toList) :
    p.isAbsolute = false := by
  unfold isAbsolute
  apply beq_eq_false_iff_ne.mpr
  intro first
  exact plain (List.mem_of_head? first)

/-- The text of a joined path is a name, or it ends in a slash and the name. -/
theorem text_join (directory : Pathname) {name : String} (plain : '/' ∉ name.toList) :
    (directory.join ⟨name⟩).text = name ∨
      ∃ front, (directory.join ⟨name⟩).text.toList = front ++ '/' :: name.toList := by
  have relative : isAbsolute ⟨name⟩ = false := isAbsolute_of_noSlash plain
  unfold join
  rw [relative]
  dsimp only
  by_cases bare : directory.text.isEmpty = true
  · left
    have nothing : directory.text = "" := String.isEmpty_iff.mp bare
    simp [nothing]
  · by_cases closed : directory.text.toList.getLast? = some '/'
    · right
      obtain ⟨front, ends⟩ := List.getLast?_eq_some_iff.mp closed
      exact ⟨front, by simp [ends]⟩
    · right
      exact ⟨directory.text.toList, by simp [bare, closed]⟩

/-- **The last name of a joined path is the name that was joined.** -/
theorem fileName?_join (directory : Pathname) {name : String} (proper : Proper name.toList) :
    (directory.join ⟨name⟩).fileName? = some name := by
  have whole : name.toList.splitOn '/' = [name.toList] :=
    List.splitOn_eq_singleton proper.plain
  suffices (directory.join ⟨name⟩).fileName? = some (String.ofList name.toList) by
    rw [this, String.ofList_toList]
  rcases directory.text_join proper.plain with text | ⟨front, text⟩
  · have names : (directory.join ⟨name⟩).names = [] ++ [name.toList] := by
      rw [Pathname.names, text, whole, List.nil_append]
    have relative : (directory.join ⟨name⟩).isAbsolute = false := by
      apply isAbsolute_of_noSlash
      rw [text]
      exact proper.plain
    exact fileName?_of_names proper names fun _ => relative
  · have names : (directory.join ⟨name⟩).names
        = front.splitOn '/' ++ [name.toList] := by
      rw [Pathname.names, text, List.splitOn_append_cons_self, whole]
    exact fileName?_of_names proper names fun none => absurd none (List.splitOn_ne_nil _ _)

/-! ## Extensions -/

/-- The extension begins at the last dot, unless nothing is before it. -/
theorem stemOf_append {stem extension : List Char} (nonempty : stem ≠ [])
    (plain : '.' ∉ extension) : stemOf (stem ++ '.' :: extension) = stem := by
  have cutOff : (stem ++ '.' :: extension).reverse.dropWhile (· != '.')
      = '.' :: stem.reverse := by
    have passed : ∀ c ∈ extension.reverse, (c != '.') = true := by
      intro c hc
      apply bne_iff_ne.mpr
      rintro rfl
      exact plain (List.mem_reverse.mp hc)
    rw [List.reverse_append, List.reverse_cons, List.append_assoc,
      List.dropWhile_append_of_pos passed]
    rfl
  unfold stemOf
  rw [cutOff]
  split
  · rename_i none
    cases none
  · rename_i alone
    exact absurd (List.reverse_eq_nil_iff.mp (List.cons.inj alone).2) nonempty
  · rename_i same
    rw [← (List.cons.inj same).2, List.reverse_reverse]

/-- **What is left of a joined name** without its extension. -/
theorem stem?_join (directory : Pathname) {name : String} {stem extension : List Char}
    (proper : Proper name.toList) (nonempty : stem ≠ []) (plain : '.' ∉ extension)
    (split : name.toList = stem ++ '.' :: extension) :
    (directory.join ⟨name⟩).stem? = some (String.ofList stem) := by
  rw [stem?, fileName?_join directory proper, Option.map_some, split, stemOf_append nonempty plain]

end Pathname

/-! ## Order -/

instance : Std.TransOrd Pathname where
  eq_swap {p q} := by
    show compare p.text q.text = (compare q.text p.text).swap
    exact Std.OrientedCmp.eq_swap
  isLE_trans {p q r} hpq hqr := by
    show (compare p.text r.text).isLE = true
    exact Std.TransCmp.isLE_trans hpq hqr

instance : Std.LawfulEqOrd Pathname where
  compare_self {p} := by
    show compare p.text p.text = .eq
    exact Std.ReflCmp.compare_self
  eq_of_compare {p q} same := by
    cases p
    cases q
    exact congrArg Pathname.mk (Std.LawfulEqOrd.eq_of_compare same)

end Phrasebook.Storage
