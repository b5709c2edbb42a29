import Phrasebook.Proofs.Report.Clean

/-!
# Translations that are shown

A report gives the share of finished translations as the share of messages that are shown
translated. It takes the finished entries from the list of all entries and makes no lookups, so
it also counts those that an earlier entry with their key hides. This module says by how much the
count is too high.

- `isShownAt`, `shownCount`: the entries whose translations users see.
- `countP_usable`: an entry with a usable translation is shown, or it is hidden.
- `finished_eq_shownCount_add`: the finished entries that a report counts.
- `finished_counts_hidden`: a message that is translated twice, and shown once.
-/

namespace Phrasebook

open Phrasebook.Locale

/-- There is a translation to be shown. -/
def Entry.isUsable (e : Entry) : Bool :=
  e.usable?.isSome

theorem Entry.isUsable_iff (e : Entry) :
    e.isUsable = true ↔ e.status = .finished ∧ e.translation ≠ "" := by
  simp [isUsable, usable?]

theorem Entry.isLive_of_isUsable {e : Entry} (usable : e.isUsable = true) : e.isLive = true := by
  unfold isLive
  rw [(e.isUsable_iff.mp usable).1]
  rfl

namespace Catalog

/-- The entry at a position is in use, a lookup of its key leads there, and its translation is
usable. -/
def isShownAt (c : Catalog) (e : Entry) (position : Nat) : Bool :=
  e.isLive && c.position? e.key == some position && e.isUsable

/-- The number of entries that are shown by their own translation. -/
def shownCount (c : Catalog) : Nat :=
  c.entries.toList.zipIdx.countP fun entry => c.isShownAt entry.1 entry.2

/-- The same for a list of entries, which is scanned for each key. -/
def isShownAmong (all : List Entry) (entry : Entry × Nat) : Bool :=
  entry.1.isLive && all.findIdx? (Entry.isLiveFor entry.1.key) == some entry.2 && entry.1.isUsable

/-- An entry is shown in its own place if it is usable and not hidden. -/
theorem isShownAmong_own_place (earlier es : List Entry) (e : Entry) :
    isShownAmong (earlier ++ e :: es) (e, earlier.length)
      = (e.isUsable && !isHiddenBehind earlier e) := by
  unfold isShownAmong
  cases usable : e.isUsable with
  | false => rw [Bool.and_false, Bool.false_and]
  | true =>
    have live := Entry.isLive_of_isUsable usable
    rw [live, Bool.true_and, Bool.true_and, Bool.and_true, Bool.eq_iff_iff, beq_iff_eq,
      findIdx?_own_key_iff earlier es live, Bool.not_eq_true']

/-- **An entry with a usable translation** is shown, or it is hidden. -/
theorem countP_usable (earlier es : List Entry) :
    es.countP Entry.isUsable
      = (es.zipIdx earlier.length).countP (isShownAmong (earlier ++ es))
        + (hiddenAfter earlier es).countP Entry.isUsable := by
  induction es generalizing earlier with
  | nil => rfl
  | cons e es ih =>
    have tail := ih (earlier ++ [e])
    rw [List.length_append, List.length_singleton, List.append_assoc, List.singleton_append] at tail
    rw [List.zipIdx_cons, List.countP_cons, List.countP_cons, tail, hiddenAfter, List.countP_append,
      isShownAmong_own_place]
    cases usable : e.isUsable <;> cases hidden : isHiddenBehind earlier e <;> simp [usable] <;> omega

/-- What the index says of an entry is what a scan says. -/
theorem shownCount_ofEdits (language : Tag) (edits : List Edit) :
    (ofEdits language edits).shownCount
      = (pushed edits).zipIdx.countP (isShownAmong (pushed edits)) := by
  unfold shownCount
  rw [entries_ofEdits]
  congr 1
  funext entry
  unfold isShownAt isShownAmong
  rw [position?_ofEdits]

/-- An entry that is shown is found by its key, and its translation is what users see. -/
theorem resolve_of_isShownAt {c : Catalog} {e : Entry} {position : Nat}
    (here : c.entries[position]? = some e) (shown : c.isShownAt e position = true) :
    c.lookup? e.context e.source = some e ∧ c.resolve e.context e.source = e.translation := by
  unfold isShownAt at shown
  simp only [Bool.and_eq_true, beq_iff_eq] at shown
  obtain ⟨⟨-, own⟩, usable⟩ := shown
  have found : c.lookup? e.context e.source = some e := by
    show (c.position? e.key).bind _ = _
    rw [own, Option.bind_some, here]
  refine ⟨found, ?_⟩
  unfold resolve Entry.usable?
  rw [found, Option.bind_some, if_pos (e.isUsable_iff.mp usable), Option.getD_some]

theorem finished_eq (c : Catalog) :
    (Report.ofCatalog c).stats.finished = c.entries.toList.countP Entry.isUsable := by
  show c.entries.countP _ = _
  rw [← Array.countP_toList]
  refine List.countP_congr fun e _ => ?_
  rw [decide_eq_true_iff, Entry.isUsable_iff]

end Catalog

namespace Report

/-- **A report counts what is shown and what is hidden.** -/
theorem finished_eq_shownCount_add (language : Tag) (edits : List Catalog.Edit) :
    let c := Catalog.ofEdits language edits
    let hidden := Catalog.hiddenAfter [] (Catalog.pushed edits)
    (ofCatalog c).stats.finished = c.shownCount + hidden.countP Entry.isUsable ∧
    ((ofCatalog c).stats.finished = c.shownCount ↔ ∀ e ∈ hidden, e.usable? = none) ∧
    ∀ (position : Nat) (e : Entry), c.entries[position]? = some e →
      c.isShownAt e position = true →
        c.lookup? e.context e.source = some e ∧ c.resolve e.context e.source = e.translation := by
  intro c hidden
  have counted : (ofCatalog c).stats.finished = c.shownCount + hidden.countP Entry.isUsable := by
    rw [Catalog.finished_eq, Catalog.entries_ofEdits, Catalog.shownCount_ofEdits]
    exact Catalog.countP_usable [] (Catalog.pushed edits)
  refine ⟨counted, ?_, fun _ _ => Catalog.resolve_of_isShownAt⟩
  rw [counted, Nat.add_eq_left, List.countP_eq_zero]
  simp [Entry.isUsable]

/-- **A message that is translated twice** counts twice, and only its first translation is
shown. -/
theorem finished_counts_hidden :
    let first : Entry :=
      { context := "Menu", source := "Open", translation := "Otvori", status := .finished }
    let second : Entry := { first with translation := "Otvaranje" }
    let c := Catalog.ofEdits Tag.source [.push first, .push second]
    (ofCatalog c).stats.finished = 2 ∧ c.shownCount = 1 := by
  intro first second c
  rw [Catalog.finished_eq, Catalog.entries_ofEdits, Catalog.shownCount_ofEdits]
  decide

end Report

end Phrasebook
