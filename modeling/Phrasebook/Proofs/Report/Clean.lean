import Phrasebook.Proofs.Catalog.Duplicate
import Phrasebook.Proofs.Placeholder.Numbers
import Phrasebook.Report

/-!
# What a clean report promises

A report looks at the duplicates that were set down and at the placeholders of each entry. It
makes no lookups. This module says what a clean report means for those who do make them.

- `AllFound`: every entry in use is the one that a lookup of its key finds.
  `duplicateKeys_isEmpty_iff`: this is so when there are no duplicates.
- `Entry.isGarbled`: a translation that is shown asks for other arguments than its message.
  `placeholderMismatches_eq`: these entries are listed.
- `isClean_exact`: a report is clean when everything is found and nothing is garbled, and then
  translations are shown as they stand, with the arguments of their messages.
-/

namespace Phrasebook

open Phrasebook.Locale

/-- The translation is shown, and its argument numbers are not those of the message. -/
def Entry.isGarbled (e : Entry) : Bool :=
  e.usable?.any fun translation =>
    decide (Placeholder.numbers translation ≠ Placeholder.numbers e.source)

theorem Entry.usable?_eq_some_iff (e : Entry) (translation : String) :
    e.usable? = some translation ↔
      e.status = .finished ∧ e.translation ≠ "" ∧ e.translation = translation := by
  unfold usable?
  split
  · rename_i shown
    rw [Option.some_inj]
    exact ⟨fun same => ⟨shown.1, shown.2, same⟩, fun parts => parts.2.2⟩
  · rename_i hidden
    constructor
    · intro impossible
      cases impossible
    · rintro ⟨finished, nonempty, -⟩
      exact absurd ⟨finished, nonempty⟩ hidden

theorem Entry.isGarbled_eq_false_iff (e : Entry) :
    e.isGarbled = false ↔ ∀ translation, e.usable? = some translation →
      Placeholder.numbers translation = Placeholder.numbers e.source := by
  unfold isGarbled
  cases e.usable? with
  | none => simp
  | some translation => simp

namespace Catalog

/-- Every entry in use is the one that a lookup of its key finds, and it is found in its place. -/
def AllFound (c : Catalog) : Prop :=
  ∀ (position : Nat) (e : Entry), c.entries[position]? = some e → e.status ≠ .obsolete →
    c.position? e.key = some position ∧ c.lookup? e.context e.source = some e

/-- **There are no duplicates** when every entry in use is found. -/
theorem duplicateKeys_isEmpty_iff (language : Tag) (edits : List Edit) :
    (ofEdits language edits).duplicateKeys.toList.isEmpty = true ↔
      (ofEdits language edits).AllFound := by
  rw [duplicateKeys_ofEdits, List.isEmpty_iff, List.map_eq_nil_iff, hiddenAfter_eq_nil_iff]
  unfold AllFound
  simp only [← Array.getElem?_toList, entries_ofEdits, position?_ofEdits, List.nil_append,
    List.length_nil, Nat.zero_add]
  constructor
  · intro found position e here live
    -- the index leads to the entry's own position, so a lookup finds the entry there
    have first := found position e here (decide_eq_true live)
    refine ⟨first, ?_⟩
    show ((ofEdits language edits).position? e.key).bind _ = _
    rw [position?_ofEdits, first, Option.bind_some, ← Array.getElem?_toList, entries_ofEdits]
    exact here
  · intro found position e here live
    exact (found position e here (of_decide_eq_true live)).1

/-- An entry that is found and has a usable translation is shown by it. -/
theorem AllFound.resolve_eq {c : Catalog} (found : c.AllFound) {e : Entry} (mem : e ∈ c.entries)
    {translation : String} (usable : e.usable? = some translation) :
    c.resolve e.context e.source = translation := by
  obtain ⟨position, here⟩ := Array.mem_iff_getElem?.mp mem
  have live : e.status ≠ .obsolete := by
    rw [((e.usable?_eq_some_iff translation).mp usable).1]
    decide
  unfold resolve
  rw [(found position e here live).2, Option.bind_some, usable, Option.getD_some]

end Catalog

namespace Report

/-- The entry whose translation is shown with other numbers than its message, as it is listed. -/
def mismatchOf (e : Entry) : PlaceholderMismatch where
  context := e.context
  source := e.source
  expected := (Placeholder.numbers e.source).sort (· ≤ ·)
  found := (Placeholder.numbers e.translation).sort (· ≤ ·)

theorem mismatch?_eq (e : Entry) :
    mismatch? e = if e.isGarbled then some (mismatchOf e) else none := by
  unfold mismatch? Entry.isGarbled
  cases usable : e.usable? with
  | none => rfl
  | some translation =>
    obtain ⟨-, -, rfl⟩ := (e.usable?_eq_some_iff translation).mp usable
    simp only [Option.bind_some, Option.any_some, decide_eq_true_eq, ne_eq, ite_not,
      Placeholder.indices_eq_iff, eq_comm (a := Placeholder.numbers e.source)]
    unfold mismatchOf
    rw [Placeholder.indices_eq_sort, Placeholder.indices_eq_sort]

/-- **The mismatches listed** are those of the garbled entries, in order. -/
theorem placeholderMismatches_eq (c : Catalog) :
    (ofCatalog c).placeholderMismatches
      = (c.entries.toList.filter Entry.isGarbled).map mismatchOf := by
  show c.entries.toList.filterMap mismatch? = _
  rw [← List.filterMap_eq_map, List.filterMap_filter]
  congr 1
  funext e
  rw [mismatch?_eq]
  rfl

theorem placeholderMismatches_isEmpty_iff (c : Catalog) :
    (ofCatalog c).placeholderMismatches.isEmpty = true ↔
      ∀ e ∈ c.entries, ∀ translation, e.usable? = some translation →
        Placeholder.numbers translation = Placeholder.numbers e.source := by
  rw [placeholderMismatches_eq, List.isEmpty_iff, List.map_eq_nil_iff, List.filter_eq_nil_iff]
  simp only [Array.mem_toList_iff, Bool.not_eq_true, Entry.isGarbled_eq_false_iff]

/-- **A report is clean** when every entry in use is found by its own key, in its own place, and
every translation that is shown has the argument numbers of its message. Then each of these
translations is what is shown for its message, and it shows the arguments that the message
shows. The mismatches listed are exactly those of the entries without that property, in order,
with the numbers ascending. -/
theorem isClean_exact (language : Tag) (edits : List Catalog.Edit) :
    let c := Catalog.ofEdits language edits
    let report := ofCatalog c
    (report.isClean = true ↔
      c.AllFound ∧ ∀ e ∈ c.entries, ∀ translation, e.usable? = some translation →
        Placeholder.numbers translation = Placeholder.numbers e.source) ∧
    (report.isClean = true →
      ∀ e ∈ c.entries, ∀ translation, e.usable? = some translation →
        c.resolve e.context e.source = translation ∧
        ∀ arguments k, Placeholder.IsFilledIn translation arguments k ↔
          Placeholder.IsFilledIn e.source arguments k) ∧
    report.placeholderMismatches = (c.entries.toList.filter Entry.isGarbled).map mismatchOf := by
  intro c report
  have clean : report.isClean = true ↔
      c.AllFound ∧ ∀ e ∈ c.entries, ∀ translation, e.usable? = some translation →
        Placeholder.numbers translation = Placeholder.numbers e.source := by
    unfold isClean
    rw [Bool.and_eq_true, placeholderMismatches_isEmpty_iff]
    exact and_congr_left' (Catalog.duplicateKeys_isEmpty_iff language edits)
  refine ⟨clean, ?_, placeholderMismatches_eq c⟩
  intro isClean e mem translation usable
  obtain ⟨found, sameNumbers⟩ := clean.mp isClean
  refine ⟨found.resolve_eq mem usable, ?_⟩
  intro arguments k
  rw [Placeholder.isFilledIn_iff, Placeholder.isFilledIn_iff, sameNumbers e mem translation usable]

end Report

end Phrasebook
