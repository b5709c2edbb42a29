import Phrasebook.Catalog.Basic

/-!
# Lookups as a linear scan

A catalog answers a lookup through positions that were noted while its entries were added, at a
time when the list of entries was still growing. This module shows that nobody can tell: the
answer is the one that reading all entries from the front would give.

- `pushed`: the entries that a history adds, in order.
- `Entry.isLiveFor`, `firstLive?`: what a scan looks for, and what it finds.
- `Draft.Indexes`: the invariant. The noted positions are those that a scan over the entries so
  far finds. Every edit keeps it (`Indexes.apply`), hence every history (`Indexes.foldl`).
- `lookup_refines_scan`: what a history leaves behind, in terms of the entries it added.
-/

namespace Phrasebook

open Phrasebook.Locale

/-- The entry is in use and has the key. -/
def Entry.isLiveFor (key : Key) (e : Entry) : Bool :=
  decide (e.status ≠ .obsolete ∧ e.context = key.context ∧ e.source = key.source)

theorem Entry.isLiveFor_eq (key : Key) (e : Entry) :
    e.isLiveFor key = (e.isLive && decide (e.key = key)) := by
  obtain ⟨context, source⟩ := key
  simp [isLiveFor, isLive, Entry.key]

namespace Catalog

/-- The entry that an edit adds, if it adds one. -/
def Edit.added? : Edit → Option Entry
  | .push entry => some entry
  | _ => none

/-- The entries that a history adds, in order. -/
def pushed (edits : List Edit) : List Entry :=
  edits.filterMap Edit.added?

/-- What a scan from the front finds for a key. -/
def firstLive? (entries : List Entry) (key : Key) : Option Entry :=
  entries.find? (Entry.isLiveFor key)

/-- An entry that is found for a key is in use and has the key. -/
theorem isLiveFor_of_firstLive? {entries : List Entry} {key : Key} {e : Entry}
    (found : firstLive? entries key = some e) : e.isLiveFor key = true :=
  List.find?_some found

theorem pushed_append (edits later : List Edit) :
    pushed (edits ++ later) = pushed edits ++ pushed later :=
  List.filterMap_append

theorem pushed_cons (edit : Edit) (edits : List Edit) :
    pushed (edit :: edits) = edit.added?.toList ++ pushed edits := by
  unfold pushed
  cases added : edit.added? <;> simp [added]

/-! ## Adding an entry -/

namespace Draft

/-- What indexing an entry does to a draft: nothing to an entry that is not in use, a remark if
its key has a position, and otherwise the next position for the key and the identifier. -/
theorem indexEntry_cases (d : Draft) (e : Entry) :
    (e.isLive = false ∧ d.indexEntry e = d) ∨
    (e.isLive = true ∧ (∃ position, d.index.find? e.key = some position) ∧
      d.indexEntry e = { d with duplicateKeys := d.duplicateKeys.push e.key }) ∨
    (e.isLive = true ∧ d.index.find? e.key = none ∧
      d.indexEntry e = { d with
        index := d.index.insert e.key d.entries.size
        ids := noteId d.ids d.entries.size e.id }) := by
  unfold indexEntry
  cases live : e.isLive with
  | false => exact .inl ⟨rfl, rfl⟩
  | true =>
    cases known : d.index.find? e.key with
    | some position => exact .inr (.inl ⟨rfl, ⟨position, rfl⟩, rfl⟩)
    | none => exact .inr (.inr ⟨rfl, rfl, rfl⟩)

/-- Indexing an entry touches neither the entries nor the language. -/
theorem indexEntry_keeps (d : Draft) (e : Entry) :
    (d.indexEntry e).entries = d.entries ∧ (d.indexEntry e).language = d.language := by
  rcases indexEntry_cases d e with ⟨-, same⟩ | ⟨-, -, same⟩ | ⟨-, -, same⟩
  · rw [same]
    exact ⟨rfl, rfl⟩
  · rw [same]
    exact ⟨rfl, rfl⟩
  · rw [same]
    exact ⟨rfl, rfl⟩

/-- Adding an entry appends it, whatever becomes of the index. -/
theorem entries_push (d : Draft) (e : Entry) :
    (d.push e).entries.toList = d.entries.toList ++ [e] := by
  have kept : ((d.noteContext e.context).indexEntry e).entries = d.entries :=
    (indexEntry_keeps (d.noteContext e.context) e).1
  show (((d.noteContext e.context).indexEntry e).entries.push e).toList = _
  rw [kept, Array.toList_push]

/-- The first live entry with a key gets the next position for it, and no other position
changes. -/
theorem find?_push (d : Draft) (e : Entry) (key : Key) :
    (d.push e).index.find? key
      = (d.index.find? key).or (if e.isLiveFor key then some d.entries.size else none) := by
  show ((d.noteContext e.context).indexEntry e).index.find? key = _
  rw [Entry.isLiveFor_eq]
  rcases indexEntry_cases (d.noteContext e.context) e with
    ⟨dead, same⟩ | ⟨live, ⟨position, known⟩, same⟩ | ⟨live, unknown, same⟩
  · rw [same]
    show d.index.find? key = _
    simp [dead]
  · -- the key keeps its position, and the new entry comes after it
    rw [same]
    show d.index.find? key = _
    by_cases here : e.key = key
    · rw [← here, show d.index.find? e.key = some position from known, Option.some_or]
    · simp [here]
  · rw [same]
    show (d.index.insert e.key d.entries.size).find? key = _
    rw [Index.find?_insert]
    by_cases here : e.key = key
    · rw [if_pos here, ← here, show d.index.find? e.key = none from unknown]
      simp [live]
    · simp [here]

/-! ## The invariant -/

/-- The draft holds the entries `es`, and the position it has noted for a key is the one of the
first live entry among them that has the key. -/
structure Indexes (d : Draft) (es : List Entry) : Prop where
  entries : d.entries.toList = es
  position : ∀ key, d.index.find? key = es.findIdx? (Entry.isLiveFor key)

theorem indexes_start (language : Tag) : (start language).Indexes [] := by
  refine { entries := rfl, position := fun key => ?_ }
  exact Index.find?_empty key

theorem Indexes.push {d : Draft} {es : List Entry} (h : d.Indexes es) (e : Entry) :
    (d.push e).Indexes (es ++ [e]) := by
  refine { entries := ?_, position := fun key => ?_ }
  · rw [entries_push, h.entries]
  · have size : d.entries.size = es.length := by
      rw [← h.entries, Array.length_toList]
    rw [find?_push, h.position key, size, List.findIdx?_append, List.findIdx?_singleton]
    split <;> simp

/-- An edit adds an entry, or it leaves the entries and all that is noted about them as they are. -/
theorem apply_cases (d : Draft) (edit : Edit) :
    (∃ e, edit = .push e) ∨
    (edit.added?.toList = [] ∧ (d.apply edit).entries = d.entries ∧
      (d.apply edit).index = d.index ∧ (d.apply edit).ids = d.ids ∧
      (d.apply edit).duplicateKeys = d.duplicateKeys) := by
  cases edit with
  | push e => exact .inl ⟨e, rfl⟩
  | openContext name => exact .inr ⟨rfl, rfl, rfl, rfl, rfl⟩
  | sourceLanguage tag => exact .inr ⟨rfl, rfl, rfl, rfl, rfl⟩
  | formatVersion version => exact .inr ⟨rfl, rfl, rfl, rfl, rfl⟩

/-- What every edit keeps, a history keeps. -/
theorem foldl_keeps {Keeps : Draft → List Entry → Prop}
    (step : ∀ d es edit, Keeps d es → Keeps (d.apply edit) (es ++ edit.added?.toList))
    {d : Draft} {es : List Entry} (h : Keeps d es) (edits : List Edit) :
    Keeps (edits.foldl Draft.apply d) (es ++ pushed edits) := by
  induction edits generalizing d es with
  | nil =>
    rw [show pushed [] = [] from rfl, List.append_nil]
    exact h
  | cons edit edits ih =>
    have after := ih (step d es edit h)
    rw [List.append_assoc] at after
    rw [pushed_cons]
    exact after

/-- Every edit keeps the invariant. -/
theorem Indexes.apply {d : Draft} {es : List Entry} (h : d.Indexes es) (edit : Edit) :
    (d.apply edit).Indexes (es ++ edit.added?.toList) := by
  rcases apply_cases d edit with ⟨e, rfl⟩ | ⟨nothing, entries, index, -⟩
  · exact h.push e
  · rw [nothing, List.append_nil]
    exact { entries := entries ▸ h.entries, position := index ▸ h.position }

/-- Every history keeps the invariant. -/
theorem Indexes.foldl {d : Draft} {es : List Entry} (h : d.Indexes es) (edits : List Edit) :
    (edits.foldl Draft.apply d).Indexes (es ++ pushed edits) :=
  foldl_keeps (fun _ _ edit kept => kept.apply edit) h edits

/-- The language is settled from the start. -/
theorem language_apply (d : Draft) (edit : Edit) : (d.apply edit).language = d.language := by
  cases edit with
  | push e => exact (indexEntry_keeps (d.noteContext e.context) e).2
  | openContext name => rfl
  | sourceLanguage tag => rfl
  | formatVersion version => rfl

theorem language_foldl (d : Draft) (edits : List Edit) :
    (edits.foldl Draft.apply d).language = d.language := by
  induction edits generalizing d with
  | nil => rfl
  | cons edit edits ih =>
    rw [List.foldl_cons, ih, language_apply]

end Draft

/-! ## What a history leaves behind -/

variable (language : Tag) (edits later : List Edit) (context source : String)

theorem language_ofEdits : (ofEdits language edits).language = language :=
  Draft.language_foldl (Draft.start language) edits

theorem entries_ofEdits : (ofEdits language edits).entries.toList = pushed edits :=
  ((Draft.indexes_start language).foldl edits).entries

/-- The position noted for a key is that of the first live entry with the key. -/
theorem position?_ofEdits (key : Key) :
    (ofEdits language edits).position? key = (pushed edits).findIdx? (Entry.isLiveFor key) :=
  ((Draft.indexes_start language).foldl edits).position key

/-- **A lookup finds the first live entry** with the key, as a scan would. -/
theorem lookup?_ofEdits :
    (ofEdits language edits).lookup? context source
      = firstLive? (pushed edits) ⟨context, source⟩ := by
  unfold lookup? firstLive?
  rw [List.find?_eq_bind_findIdx?_getElem?]
  rw [position?_ofEdits]
  congr 1
  funext position
  rw [← Array.getElem?_toList, entries_ofEdits]

/-- What is shown for a message depends on its first live entry alone. -/
theorem resolve_ofEdits :
    (ofEdits language edits).resolve context source
      = match firstLive? (pushed edits) ⟨context, source⟩ with
        | some e =>
          if e.status = .finished ∧ e.translation ≠ "" then e.translation else source
        | none => source := by
  unfold resolve
  rw [lookup?_ofEdits]
  cases firstLive? (pushed edits) ⟨context, source⟩ with
  | none => rfl
  | some e =>
    show e.usable?.getD source
      = if e.status = .finished ∧ e.translation ≠ "" then e.translation else source
    unfold Entry.usable?
    split <;> rfl

theorem resolve_sourceOnly : sourceOnly.resolve context source = source :=
  resolve_ofEdits Tag.source [.sourceLanguage Tag.source] context source

/-- A usable translation is not empty, so no label disappears. -/
theorem resolve_ne_empty (c : Catalog) (hs : source ≠ "") : c.resolve context source ≠ "" := by
  unfold resolve
  cases found : (c.lookup? context source).bind Entry.usable? with
  | none => exact hs
  | some translation =>
    obtain ⟨e, -, usable⟩ := Option.bind_eq_some_iff.mp found
    unfold Entry.usable? at usable
    split at usable
    · rename_i shown
      cases usable
      exact shown.2
    · cases usable

/-- An entry that is no longer in use can be left out of a history. -/
theorem lookup?_ofEdits_obsolete {e : Entry} (he : e.status = .obsolete) :
    (ofEdits language (edits ++ .push e :: later)).lookup? context source
      = (ofEdits language (edits ++ later)).lookup? context source := by
  have dead : e.isLiveFor ⟨context, source⟩ = false := by simp [Entry.isLiveFor, he]
  rw [lookup?_ofEdits, lookup?_ofEdits, pushed_append, pushed_append]
  show (pushed edits ++ e :: pushed later).find? _ = (pushed edits ++ pushed later).find? _
  rw [List.find?_append, List.find?_append, List.find?_cons, dead]

/-- Once an entry is found for a key, later edits do not change that. -/
theorem lookup?_ofEdits_append {e : Entry}
    (found : firstLive? (pushed edits) ⟨context, source⟩ = some e) :
    (ofEdits language (edits ++ later)).lookup? context source = some e := by
  unfold firstLive? at found
  rw [lookup?_ofEdits, pushed_append, firstLive?, List.find?_append, found, Option.some_or]

/-- **The index refines a linear scan.** After any history the entries are those it added, in
order; a lookup finds the first live one with the key; and a message is shown in translation if
that entry is finished and has one, and as it was written in every other case. So an entry that
is no longer in use has no influence on a lookup, a later duplicate neither overrides nor
rescues an earlier entry, and no message vanishes from view. -/
theorem lookup_refines_scan :
    (ofEdits language edits).entries.toList = pushed edits ∧
    (ofEdits language edits).lookup? context source
      = firstLive? (pushed edits) ⟨context, source⟩ ∧
    ((ofEdits language edits).lookup? context source = none ↔
      ∀ e ∈ pushed edits,
        ¬(e.status ≠ .obsolete ∧ e.context = context ∧ e.source = source)) ∧
    (ofEdits language edits).resolve context source
      = (match firstLive? (pushed edits) ⟨context, source⟩ with
        | some e =>
          if e.status = .finished ∧ e.translation ≠ "" then e.translation else source
        | none => source) ∧
    (source ≠ "" → (ofEdits language edits).resolve context source ≠ "") ∧
    (∀ e, e.status = .obsolete →
      (ofEdits language (edits ++ .push e :: later)).lookup? context source
        = (ofEdits language (edits ++ later)).lookup? context source) ∧
    (∀ e, firstLive? (pushed edits) ⟨context, source⟩ = some e →
      (ofEdits language (edits ++ later)).lookup? context source = some e) := by
  refine ⟨entries_ofEdits language edits, lookup?_ofEdits language edits context source, ?_,
    resolve_ofEdits language edits context source, resolve_ne_empty context source _,
    fun e he => lookup?_ofEdits_obsolete language edits later context source he,
    fun e he => lookup?_ofEdits_append language edits later context source he⟩
  rw [lookup?_ofEdits, firstLive?, List.find?_eq_none]
  simp [Entry.isLiveFor]

end Catalog

end Phrasebook
