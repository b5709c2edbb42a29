import Mathlib.Data.List.Find
import Phrasebook.Proofs.Catalog.Lookup

/-!
# Lookups by identifier

An identifier is noted together with the key of its entry, and only when the key is new. So a
lookup by identifier is a scan too, but not over all entries in use: it passes over those that
an earlier entry with the same key hides.

- `Entry.isLiveWithId`, `firstWithId?`: the scan that the identifier alone would call for.
- `Entry.isFoundWithId`: what the scan really looks for.
- `Draft.IndexesIds`: the invariant. An identifier leads to what that scan finds in the entries
  so far. Every edit keeps it, hence every history.
- `lookupId?_ofEdits_exact`: what a lookup by identifier gives, and when that is the first live
  entry that carries the identifier.
- `lookupId?_hidden_by_key`: two messages with one text, of which the second is lost.
-/

namespace Phrasebook

open Phrasebook.Locale

/-- The entry is in use and has the identifier. -/
def Entry.isLiveWithId (id : String) (e : Entry) : Bool :=
  decide (e.status ≠ .obsolete ∧ e.id = some id)

/-- The entry has the identifier, and a scan for its own key finds it. -/
def Entry.isFoundWithId (entries : List Entry) (id : String) (e : Entry) : Bool :=
  decide (e.id = some id ∧ Catalog.firstLive? entries e.key = some e)

namespace Catalog

/-- The first live entry that carries an identifier. -/
def firstWithId? (entries : List Entry) (id : String) : Option Entry :=
  entries.find? (Entry.isLiveWithId id)

/-! ## What a scan for the own key finds -/

theorem firstLive?_append (entries later : List Entry) (key : Key) :
    firstLive? (entries ++ later) key = (firstLive? entries key).or (firstLive? later key) :=
  List.find?_append

/-- Whether an entry is found for its own key does not change when others are added behind it. -/
theorem firstLive?_append_of_mem {entries : List Entry} {e : Entry} (later : List Entry)
    (mem : e ∈ entries) :
    firstLive? (entries ++ later) e.key = some e ↔ firstLive? entries e.key = some e := by
  rw [firstLive?_append]
  cases found : firstLive? entries e.key with
  | some other => simp
  | none =>
    -- no entry of the front is live for this key, so `e` itself is not
    have dead : ¬ e.isLiveFor e.key = true := List.find?_eq_none.mp found e mem
    constructor
    · intro behind
      rw [Option.none_or] at behind
      exact absurd (isLiveFor_of_firstLive? behind) dead
    · intro impossible
      cases impossible

/-- One more entry at the end becomes the answer only where there was none. -/
theorem find?_isFoundWithId_snoc (entries : List Entry) (e : Entry) (id : String) :
    (entries ++ [e]).find? (Entry.isFoundWithId (entries ++ [e]) id)
      = (entries.find? (Entry.isFoundWithId entries id)).or
          (if e.isLive = true ∧ firstLive? entries e.key = none ∧ e.id = some id then some e
            else none) := by
  have front : ∀ x ∈ entries,
      Entry.isFoundWithId (entries ++ [e]) id x = Entry.isFoundWithId entries id x := by
    intro x mem
    unfold Entry.isFoundWithId
    rw [decide_eq_decide, firstLive?_append_of_mem [e] mem]
  rw [List.find?_append, List.find?_congr front]
  cases known : entries.find? (Entry.isFoundWithId entries id) with
  | some other => rw [Option.some_or, Option.some_or]
  | none =>
    rw [Option.none_or, Option.none_or, List.find?_singleton]
    have single : firstLive? [e] e.key = if e.isLive then some e else none := by
      unfold firstLive?
      rw [List.find?_singleton, Entry.isLiveFor_eq]
      simp
    have same : Entry.isFoundWithId (entries ++ [e]) id e = true ↔
        e.isLive = true ∧ firstLive? entries e.key = none ∧ e.id = some id := by
      unfold Entry.isFoundWithId
      rw [decide_eq_true_iff, firstLive?_append, single]
      cases hidden : firstLive? entries e.key with
      | none => cases live : e.isLive <;> simp
      | some other =>
        -- an equal entry further to the front would have been found with the identifier
        have mem : other ∈ entries := List.mem_of_find?_eq_some hidden
        have unknown := List.find?_eq_none.mp known other mem
        simp only [Option.some_or, Option.some.injEq]
        constructor
        · rintro ⟨carries, rfl⟩
          exact absurd (decide_eq_true ⟨carries, hidden⟩) unknown
        · rintro ⟨-, impossible, -⟩
          cases impossible
    by_cases here : e.isLive = true ∧ firstLive? entries e.key = none ∧ e.id = some id
    · rw [if_pos (same.mpr here), if_pos here]
    · rw [if_neg (fun found => here (same.mp found)), if_neg here]

/-! ## The invariant -/

namespace Draft

/-- An identifier leads to the first entry among `es` that has it and that is found for its own
key. -/
structure IndexesIds (d : Draft) (es : List Entry) : Prop where
  keys : d.Indexes es
  inRange : ∀ (id : String) (position : Nat), d.ids[id]? = some position → position < es.length
  found : ∀ id : String, (d.ids[id]?.bind fun position => es[position]?)
    = es.find? (Entry.isFoundWithId es id)

theorem indexesIds_start (language : Tag) : (start language).IndexesIds [] := by
  refine { keys := indexes_start language, inRange := ?_, found := ?_ }
  · intro id position noted
    simp [start] at noted
  · intro id
    simp [start]

/-- The position noted for an identifier after an entry was added. The entry gets the next one
if nothing hides it and its identifier is new. -/
theorem ids_push (d : Draft) (e : Entry) (id : String) :
    (d.push e).ids[id]?
      = d.ids[id]?.or
          (if e.isLive = true ∧ d.index.find? e.key = none ∧ e.id = some id
            then some d.entries.size else none) := by
  show ((d.noteContext e.context).indexEntry e).ids[id]? = _
  rcases indexEntry_cases (d.noteContext e.context) e with
    ⟨dead, same⟩ | ⟨-, ⟨position, known⟩, same⟩ | ⟨live, unknown, same⟩
  · rw [same, if_neg (by simp [dead])]
    exact Option.or_none.symm
  · have known : d.index.find? e.key = some position := known
    rw [same, if_neg (by simp [known])]
    exact Option.or_none.symm
  · have unknown : d.index.find? e.key = none := unknown
    rw [same]
    show (noteId d.ids d.entries.size e.id)[id]? = _
    cases carried : e.id with
    | none => simp [noteId]
    | some own =>
      show (d.ids.insertIfNew own d.entries.size)[id]? = _
      rw [Std.HashMap.getElem?_insertIfNew]
      by_cases here : own = id
      · subst here
        cases noted : d.ids[own]? with
        | some position =>
          have mem : own ∈ d.ids := by
            rw [Std.HashMap.mem_iff_isSome_getElem?, noted]
            rfl
          rw [if_neg (fun new => new.2 mem), Option.some_or]
        | none =>
          have new : ¬ own ∈ d.ids := by
            rw [Std.HashMap.mem_iff_isSome_getElem?, noted]
            exact Bool.false_ne_true
          rw [if_pos ⟨beq_self_eq_true own, new⟩, if_pos ⟨live, unknown, rfl⟩, Option.none_or]
      · simp [here]

theorem IndexesIds.push {d : Draft} {es : List Entry} (h : d.IndexesIds es) (e : Entry) :
    (d.push e).IndexesIds (es ++ [e]) := by
  have size : d.entries.size = es.length := by
    rw [← h.keys.entries, Array.length_toList]
  have unseen : d.index.find? e.key = none ↔ firstLive? es e.key = none := by
    rw [h.keys.position, List.findIdx?_eq_none_iff, firstLive?, List.find?_eq_none]
    simp
  refine { keys := h.keys.push e, inRange := ?_, found := ?_ }
  · intro id position noted
    rw [ids_push] at noted
    rw [List.length_append, List.length_singleton]
    rcases Option.or_eq_some_iff.mp noted with old | ⟨-, new⟩
    · have := h.inRange id position old
      omega
    · split at new
      · cases new
        omega
      · cases new
  · intro id
    rw [ids_push, find?_isFoundWithId_snoc, ← h.found id, size]
    simp only [unseen]
    cases noted : d.ids[id]? with
    | some position =>
      have bound : position < es.length := h.inRange id position noted
      simp [List.getElem?_append_left bound, List.getElem?_eq_getElem bound]
    | none =>
      by_cases here : e.isLive = true ∧ firstLive? es e.key = none ∧ e.id = some id
      · rw [if_pos here, if_pos here]
        simp
      · rw [if_neg here, if_neg here]
        simp

/-- Every edit keeps the invariant. -/
theorem IndexesIds.apply {d : Draft} {es : List Entry} (h : d.IndexesIds es) (edit : Edit) :
    (d.apply edit).IndexesIds (es ++ edit.added?.toList) := by
  have keys := h.keys.apply edit
  rcases apply_cases d edit with ⟨e, rfl⟩ | ⟨nothing, -, -, ids, -⟩
  · exact h.push e
  · rw [nothing, List.append_nil] at keys ⊢
    exact { keys := keys, inRange := ids ▸ h.inRange, found := ids ▸ h.found }

/-- Every history keeps the invariant. -/
theorem IndexesIds.foldl {d : Draft} {es : List Entry} (h : d.IndexesIds es)
    (edits : List Edit) : (edits.foldl Draft.apply d).IndexesIds (es ++ pushed edits) :=
  foldl_keeps (fun _ _ edit kept => kept.apply edit) h edits

end Draft

/-! ## What a history leaves behind -/

variable (language : Tag) (edits : List Edit) (id : String)

/-- **A lookup by identifier finds the first entry** that has the identifier and that is found
for its own key. -/
theorem lookupId?_ofEdits :
    (ofEdits language edits).lookupId? id
      = (pushed edits).find? (Entry.isFoundWithId (pushed edits) id) := by
  have kept := (Draft.indexesIds_start language).foldl edits
  rw [List.nil_append] at kept
  rw [← kept.found id]
  unfold lookupId? idPosition?
  congr 1
  funext position
  rw [← Array.getElem?_toList, entries_ofEdits]

/-- An entry that a scan for its own key finds is in use. -/
theorem isLiveWithId_of_isFoundWithId {entries : List Entry} {e : Entry}
    (found : e.isFoundWithId entries id = true) : e.isLiveWithId id = true := by
  obtain ⟨carries, own⟩ := of_decide_eq_true found
  have live := of_decide_eq_true (isLiveFor_of_firstLive? own)
  exact decide_eq_true ⟨live.1, carries⟩

/-- The scan for found entries stops where the scan for carriers does, if nothing hides the
entry there. -/
theorem find?_isFoundWithId_eq_iff (entries : List Entry) :
    entries.find? (Entry.isFoundWithId entries id) = firstWithId? entries id ↔
      ∀ e, firstWithId? entries id = some e → firstLive? entries e.key = some e := by
  constructor
  · intro same e first
    rw [first] at same
    have found : e.isFoundWithId entries id = true := List.find?_some same
    exact (of_decide_eq_true found).2
  · intro unhidden
    cases first : firstWithId? entries id with
    | none =>
      rw [List.find?_eq_none]
      intro e mem found
      exact List.find?_eq_none.mp first e mem (isLiveWithId_of_isFoundWithId id found)
    | some e =>
      have carries : e.isLiveWithId id = true := List.find?_some first
      have found : e.isFoundWithId entries id = true :=
        decide_eq_true ⟨(of_decide_eq_true carries).2, unhidden e first⟩
      obtain ⟨-, before, after, split, none_before⟩ := List.find?_eq_some_iff_append.mp first
      rw [List.find?_eq_some_iff_append]
      refine ⟨found, before, after, split, ?_⟩
      intro x mem
      have dead : x.isLiveWithId id = false := by simpa using none_before x mem
      rw [Bool.not_eq_true', Bool.eq_false_iff]
      intro earlier
      rw [isLiveWithId_of_isFoundWithId id earlier] at dead
      cases dead

/-- **An identifier is looked up among the entries that are found for their key.** The answer is
the first of those that carries it, and this is the first live entry that carries it exactly when
no earlier live entry has the key of that one. -/
theorem lookupId?_ofEdits_exact :
    (ofEdits language edits).lookupId? id
      = (pushed edits).find? (fun e => decide (e.id = some id ∧
          (ofEdits language edits).lookup? e.context e.source = some e)) ∧
    ((ofEdits language edits).lookupId? id = firstWithId? (pushed edits) id ↔
      ∀ e, firstWithId? (pushed edits) id = some e →
        (ofEdits language edits).lookup? e.context e.source = some e) := by
  simp only [lookup?_ofEdits]
  rw [lookupId?_ofEdits]
  exact ⟨rfl, find?_isFoundWithId_eq_iff id (pushed edits)⟩

/-- **A text shared by two messages hides the identifier of the second**, even though both are
in use and their identifiers differ. -/
theorem lookupId?_hidden_by_key :
    let menu : Entry :=
      { context := "", source := "Open", translation := "Otvori", status := .finished
        id := some "menu.open" }
    let dialog : Entry := { menu with translation := "Otvaranje", id := some "dialog.open" }
    let catalog := ofEdits Tag.source [.push menu, .push dialog]
    firstWithId? catalog.entries.toList "dialog.open" = some dialog ∧
    catalog.lookupId? "dialog.open" = none := by
  intro menu dialog catalog
  rw [entries_ofEdits, lookupId?_ofEdits]
  decide

end Catalog

end Phrasebook
