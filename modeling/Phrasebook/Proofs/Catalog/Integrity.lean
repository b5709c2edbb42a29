import Phrasebook.Proofs.Catalog.Identifier

/-!
# The integrity of the two indexes

Positions are noted in two tables, one by key and one by identifier, before the entry they are
about is there, and on different conditions. This module says what can be relied on all the
same: no position leads astray, and whoever looks up an identifier gets the entry that its key
leads to.

- `PointsTo`: a position leads to an entry in use.
- `PointsWell`: the invariant. Positions by identifier are positions by key as well. Every
  edit keeps it (`PointsWell.apply`), hence every history (`PointsWell.foldl`).
- `indexes_sound`: all that is stored after a history, and the agreement of the two lookups.
-/

namespace Phrasebook.Catalog

open Phrasebook.Locale

/-- A position is in range, and the entry there is in use and is as it should be. -/
def PointsTo (c : Catalog) (position : Nat) (Fits : Entry → Prop) : Prop :=
  ∃ inRange : position < c.entries.size,
    c.entries[position].status ≠ .obsolete ∧ Fits c.entries[position]

theorem pointsTo_iff (c : Catalog) (position : Nat) (Fits : Entry → Prop) :
    c.PointsTo position Fits ↔
      ∃ e, c.entries[position]? = some e ∧ e.status ≠ .obsolete ∧ Fits e := by
  constructor
  · rintro ⟨inRange, live, fits⟩
    exact ⟨c.entries[position], Array.getElem?_eq_getElem inRange, live, fits⟩
  · rintro ⟨e, there, live, fits⟩
    obtain ⟨inRange, rfl⟩ := Array.getElem?_eq_some_iff.mp there
    exact ⟨inRange, live, fits⟩

/-! ## The invariant -/

/-- A position noted for a key is that of an entry in use with the key. A position noted for an
identifier is that of an entry that carries it, and it is noted for the key of that entry, too. -/
structure PointsWell (c : Catalog) : Prop where
  keys : ∀ key position, c.index.find? key = some position →
    ∃ e, c.entries[position]? = some e ∧ e.isLiveFor key = true
  ids : ∀ id position, c.ids[id]? = some position →
    ∃ e, c.entries[position]? = some e ∧ e.id = some id ∧ c.index.find? e.key = some position

/-- What is at a position stays there. -/
theorem Draft.getElem?_push_of_some {d : Draft} {position : Nat} {e : Entry} (added : Entry)
    (there : d.entries[position]? = some e) : (d.push added).entries[position]? = some e := by
  rw [← Array.getElem?_toList] at there ⊢
  obtain ⟨inRange, -⟩ := List.getElem?_eq_some_iff.mp there
  rw [entries_push, List.getElem?_append_left inRange, there]

/-- The next position is that of the entry that is added. -/
theorem Draft.getElem?_push_size (d : Draft) (added : Entry) :
    (d.push added).entries[d.entries.size]? = some added := by
  rw [← Array.getElem?_toList, entries_push, ← Array.length_toList]
  exact List.getElem?_concat_length

theorem pointsWell_start (language : Tag) : (Draft.start language).toCatalog.PointsWell where
  keys := by
    intro key position noted
    rw [show (Draft.start language).index.find? key = none from Index.find?_empty key] at noted
    cases noted
  ids := by
    intro id position noted
    simp [Draft.start] at noted

theorem PointsWell.push {d : Draft} (h : d.toCatalog.PointsWell) (added : Entry) :
    (d.push added).toCatalog.PointsWell := by
  refine { keys := fun key position noted => ?_, ids := fun id position noted => ?_ }
  · rw [Draft.find?_push] at noted
    rcases Option.or_eq_some_iff.mp noted with old | ⟨-, new⟩
    · obtain ⟨e, there, live⟩ := h.keys key position old
      exact ⟨e, Draft.getElem?_push_of_some added there, live⟩
    · split at new
      · next live =>
        cases new
        exact ⟨added, d.getElem?_push_size added, live⟩
      · cases new
  · rw [Draft.ids_push] at noted
    rcases Option.or_eq_some_iff.mp noted with old | ⟨-, new⟩
    · -- a position that is noted for a key is never replaced
      obtain ⟨e, there, carries, shared⟩ := h.ids id position old
      refine ⟨e, Draft.getElem?_push_of_some added there, carries, ?_⟩
      rw [Draft.find?_push, shared, Option.some_or]
    · split at new
      · next first =>
        -- the entry is noted for both at once, as its key is new
        obtain ⟨live, unknown, carries⟩ := first
        cases new
        refine ⟨added, d.getElem?_push_size added, carries, ?_⟩
        rw [Draft.find?_push, unknown, Option.none_or, Entry.isLiveFor_eq, live,
          decide_eq_true rfl]
        rfl
      · cases new

/-- Every edit keeps the invariant. -/
theorem PointsWell.apply {d : Draft} (h : d.toCatalog.PointsWell) (edit : Edit) :
    (d.apply edit).toCatalog.PointsWell := by
  rcases Draft.apply_cases d edit with ⟨e, rfl⟩ | ⟨-, entries, index, ids, -⟩
  · exact h.push e
  · refine { keys := ?_, ids := ?_ }
    · rw [entries, index]
      exact h.keys
    · rw [entries, index, ids]
      exact h.ids

/-- Every history keeps the invariant. -/
theorem PointsWell.foldl {d : Draft} (h : d.toCatalog.PointsWell) (edits : List Edit) :
    (edits.foldl Draft.apply d).toCatalog.PointsWell := by
  induction edits generalizing d with
  | nil => exact h
  | cons edit edits ih => exact ih (h.apply edit)

/-! ## What a history leaves behind -/

variable (language : Tag) (edits : List Edit)

theorem pointsWell_ofEdits : (ofEdits language edits).PointsWell :=
  (pointsWell_start language).foldl edits

/-- A position that is stored for a text of a context is the one found for that key. -/
theorem find?_of_stored {c : Catalog} {context source : String}
    {sources : Std.HashMap String Nat} {position : Nat}
    (table : c.index.contexts[context]? = some sources) (stored : sources[source]? = some position) :
    c.index.find? ⟨context, source⟩ = some position := by
  show (c.index.contexts[context]?.bind fun sources => sources[source]?) = some position
  rw [table, Option.bind_some, stored]

/-- **No noted position leads astray, and the two tables agree.** After any history every position
stored for a key is that of an entry in use with exactly that context and text, and every position
stored for an identifier is that of an entry in use that carries it. An entry that is found by its
identifier is found by its key, and both lookups go by the same position. -/
theorem indexes_sound :
    (∀ context sources source position,
      (ofEdits language edits).index.contexts[context]? = some sources →
      sources[source]? = some position →
        (ofEdits language edits).PointsTo position fun e =>
          e.context = context ∧ e.source = source) ∧
    (∀ id position, (ofEdits language edits).ids[id]? = some position →
      (ofEdits language edits).PointsTo position fun e => e.id = some id) ∧
    (∀ id e, (ofEdits language edits).lookupId? id = some e →
      (ofEdits language edits).lookup? e.context e.source = some e ∧
      ∃ position, (ofEdits language edits).idPosition? id = some position ∧
        (ofEdits language edits).position? ⟨e.context, e.source⟩ = some position ∧
        (ofEdits language edits).entries[position]? = some e) := by
  have well := pointsWell_ofEdits language edits
  refine ⟨?keys, ?ids, ?agree⟩
  case keys =>
    intro context sources source position table stored
    obtain ⟨e, there, live⟩ := well.keys _ position (find?_of_stored table stored)
    exact (pointsTo_iff ..).mpr ⟨e, there, of_decide_eq_true live⟩
  case ids =>
    intro id position noted
    obtain ⟨e, there, carries, shared⟩ := well.ids id position noted
    obtain ⟨same, there', live⟩ := well.keys e.key position shared
    rw [there'] at there
    cases there
    exact (pointsTo_iff ..).mpr ⟨e, there', (of_decide_eq_true live).1, carries⟩
  case agree =>
    intro id e found
    obtain ⟨position, noted, there⟩ := Option.bind_eq_some_iff.mp found
    obtain ⟨same, there', -, shared⟩ := well.ids id position noted
    rw [there'] at there
    cases there
    refine ⟨?_, position, noted, shared, there'⟩
    show ((ofEdits language edits).index.find? e.key).bind _ = some e
    rw [shared, Option.bind_some, there']

end Phrasebook.Catalog
