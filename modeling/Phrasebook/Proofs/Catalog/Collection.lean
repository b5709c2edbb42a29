import Phrasebook.Catalog.Collection
import Phrasebook.Proofs.Catalog.Lookup
import Phrasebook.Proofs.Locale.Negotiation

/-!
# Collections as tables

What a collection of catalogs answers, in terms of the catalogs that were stored in it. Other
modules use these facts and not the tree behind a collection.

- `get?_insertAs`: storing a catalog changes the answer for its tag and for no other.
- `mem_tags`, `tags_ascending`: the tags are those under which something is stored, in order.
- `resolve_eq`: where no catalog is chosen, the one that shows messages as written stands in.
- `catalogFor?_cases`: a catalog that is chosen is stored under a tag of the requested language.
- `Change`, `after`: a history of a collection, and what it leads to.
- `Tells`: the invariant. A collection gives the last catalog stored under each tag.
- `answers_after`: what a collection answers after any history.
-/

namespace Phrasebook.Collection

open Phrasebook.Locale
open Storage (bytesOf)

@[simp] theorem get?_empty (tag : Tag) : empty.get? tag = none :=
  Std.TreeMap.getElem?_emptyc

/-- **The last catalog stored under a tag counts**, and it does so for this tag alone. -/
theorem get?_insertAs (s : Collection) (tag other : Tag) (catalog : Catalog) :
    (s.insertAs tag catalog).2.get? other
      = if tag = other then some catalog else s.get? other := by
  show (s.catalogs.insert tag catalog)[other]? = if tag = other then _ else s.catalogs[other]?
  rw [Std.TreeMap.getElem?_insert]
  simp only [Std.LawfulEqCmp.compare_eq_iff_eq]

theorem mem_tags (s : Collection) (tag : Tag) : tag ∈ s.tags ↔ (s.get? tag).isSome = true := by
  show tag ∈ s.catalogs.keys ↔ (s.catalogs[tag]?).isSome = true
  rw [Std.TreeMap.mem_keys, Std.TreeMap.mem_iff_isSome_getElem?]

theorem resolve_eq (s : Collection) (context source : String) (requested : Tag) :
    s.resolve context source requested
      = ((s.catalogFor? requested).getD Catalog.sourceOnly).resolve context source := by
  unfold resolve
  cases s.catalogFor? requested with
  | none => exact (Catalog.resolve_sourceOnly context source).symm
  | some catalog => rfl

/-! ## The tags -/

/-- No tag comes up twice, and the tags are in the order of their bytes. -/
theorem tags_ascending (s : Collection) :
    s.tags.Pairwise fun t u => bytesOf t.text < bytesOf u.text :=
  Std.TreeMap.ordered_keys.imp (Tag.compare_eq_lt_iff _ _).mp

theorem length_tags (s : Collection) : s.tags.length = s.size :=
  Std.TreeMap.length_keys

/-! ## The choice -/

/-- What is chosen for a request, and where it is stored. -/
theorem catalogFor?_cases (s : Collection) (requested : Tag) :
    (s.select requested = .source ∧ s.catalogFor? requested = none) ∨
    ∃ key catalog, (s.select requested).tag? = some key ∧ key.language = requested.language ∧
      s.get? key = some catalog ∧ s.catalogFor? requested = some catalog := by
  unfold catalogFor?
  cases chosen : (s.select requested).tag? with
  | none => exact .inl ⟨(Match.tag?_eq_none_iff _).mp chosen, rfl⟩
  | some key =>
    have listed : key ∈ s.tags := mem_of_tag?_negotiate chosen
    obtain ⟨catalog, held⟩ := Option.isSome_iff_exists.mp ((s.mem_tags key).mp listed)
    exact .inr ⟨key, catalog, rfl, language_of_tag?_negotiate chosen, held, held⟩

/-- **Only what is stored under which tag matters** for the answers of a collection. -/
theorem answers_congr {s s' : Collection} (same : ∀ tag, s.get? tag = s'.get? tag) :
    s.toList = s'.toList ∧ ∀ requested, s.select requested = s'.select requested ∧
      s.catalogFor? requested = s'.catalogFor? requested ∧
      ∀ context source, s.resolve context source requested = s'.resolve context source requested := by
  have alike : s.catalogs.Equiv s'.catalogs := .of_forall_constGet?_eq same
  have selects : ∀ requested, s.select requested = s'.select requested :=
    fun requested => congrArg (negotiate requested) alike.keys_eq
  have chooses : ∀ requested, s.catalogFor? requested = s'.catalogFor? requested := by
    intro requested
    rw [catalogFor?, catalogFor?, selects, funext same]
  refine ⟨alike.toList_eq, fun requested => ⟨selects requested, chooses requested, ?_⟩⟩
  intro context source
  rw [resolve, resolve, chooses]

/-- A catalog shows the usable translation of the entry that it finds for a message, and the
message as it was written if there is none. -/
theorem resolve_cases (c : Catalog) (context source : String) :
    ((c.lookup? context source).bind Entry.usable? = none ∧ c.resolve context source = source) ∨
    ∃ e translation, c.lookup? context source = some e ∧ e.usable? = some translation ∧
      c.resolve context source = translation := by
  unfold Catalog.resolve
  cases found : (c.lookup? context source).bind Entry.usable? with
  | none => exact .inl ⟨rfl, rfl⟩
  | some translation =>
    obtain ⟨e, looked, usable⟩ := Option.bind_eq_some_iff.mp found
    exact .inr ⟨e, translation, looked, usable, rfl⟩

/-! ## Histories -/

/-- What can be done to a collection. -/
inductive Change where
  | insert (catalog : Catalog)
  | insertAs (tag : Tag) (catalog : Catalog)
  /-- Starts over with the collection of some catalogs. -/
  | ofList (catalogs : List Catalog)

/-- The catalog that a change replaces, and the collection after it. -/
def change (s : Collection) : Change → Option Catalog × Collection
  | .insert catalog => s.insert catalog
  | .insertAs tag catalog => s.insertAs tag catalog
  | .ofList catalogs => (none, Collection.ofList catalogs)

/-- The collection after a history of changes. -/
def after (changes : List Change) : Collection :=
  changes.foldl (fun s next => (s.change next).2) empty

/-- What is stored in a collection and where, in the order of storing. -/
abbrev Record := List (Tag × Catalog)

/-- What is on record after a change. -/
def Change.record (earlier : Record) : Change → Record
  | .insert catalog => earlier ++ [(catalog.language, catalog)]
  | .insertAs tag catalog => earlier ++ [(tag, catalog)]
  | .ofList catalogs => catalogs.map fun catalog => (catalog.language, catalog)

/-- What is on record after a history. -/
def recordOf (changes : List Change) : Record :=
  changes.foldl Change.record []

/-- The catalogs that were stored under a tag, in order. -/
def Record.under (stored : Record) (tag : Tag) : List Catalog :=
  (stored.filter fun entry => entry.1 == tag).map Prod.snd

theorem Record.under_snoc (stored : Record) (tag other : Tag) (catalog : Catalog) :
    Record.under (stored ++ [(tag, catalog)]) other
      = Record.under stored other ++ if tag = other then [catalog] else [] := by
  unfold Record.under
  rw [List.filter_append, List.map_append]
  by_cases here : tag = other <;> simp [here]

/-- The collection gives the last catalog on record for each tag. -/
def Tells (s : Collection) (stored : Record) : Prop :=
  ∀ tag, s.get? tag = (stored.under tag).getLast?

theorem tells_empty : empty.Tells [] :=
  fun tag => get?_empty tag

theorem Tells.insertAs {s : Collection} {stored : Record} (h : s.Tells stored) (tag : Tag)
    (catalog : Catalog) : (s.insertAs tag catalog).2.Tells (stored ++ [(tag, catalog)]) := by
  intro other
  rw [get?_insertAs, Record.under_snoc, h other]
  by_cases here : tag = other <;> simp [here]

theorem Tells.foldl_insert {s : Collection} {stored : Record} (h : s.Tells stored)
    (catalogs : List Catalog) :
    (catalogs.foldl (fun s catalog => (s.insert catalog).2) s).Tells
      (stored ++ catalogs.map fun catalog => (catalog.language, catalog)) := by
  induction catalogs generalizing s stored with
  | nil =>
    rw [List.map_nil, List.append_nil]
    exact h
  | cons catalog catalogs ih =>
    have next := ih (h.insertAs catalog.language catalog)
    rw [List.append_assoc] at next
    exact next

/-- Every change keeps the invariant. -/
theorem Tells.change {s : Collection} {stored : Record} (h : s.Tells stored) (next : Change) :
    (s.change next).2.Tells (next.record stored) := by
  cases next with
  | insert catalog => exact h.insertAs catalog.language catalog
  | insertAs tag catalog => exact h.insertAs tag catalog
  | ofList catalogs => exact tells_empty.foldl_insert catalogs

/-- Every history keeps the invariant. -/
theorem Tells.foldl {s : Collection} {stored : Record} (h : s.Tells stored)
    (changes : List Change) :
    (changes.foldl (fun s next => (s.change next).2) s).Tells
      (changes.foldl Change.record stored) := by
  induction changes generalizing s stored with
  | nil => exact h
  | cons next changes ih => exact ih (h.change next)

theorem tells_after (changes : List Change) : (after changes).Tells (recordOf changes) :=
  tells_empty.foldl changes

/-- **What a collection answers after any history.** Under each tag it has the catalog that was
stored there last, and storing another one hands that one back. Its tags ascend in the order of
their bytes. The order in which catalogs were stored matters only among those under one tag.

A request finds no catalog exactly if messages are to be shown as they were written, and otherwise
a catalog that is stored under a tag of the requested language. So a message is shown as it was
written or in the usable translation that this one catalog has for it, and never in another
language. -/
theorem answers_after (changes : List Change) (requested : Tag) :
    (∀ tag, (after changes).get? tag = ((recordOf changes).under tag).getLast?) ∧
    (∀ tag catalog, ((after changes).insertAs tag catalog).1 = (after changes).get? tag) ∧
    (∀ catalog,
      ((after changes).insert catalog).1 = (after changes).get? catalog.language) ∧
    ((after changes).tags.Pairwise fun t u => bytesOf t.text < bytesOf u.text) ∧
    (after changes).tags.length = (after changes).size ∧
    (∀ others, (∀ tag, (recordOf others).under tag = (recordOf changes).under tag) →
      (after others).toList = (after changes).toList ∧
      ∀ locale, (after others).select locale = (after changes).select locale ∧
        (after others).catalogFor? locale = (after changes).catalogFor? locale ∧
        ∀ context source, (after others).resolve context source locale
          = (after changes).resolve context source locale) ∧
    ((after changes).catalogFor? requested = none ↔
      (after changes).select requested = .source) ∧
    (∀ catalog, (after changes).catalogFor? requested = some catalog →
      ∃ key, ((after changes).select requested).tag? = some key ∧
        key.language = requested.language ∧ (after changes).get? key = some catalog) ∧
    ∀ context source,
      ((((after changes).catalogFor? requested).bind fun catalog =>
          (catalog.lookup? context source).bind Entry.usable?) = none ∧
        (after changes).resolve context source requested = source) ∨
      ∃ key catalog e translation, ((after changes).select requested).tag? = some key ∧
        key.language = requested.language ∧ (after changes).get? key = some catalog ∧
        catalog.lookup? context source = some e ∧ e.usable? = some translation ∧
        (∀ language edits, catalog = Catalog.ofEdits language edits →
          e.context = context ∧ e.source = source) ∧
        (after changes).resolve context source requested = translation := by
  have tells := tells_after changes
  refine ⟨tells, fun _ _ => rfl, fun _ => rfl, tags_ascending _, length_tags _,
    fun others same => ?_, ?_, fun catalog found => ?_, fun context source => ?_⟩
  · refine answers_congr fun tag => ?_
    rw [tells_after others tag, tells tag, same tag]
  · rcases (after changes).catalogFor?_cases requested with
      ⟨source, nothing⟩ | ⟨key, catalog, chosen, -, -, found⟩
    · exact iff_of_true nothing source
    · rw [found, ← Match.tag?_eq_none_iff, chosen]
      simp
  · rcases (after changes).catalogFor?_cases requested with
      ⟨-, nothing⟩ | ⟨key, stored, chosen, relative, held, found'⟩
    · rw [nothing] at found
      cases found
    · rw [found'] at found
      cases found
      exact ⟨key, chosen, relative, held⟩
  · rcases (after changes).catalogFor?_cases requested with
      ⟨-, nothing⟩ | ⟨key, catalog, chosen, relative, held, found⟩
    · rw [resolve, nothing]
      exact .inl ⟨rfl, rfl⟩
    · rw [resolve, found]
      rcases resolve_cases catalog context source with
        unusable | ⟨e, translation, looked, usable, same⟩
      · exact .inl unusable
      · refine .inr ⟨key, catalog, e, translation, chosen, relative, held, looked, usable, ?_, same⟩
        rintro language edits rfl
        rw [Catalog.lookup?_ofEdits] at looked
        have live := of_decide_eq_true (Catalog.isLiveFor_of_firstLive? looked)
        exact live.2

end Phrasebook.Collection
