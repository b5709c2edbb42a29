import Phrasebook.Proofs.Catalog.Collection
import Phrasebook.Proofs.Translator.Runs

/-!
# Loading everything, or loading on demand

There are two ways to show a message in a requested language. One loads every catalog into a
collection and chooses in there; the other chooses from the list of tags and loads one catalog.
They chose and load in different orders, and they meet different lists: the supplier's list as it
stands, and the sorted tags of the collection. With a supplier whose answers do not change they
agree on every message.

- `Supplier.Stable`: a supplier that gives one answer to each request.
- `loadInto_ok_iff`, `get?_of_loadInto`: when loading everything succeeds, and what it yields.
- `switchLanguage_stable`: what loading on demand yields.
- `eager_lazy_agree`: the two ways side by side.
-/

namespace Phrasebook

open Phrasebook.Locale

variable {σ : Type} {s : Supplier (StateM σ)} {tags : List Tag}
  {answer : Tag → Except SupplyFault Catalog}

namespace Supplier

/-- Whatever the state of the supplier, it lists `tags`, and its answer for a tag is the one that
`answer` gives. Its state may change all the same. -/
structure Stable (s : Supplier (StateM σ)) (tags : List Tag)
    (answer : Tag → Except SupplyFault Catalog) : Prop where
  available : ∀ w, (s.askAvailable w).1 = .ok tags
  load : ∀ tag w, (s.askLoad tag w).1 = answer tag

/-- A supplier that answers from a table and counts the requests it gets. -/
def counting (tags : List Tag) (answer : Tag → Except SupplyFault Catalog) :
    Supplier (StateM Nat) where
  available := ExceptT.mk fun n => (.ok tags, n + 1)
  load tag := ExceptT.mk fun n => (answer tag, n + 1)

theorem stable_counting (tags : List Tag) (answer : Tag → Except SupplyFault Catalog) :
    (counting tags answer).Stable tags answer :=
  ⟨fun _ => rfl, fun _ _ => rfl⟩

/-- One step of loading everything. -/
theorem loadInto_cons (stable : s.Stable tags answer) (collection : Collection) (tag : Tag)
    (ts : List Tag) (w : σ) :
    ∃ w₁, ((s.loadInto collection (tag :: ts)).run.run w).1
      = match answer tag with
        | .error fault => .error fault
        | .ok catalog => ((s.loadInto (collection.insertAs tag catalog).2 ts).run.run w₁).1 := by
  have given := stable.load tag w
  unfold askLoad at given
  refine ⟨((s.load tag).run.run w).2, ?_⟩
  rw [← given, loadInto, ask_bind]
  rcases (s.load tag).run.run w with ⟨fault | catalog, w₁⟩ <;> rfl

/-- Loading everything succeeds iff loading each catalog does. -/
theorem loadInto_ok_iff (stable : s.Stable tags answer) (collection : Collection)
    (ts : List Tag) (w : σ) :
    (∃ set, ((s.loadInto collection ts).run.run w).1 = .ok set) ↔
      ∀ tag ∈ ts, ∃ catalog, answer tag = .ok catalog := by
  induction ts generalizing collection w with
  | nil => exact ⟨fun _ _ h => absurd h List.not_mem_nil, fun _ => ⟨collection, rfl⟩⟩
  | cons tag ts ih =>
    obtain ⟨w₁, step⟩ := loadInto_cons stable collection tag ts w
    rw [step, List.forall_mem_cons]
    cases answer tag with
    | error fault => simp
    | ok catalog =>
      rw [ih]
      simp

/-- The collection that loading everything yields: under each listed tag the supplier's answer
for it, and all else as before. A tag that is listed twice is loaded twice, to the same effect. -/
theorem get?_of_loadInto (stable : s.Stable tags answer) {collection set : Collection}
    {ts : List Tag} {w : σ} (h : ((s.loadInto collection ts).run.run w).1 = .ok set)
    (tag : Tag) :
    set.get? tag = if tag ∈ ts then (answer tag).toOption else collection.get? tag := by
  induction ts generalizing collection w with
  | nil =>
    cases h
    rfl
  | cons first ts ih =>
    obtain ⟨w₁, step⟩ := loadInto_cons stable collection first ts w
    rw [step] at h
    cases given : answer first with
    | error fault =>
      rw [given] at h
      cases h
    | ok catalog =>
      rw [given] at h
      rw [ih h, Collection.get?_insertAs]
      by_cases later : tag ∈ ts
      · rw [if_pos later, if_pos (List.mem_cons_of_mem first later)]
      · by_cases here : first = tag
        · subst here
          rw [if_neg later, if_pos rfl, if_pos List.mem_cons_self, given]
          rfl
        · have nowhere : tag ∉ first :: ts := by
            rw [List.mem_cons, not_or]
            exact ⟨Ne.symm here, later⟩
          rw [if_neg later, if_neg here, if_neg nowhere]

theorem loadAll_run (stable : s.Stable tags answer) (w : σ) :
    ∃ w₁, (s.loadAll.run.run w).1 = ((s.loadInto Collection.empty tags).run.run w₁).1 := by
  have listed := stable.available w
  unfold askAvailable at listed
  refine ⟨(s.available.run.run w).2, ?_⟩
  rw [loadAll, ask_bind]
  rcases asked : s.available.run.run w with ⟨fault | listing, w₁⟩
  · rw [asked] at listed
    cases listed
  · rw [asked] at listed
    cases listed
    rfl

end Supplier

namespace Translator

/-- Loading on demand: the reply of a switch, and the catalog that is active afterwards. -/
theorem switchLanguage_stable (stable : s.Stable tags answer) (active : Catalog)
    (requested : Tag) (w : σ) :
    (((Translator.mk s active).switchLanguage requested).run w).1
      = match (negotiate requested tags).tag? with
        | none => (.ok (negotiate requested tags), ⟨s, Catalog.sourceOnly⟩)
        | some tag =>
          match answer tag with
          | .error fault => (.error fault, ⟨s, active⟩)
          | .ok catalog => (.ok (negotiate requested tags), ⟨s, catalog⟩) := by
  have listed := stable.available w
  rw [switchLanguage_run, choose_run]
  rcases asked : s.askAvailable w with ⟨fault | listing, w₁⟩
  · rw [asked] at listed
    cases listed
  · rw [asked] at listed
    cases listed
    cases chosen : (negotiate requested tags).tag? with
    | none => simp only [chosen]
    | some tag =>
      simp only [chosen]
      rw [← stable.load tag w₁]
      rcases s.askLoad tag w₁ with ⟨fault | catalog, w₂⟩ <;> rfl

end Translator

/-- **Both ways agree.** With a supplier whose answers do not change, loading everything succeeds
iff loading each listed catalog does. If it does, a switch to any locale, whatever was active
before, succeeds with the match that the collection selects, and all texts shown afterwards are
those that the collection resolves for this locale. -/
theorem eager_lazy_agree (stable : s.Stable tags answer) (w : σ) :
    ((∃ set, (s.loadAll.run.run w).1 = .ok set) ↔
      ∀ tag ∈ tags, ∃ catalog, answer tag = .ok catalog) ∧
    ∀ set, (s.loadAll.run.run w).1 = .ok set →
      ∀ (active : Catalog) (requested : Tag) (w' : σ),
        ∃ t' : Translator (StateM σ),
          (((Translator.mk s active).switchLanguage requested).run w').1
            = (.ok (set.select requested), t') ∧
          ∀ context source arguments,
            t'.tr context source = set.resolve context source requested ∧
            t'.trArgs context source arguments
              = Placeholder.fill (set.resolve context source requested) arguments := by
  obtain ⟨w₁, all⟩ := Supplier.loadAll_run stable w
  rw [all]
  refine ⟨Supplier.loadInto_ok_iff stable _ tags w₁, fun set loaded active requested w' => ?_⟩
  have complete := (Supplier.loadInto_ok_iff stable _ tags w₁).mp ⟨set, loaded⟩
  have stored : ∀ tag, set.get? tag = if tag ∈ tags then (answer tag).toOption else none :=
    Supplier.get?_of_loadInto stable loaded
  -- the collection has the listed tags, though in another order and each once
  have same : ∀ tag, tag ∈ tags ↔ tag ∈ set.tags := by
    intro tag
    rw [Collection.mem_tags, stored]
    by_cases listed : tag ∈ tags
    · obtain ⟨catalog, given⟩ := complete tag listed
      simp [listed, given, Except.toOption]
    · simp [listed]
  have selected : set.select requested = negotiate requested tags :=
    (negotiate_congr requested same).symm
  have active_after : ∃ t' : Translator (StateM σ),
      (((Translator.mk s active).switchLanguage requested).run w').1
        = (.ok (set.select requested), t') ∧
      t'.active = (set.catalogFor? requested).getD Catalog.sourceOnly := by
    unfold Collection.catalogFor?
    rw [Translator.switchLanguage_stable stable, selected]
    cases chosen : (negotiate requested tags).tag? with
    | none => exact ⟨_, rfl, rfl⟩
    | some tag =>
      -- only a listed tag is chosen, and every listed one has been stored
      have listed : tag ∈ tags := mem_of_tag?_negotiate chosen
      obtain ⟨catalog, given⟩ := complete tag listed
      have held : set.get? tag = some catalog := by
        rw [stored, if_pos listed, given]
        rfl
      rw [Option.bind_some, held]
      simp only [given]
      exact ⟨_, rfl, rfl⟩
  obtain ⟨t', switched, active_eq⟩ := active_after
  have shown : ∀ context source,
      t'.tr context source = set.resolve context source requested := by
    intro context source
    rw [Collection.resolve_eq, ← active_eq]
    rfl
  exact ⟨t', switched, fun context source arguments =>
    ⟨shown context source, congrArg (Placeholder.fill · arguments) (shown context source)⟩⟩

/-- The two ways side by side for a list that is out of order and has a tag twice, with a request
for a region that nothing is listed for. -/
theorem eager_lazy_agree_unsorted :
    ∃ hungarian czech czechRegion : Tag, hungarian.text = "hu-HU" ∧ czech.text = "cs" ∧
      czechRegion.text = "cs-CZ" ∧
      ∃ set : Collection,
        (((Supplier.counting [hungarian, czech, hungarian] fun tag =>
          .ok (Catalog.ofEdits tag [])).loadAll.run).run 0).1 = .ok set ∧
        ∃ t' : Translator (StateM Nat),
          (((Translator.mk (Supplier.counting [hungarian, czech, hungarian] fun tag =>
            .ok (Catalog.ofEdits tag [])) Catalog.sourceOnly).switchLanguage czechRegion).run 4).1
            = (.ok (set.select czechRegion), t') ∧
          t'.tr "AboutDialog" "Close" = set.resolve "AboutDialog" "Close" czechRegion := by
  refine ⟨Tag.ofPieces ['h', 'u'] [['H', 'U']] (by decide) (by decide),
    Tag.ofPieces ['c', 's'] [] (by decide) (by decide),
    Tag.ofPieces ['c', 's'] [['C', 'Z']] (by decide) (by decide), by decide, by decide,
    by decide, ?_⟩
  obtain ⟨succeeds, agree⟩ := eager_lazy_agree
    (Supplier.stable_counting
      [Tag.ofPieces ['h', 'u'] [['H', 'U']] (by decide) (by decide),
        Tag.ofPieces ['c', 's'] [] (by decide) (by decide),
        Tag.ofPieces ['h', 'u'] [['H', 'U']] (by decide) (by decide)]
      fun tag => .ok (Catalog.ofEdits tag [])) 0
  obtain ⟨set, loaded⟩ := succeeds.mpr fun tag _ => ⟨Catalog.ofEdits tag [], rfl⟩
  obtain ⟨t', switched, shown⟩ := agree set loaded Catalog.sourceOnly
    (Tag.ofPieces ['c', 's'] [['C', 'Z']] (by decide) (by decide)) 4
  exact ⟨set, loaded, t', switched, (shown "AboutDialog" "Close" []).1⟩

end Phrasebook
