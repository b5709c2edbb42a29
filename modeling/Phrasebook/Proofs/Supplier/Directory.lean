import Mathlib.Data.List.Perm.Basic
import Phrasebook.Proofs.Linguist.Defect
import Phrasebook.Proofs.Locale.TagOrder
import Phrasebook.Proofs.Storage.Pathname
import Phrasebook.Proofs.Translator.Runs
import Phrasebook.Supplier.Directory

/-!
# What a directory supplies

A file system lists a directory in whatever order it likes, and several names can stand for one
tag. What the supplier of a directory lists and loads must not show that: it is a function of the
names alone. The file system is in any state that lists these names, and what it answers to later
requests is its own business.

- `Names`: the name of a catalog, with the tag that is spelled in it.
- `Before`: the order of catalogs, byte by byte. `precedes_iff` and `pairwise_arrange` say that it
  is the order they are arranged in, `arrange_perm` that the order of the names is lost.
- `lookup_arrange_eq_some_iff`: the path that is found for a tag is the least one.
- `Lists`: a state of the file system in which a directory has some names.
- `askLoad_run`: loading, from the listing to the reading of one path.
- `supplier_of_names`: all of this, for every directory and every tag.
-/

namespace Phrasebook

open Phrasebook.Locale Linguist Markup Storage Text

namespace CatalogDirectory

variable (d : CatalogDirectory)

/-! ## Names -/

/-- The name is that of a catalog: between the prefix and the ending, the tag is spelled. -/
def Names (name : String) (tag : Tag) : Prop :=
  ∃ spelling, name = d.filePrefix ++ spelling ++ ".ts" ∧ Tag.parse spelling = .ok tag

theorem parse_toOption_eq_some_iff {spelling : String} {tag : Tag} :
    (Tag.parse spelling).toOption = some tag ↔ Tag.parse spelling = .ok tag := by
  cases Tag.parse spelling <;> simp [Except.toOption]

theorem tagOfName?_eq_some_iff (name : String) (tag : Tag) :
    d.tagOfName? name = some tag ↔ d.Names name tag := by
  simp only [tagOfName?, Option.bind_eq_bind, Option.bind_eq_some_iff,
    List.isPrefixOf?_eq_some_iff_append_eq, List.isSuffixOf?_eq_some_iff_append_eq,
    parse_toOption_eq_some_iff]
  constructor
  · rintro ⟨written, begins, spelling, rfl, parsed⟩
    refine ⟨String.ofList spelling, ?_, parsed⟩
    apply String.toList_inj.mp
    rw [← begins]
    simp [catalogSuffix]
  · rintro ⟨spelling, rfl, parsed⟩
    refine ⟨spelling.toList ++ catalogSuffix.toList, ?_, spelling.toList, rfl, ?_⟩
    · simp [catalogSuffix]
    · rw [String.ofList_toList]
      exact parsed

/-! ## Order -/

/-- The order of catalogs: by the bytes of their tags, and by those of their paths under one
tag. -/
def Before (x y : Tag × Pathname) : Prop :=
  bytesOf x.1.text < bytesOf y.1.text ∨ x.1 = y.1 ∧ bytesOf x.2.text ≤ bytesOf y.2.text

theorem precedes_iff (x y : Tag × Pathname) : precedes x y = true ↔ Before x y := by
  unfold precedes Before
  rw [← Tag.compare_eq_lt_iff, ← Text.isLE_compare_iff]
  cases byTag : compare x.1 y.1 with
  | lt => simp
  | eq =>
    have same : x.1 = y.1 := Std.LawfulEqOrd.eq_of_compare byTag
    simp only [same, Ordering.then, true_and, reduceCtorEq, false_or]
    rfl
  | gt =>
    have other : x.1 ≠ y.1 := by
      intro same
      have equal : compare x.1 y.1 = .eq := same ▸ Std.ReflCmp.compare_self
      rw [byTag] at equal
      cases equal
    simp [other]

/-- The comparison behind `precedes`. -/
theorem precedes_eq (x y : Tag × Pathname) :
    precedes x y = (compareLex (compareOn Prod.fst) (compareOn Prod.snd) x y).isLE :=
  rfl

theorem precedes_trans (x y z : Tag × Pathname) (first : precedes x y = true)
    (second : precedes y z = true) : precedes x z = true := by
  rw [precedes_eq] at first second ⊢
  exact Std.TransCmp.isLE_trans first second

theorem precedes_total (x y : Tag × Pathname) : (precedes x y || precedes y x) = true := by
  have swapped : compareLex (compareOn Prod.fst) (compareOn Prod.snd) y x
      = (compareLex (compareOn Prod.fst) (compareOn Prod.snd) x y).swap :=
    Std.OrientedCmp.eq_swap
  rw [precedes_eq, precedes_eq, swapped]
  cases compareLex (compareOn Prod.fst) (compareOn Prod.snd) x y <;> rfl

theorem precedes_antisymm {x y : Tag × Pathname} (first : precedes x y = true)
    (second : precedes y x = true) : x = y := by
  rw [precedes_eq] at first second
  have equal := Std.OrientedCmp.isLE_antisymm first second
  have both := Ordering.then_eq_eq.mp equal
  exact Prod.ext (Std.LawfulEqOrd.eq_of_compare both.1) (Std.LawfulEqOrd.eq_of_compare both.2)

/-! ## Arranged names -/

theorem pairwise_precedes (names : List String) : (d.arrange names).Pairwise (precedes · ·) :=
  List.pairwise_mergeSort precedes_trans precedes_total _

/-- **The order of catalogs.** -/
theorem pairwise_arrange (names : List String) : (d.arrange names).Pairwise Before :=
  (d.pairwise_precedes names).imp fun {x y} => (precedes_iff x y).mp

/-- **The order in which a directory is enumerated is lost.** -/
theorem arrange_perm {names names' : List String} (same : names.Perm names') :
    d.arrange names = d.arrange names' := by
  have entries : (d.arrange names).Perm (d.arrange names') :=
    (List.mergeSort_perm _ _).trans <|
      (same.filterMap _).trans (List.mergeSort_perm _ _).symm
  exact entries.eq_of_pairwise (fun x y _ _ => precedes_antisymm) (d.pairwise_precedes names)
    (d.pairwise_precedes names')

theorem mem_arrange (names : List String) (tag : Tag) (path : Pathname) :
    (tag, path) ∈ d.arrange names ↔
      ∃ name ∈ names, d.Names name tag ∧ path = d.path.join ⟨name⟩ := by
  simp only [arrange, List.mem_mergeSort, List.mem_filterMap, Option.map_eq_some_iff,
    tagOfName?_eq_some_iff, Prod.mk.injEq]
  constructor
  · rintro ⟨name, listed, tag, named, rfl, rfl⟩
    exact ⟨name, listed, named, rfl⟩
  · rintro ⟨name, listed, named, rfl⟩
    exact ⟨name, listed, tag, named, rfl, rfl⟩

/-- Before they are sorted, the catalogs stand in the order of their names. -/
theorem forall₂_filterMap (names : List String) :
    List.Forall₂ (fun file name => d.Names name file.1 ∧ file.2 = d.path.join ⟨name⟩)
      (names.filterMap fun name => (d.tagOfName? name).map fun tag => (tag, d.path.join ⟨name⟩))
      (names.filter fun name => (d.tagOfName? name).isSome) := by
  induction names with
  | nil => exact .nil
  | cons name names ih =>
    cases written : d.tagOfName? name with
    | none => simpa [written] using ih
    | some tag =>
      have named := (d.tagOfName?_eq_some_iff name tag).mp written
      simpa [written] using ⟨named, ih⟩

/-- Each name is either that of one catalog or skipped. -/
theorem arrange_splits (names : List String) :
    ∃ kept skipped, (kept ++ skipped).Perm names ∧
      List.Forall₂ (fun file name => d.Names name file.1 ∧ file.2 = d.path.join ⟨name⟩)
        (d.arrange names) kept ∧
      ∀ name ∈ skipped, ∀ tag, ¬ d.Names name tag := by
  -- sorting the catalogs sorts the names along with them
  obtain ⟨kept, files, sorted⟩ :=
    List.perm_comp_forall₂ (List.mergeSort_perm _ precedes) (d.forall₂_filterMap names)
  refine ⟨kept, names.filter fun name => !(d.tagOfName? name).isSome, ?_, files, ?_⟩
  · exact (sorted.append_right _).trans (List.filter_append_perm _ names)
  · intro name skipped tag named
    have unnamed := (List.mem_filter.mp skipped).2
    rw [(d.tagOfName?_eq_some_iff name tag).mpr named] at unnamed
    cases unnamed

/-- In a list in order, the path that is found for a tag is the least of its paths. -/
theorem le_of_lookup {files : List (Tag × Pathname)} (sorted : files.Pairwise Before) {tag : Tag}
    {path : Pathname} (found : files.lookup tag = some path) :
    (tag, path) ∈ files ∧
      ∀ other, (tag, other) ∈ files → bytesOf path.text ≤ bytesOf other.text := by
  obtain ⟨front, back, rfl, notBefore⟩ := List.lookup_eq_some_iff.mp found
  refine ⟨List.mem_append_right front List.mem_cons_self, fun other member => ?_⟩
  -- an entry in front would have been found first, and those behind are not before this one
  rcases List.mem_append.mp member with before | member
  · exact absurd (notBefore _ before) (by simp)
  · rcases List.mem_cons.mp member with same | after
    · cases same
      exact List.le_refl _
    · have order := (List.pairwise_cons.mp (List.pairwise_append.mp sorted).2.1).1 _ after
      rcases order with less | ⟨-, le⟩
      · exact absurd less (List.lt_irrefl _)
      · exact le

theorem lookup_arrange_eq_some_iff (names : List String) (tag : Tag) (path : Pathname) :
    (d.arrange names).lookup tag = some path ↔
      (tag, path) ∈ d.arrange names ∧
        ∀ other, (tag, other) ∈ d.arrange names → bytesOf path.text ≤ bytesOf other.text := by
  have sorted := d.pairwise_arrange names
  refine ⟨le_of_lookup sorted, fun ⟨member, least⟩ => ?_⟩
  have known : ((d.arrange names).lookup tag).isSome = true :=
    List.lookup_isSome_iff.mpr ⟨_, member, by simp⟩
  obtain ⟨found, lookup⟩ := Option.isSome_iff_exists.mp known
  obtain ⟨member', least'⟩ := le_of_lookup sorted lookup
  -- two least paths are one
  have le := (Text.isLE_compare_iff _ _).mpr (least' path member)
  have ge := (Text.isLE_compare_iff _ _).mpr (least found member')
  have same : found = path :=
    Std.LawfulEqOrd.eq_of_compare (Std.OrientedCmp.isLE_antisymm le ge)
  rw [lookup, same]

theorem lookup_arrange_eq_none_iff (names : List String) (tag : Tag) :
    (d.arrange names).lookup tag = none ↔ tag ∉ (d.arrange names).map Prod.fst := by
  simp only [List.lookup_eq_none_iff, List.mem_map, bne_iff_ne, ne_eq, not_exists, not_and]
  exact ⟨fun h x member same => h x member same.symm, fun h x member same => h x member same.symm⟩

/-! ## File systems -/

/-- An answer to a request, and what is made of it. -/
theorem run_accessed {α σ : Type} (path : Pathname) (request : StateM σ (Except AccessError α))
    (w : σ) :
    (accessed path request).run.run w
      = match request.run w with
        | (.error _, w₁) => (.error (.unreadable path), w₁)
        | (.ok a, w₁) => (.ok a, w₁) := by
  show (match request.run w with
    | (a, w₁) => (a.mapError fun _ => SupplyFault.unreadable path, w₁)) = _
  rcases request.run w with ⟨error | a, w₁⟩ <;> rfl

end CatalogDirectory

section

variable {σ : Type} [MonadStorage (StateM σ)]

namespace Storage

/-- The names that a file system lists in a state, and its state afterwards. -/
def askList (directory : Pathname) (w : σ) : Except AccessError (List String) × σ :=
  (MonadStorage.list directory : StateM σ _).run w

/-- The bytes that a file system gives for a path in a state, and its state afterwards. -/
def askRead (path : Pathname) (w : σ) : Except AccessError Bytes × σ :=
  (MonadStorage.read path : StateM σ _).run w

/-- The directory can be read and has these names, which are listed in some order. -/
def Lists (directory : Pathname) (names : List String) (w : σ) : Prop :=
  ∃ listed w₁, askList directory w = (.ok listed, w₁) ∧ listed.Perm names

end Storage

namespace CatalogDirectory

variable (d : CatalogDirectory)

/-- The catalogs with their tags in a state of the file system, and its state afterwards. -/
def askCatalogFiles (w : σ) : Except SupplyFault (List (Tag × Pathname)) × σ :=
  (d.catalogFiles : ExceptT SupplyFault (StateM σ) _).run.run w

/-- What comes of reading a path as the catalog for a tag. -/
def openAs (tag : Tag) (path : Pathname) (w : σ) : Except SupplyFault Catalog × σ :=
  match askRead path w with
  | (.error _, w₁) => (.error (.unreadable path), w₁)
  | (.ok bytes, w₁) =>
    ((parseCatalog (d.options (some tag)) bytes).mapError (.unparsable path), w₁)

theorem askCatalogFiles_run (w : σ) :
    d.askCatalogFiles w
      = match askList d.path w with
        | (.error _, w₁) => (.error (.unreadable d.path), w₁)
        | (.ok names, w₁) => (.ok (d.arrange names), w₁) := by
  rw [askCatalogFiles, catalogFiles, ask_bind, run_accessed]
  unfold askList
  rcases (MonadStorage.list d.path : StateM σ _).run w with ⟨error | names, w₁⟩ <;> rfl

theorem askAvailable_run (w : σ) :
    d.supplier.askAvailable w
      = match askList d.path w with
        | (.error _, w₁) => (.error (.unreadable d.path), w₁)
        | (.ok names, w₁) => (.ok ((d.arrange names).map Prod.fst), w₁) := by
  show (d.available : ExceptT SupplyFault (StateM σ) _).run.run w = _
  rw [available, ask_bind, ← askCatalogFiles, askCatalogFiles_run]
  rcases askList d.path w with ⟨error | names, w₁⟩ <;> rfl

/-- Loading: the directory is listed anew, and one of its catalogs is read. -/
theorem askLoad_run (tag : Tag) (w : σ) :
    d.supplier.askLoad tag w
      = match askList d.path w with
        | (.error _, w₁) => (.error (.unreadable d.path), w₁)
        | (.ok names, w₁) =>
          match (d.arrange names).lookup tag with
          | none => (.error (.notFound tag), w₁)
          | some path => d.openAs tag path w₁ := by
  show (d.load tag : ExceptT SupplyFault (StateM σ) _).run.run w = _
  rw [load, ask_bind, ← askCatalogFiles, askCatalogFiles_run]
  rcases askList d.path w with ⟨error | names, w₁⟩
  · rfl
  · dsimp only
    cases (d.arrange names).lookup tag with
    | none => rfl
    | some path =>
      dsimp only
      rw [ask_bind, run_accessed]
      unfold openAs askRead
      rcases (MonadStorage.read path : StateM σ _).run w₁ with ⟨error | bytes, w₂⟩ <;> rfl

/-! ## Directories that can be read -/

section

variable {names : List String} {w : σ}

theorem askCatalogFiles_of_lists (lists : Lists d.path names w) :
    (d.askCatalogFiles w).1 = .ok (d.arrange names) := by
  obtain ⟨listed, w₁, asked, same⟩ := lists
  rw [askCatalogFiles_run, asked, ← d.arrange_perm same]

theorem askAvailable_of_lists (lists : Lists d.path names w) :
    (d.supplier.askAvailable w).1 = .ok ((d.arrange names).map Prod.fst) := by
  obtain ⟨listed, w₁, asked, same⟩ := lists
  rw [askAvailable_run, asked, ← d.arrange_perm same]

theorem askLoad_of_lists (lists : Lists d.path names w) (tag : Tag) :
    d.supplier.askLoad tag w
      = match (d.arrange names).lookup tag with
        | none => (.error (.notFound tag), (askList d.path w).2)
        | some path => d.openAs tag path (askList d.path w).2 := by
  obtain ⟨listed, w₁, asked, same⟩ := lists
  rw [askLoad_run, asked, ← d.arrange_perm same]

end

/-! ## Reading one file -/

/-- What a file is read as, whatever the reading does to the file system. -/
theorem openAs_fst (tag : Tag) (path : Pathname) (w : σ) :
    (d.openAs tag path w).1
      = match (askRead path w).1 with
        | .error _ => .error (.unreadable path)
        | .ok bytes => (parseCatalog (d.options (some tag)) bytes).mapError (.unparsable path) := by
  unfold openAs
  rcases askRead path w with ⟨error | bytes, w₁⟩ <;> rfl

/-- A file that is read for a tag has a language. -/
theorem openAs_ne_missingLanguage (tag : Tag) (path path' : Pathname) (position : Position)
    (w : σ) :
    (d.openAs tag path w).1 ≠
      .error (.unparsable path' (.missingAttribute "TS" "language" position)) := by
  rw [openAs_fst]
  intro failed
  cases answer : (askRead path w).1 with
  | error error =>
    rw [answer] at failed
    cases failed
  | ok bytes =>
    rw [answer] at failed
    dsimp only at failed
    cases parsed : parseCatalog (d.options (some tag)) bytes with
    | ok catalog =>
      rw [parsed] at failed
      cases failed
    | error fault =>
      rw [parsed] at failed
      cases failed
      have value := parseCatalog_missesValue (d.options (some tag)) rfl bytes _ parsed _ _ _ rfl
      exact absurd value.1 (by decide)

theorem openAs_ne_notFound (tag absent : Tag) (path : Pathname) (w : σ) :
    (d.openAs tag path w).1 ≠ .error (.notFound absent) := by
  rw [openAs_fst]
  intro failed
  cases answer : (askRead path w).1 with
  | error error =>
    rw [answer] at failed
    cases failed
  | ok bytes =>
    rw [answer] at failed
    dsimp only at failed
    cases parsed : parseCatalog (d.options (some tag)) bytes <;>
    · rw [parsed] at failed
      cases failed

/-- **The supplier of a directory is a function of its names.** The catalogs are the files whose
name has the prefix, a spelling of a tag and the ending, each under its tag; all other names are
skipped. They are in order by tag and path. In every state of the file system in which the
directory has these names, in whatever order they are listed, this is what is listed, and the tags
of it are what is available. Loading a tag fails to find it iff it is not available. Otherwise it
reads the least path among those of its names, and what comes of it is what that file gives for
the tag; in particular the file cannot fail for want of a language. -/
theorem supplier_of_names (names : List String) :
    (∃ kept skipped, (kept ++ skipped).Perm names ∧
      List.Forall₂ (fun file name => d.Names name file.1 ∧ file.2 = d.path.join ⟨name⟩)
        (d.arrange names) kept ∧
      ∀ name ∈ skipped, ∀ tag, ¬ d.Names name tag) ∧
    (d.arrange names).Pairwise Before ∧
    ∀ w : σ, Lists d.path names w →
      (d.askCatalogFiles w).1 = .ok (d.arrange names) ∧
      (d.supplier.askAvailable w).1 = .ok ((d.arrange names).map Prod.fst) ∧
      ∀ tag,
        ((d.supplier.askLoad tag w).1 = .error (.notFound tag) ↔
          tag ∉ (d.arrange names).map Prod.fst) ∧
        (tag ∈ (d.arrange names).map Prod.fst →
          ∃ name ∈ names, d.Names name tag ∧
            (∀ other ∈ names, d.Names other tag →
              bytesOf (d.path.join ⟨name⟩).text ≤ bytesOf (d.path.join ⟨other⟩).text) ∧
            d.supplier.askLoad tag w
              = d.openAs tag (d.path.join ⟨name⟩) (askList d.path w).2) ∧
        ∀ path position,
          (d.supplier.askLoad tag w).1 ≠
            .error (.unparsable path (.missingAttribute "TS" "language" position)) := by
  refine ⟨d.arrange_splits names, d.pairwise_arrange names, fun w lists => ?_⟩
  refine ⟨d.askCatalogFiles_of_lists lists, d.askAvailable_of_lists lists, fun tag => ?_⟩
  rw [d.askLoad_of_lists lists]
  cases found : (d.arrange names).lookup tag with
  | none =>
    have absent := (d.lookup_arrange_eq_none_iff names tag).mp found
    refine ⟨iff_of_true rfl absent, fun present => absurd present absent, fun path position => ?_⟩
    intro failed
    cases failed
  | some path =>
    obtain ⟨member, least⟩ := (d.lookup_arrange_eq_some_iff names tag path).mp found
    have present : tag ∈ (d.arrange names).map Prod.fst := List.mem_map_of_mem member
    refine ⟨iff_of_false (d.openAs_ne_notFound tag tag path _) (not_not_intro present),
      fun _ => ?_, fun path' position => d.openAs_ne_missingLanguage tag path path' position _⟩
    obtain ⟨name, listed, named, rfl⟩ := (d.mem_arrange names tag path).mp member
    refine ⟨name, listed, named, fun other listed' named' => ?_, rfl⟩
    exact least _ ((d.mem_arrange names tag _).mpr ⟨other, listed', named', rfl⟩)

end CatalogDirectory

end

end Phrasebook
