import Phrasebook.Command.Run
import Phrasebook.Proofs.Storage.Pathname
import Phrasebook.Proofs.Supplier.Directory
import Phrasebook.Storage.Tree

/-!
# Checking what is loaded

A catalog in a directory can be loaded for its tag, and its file can be given to the command
`check`. The two find the tag in different ways: the listing of the directory takes prefix and
ending off the name, and the command takes the extension off the last name of a path and then the
prefix. For a file of the listing both find the same tag, so they read its content alike, and a
catalog that passes the check is one that loads.

- `tagOfPath?_join`: the two ways to a tag.
- `askCheckFiles_cons`, `askCheck_singleton`: the command, one file at a time.
- `Agree`: a request to load and a check with one result. `agree_askCheck` says that the command
  goes by what it parses.
- `check_agrees`: every file of every directory.
-/

namespace Phrasebook

open Phrasebook.Locale Linguist Markup Storage

/-! ## The tag of a path -/

/-- Nothing spells no tag. -/
theorem toList_ne_nil_of_parse {spelling : String} {tag : Tag}
    (parsed : Tag.parse spelling = .ok tag) : spelling.toList ≠ [] := by
  intro nothing
  have empty : spelling = "" := String.toList_inj.mp nothing
  subst empty
  cases parsed

namespace CatalogDirectory

/-- The name of a catalog is one that a file in a directory can have. -/
theorem Names.proper {d : CatalogDirectory} {name : String} {tag : Tag} (named : d.Names name tag)
    (plain : '/' ∉ name.toList) : Proper name.toList := by
  -- with the ending alone it is too long for a name that leads nowhere
  have long : 3 ≤ name.toList.length := by
    obtain ⟨spelling, rfl, -⟩ := named
    simp only [String.toList_append, List.length_append]
    exact Nat.le_add_left _ _
  refine ⟨plain, ?_, ?_⟩
  · apply Bool.eq_false_iff.mpr
    intro idle
    simp only [Pathname.isIdle, Bool.or_eq_true, beq_iff_eq] at idle
    rcases idle with idle | idle <;>
    · rw [idle] at long
      exact absurd long (by decide)
  · intro back
    rw [back] at long
    exact absurd long (by decide)

/-- **A path of the listing names its tag**, whatever the prefix and the spelling. -/
theorem tagOfPath?_join {d : CatalogDirectory} {name : String} {tag : Tag}
    (named : d.Names name tag) (plain : '/' ∉ name.toList) :
    d.tagOfPath? (d.path.join ⟨name⟩) = some tag := by
  have proper := named.proper plain
  obtain ⟨spelling, rfl, parsed⟩ := named
  have nonempty : d.filePrefix.toList ++ spelling.toList ≠ [] := by
    simp [toList_ne_nil_of_parse parsed]
  -- the last dot is the one of the ending, even if the spelling has dots as well
  have ending : (d.filePrefix ++ spelling ++ ".ts").toList
      = (d.filePrefix.toList ++ spelling.toList) ++ '.' :: ['t', 's'] := by
    simp
  have stem := Pathname.stem?_join d.path proper nonempty (by decide) ending
  simp only [tagOfPath?, tagAfterPrefix?, stem, Option.bind_eq_bind, Option.bind_some,
    Option.bind_eq_some_iff, List.isPrefixOf?_eq_some_iff_append_eq, parse_toOption_eq_some_iff,
    String.toList_ofList]
  refine ⟨spelling.toList, rfl, ?_⟩
  rw [String.ofList_toList]
  exact parsed

end CatalogDirectory

/-! ## The command -/

section

variable {σ : Type} [MonadStorage (StateM σ)]

/-- What the command says of some files in a state of the file system, and the file it could not
read, with the state afterwards. -/
def askCheckFiles (d : CatalogDirectory) (files : List Pathname) (w : σ) :
    (List (String × Verdict) × Option Pathname) × σ :=
  (checkFiles d files : StateM σ _).run w

/-- What the command writes in a state of the file system, and the state afterwards. -/
def askCheck (settings : Settings) (files : List Pathname) (strict : Bool) (w : σ) : Outcome × σ :=
  (runCheck settings files strict : StateM σ _).run w

/-- One file of the command: it is read and judged, or it ends the command. -/
theorem askCheckFiles_cons (d : CatalogDirectory) (file : Pathname) (files : List Pathname)
    (w : σ) :
    askCheckFiles d (file :: files) w
      = match askRead file w with
        | (.error _, w₁) => (([], some file), w₁)
        | (.ok content, w₁) =>
          match askCheckFiles d files w₁ with
          | ((checked, unreadable), w₂) =>
            ((checkFile d file content :: checked, unreadable), w₂) := by
  unfold askCheckFiles askRead
  rw [checkFiles, StateT.run_bind]
  rcases (MonadStorage.read file : StateM σ _).run w with ⟨error | content, w₁⟩
  · rfl
  · show (checkFiles d files >>= fun rest =>
      (pure (checkFile d file content :: rest.1, rest.2) : StateM σ _)).run w₁ = _
    rw [StateT.run_bind]
    dsimp only
    rcases (checkFiles d files : StateM σ _).run w₁ with ⟨⟨checked, unreadable⟩, w₂⟩
    rfl

theorem linesText_singleton (text : String) : linesText [text] = text ++ "\n" := by
  simp [linesText, String.join_cons]

/-- The command for one file that can be read. -/
theorem askCheck_singleton (settings : Settings) (file : Pathname) (strict : Bool) {w : σ}
    {content : Bytes} (given : (askRead file w).1 = .ok content) :
    (askCheck settings [file] strict w).1
      = { output := (checkFile settings.catalogs file content).1 ++ "\n"
          failure := verdictOf strict [(checkFile settings.catalogs file content).2] } := by
  have checked : (askCheckFiles settings.catalogs [file] w).1
      = ([checkFile settings.catalogs file content], none) := by
    rw [askCheckFiles_cons]
    rcases asked : askRead file w with ⟨error | content', w₁⟩
    · rw [asked] at given
      cases given
    · rw [asked] at given
      cases given
      rfl
  unfold askCheckFiles at checked
  unfold askCheck
  rw [runCheck, StateT.run_bind]
  rcases asked : (checkFiles settings.catalogs [file] : StateM σ _).run w with ⟨result, w₁⟩
  rw [asked] at checked
  cases checked
  show ({ output := linesText [_], failure := _ } : Outcome) = _
  rw [linesText_singleton]
  rfl

/-! ## Loading and checking -/

/-- What a request to load a file and a check of it come to, if both find the same. -/
inductive Agree (strict : Bool) (path : Pathname) :
    Except SupplyFault Catalog → Outcome → Prop where
  /-- The catalog is loaded, and the check shows its report. -/
  | accepted (catalog : Catalog) :
      Agree strict path (.ok catalog) {
        output := path.text ++ ": " ++ (Report.ofCatalog catalog).summary ++ "\n"
        failure :=
          if strict && !(Report.ofCatalog catalog).isClean then some (.unclean 1) else none }
  /-- The content is refused, for the reason that the check shows. -/
  | refused (fault : Fault) :
      Agree strict path (.error (.unparsable path fault)) {
        output := path.text ++ ": error: " ++ fault.message ++ "\n"
        failure := some (.refused 1 1) }

/-- The command for one file, beside what its content is parsed as. -/
theorem agree_askCheck (settings : Settings) (path : Pathname) (strict : Bool) {w : σ}
    {bytes : Bytes} (given : (askRead path w).1 = .ok bytes) :
    Agree strict path
      ((parseCatalog (settings.catalogs.options (settings.catalogs.tagOfPath? path))
        bytes).mapError (.unparsable path))
      (askCheck settings [path] strict w).1 := by
  rw [askCheck_singleton settings path strict given, checkFile]
  cases parseCatalog (settings.catalogs.options (settings.catalogs.tagOfPath? path)) bytes with
  | ok catalog =>
    have failure : verdictOf strict
        [if (Report.ofCatalog catalog).isClean then Verdict.clean else Verdict.unclean]
          = if strict && !(Report.ofCatalog catalog).isClean then some (.unclean 1) else none := by
      cases strict <;> cases (Report.ofCatalog catalog).isClean <;> rfl
    dsimp only [Except.mapError]
    rw [failure]
    exact .accepted catalog
  | error fault => exact .refused fault

/-- **The command `check` and the loader agree.** The names in the directory are those of files, so
they have no slash. Then every path of the listing names the tag it is listed under. The file that
is loaded for a tag is the least of those, and if its content is read, the answer to the request
is what the command parses, with the same options: a catalog, of which the command shows the
report, or a fault, which the command shows. -/
theorem check_agrees (settings : Settings) {names : List String} {w : σ}
    (lists : Lists settings.catalogs.path names w) (plain : ∀ name ∈ names, '/' ∉ name.toList) :
    (settings.catalogs.askCatalogFiles w).1 = .ok (settings.catalogs.arrange names) ∧
    (∀ file ∈ settings.catalogs.arrange names,
      settings.catalogs.tagOfPath? file.2 = some file.1) ∧
    ∀ (tag : Tag) (path : Pathname), (tag, path) ∈ settings.catalogs.arrange names →
      (∀ other, (tag, other) ∈ settings.catalogs.arrange names →
        bytesOf path.text ≤ bytesOf other.text) →
      ∀ bytes, (askRead path (askList settings.catalogs.path w).2).1 = .ok bytes →
        (settings.catalogs.supplier.askLoad tag w).1
          = (parseCatalog (settings.catalogs.options (settings.catalogs.tagOfPath? path))
              bytes).mapError (.unparsable path) ∧
        ∀ (strict : Bool) (w' : σ), (askRead path w').1 = .ok bytes →
          Agree strict path (settings.catalogs.supplier.askLoad tag w).1
            (askCheck settings [path] strict w').1 := by
  have tags : ∀ file ∈ settings.catalogs.arrange names,
      settings.catalogs.tagOfPath? file.2 = some file.1 := by
    rintro ⟨tag, path⟩ member
    obtain ⟨name, listed, named, rfl⟩ := (settings.catalogs.mem_arrange names tag path).mp member
    exact CatalogDirectory.tagOfPath?_join named (plain name listed)
  refine ⟨settings.catalogs.askCatalogFiles_of_lists lists, tags,
    fun tag path member least bytes read => ?_⟩
  have found := (settings.catalogs.lookup_arrange_eq_some_iff names tag path).mpr ⟨member, least⟩
  have loaded : (settings.catalogs.supplier.askLoad tag w).1
      = (parseCatalog (settings.catalogs.options (settings.catalogs.tagOfPath? path))
          bytes).mapError (.unparsable path) := by
    rw [settings.catalogs.askLoad_of_lists lists, found, tags _ member]
    dsimp only
    rw [CatalogDirectory.openAs_fst, read]
  refine ⟨loaded, fun strict w' read' => ?_⟩
  rw [loaded]
  exact agree_askCheck settings path strict read'

end

/-- A directory in which two names spell one tag, with dots in the prefix and in a spelling. -/
def twoSpellings : Tree where
  workingDirectory := []
  items := [(["lang"], .directory), (["lang", "app.v2_cs_CZ.UTF-8@euro.ts"], .file []),
    (["lang", "app.v2_cs-cz.ts"], .file (bytesOf "<TS/>"))]

/-- Loading and checking the least of two files for one tag. -/
theorem check_agrees_two_spellings :
    ∃ (settings : Settings) (tag : Tag), tag.text = "cs-CZ" ∧
      settings.catalogs.tagOfPath? ⟨"lang/app.v2_cs-cz.ts"⟩ = some tag ∧
      Agree true ⟨"lang/app.v2_cs-cz.ts"⟩ (settings.catalogs.supplier.askLoad tag twoSpellings).1
        (askCheck settings [⟨"lang/app.v2_cs-cz.ts"⟩] true twoSpellings).1 := by
  let settings : Settings := { catalogs := { path := ⟨"lang"⟩, filePrefix := "app.v2_" } }
  let tag : Tag := Tag.ofPieces ['c', 's'] [['C', 'Z']] (by decide) (by decide)
  let names := ["app.v2_cs_CZ.UTF-8@euro.ts", "app.v2_cs-cz.ts"]
  have listing : twoSpellings.list ⟨"lang"⟩ = .ok names := by
    decide
  have content : twoSpellings.read ⟨"lang/app.v2_cs-cz.ts"⟩ = .ok (bytesOf "<TS/>") := by
    decide
  have lists : Lists settings.catalogs.path names twoSpellings :=
    ⟨names, twoSpellings, congrArg (·, twoSpellings) listing, List.Perm.refl names⟩
  obtain ⟨-, tags, agree⟩ := check_agrees settings lists (by decide)
  have member : (tag, ⟨"lang/app.v2_cs-cz.ts"⟩) ∈ settings.catalogs.arrange names :=
    (settings.catalogs.mem_arrange _ _ _).mpr
      ⟨"app.v2_cs-cz.ts", by decide, ⟨"cs-cz", by decide, by rfl⟩, by decide⟩
  refine ⟨settings, tag, by decide, tags _ member, ?_⟩
  refine (agree tag _ member ?_ (bytesOf "<TS/>") content).2 true twoSpellings content
  intro other found
  obtain ⟨name, listed, -, rfl⟩ := (settings.catalogs.mem_arrange _ _ _).mp found
  rcases List.mem_pair.mp listed with rfl | rfl <;> decide

end Phrasebook
