import Phrasebook.Proofs.Command.Check

/-!
# Checking many files

The command `check` goes through its files one by one. What it writes of a file does not depend
on the others, and its verdict on all of them is one on each: there is no file that ends the
command, hides another one or makes up for it.

- `Readable`: all files can be read, and reading changes nothing.
- `blockOf`, `Passes`: what is written of a file, and what is asked of it.
- `askCheckFiles_of_readable`: the loop over the files, by induction on them.
- `verdictOf_eq_none_iff`: the two counts say whether there is a file that does not pass.
- `check_by_file`: output and verdict of the command.
-/

namespace Phrasebook

open Linguist Storage

/-! ## One file -/

/-- What the command writes of a file. -/
def blockOf (catalogs : CatalogDirectory) (file : Pathname) (content : Bytes) : String :=
  (checkFile catalogs file content).1 ++ "\n"

/-- What the command asks of a file: its content is a catalog, and with `strict` a clean one. -/
def Passes (catalogs : CatalogDirectory) (strict : Bool) (file : Pathname) (content : Bytes) :
    Prop :=
  ∃ catalog, parseCatalog (catalogs.options (catalogs.tagOfPath? file)) content = .ok catalog ∧
    (strict = true → (Report.ofCatalog catalog).isClean = true)

/-- The judgement on a file says whether it passes. -/
theorem passes_iff (catalogs : CatalogDirectory) (strict : Bool) (file : Pathname)
    (content : Bytes) :
    Passes catalogs strict file content ↔
      (checkFile catalogs file content).2 ≠ .refused ∧
        (strict = true → (checkFile catalogs file content).2 ≠ .unclean) := by
  rw [Passes, checkFile]
  cases parseCatalog (catalogs.options (catalogs.tagOfPath? file)) content with
  | ok catalog => cases clean : (Report.ofCatalog catalog).isClean <;> simp [clean]
  | error fault => simp

/-! ## The verdict -/

/-- **The counts find every file that does not pass.** -/
theorem verdictOf_eq_none_iff (strict : Bool) (verdicts : List Verdict) :
    verdictOf strict verdicts = none ↔
      ∀ verdict ∈ verdicts, verdict ≠ .refused ∧ (strict = true → verdict ≠ .unclean) := by
  have absent : ∀ v : Verdict, ¬ 0 < verdicts.count v ↔ ∀ verdict ∈ verdicts, verdict ≠ v := by
    intro v
    rw [List.count_pos_iff]
    exact ⟨fun unseen verdict mem same => unseen (same ▸ mem), fun all mem => all v mem rfl⟩
  rw [verdictOf]
  by_cases refused : 0 < verdicts.count .refused
  · have mem := List.count_pos_iff.mp refused
    rw [if_pos refused]
    exact ⟨nofun, fun all => absurd rfl (all _ mem).1⟩
  · have known := (absent .refused).mp refused
    rw [if_neg refused]
    cases strict with
    | false => exact ⟨fun _ v mem => ⟨known v mem, nofun⟩, fun _ => rfl⟩
    | true =>
      rw [Bool.true_and]
      by_cases unclean : 0 < verdicts.count .unclean
      · have mem := List.count_pos_iff.mp unclean
        rw [if_pos (decide_eq_true unclean)]
        exact ⟨nofun, fun all => absurd rfl ((all _ mem).2 rfl)⟩
      · have clean := (absent .unclean).mp unclean
        rw [if_neg (by simpa using unclean)]
        exact ⟨fun _ v mem => ⟨known v mem, fun _ => clean v mem⟩, fun _ => rfl⟩

/-! ## All files -/

section

variable {σ : Type} [MonadStorage (StateM σ)]

/-- All files can be read in a state of the file system, which stays as it is. -/
def Readable (files : List Pathname) (content : Pathname → Bytes) (w : σ) : Prop :=
  ∀ file ∈ files, askRead file w = (.ok (content file), w)

/-- What the command makes of the files it has gone through. -/
theorem askCheck_run (settings : Settings) (files : List Pathname) (strict : Bool) (w : σ) :
    askCheck settings files strict w
      = match askCheckFiles settings.catalogs files w with
        | ((checked, unreadable), w₁) =>
          ({ output := linesText (checked.map Prod.fst)
             failure := match unreadable with
              | some file => some (.unreadable file)
              | none => verdictOf strict (checked.map Prod.snd) }, w₁) := by
  rw [askCheck, runCheck, StateT.run_bind, askCheckFiles]
  rcases (checkFiles settings.catalogs files : StateM σ _).run w with ⟨⟨checked, unreadable⟩, w₁⟩
  rfl

variable {files : List Pathname} {content : Pathname → Bytes} {w : σ}

/-- **Every file is checked**, whatever became of those before it. -/
theorem askCheckFiles_of_readable (d : CatalogDirectory) (readable : Readable files content w) :
    askCheckFiles d files w = ((files.map fun file => checkFile d file (content file), none), w) := by
  induction files with
  | nil => rfl
  | cons file files ih =>
    obtain ⟨first, rest⟩ := List.forall_mem_cons.mp readable
    rw [askCheckFiles_cons, first]
    dsimp only
    rw [ih rest]
    rfl

/-- The outcome of the command, from what is made of each file. -/
theorem askCheck_of_readable (settings : Settings) (strict : Bool)
    (readable : Readable files content w) :
    askCheck settings files strict w
      = ({ output := String.join
             (files.map fun file => blockOf settings.catalogs file (content file))
           failure := verdictOf strict
             (files.map fun file => (checkFile settings.catalogs file (content file)).2) }, w) := by
  rw [askCheck_run, askCheckFiles_of_readable settings.catalogs readable]
  dsimp only
  rw [linesText, List.map_map, List.map_map, List.map_map]
  rfl

/-- **The command goes by each file.** All files can be read. Then the command writes one block for
each of them, in their order, and the block of a file is what the command writes for that file
alone, in whatever state and under whatever demands it finds the same content. The command
succeeds if and only if each file passes. -/
theorem check_by_file (settings : Settings) (strict : Bool)
    (readable : Readable files content w) :
    (askCheck settings files strict w).1.output
      = String.join (files.map fun file => blockOf settings.catalogs file (content file)) ∧
    (∀ file ∈ files, ∀ (strict' : Bool) (w' : σ), (askRead file w').1 = .ok (content file) →
      (askCheck settings [file] strict' w').1.output
        = blockOf settings.catalogs file (content file)) ∧
    ((askCheck settings files strict w).1.failure = none ↔
      ∀ file ∈ files, Passes settings.catalogs strict file (content file)) ∧
    (askCheck settings files strict w).2 = w := by
  rw [askCheck_of_readable settings strict readable]
  refine ⟨rfl, fun file _ strict' w' given => ?alone, ?verdict, rfl⟩
  case alone => rw [askCheck_singleton settings file strict' given, blockOf]
  case verdict =>
    show verdictOf strict _ = none ↔ _
    rw [verdictOf_eq_none_iff, List.forall_mem_map]
    simp only [passes_iff]

end

/-- A directory with a file that is no catalog, and one that is. -/
def mixedFiles : Tree where
  workingDirectory := []
  items := [(["gui_cs.ts"], .file (bytesOf "<TS>")), (["gui_hr.ts"], .file (bytesOf "<TS/>"))]

/-- A file that is no catalog stands before one that is, and again behind it. -/
theorem check_by_file_mixed :
    ∃ (settings : Settings) (content : Pathname → Bytes) (files : List Pathname),
      files = [⟨"gui_cs.ts"⟩, ⟨"./gui_hr.ts"⟩, ⟨"gui_cs.ts"⟩] ∧ Readable files content mixedFiles ∧
      (askCheck settings files true mixedFiles).1.output
        = String.join [blockOf settings.catalogs ⟨"gui_cs.ts"⟩ (bytesOf "<TS>"),
            blockOf settings.catalogs ⟨"./gui_hr.ts"⟩ (bytesOf "<TS/>"),
            blockOf settings.catalogs ⟨"gui_cs.ts"⟩ (bytesOf "<TS>")] ∧
      ((askCheck settings files true mixedFiles).1.failure = none ↔
        Passes settings.catalogs true ⟨"gui_cs.ts"⟩ (bytesOf "<TS>") ∧
        Passes settings.catalogs true ⟨"./gui_hr.ts"⟩ (bytesOf "<TS/>")) := by
  let content : Pathname → Bytes := fun file =>
    if file = ⟨"gui_cs.ts"⟩ then bytesOf "<TS>" else bytesOf "<TS/>"
  have readable : Readable [⟨"gui_cs.ts"⟩, ⟨"./gui_hr.ts"⟩, ⟨"gui_cs.ts"⟩] content mixedFiles := by
    have bad : mixedFiles.read ⟨"gui_cs.ts"⟩ = .ok (bytesOf "<TS>") := by
      decide
    have good : mixedFiles.read ⟨"./gui_hr.ts"⟩ = .ok (bytesOf "<TS/>") := by
      decide
    intro file mem
    simp only [List.mem_cons, List.not_mem_nil, or_false] at mem
    rcases mem with rfl | rfl | rfl
    · exact congrArg (·, mixedFiles) bad
    · exact congrArg (·, mixedFiles) good
    · exact congrArg (·, mixedFiles) bad
  obtain ⟨output, -, verdict, -⟩ := check_by_file {} true readable
  refine ⟨{}, content, _, rfl, readable, output, verdict.trans ?_⟩
  -- the file that is named twice is judged by one content
  constructor
  · intro all
    exact ⟨all ⟨"gui_cs.ts"⟩ (by simp), all ⟨"./gui_hr.ts"⟩ (by simp)⟩
  · rintro ⟨first, second⟩ file mem
    simp only [List.mem_cons, List.not_mem_nil, or_false] at mem
    rcases mem with rfl | rfl | rfl
    · exact first
    · exact second
    · exact first

end Phrasebook
