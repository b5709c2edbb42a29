import Phrasebook.Command.Basic
import Phrasebook.Locale.System
import Phrasebook.Report
import Phrasebook.Settings.File
import Phrasebook.Translator

/-!
# Running commands

A command writes to standard output and may fail, in which case what it has written stays. It
never asks for anything but files and the environment.

- `Failure`: why a command failed, and how that is worded.
- `Outcome`: what a command has written, and its failure.
- `checkFile`, `verdictOf`: one file of the command `check`, and the judgement on all.
- `Invocation.run`: the outcome of a command.
-/

namespace Phrasebook

open Linguist Phrasebook.Locale Storage

/-- Why a command failed. -/
inductive Failure where
  /-- The settings could not be loaded, from a file that was named or from the usual one. -/
  | settings (file : Option Pathname)
  /-- A file to be checked could not be read. -/
  | unreadable (file : Pathname)
  /-- Some of the files that were checked are no catalogs. -/
  | refused (count total : Nat)
  /-- Some of the catalogs that were checked are not clean. -/
  | unclean (count : Nat)
  /-- Not all catalogs of a directory could be loaded. -/
  | catalogs (directory : Pathname)
  /-- The language in the settings is no tag. -/
  | language
  /-- A catalog could not be loaded. -/
  | supply (fault : SupplyFault)
  /-- There is no place for settings. -/
  | noPlace
  /-- The settings could not be saved. -/
  | unsaved (file : Pathname)
deriving DecidableEq

/-- The wording of a failure, without the causes that are listed below it. -/
def Failure.message : Failure → String
  | settings (some file) => "failed to load config " ++ file.text
  | settings none => "failed to load config"
  | unreadable file => "failed to read " ++ file.text
  | refused count total =>
    toString count ++ " of " ++ toString total ++ " catalog(s) failed to load"
  | unclean count =>
    toString count ++ " catalog(s) have duplicate messages or placeholder mismatches"
  | catalogs directory => "failed to load catalogs from " ++ directory.text
  | language => "invalid general.language in config"
  | supply fault => fault.message
  | noPlace => "no config file location on this platform"
  | unsaved file => "failed to save " ++ file.text

/-- What a command has written, and why it failed if it did. -/
structure Outcome where
  output : String := ""
  failure : Option Failure := none
deriving DecidableEq

/-- Some texts, each at the end of a line. -/
def linesText (texts : List String) : String :=
  String.join (texts.map (· ++ "\n"))

/-! ## Checking files -/

/-- The judgement on one file. -/
inductive Verdict where
  | clean
  | unclean
  | refused
deriving DecidableEq, Repr

/-- What the command `check` says of one file, and its judgement. -/
def checkFile (catalogs : CatalogDirectory) (file : Pathname) (content : Bytes) :
    String × Verdict :=
  match parseCatalog (catalogs.options (catalogs.tagOfPath? file)) content with
  | .ok catalog =>
    let report := Report.ofCatalog catalog
    (file.text ++ ": " ++ report.summary, if report.isClean then .clean else .unclean)
  | .error fault => (file.text ++ ": error: " ++ fault.message, .refused)

/-- The failure that the judgements on all files amount to. -/
def verdictOf (strict : Bool) (verdicts : List Verdict) : Option Failure :=
  let refused := verdicts.count .refused
  let unclean := verdicts.count .unclean
  if 0 < refused then some (.refused refused verdicts.length)
  else if strict && 0 < unclean then some (.unclean unclean)
  else none

section

variable {m : Type → Type} [Monad m] [MonadStorage m]

/-- Checks files in order, up to the first that cannot be read. -/
def checkFiles (catalogs : CatalogDirectory) :
    List Pathname → m (List (String × Verdict) × Option Pathname)
  | [] => return ([], none)
  | file :: files => do
    match ← MonadStorage.read file with
    | .error _ => return ([], some file)
    | .ok content =>
      let (checked, unreadable) ← checkFiles catalogs files
      return (checkFile catalogs file content :: checked, unreadable)

/-- The command `check`. -/
def runCheck (settings : Settings) (files : List Pathname) (strict : Bool) : m Outcome := do
  let (checked, unreadable) ← checkFiles settings.catalogs files
  return {
    output := linesText (checked.map Prod.fst)
    failure := match unreadable with
      | some file => some (.unreadable file)
      | none => verdictOf strict (checked.map Prod.snd) }

/-! ## Other commands -/

/-- The text that the command `report` writes for a collection. -/
def reportText (asJson : Bool) (collection : Collection) : String :=
  let reports := collection.toList.map fun entry => Report.ofCatalog entry.2
  if asJson then (Text.Json.array (reports.map Report.json)).pretty ++ "\n"
  else linesText (reports.map Report.summary)

/-- The command `report`. -/
def runReport (settings : Settings) (asJson : Bool) : m Outcome := do
  match ← (settings.catalogs.supplier (m := m)).loadAll.run with
  | .ok collection => return { output := reportText asJson collection }
  | .error _ => return { failure := some (.catalogs settings.catalogs.path) }

/-- The tag to look a message up for: the one asked for, else the one in the settings, else that
of the system. -/
def requestedTag (environment : Environment) (settings : Settings) :
    Option Tag → Except Failure (Option Tag)
  | some tag => .ok (some tag)
  | none =>
    match settings.general.requestedLanguage with
    | .ok tag => .ok (tag.or (systemLocale? environment))
    | .error _ => .error .language

/-- The command `lookup`. -/
def runLookup (environment : Environment) (settings : Settings) (locale : Option Tag)
    (context source : String) (arguments : List String) : m Outcome := do
  let translator : Translator m := Translator.start settings.catalogs.supplier
  let shown := fun (t : Translator m) => t.trArgs context source arguments ++ "\n"
  match requestedTag environment settings locale with
  | .error failure => return { failure := some failure }
  | .ok none => return { output := shown translator }
  | .ok (some tag) =>
    match ← translator.switchLanguage tag with
    | (.ok _, translator) => return { output := shown translator }
    | (.error fault, _) => return { failure := some (.supply fault) }

/-- A tag and the name of its language, which is empty if the list does not have it. -/
def languageLine (names : List LanguageName) (tag : Tag) : String :=
  let name := ((names.find? fun n => n.tag == tag).map LanguageName.name).getD ""
  tag.text ++ "\t" ++ name

/-- The command `languages`. A list of names that cannot be read counts as empty. -/
def runLanguages (settings : Settings) : m Outcome := do
  match ← (settings.catalogs.available (m := m)).run with
  | .error fault => return { failure := some (.supply fault) }
  | .ok tags =>
    let names := (← (settings.catalogs.languageNames (m := m)).run).toOption.getD []
    return { output := linesText (tags.map (languageLine names)) }

/-- Settings with a language. -/
def Settings.withLanguage (settings : Settings) (tag : Tag) : Settings :=
  { settings with general := { settings.general with language := tag.text } }

/-- The command `set-language`, which writes the settings to a file in some way. -/
def runSetLanguageWith (save : Settings → Pathname → ExceptT SettingsFault m Unit)
    (settings : Settings) (file : Pathname) (tag : Tag) : m Outcome := do
  match ← (save (settings.withLanguage tag) file).run with
  | .ok () => return {}
  | .error _ => return { failure := some (.unsaved file) }

/-- The command `set-language`. -/
def runSetLanguage : Settings → Pathname → Tag → m Outcome :=
  runSetLanguageWith Settings.save

/-! ## Invocations -/

/-- The settings that an invocation uses: those of its file, or of the usual one if there is a
place for it, with its directory of catalogs. -/
def Invocation.settings (environment : Environment) (i : Invocation) :
    m (Except Failure Settings) := do
  let loaded ← match i.config.or (Settings.platformPath? environment) with
    | some file => (Settings.load (m := m) file).run
    | none => pure (.ok {})
  match loaded with
  | .error _ => return .error (.settings i.config)
  | .ok settings =>
    match i.directory with
    | none => return .ok settings
    | some path => return .ok { settings with catalogs := { settings.catalogs with path } }

/-- Runs a command with settings. -/
def Invocation.runWith (environment : Environment) (i : Invocation) (settings : Settings) :
    m Outcome :=
  match i.command with
  | .check files strict => runCheck settings files strict
  | .report asJson => runReport settings asJson
  | .lookup locale context source arguments =>
    runLookup environment settings locale context source arguments
  | .languages => runLanguages settings
  | .setLanguage tag =>
    match i.config.or (Settings.platformPath? environment) with
    | some file => runSetLanguage settings file tag
    | none => return { failure := some .noPlace }

/-- Runs a command. -/
def Invocation.run (environment : Environment) (i : Invocation) : m Outcome := do
  match ← i.settings (m := m) environment with
  | .error failure => return { failure := some failure }
  | .ok settings => i.runWith environment settings

end

end Phrasebook
