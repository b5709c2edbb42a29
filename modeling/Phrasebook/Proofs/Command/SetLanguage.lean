import Phrasebook.Command.Run
import Phrasebook.Proofs.Locale.Canonical
import Phrasebook.Proofs.Settings.Saved

/-!
# The language that is remembered

The command `set-language` loads the settings, changes one of them and saves them all. What a
later command finds is then a matter of what became of the others on the way, and of whether the
tag that was written is read as the tag that was meant.

- `askSettings_eq`: the settings that an invocation uses.
- `askRun_of_loaded`: the command saves the settings that it could load.
- `requestedLanguage_withLanguage`: a language that was set is requested.
- `askRun_setLanguage`: what has happened when the command has succeeded.
- `askRun_lookup`: a lookup without a tag is one with the tag in the settings.
- `setLanguage_persists`: the tag, and nothing but the tag, has changed for later commands.
-/

namespace Phrasebook

open Phrasebook.Locale Storage Text

/-! ## The tag in the settings -/

theorem General.requestedLanguage_of_parse {g : General} {tag : Tag}
    (parsed : Tag.parse g.language = .ok tag) : g.requestedLanguage = .ok (some tag) := by
  have something : ¬ (trim g.language).isEmpty = true := by
    intro nothing
    have blank : trimBlanks g.language.toList = [] := by
      simpa [trim] using nothing
    rw [Tag.parse_of_empty (by rw [Tag.bare, Tag.trimmed, blank]; rfl)] at parsed
    cases parsed
  rw [requestedLanguage, if_neg something, parsed]
  rfl

/-- A language that was set is requested. -/
theorem Settings.requestedLanguage_withLanguage (settings : Settings) (tag : Tag) :
    (settings.withLanguage tag).general.requestedLanguage = .ok (some tag) :=
  General.requestedLanguage_of_parse tag.parse_text

/-- A lookup without a tag is one with the tag in the settings. -/
theorem runLookup_none {m : Type → Type} [Monad m] [MonadStorage m] {settings : Settings}
    {tag : Tag} (requested : settings.general.requestedLanguage = .ok (some tag))
    (environment : Environment) (context source : String) (arguments : List String) :
    (runLookup environment settings none context source arguments : m Outcome) =
      runLookup environment settings (some tag) context source arguments := by
  have same : requestedTag environment settings none =
      requestedTag environment settings (some tag) := by
    simp only [requestedTag, requested]
    rfl
  rw [runLookup, same]
  rfl

/-! ## Runs -/

/-- What a command has written, and the tree afterwards. -/
def askRun (environment : Environment) (i : Invocation) (t : Tree) : Outcome × Tree :=
  (i.run environment : StateM Tree Outcome).run t

/-- The settings that an invocation uses, and the tree afterwards. -/
def askSettings (environment : Environment) (i : Invocation) (t : Tree) :
    Except Failure Settings × Tree :=
  (i.settings environment : StateM Tree (Except Failure Settings)).run t

/-- What the command has written that sets a language, and the tree afterwards. -/
def askSetLanguage (text? : Settings → Except SettingsFault String) (settings : Settings)
    (file : Pathname) (tag : Tag) (t : Tree) : Outcome × Tree :=
  (runSetLanguageWith (Settings.saveAs text?) settings file tag : StateM Tree Outcome).run t

/-- Settings with a directory of catalogs, if there is one. -/
def Settings.withDirectory (settings : Settings) (directory : Option Pathname) : Settings :=
  { settings with
    catalogs := { settings.catalogs with path := directory.getD settings.catalogs.path } }

/-- An invocation uses the settings of its file with its directory of catalogs. -/
theorem askSettings_eq {environment : Environment} {i : Invocation} {file : Pathname}
    (target : i.config.or (Settings.platformPath? environment) = some file) (t : Tree) :
    askSettings environment i t =
      (((Settings.askLoad file t).1.mapError fun _ => .settings i.config).map
        (Settings.withDirectory · i.directory), t) := by
  have loaded : (Settings.load file : ExceptT SettingsFault (StateM Tree) Settings).run.run t =
    (Settings.ofContent file (t.read file), t) := Settings.askLoad_eq file t
  simp only [askSettings, Invocation.settings, target]
  rw [StateT.run_bind, loaded, Settings.askLoad_eq]
  cases Settings.ofContent file (t.read file) with
  | error fault => rfl
  | ok settings => cases i.directory <;> rfl

theorem askSettings_of_loaded {environment : Environment} {i : Invocation} {file : Pathname}
    (target : i.config.or (Settings.platformPath? environment) = some file) {t : Tree}
    {settings : Settings} (loaded : Settings.askLoad file t = (.ok settings, t)) :
    askSettings environment i t = (.ok (settings.withDirectory i.directory), t) := by
  rw [askSettings_eq target, loaded]
  rfl

/-- Without a place for settings, an invocation uses the defaults. -/
theorem askSettings_default {environment : Environment} {i : Invocation}
    (nowhere : i.config.or (Settings.platformPath? environment) = none) (t : Tree) :
    askSettings environment i t = (.ok (({} : Settings).withDirectory i.directory), t) := by
  simp only [askSettings, Invocation.settings, nowhere]
  cases i.directory <;> rfl

theorem askRun_of_settings {environment : Environment} {i : Invocation} {t t' : Tree}
    {settings : Settings} (used : askSettings environment i t = (.ok settings, t')) :
    askRun environment i t = (i.runWith environment settings : StateM Tree Outcome).run t' := by
  rw [askSettings] at used
  rw [askRun, Invocation.run, StateT.run_bind, used]
  rfl

theorem askRun_of_failure {environment : Environment} {i : Invocation} {t t' : Tree}
    {failure : Failure} (refused : askSettings environment i t = (.error failure, t')) :
    askRun environment i t = ({ failure := some failure }, t') := by
  rw [askSettings] at refused
  rw [askRun, Invocation.run, StateT.run_bind, refused]
  rfl

theorem askSetLanguage_of_saved {text? : Settings → Except SettingsFault String}
    {settings : Settings} {file : Pathname} {tag : Tag} {t t' : Tree}
    (saved : Settings.askSave text? (settings.withLanguage tag) file t = (.ok (), t')) :
    askSetLanguage text? settings file tag t = ({}, t') := by
  rw [Settings.askSave] at saved
  rw [askSetLanguage, runSetLanguageWith, StateT.run_bind, saved]
  rfl

theorem askSetLanguage_of_unsaved {text? : Settings → Except SettingsFault String}
    {settings : Settings} {file : Pathname} {tag : Tag} {t t' : Tree} {fault : SettingsFault}
    (unsaved : Settings.askSave text? (settings.withLanguage tag) file t = (.error fault, t')) :
    askSetLanguage text? settings file tag t = ({ failure := some (.unsaved file) }, t') := by
  rw [Settings.askSave] at unsaved
  rw [askSetLanguage, runSetLanguageWith, StateT.run_bind, unsaved]
  rfl

/-- Without a place for settings, the command fails. -/
theorem askRun_nowhere {environment : Environment} {config directory : Option Pathname}
    (nowhere : config.or (Settings.platformPath? environment) = none) (tag : Tag) (t : Tree) :
    askRun environment ⟨config, directory, .setLanguage tag⟩ t =
      ({ failure := some .noPlace }, t) := by
  rw [askRun_of_settings (askSettings_default nowhere t)]
  simp only [Invocation.runWith, nowhere]
  rfl

/-- With settings that could be loaded, the command saves them. -/
theorem askRun_of_loaded {environment : Environment} {config directory : Option Pathname}
    {file : Pathname} (target : config.or (Settings.platformPath? environment) = some file)
    {t : Tree} {settings : Settings} (loaded : Settings.askLoad file t = (.ok settings, t))
    (tag : Tag) : askRun environment ⟨config, directory, .setLanguage tag⟩ t =
      askSetLanguage (fun settings => .ok settings.toml) (settings.withDirectory directory) file
        tag t := by
  rw [askRun_of_settings (askSettings_of_loaded target loaded)]
  simp only [Invocation.runWith, target]
  rfl

/-- The command has succeeded only if there is a place for the settings, the settings in it could
be loaded, and they could be saved with the language. -/
theorem askRun_setLanguage {environment : Environment} {config directory : Option Pathname}
    {tag : Tag} {t t' : Tree} {outcome : Outcome}
    (ran : askRun environment ⟨config, directory, .setLanguage tag⟩ t = (outcome, t'))
    (succeeded : outcome.failure = none) :
    ∃ file settings, config.or (Settings.platformPath? environment) = some file ∧
      Settings.askLoad file t = (.ok settings, t) ∧
      Settings.askSave (fun settings => .ok settings.toml)
        ((settings.withDirectory directory).withLanguage tag) file t = (.ok (), t') := by
  cases target : config.or (Settings.platformPath? environment) with
  | none =>
    rw [askRun_nowhere target] at ran
    cases ran
    cases succeeded
  | some file =>
    cases found : Settings.ofContent file (t.read file) with
    | error fault =>
      have used : askSettings environment ⟨config, directory, .setLanguage tag⟩ t =
          (.error (.settings config), t) := by
        rw [askSettings_eq target, Settings.askLoad_eq, found]
        rfl
      rw [askRun_of_failure used] at ran
      cases ran
      cases succeeded
    | ok settings =>
      have loaded : Settings.askLoad file t = (.ok settings, t) := by
        rw [Settings.askLoad_eq, found]
      refine ⟨file, settings, rfl, loaded, ?_⟩
      rw [askRun_of_loaded target loaded] at ran
      rcases saved : Settings.askSave (fun settings => .ok settings.toml)
          ((settings.withDirectory directory).withLanguage tag) file t with ⟨fault | done, left⟩
      · rw [askSetLanguage_of_unsaved saved] at ran
        cases ran
        cases succeeded
      · rw [askSetLanguage_of_saved saved] at ran
        cases ran
        rfl

/-- A lookup without a tag is one with the tag in the settings, if they have one. -/
theorem askRun_lookup {environment : Environment} {config directory : Option Pathname}
    {file : Pathname} (target : config.or (Settings.platformPath? environment) = some file)
    {settings : Settings} {t : Tree} (loaded : Settings.askLoad file t = (.ok settings, t))
    {tag : Tag} (requested : settings.general.requestedLanguage = .ok (some tag))
    (context source : String) (arguments : List String) :
    askRun environment ⟨config, directory, .lookup none context source arguments⟩ t =
      askRun environment ⟨config, directory, .lookup (some tag) context source arguments⟩ t := by
  have command : ∀ locale,
      (⟨config, directory, .lookup locale context source arguments⟩ : Invocation).runWith
        environment (settings.withDirectory directory) = (runLookup environment
          (settings.withDirectory directory) locale context source arguments :
            StateM Tree Outcome) :=
    fun _ => rfl
  -- the directory of the later command changes nothing about the language
  have same : (settings.withDirectory directory).general.requestedLanguage = .ok (some tag) :=
    requested
  rw [askRun_of_settings (askSettings_of_loaded target loaded),
    askRun_of_settings (askSettings_of_loaded target loaded), command, command,
    runLookup_none same]

/-! ## Later commands -/

/-- **The command remembers the tag, and nothing else changes.** After a success the file holds the
settings that it held before, or the defaults if there was no file, with the tag as the language and
the directory of the command line; a later lookup without a tag is one with this tag. If settings
have no text to be written, the command fails, and all files are as they were. -/
theorem setLanguage_persists (environment : Environment) (config directory : Option Pathname)
    (tag : Tag) (t : Tree) :
    (∀ outcome t', askRun environment ⟨config, directory, .setLanguage tag⟩ t = (outcome, t') →
      outcome.failure = none →
      ∃ file settings, config.or (Settings.platformPath? environment) = some file ∧
        Settings.askLoad file t = (.ok settings, t) ∧
        (t.read file = .error .notFound → settings = {}) ∧
        let chosen : Settings := {
          general := { settings.general with language := tag.text }
          catalogs := { settings.catalogs with path := directory.getD settings.catalogs.path } }
        Settings.askLoad file t' = (.ok chosen, t') ∧
        chosen.general.requestedLanguage = .ok (some tag) ∧
        ∀ environment' config' directory' context source arguments,
          config'.or (Settings.platformPath? environment') = some file →
          askRun environment' ⟨config', directory', .lookup none context source arguments⟩ t' =
            askRun environment'
              ⟨config', directory', .lookup (some tag) context source arguments⟩ t') ∧
    ∀ (text? : Settings → Except SettingsFault String) settings file fault,
      text? (settings.withLanguage tag) = .error fault →
      ∀ outcome t', askSetLanguage text? settings file tag t = (outcome, t') →
        outcome.failure = some (.unsaved file) ∧
        ∀ path bytes, t.read path = .ok bytes → t'.read path = .ok bytes := by
  refine ⟨?_, ?_⟩
  · intro outcome t' ran succeeded
    obtain ⟨file, settings, target, loaded, saved⟩ := askRun_setLanguage ran succeeded
    have reloaded := Settings.askLoad_of_askSave saved
    have requested := (settings.withDirectory directory).requestedLanguage_withLanguage tag
    refine ⟨file, settings, target, loaded, ?_, reloaded, requested, ?_⟩
    · intro missing
      rw [Settings.askLoad_missing missing] at loaded
      cases loaded
      rfl
    · intro environment' config' directory' context source arguments target'
      exact askRun_lookup target' reloaded requested context source arguments
  · intro text? settings file fault unspelt outcome t' ran
    rcases saved : Settings.askSave text? (settings.withLanguage tag) file t with ⟨result, left⟩
    obtain ⟨⟨fault', failed⟩, kept⟩ := Settings.askSave_unspelt unspelt saved
    rw [failed] at saved
    rw [askSetLanguage_of_unsaved saved] at ran
    cases ran
    exact ⟨rfl, fun path bytes read => kept.read read⟩

/-- The tag `cs-CZ`. -/
def czech : Tag := ⟨"cs", ["CZ"], @Canonical.of_pieces ['c', 's'] [['C', 'Z']] rfl rfl⟩

/-- In a tree without files, the defaults are saved with the language and the directory; a file
stays that is there when they have no text. -/
theorem setLanguage_persists_czech :
    (∃ t', askRun (fun _ => none)
        ⟨some ⟨"conf/i18n.toml"⟩, some ⟨"lang"⟩, .setLanguage czech⟩ ⟨[], []⟩ = ({}, t') ∧
      Settings.askLoad ⟨"conf/i18n.toml"⟩ t' =
        (.ok { general := { language := "cs-CZ" }, catalogs := { path := ⟨"lang"⟩ } }, t')) ∧
    ∃ t', askSetLanguage (fun _ => .error .malformed) {} ⟨"i18n.toml"⟩ czech
        ⟨[], [(["i18n.toml"], .file [35])]⟩ = ({ failure := some (.unsaved ⟨"i18n.toml"⟩) }, t') ∧
      t'.read ⟨"i18n.toml"⟩ = .ok [35] := by
  refine ⟨?_, ?_⟩
  · have wrote : (askRun (fun _ => none)
        ⟨some ⟨"conf/i18n.toml"⟩, some ⟨"lang"⟩, .setLanguage czech⟩ ⟨[], []⟩).1 = {} := by
      decide +kernel
    obtain ⟨file, settings, target, -, missing, reloaded, -⟩ :=
      (setLanguage_persists (fun _ => none) (some ⟨"conf/i18n.toml"⟩) (some ⟨"lang"⟩) czech
        ⟨[], []⟩).1 _ _ (Prod.ext wrote rfl) rfl
    obtain rfl : ⟨"conf/i18n.toml"⟩ = file := Option.some.inj target
    obtain rfl : settings = {} := missing (by rfl)
    exact ⟨_, Prod.ext wrote rfl, reloaded⟩
  · obtain ⟨failed, kept⟩ := (setLanguage_persists (fun _ => none) none none czech
      ⟨[], [(["i18n.toml"], .file [35])]⟩).2 (fun _ => .error .malformed) {} ⟨"i18n.toml"⟩
        .malformed rfl _ _ rfl
    exact ⟨_, rfl, kept _ _ (by rfl)⟩

end Phrasebook
