import Phrasebook.Datum
import Phrasebook.Environment
import Phrasebook.Supplier.Directory
import Phrasebook.Toml.Document

/-!
# Settings

What a user can choose: the language, how much is logged, and where the catalogs are. Whatever is
not chosen has a default, so an empty file is a valid one.

    [general]
    language = "cs-CZ"
    log_level = "info"

    [catalogs]
    directory = "res/lang"
    file_prefix = "gui_"
    languages_file = "Languages.xml"
    untyped_status = "finished"

- `Settings`: the choices; `Settings.requestedLanguage` is the chosen tag.
- `Settings.ofDatum?`, `Settings.ofToml?`: the choices in data, and in a text.
- `Settings.toml`: the text that holds them.
- `Settings.platformPath?`: where a user's choices are kept.
-/

namespace Phrasebook

open Phrasebook.Locale Storage Text

/-- Choices that do not concern the catalogs. -/
structure General where
  /-- The language to show; if it is blank, the language of the system. -/
  language : String := ""
  /-- The least weight of what is logged. -/
  logLevel : String := "info"
deriving DecidableEq

/-- What a user can choose. -/
structure Settings where
  general : General := {}
  catalogs : CatalogDirectory := {}
deriving DecidableEq

/-- The chosen language, unless that of the system is to be used. -/
def General.requestedLanguage (g : General) : Except TagError (Option Tag) :=
  if (trim g.language).isEmpty then .ok none else (Tag.parse g.language).map some

namespace Settings

/-! ## Reading -/

/-- The general choices in data. -/
def generalOf? (convention : Datum.Convention) (datum : Datum) : Option General := do
  let field ← datum.fields? convention ["language", "log_level"]
  let general : General := {}
  return {
    language := ← Datum.fieldOr (field "language") general.language Datum.text?
    logLevel := ← Datum.fieldOr (field "log_level") general.logLevel Datum.text? }

/-- The status that a value names. -/
def statusOf? (convention : Datum.Convention) (datum : Datum) : Option Status :=
  (datum.alternative? convention).bind Status.ofName?

/-- The choices about catalogs in data. -/
def catalogsOf? (convention : Datum.Convention) (datum : Datum) : Option CatalogDirectory := do
  let field ← datum.fields? convention
    ["directory", "file_prefix", "languages_file", "untyped_status"]
  let catalogs : CatalogDirectory := {}
  return {
    path := ⟨← Datum.fieldOr (field "directory") catalogs.path.text Datum.text?⟩
    filePrefix := ← Datum.fieldOr (field "file_prefix") catalogs.filePrefix Datum.text?
    languagesFile := ←
      Datum.fieldOr (field "languages_file") catalogs.languagesFile Datum.text?
    untypedStatus := ←
      Datum.fieldOr (field "untyped_status") catalogs.untypedStatus (statusOf? convention) }

/-- The choices in data. Names that mean nothing are skipped. -/
def ofDatum? (convention : Datum.Convention) (datum : Datum) : Option Settings := do
  let field ← datum.fields? convention ["general", "catalogs"]
  return {
    general := ← Datum.fieldOr (field "general") {} (generalOf? convention)
    catalogs := ← Datum.fieldOr (field "catalogs") {} (catalogsOf? convention) }

/-- The choices in the text of a file. -/
def ofToml? (text : String) : Option Settings :=
  (Toml.readDocument? text).bind (ofDatum? .toml)

/-! ## Writing -/

/-- The text of a file with the choices. -/
def toml (s : Settings) : String :=
  Toml.writeDocument [
    { name := "general"
      fields := [
        ("language", s.general.language),
        ("log_level", s.general.logLevel)] },
    { name := "catalogs"
      fields := [
        ("directory", s.catalogs.path.text),
        ("file_prefix", s.catalogs.filePrefix),
        ("languages_file", s.catalogs.languagesFile),
        ("untyped_status", s.catalogs.untypedStatus.name)] }]

/-! ## The platform's place -/

/-- The directory for all settings of a user. -/
def platformDirectory? (environment : Environment) : Option Pathname :=
  match environment "XDG_CONFIG_HOME" with
  | some directory => some ⟨directory⟩
  | none => (environment "HOME").map fun home => (Pathname.mk home).join ⟨".config"⟩

/-- The file for the settings of this program. -/
def platformPath? (environment : Environment) : Option Pathname :=
  (platformDirectory? environment).map fun directory =>
    (directory.join ⟨"inputleap"⟩).join ⟨"i18n.toml"⟩

end Settings

end Phrasebook
