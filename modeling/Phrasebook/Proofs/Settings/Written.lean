import Phrasebook.Proofs.Toml.Document
import Phrasebook.Settings.Basic

/-!
# Settings read back

The text that holds settings says each of them, so that no default takes the place of one, and
it holds texts of any kind.

- `Status.ofName?_name`: the one setting that is not a text.
- `ofToml?_toml`: the settings in their text.
-/

namespace Phrasebook

theorem Status.ofName?_name (status : Status) : Status.ofName? status.name = some status := by
  cases status <;> rfl

namespace Settings

open Toml

/-- The table of general choices. -/
def generalSection (g : General) : Section where
  name := "general"
  fields := [("language", g.language), ("log_level", g.logLevel)]

/-- The table of choices about catalogs. -/
def catalogsSection (c : CatalogDirectory) : Section where
  name := "catalogs"
  fields := [
    ("directory", c.path.text),
    ("file_prefix", c.filePrefix),
    ("languages_file", c.languagesFile),
    ("untyped_status", c.untypedStatus.name)]

/-- The tables of settings. -/
def sections (s : Settings) : List Section :=
  [generalSection s.general, catalogsSection s.catalogs]

theorem isProper_generalSection (g : General) : (generalSection g).IsProper where
  bare := show IsBareName "general" by decide
  bareFields := show ∀ name ∈ ["language", "log_level"], IsBareName name by decide
  once := show ["language", "log_level"].Nodup by decide

theorem isProper_catalogsSection (c : CatalogDirectory) : (catalogsSection c).IsProper where
  bare := show IsBareName "catalogs" by decide
  bareFields := show ∀ name ∈ ["directory", "file_prefix", "languages_file", "untyped_status"],
    IsBareName name by decide
  once := show ["directory", "file_prefix", "languages_file", "untyped_status"].Nodup by decide

theorem areProper_sections (s : Settings) : AreProper s.sections where
  each := by
    rw [sections, List.forall_mem_cons, List.forall_mem_singleton]
    exact ⟨isProper_generalSection s.general, isProper_catalogsSection s.catalogs⟩
  once := show ["general", "catalogs"].Nodup by decide

theorem generalOf?_datum (g : General) : generalOf? .toml (generalSection g).datum = some g := rfl

theorem catalogsOf?_datum (c : CatalogDirectory) :
    catalogsOf? .toml (catalogsSection c).datum = some c := by
  have status : statusOf? .toml (.text c.untypedStatus.name) = some c.untypedStatus :=
    Status.ofName?_name c.untypedStatus
  show (statusOf? .toml (.text c.untypedStatus.name)).bind _ = _
  rw [status]
  rfl

/-- **Settings are read back from their text**, all of them as they were. -/
theorem ofToml?_toml (s : Settings) : ofToml? s.toml = some s := by
  show (readDocument? (writeDocument s.sections)).bind _ = _
  rw [readDocument?_writeDocument s.areProper_sections]
  show (generalOf? .toml (generalSection s.general).datum).bind (fun general =>
    (catalogsOf? .toml (catalogsSection s.catalogs).datum).bind fun catalogs =>
      some (Settings.mk general catalogs)) = _
  rw [generalOf?_datum, catalogsOf?_datum]
  rfl

end Settings

end Phrasebook
