import Phrasebook.Linguist.Catalog
import Phrasebook.Linguist.LanguageList
import Phrasebook.Storage.Access
import Phrasebook.Supplier.Basic

/-!
# Catalogs in a directory

The catalogs of a program lie side by side, each with its tag in its name, next to a list of the
languages' names:

    res/lang/
      Languages.xml
      gui_cs-CZ.ts
      gui_hu-HU.ts

A catalog may declare another tag than its name has. The name is what languages are chosen by,
so it decides, and it is also the language of a catalog that declares none. Several names can
stand for one tag (`gui_cs-CZ.ts`, `gui_cs_cz.ts`); the least path is then the one to load.

- `CatalogDirectory`: where catalogs are and how they are named.
- `CatalogDirectory.arrange`: the catalogs among the names in a directory, by tag and path.
- `CatalogDirectory.supplier`: the directory as a supplier.
- `CatalogDirectory.languageNames`: the list of languages.
-/

namespace Phrasebook

open Phrasebook.Locale Linguist Markup Storage

/-- A directory of catalogs. -/
structure CatalogDirectory where
  /-- The directory. -/
  path : Pathname := ⟨"res/lang"⟩
  /-- What the name of a catalog begins with, before the tag. -/
  filePrefix : String := "gui_"
  /-- The name of the language list. -/
  languagesFile : String := "Languages.xml"
  /-- The status of translations without a type. -/
  untypedStatus : Status := .finished
deriving DecidableEq

namespace CatalogDirectory

/-! ## Names -/

/-- The ending of a catalog's name. -/
def catalogSuffix : String := ".ts"

/-- The tag written after the prefix. -/
def tagAfterPrefix? (d : CatalogDirectory) (name : List Char) : Option Tag := do
  let written ← d.filePrefix.toList.isPrefixOf? name
  (Tag.parse (String.ofList written)).toOption

/-- The tag in the name of a catalog; other files have none. -/
def tagOfName? (d : CatalogDirectory) (name : String) : Option Tag := do
  let written ← d.filePrefix.toList.isPrefixOf? name.toList
  let written ← catalogSuffix.toList.isSuffixOf? written
  (Tag.parse (String.ofList written)).toOption

/-- The tag in the name of a file that is said to be a catalog, whatever its extension. -/
def tagOfPath? (d : CatalogDirectory) (path : Pathname) : Option Tag := do
  let stem ← path.stem?
  d.tagAfterPrefix? stem.toList

/-- The order of catalogs: by tag, and by path under one tag. -/
def precedes (x y : Tag × Pathname) : Bool :=
  ((compare x.1 y.1).then (compare x.2 y.2)).isLE

/-- The catalogs among the names in the directory. -/
def arrange (d : CatalogDirectory) (names : List String) : List (Tag × Pathname) :=
  (names.filterMap fun name =>
    (d.tagOfName? name).map fun tag => (tag, d.path.join ⟨name⟩)).mergeSort precedes

/-! ## Requests -/

/-- How to read the catalogs. -/
def options (d : CatalogDirectory) (tag? : Option Tag) : Options where
  defaultLanguage := tag?
  untypedStatus := d.untypedStatus

variable {m : Type → Type} [Monad m] [MonadStorage m]

/-- The answer to a request for a path. -/
def accessed {α : Type} (path : Pathname) (request : m (Except AccessError α)) :
    ExceptT SupplyFault m α :=
  ExceptT.mk do return (← request).mapError fun _ => .unreadable path

/-- What the content of a file stands for. -/
def parsed {α : Type} (path : Pathname) (result : Except Fault α) : ExceptT SupplyFault m α :=
  ExceptT.mk do return result.mapError (.unparsable path)

/-- The catalogs with their tags, by tag and path. -/
def catalogFiles (d : CatalogDirectory) : ExceptT SupplyFault m (List (Tag × Pathname)) := do
  let names ← accessed d.path (MonadStorage.list d.path)
  return d.arrange names

/-- The tags of the catalogs, in ascending order. -/
def available (d : CatalogDirectory) : ExceptT SupplyFault m (List Tag) := do
  return (← d.catalogFiles).map Prod.fst

/-- The catalog for a tag. -/
def load (d : CatalogDirectory) (tag : Tag) : ExceptT SupplyFault m Catalog := do
  match (← d.catalogFiles).lookup tag with
  | none => throw (.notFound tag)
  | some path =>
    let bytes ← accessed path (MonadStorage.read path)
    parsed path (parseCatalog (d.options (some tag)) bytes)

/-- The directory as a supplier of catalogs. -/
def supplier (d : CatalogDirectory) : Supplier m where
  available := d.available
  load := d.load

/-- The languages that the list next to the catalogs names. -/
def languageNames (d : CatalogDirectory) : ExceptT SupplyFault m (List LanguageName) := do
  let path := d.path.join ⟨d.languagesFile⟩
  let bytes ← accessed path (MonadStorage.read path)
  parsed path (parseLanguageList bytes)

end CatalogDirectory

end Phrasebook
