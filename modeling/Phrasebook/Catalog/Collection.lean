import Std.Data.TreeMap
import Phrasebook.Catalog.Basic
import Phrasebook.Locale.Negotiation

/-!
# Collections of catalogs

Several catalogs, each under a tag of its own, in the order of the tags. A catalog is stored
under the tag it declares or under another one, such as the tag in the name of its file.

- `Collection.insert`, `Collection.insertAs`: store a catalog and hand back the one it replaces.
- `Collection.select`, `Collection.catalogFor?`: the tag and the catalog chosen for a request.
- `Collection.resolve`: the text to show for a message under a requested locale.
-/

namespace Phrasebook

open Phrasebook.Locale

/-- Catalogs by tag. -/
structure Collection where
  catalogs : Std.TreeMap Tag Catalog

namespace Collection

/-- The collection without catalogs. -/
def empty : Collection :=
  ⟨∅⟩

/-- The catalog stored under a tag. -/
def get? (s : Collection) (tag : Tag) : Option Catalog :=
  s.catalogs[tag]?

/-- Stores a catalog under a tag. The first component is the catalog that was there before. -/
def insertAs (s : Collection) (tag : Tag) (catalog : Catalog) : Option Catalog × Collection :=
  (s.get? tag, ⟨s.catalogs.insert tag catalog⟩)

/-- Stores a catalog under its own tag. -/
def insert (s : Collection) (catalog : Catalog) : Option Catalog × Collection :=
  s.insertAs catalog.language catalog

/-- Stores catalogs under their own tags, one after the other. -/
def ofList (catalogs : List Catalog) : Collection :=
  catalogs.foldl (fun s catalog => (s.insert catalog).2) empty

/-- The tags in ascending order. -/
def tags (s : Collection) : List Tag :=
  s.catalogs.keys

/-- The catalogs with their tags, in the order of the tags. -/
def toList (s : Collection) : List (Tag × Catalog) :=
  s.catalogs.toList

/-- The number of catalogs. -/
def size (s : Collection) : Nat :=
  s.catalogs.size

/-- There are no catalogs. -/
def isEmpty (s : Collection) : Bool :=
  s.catalogs.isEmpty

/-- Chooses among the stored tags. -/
def select (s : Collection) (requested : Tag) : Match :=
  negotiate requested s.tags

/-- The catalog chosen for a request, unless messages are shown as they were written. -/
def catalogFor? (s : Collection) (requested : Tag) : Option Catalog :=
  (s.select requested).tag?.bind s.get?

/-- The text to show for a message under a requested locale. -/
def resolve (s : Collection) (context source : String) (requested : Tag) : String :=
  match s.catalogFor? requested with
  | some catalog => catalog.resolve context source
  | none => source

end Collection

end Phrasebook
