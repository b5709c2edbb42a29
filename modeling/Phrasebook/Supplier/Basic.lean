import Phrasebook.Catalog.Collection
import Phrasebook.Markup.Fault
import Phrasebook.Storage.Pathname

/-!
# Suppliers of catalogs

A supplier lists the tags it has catalogs for, and loads the catalog for a tag. Both may fail,
and nothing is promised between two requests: a catalog that was listed may be gone when it is
asked for.

- `SupplyFault`: why a request failed.
- `Supplier`: the requests, in any monad.
- `Supplier.loadAll`: all catalogs at once, each under the tag it is listed under.
-/

namespace Phrasebook

open Phrasebook.Locale Markup Storage

/-- Why a supplier did not answer a request. -/
inductive SupplyFault where
  /-- A file or directory could not be read. -/
  | unreadable (path : Pathname)
  /-- A file was read, but its content was refused. -/
  | unparsable (path : Pathname) (fault : Fault)
  /-- There is no catalog for the tag. -/
  | notFound (tag : Tag)
deriving DecidableEq

/-- The wording of a fault. What the system says of a file that could not be read would follow; it
is left out, since it is another text on each system. -/
def SupplyFault.message : SupplyFault → String
  | unreadable path => "I/O error reading catalog at " ++ path.text
  | unparsable path fault => "failed to parse catalog " ++ path.text ++ ": " ++ fault.message
  | notFound tag => "no catalog for language " ++ tag.text

/-- Provides catalogs by tag. -/
structure Supplier (m : Type → Type) where
  /-- The tags for which there is a catalog. -/
  available : ExceptT SupplyFault m (List Tag)
  /-- The catalog for a tag. -/
  load : Tag → ExceptT SupplyFault m Catalog

namespace Supplier

variable {m : Type → Type} [Monad m]

/-- Loads the catalogs for some tags into a collection, each under its tag. -/
def loadInto (s : Supplier m) (collection : Collection) :
    List Tag → ExceptT SupplyFault m Collection
  | [] => return collection
  | tag :: tags => do
    let catalog ← s.load tag
    s.loadInto (collection.insertAs tag catalog).2 tags

/-- Loads every catalog. The first one that cannot be loaded ends the attempt. -/
def loadAll (s : Supplier m) : ExceptT SupplyFault m Collection := do
  let tags ← s.available
  s.loadInto Collection.empty tags

end Supplier

end Phrasebook
