import Phrasebook.Placeholder
import Phrasebook.Supplier.Basic

/-!
# Translators

A program shows all its texts through one active catalog. Switching the language is all or
nothing: the new catalog is loaded in full before it takes the place of the old one, and if that
fails the old one stays.

- `Translator`: a supplier and the active catalog.
- `Translator.switchLanguage`, `Translator.install`: the ways to another catalog.
- `Translator.tr`, `Translator.translate`, `Translator.trArgs`: the texts to show.
-/

namespace Phrasebook

open Phrasebook.Locale

/-- A supplier of catalogs, and the one that texts are shown from. -/
structure Translator (m : Type → Type) where
  supplier : Supplier m
  active : Catalog

namespace Translator

variable {m : Type → Type} [Monad m]

/-- A translator that shows messages as they were written. -/
def start (supplier : Supplier m) : Translator m where
  supplier := supplier
  active := Catalog.sourceOnly

/-- Makes a catalog the active one. The first component is the one it replaces. -/
def install (t : Translator m) (catalog : Catalog) : Catalog × Translator m :=
  (t.active, { t with active := catalog })

/-- The best match for a request, and its catalog. -/
def choose (supplier : Supplier m) (requested : Tag) :
    ExceptT SupplyFault m (Match × Catalog) := do
  let chosen := negotiate requested (← supplier.available)
  match chosen.tag? with
  | some tag => return (chosen, ← supplier.load tag)
  | none => return (chosen, Catalog.sourceOnly)

/-- Makes the catalog of the best match active. Without a match, messages are shown as they were
written; after a failure everything is as before. -/
def switchLanguage (t : Translator m) (requested : Tag) :
    m (Except SupplyFault Match × Translator m) := do
  match ← (choose t.supplier requested).run with
  | .ok (chosen, catalog) => return (.ok chosen, (t.install catalog).2)
  | .error fault => return (.error fault, t)

/-- The text to show for a message. -/
def tr (t : Translator m) (context source : String) : String :=
  t.active.resolve context source

/-- The text to show for the message with a key. -/
def translate (t : Translator m) (key : Key) : String :=
  t.tr key.context key.source

/-- The text to show for a message with arguments. -/
def trArgs (t : Translator m) (context source : String) (arguments : List String) : String :=
  Placeholder.fill (t.tr context source) arguments

end Translator

end Phrasebook
