import Std.Data.HashSet
import Phrasebook.Catalog.Index
import Phrasebook.Locale.Tag

/-!
# Catalogs

A catalog holds the entries of one language in the order they were added, and finds an entry by
the name or the identifier of its message.

Translators rarely finish a catalog, and a user must not see an empty label because of that.
`Catalog.resolve` shows the translation of a finished entry that has one, and the message as it
was written in every other case.

- `Catalog.lookup?`, `Catalog.lookupId?`, `Catalog.resolve`: the queries.
- `Catalog.Draft`: a catalog that is being put together. `Draft.push` adds an entry. Entries that
  are no longer in use are kept but not indexed. Of several live entries with one key the first
  is found, and the others are reported as duplicates. `Draft.openContext` notes that a block of
  messages begins. A block for a name that is already known is merged with the earlier ones.
- `Catalog.Edit`, `Catalog.ofEdits`: a history of additions and the catalog it leads to.
-/

namespace Phrasebook

open Phrasebook.Locale

/-- The messages of one language. -/
structure Catalog where
  /-- The language of the translations. -/
  language : Tag
  /-- The language of the messages. -/
  sourceLanguage : Tag
  /-- The version of the format that the catalog was written in, if it says so. -/
  formatVersion : Option String
  /-- All entries in the order they were added. -/
  entries : Array Entry
  /-- The position in `entries` of the entry found for a key. -/
  index : Index
  /-- The position in `entries` of the entry found for an identifier. -/
  ids : Std.HashMap String Nat
  /-- The names of contexts, each once, in the order of their first mention. -/
  contexts : Array String
  /-- The names of contexts that were opened again, in the order in which that first happened. -/
  mergedContexts : Array String
  /-- The key of each live entry that an earlier one hides. -/
  duplicateKeys : Array Key

/-- Counts of entries by what becomes of them. -/
structure Stats where
  /-- Finished, with a translation. -/
  finished : Nat
  /-- Finished, but the translation is empty. -/
  emptyFinished : Nat
  unfinished : Nat
  obsolete : Nat
deriving DecidableEq, Repr

/-- The number of entries whose message is still in use. -/
def Stats.active (s : Stats) : Nat :=
  s.finished + s.emptyFinished + s.unfinished

namespace Catalog

/-! ## Queries -/

/-- The position of the entry found for a key. -/
def position? (c : Catalog) (key : Key) : Option Nat :=
  c.index.find? key

/-- The position of the entry found for an identifier. -/
def idPosition? (c : Catalog) (id : String) : Option Nat :=
  c.ids[id]?

/-- The live entry with a key. -/
def lookup? (c : Catalog) (context source : String) : Option Entry :=
  (c.position? ⟨context, source⟩).bind fun position => c.entries[position]?

/-- The live entry with an identifier. -/
def lookupId? (c : Catalog) (id : String) : Option Entry :=
  (c.idPosition? id).bind fun position => c.entries[position]?

/-- The text to show for a message: its translation if there is a usable one, else the message
as it was written. -/
def resolve (c : Catalog) (context source : String) : String :=
  ((c.lookup? context source).bind Entry.usable?).getD source

/-- The number of entries, those not in use included. -/
def size (c : Catalog) : Nat :=
  c.entries.size

/-- There are no entries. -/
def isEmpty (c : Catalog) : Bool :=
  c.entries.isEmpty

/-- The counts of entries. -/
def stats (c : Catalog) : Stats where
  finished := c.entries.countP fun e => decide (e.status = .finished ∧ e.translation ≠ "")
  emptyFinished := c.entries.countP fun e => decide (e.status = .finished ∧ e.translation = "")
  unfinished := c.entries.countP fun e => decide (e.status = .unfinished)
  obsolete := c.entries.countP fun e => decide (e.status = .obsolete)

/-! ## Additions -/

/-- A catalog that is being put together. -/
structure Draft extends Catalog where
  /-- The contexts mentioned so far. -/
  seenContexts : Std.HashSet String

namespace Draft

/-- Nothing has been added. -/
def start (language : Tag) : Draft where
  language := language
  sourceLanguage := Tag.source
  formatVersion := none
  entries := #[]
  index := .empty
  ids := ∅
  contexts := #[]
  mergedContexts := #[]
  duplicateKeys := #[]
  seenContexts := ∅

/-- Lists a context unless it was mentioned before. -/
def noteContext (d : Draft) (name : String) : Draft :=
  { d with
    seenContexts := d.seenContexts.insert name
    contexts := if d.seenContexts.contains name then d.contexts else d.contexts.push name }

/-- Begins a block of messages of a context. A name that is known already counts as merged. -/
def openContext (d : Draft) (name : String) : Draft :=
  { d.noteContext name with
    mergedContexts :=
      if d.seenContexts.contains name && !d.mergedContexts.contains name then
        d.mergedContexts.push name
      else d.mergedContexts }

/-- Notes a position for an identifier, if there is one and no position is noted for it. -/
def noteId (ids : Std.HashMap String Nat) (position : Nat) : Option String → Std.HashMap String Nat
  | some id => ids.insertIfNew id position
  | none => ids

/-- Indexes an entry that is about to be added. The first live entry with a key takes it, and
its identifier too unless an earlier entry has that identifier. -/
def indexEntry (d : Draft) (e : Entry) : Draft :=
  if e.isLive then
    if (d.index.find? e.key).isSome then
      { d with duplicateKeys := d.duplicateKeys.push e.key }
    else
      { d with
        index := d.index.insert e.key d.entries.size
        ids := noteId d.ids d.entries.size e.id }
  else
    d

/-- Adds an entry at the end. -/
def push (d : Draft) (e : Entry) : Draft :=
  let noted := (d.noteContext e.context).indexEntry e
  { noted with entries := noted.entries.push e }

/-- The finished catalog. -/
def build (d : Draft) : Catalog :=
  d.toCatalog

end Draft

/-- One addition to a catalog. -/
inductive Edit where
  | openContext (name : String)
  | push (entry : Entry)
  | sourceLanguage (tag : Tag)
  | formatVersion (version : String)

/-- The draft after one addition. -/
def Draft.apply (d : Draft) : Edit → Draft
  | .openContext name => d.openContext name
  | .push entry => d.push entry
  | .sourceLanguage tag => { d with sourceLanguage := tag }
  | .formatVersion version => { d with formatVersion := some version }

/-- The catalog of a language after a history of additions. -/
def ofEdits (language : Tag) (edits : List Edit) : Catalog :=
  (edits.foldl Draft.apply (Draft.start language)).build

/-- The catalog that shows every message as it was written. -/
def sourceOnly : Catalog :=
  ofEdits Tag.source [.sourceLanguage Tag.source]

end Catalog

end Phrasebook
