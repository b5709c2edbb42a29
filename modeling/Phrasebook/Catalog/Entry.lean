/-!
# Messages and their translations

An entry of a catalog pairs a message with its translation. A message is named by its context,
usually the dialog it appears in, and the text its author wrote; the other fields help those
who translate it.

- `Status`: how far the translation has come.
- `Entry`: a message, its translation and the notes about it. `Entry.usable?` is the
  translation if it may be shown.
- `Key`: the name of a message, by which it is looked up.
-/

namespace Phrasebook

/-- How far a translation has come. -/
inductive Status where
  /-- Reviewed; shown unless it is empty. -/
  | finished
  /-- Work in progress; never shown. -/
  | unfinished
  /-- The message is no longer in use; never looked up. -/
  | obsolete
deriving DecidableEq, Repr

namespace Status

/-- The word for a status. -/
def name : Status → String
  | .finished => "finished"
  | .unfinished => "unfinished"
  | .obsolete => "obsolete"

/-- The status a word stands for. -/
def ofName? : String → Option Status
  | "finished" => some .finished
  | "unfinished" => some .unfinished
  | "obsolete" => some .obsolete
  | _ => none

end Status

/-- A place where a message is used. -/
structure Location where
  file : Option String
  /-- Counted from 1. -/
  line : Option Nat
deriving DecidableEq, Repr

/-- What a message is looked up by. -/
structure Key where
  context : String
  source : String
deriving DecidableEq, Hashable, Repr

/-- A message and its translation. -/
structure Entry where
  /-- The group of messages it belongs to. -/
  context : String
  /-- The text as its author wrote it. -/
  source : String
  /-- The text for the catalog's language; it may be empty. -/
  translation : String
  status : Status
  /-- The text that the translation was made for, if it was another one. -/
  oldSource : Option String := none
  /-- The author's note that tells two messages with one text apart. -/
  comment : Option String := none
  /-- The author's note to the translator. -/
  extraComment : Option String := none
  /-- The translator's note. -/
  translatorComment : Option String := none
  /-- The identifier of the message, in programs that name their messages. -/
  id : Option String := none
  locations : List Location := []
deriving DecidableEq, Repr

namespace Entry

/-- What the entry is looked up by. -/
def key (e : Entry) : Key :=
  ⟨e.context, e.source⟩

/-- The message is still in use. -/
def isLive (e : Entry) : Bool :=
  decide (e.status ≠ .obsolete)

/-- The translation, if it may be shown: a finished one that is not empty. -/
def usable? (e : Entry) : Option String :=
  if e.status = .finished ∧ e.translation ≠ "" then some e.translation else none

end Entry

end Phrasebook
