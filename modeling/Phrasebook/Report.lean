import Phrasebook.Catalog.Basic
import Phrasebook.Number.Binary64
import Phrasebook.Placeholder
import Phrasebook.Text.Json

/-!
# Reports on catalogs

What translators and release managers want to know of a catalog: how much of it is done, and
which problems spoil it without an error. A message that appears twice shows the first
translation only, and a translation with other placeholders than its message loses an argument
or shows a stray `%3`.

- `Report.ofCatalog`: the report on a catalog.
- `Report.isClean`: nothing hides or garbles a translation.
- `Report.summary`, `Report.json`: the report as text and as data.
-/

namespace Phrasebook

open Phrasebook.Locale Text

/-- A translation to be shown that refers to other arguments than its message. -/
structure PlaceholderMismatch where
  context : String
  source : String
  /-- The argument numbers of the message. -/
  expected : List Nat
  /-- The argument numbers of the translation. -/
  found : List Nat
deriving DecidableEq, Repr

/-- The state of one catalog. -/
structure Report where
  language : Tag
  formatVersion : Option String
  /-- The number of contexts. -/
  contexts : Nat
  stats : Stats
  /-- Unfinished entries that have a translation all the same. -/
  unfinishedDrafts : Nat
  mergedContexts : List String
  duplicateKeys : List Key
  placeholderMismatches : List PlaceholderMismatch

namespace Report

/-- The mismatch between an entry's message and the translation that is shown for it. -/
def mismatch? (e : Entry) : Option PlaceholderMismatch :=
  e.usable?.bind fun translation =>
    let expected := Placeholder.indices e.source
    let found := Placeholder.indices translation
    if expected = found then none else some ⟨e.context, e.source, expected, found⟩

/-- An unfinished entry with a translation. -/
def isDraft (e : Entry) : Bool :=
  decide (e.status = .unfinished ∧ e.translation ≠ "")

/-- The report on a catalog. -/
def ofCatalog (c : Catalog) : Report where
  language := c.language
  formatVersion := c.formatVersion
  contexts := c.contexts.size
  stats := c.stats
  unfinishedDrafts := c.entries.countP isDraft
  mergedContexts := c.mergedContexts.toList
  duplicateKeys := c.duplicateKeys.toList
  placeholderMismatches := c.entries.toList.filterMap mismatch?

/-- The number of messages still in use. -/
def total (r : Report) : Nat :=
  r.stats.active

/-- The share of the messages in use that have a finished translation, in percent. Without any
message the share is zero. -/
def percentTranslated (r : Report) : Float :=
  if r.total = 0 then 0.0 else r.stats.finished.toFloat * 100.0 / r.total.toFloat

/-- Every translation is reached, and has the placeholders of its message. -/
def isClean (r : Report) : Bool :=
  r.duplicateKeys.isEmpty && r.placeholderMismatches.isEmpty

/-! ## As text -/

/-- The number of messages in use with a translation of some kind. -/
def generated (r : Report) : Nat :=
  r.stats.finished + r.unfinishedDrafts

/-- The number of messages in use without any translation. -/
def untranslated (r : Report) : Nat :=
  r.total - r.generated

/-- The line that every summary begins with. -/
def headline (r : Report) : String :=
  r.language.text ++ ": Generated " ++ toString r.generated ++ " translation(s) (" ++
    toString r.stats.finished ++ " finished and " ++ toString r.unfinishedDrafts ++
    " unfinished), " ++ (Binary64.ofFloat r.percentTranslated).fixed 1 ++ "% translated"

/-- A message as a summary names it. -/
def messageText (context source : String) : String :=
  context ++ "/" ++ quoted source

/-- The lines below the headline, one for each thing worth a remark. -/
def remarks (r : Report) : List String :=
  (if 0 < r.untranslated then
    ["Ignored " ++ toString r.untranslated ++ " untranslated source text(s)"] else []) ++
  (if 0 < r.stats.obsolete then
    ["Kept " ++ toString r.stats.obsolete ++ " obsolete message(s)"] else []) ++
  r.mergedContexts.map (fun name => "Merged repeated context " ++ name) ++
  r.duplicateKeys.map (fun key => "Duplicate message " ++ messageText key.context key.source) ++
  r.placeholderMismatches.map (fun m =>
    "Placeholder mismatch in " ++ messageText m.context m.source ++ ": expected " ++
      listed m.expected ++ ", found " ++ listed m.found)

/-- The report as a paragraph: a headline, and each remark on an indented line of its own. -/
def summary (r : Report) : String :=
  r.remarks.foldl (fun written remark => written ++ "\n    " ++ remark) r.headline

/-! ## As data -/

/-- The report as a JSON object. -/
def json (r : Report) : Json :=
  .object [
    ("language", .string r.language.text),
    ("format_version", .optional r.formatVersion),
    ("contexts", .natural r.contexts),
    ("total", .natural r.total),
    ("finished", .natural r.stats.finished),
    ("empty_finished", .natural r.stats.emptyFinished),
    ("unfinished", .natural r.stats.unfinished),
    ("unfinished_drafts", .natural r.unfinishedDrafts),
    ("obsolete", .natural r.stats.obsolete),
    ("percent_translated", .number (Binary64.ofFloat r.percentTranslated).shortest),
    ("merged_contexts", .array (r.mergedContexts.map .string)),
    ("duplicate_keys", .array (r.duplicateKeys.map fun key =>
      .object [("context", .string key.context), ("source_text", .string key.source)])),
    ("placeholder_mismatches", .array (r.placeholderMismatches.map fun m =>
      .object [
        ("context", .string m.context),
        ("source_text", .string m.source),
        ("expected", .array (m.expected.map .natural)),
        ("found", .array (m.found.map .natural))]))]

end Report

end Phrasebook
