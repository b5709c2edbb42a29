import Mathlib.Data.List.Basic
import Phrasebook.Proofs.Catalog.Duplicate

/-!
# Catalogs context by context

A key belongs to one context, and the first entry with a key is found. So it matters in which
order the entries of one context come, and not how they alternate with those of others. This
module says so for all that a catalog tells about its entries.

- `Entry.placeless`: an entry without the places it is used at, which nothing depends on.
- `SameByContext`: two lists with the same entries in each context, in the same order.
- `SameByContext.perm`, `SameByContext.firstLive?`: the lists are then alike in number and kind,
  and scans find the same in them.
- `ofEdits_of_sameByContext`: catalogs with such entries cannot be told apart by their users.
-/

namespace Phrasebook

open Phrasebook.Locale

/-- The entry without the places where its message is used. -/
def Entry.placeless (e : Entry) : Entry :=
  { e with locations := [] }

namespace Catalog

/-- In each context there are the same entries in the same order, apart from their places. -/
def SameByContext (es es' : List Entry) : Prop :=
  ∀ name, (es.filter fun e => e.context == name).map Entry.placeless
    = (es'.filter fun e => e.context == name).map Entry.placeless

/-! ## Scans and counts -/

theorem filter_map_placeless (p : Entry → Bool) (blind : ∀ e, p e.placeless = p e)
    (es : List Entry) : (es.map Entry.placeless).filter p = (es.filter p).map Entry.placeless := by
  rw [List.filter_map]
  congr 2
  funext e
  exact blind e

theorem firstLive?_map_placeless (es : List Entry) (key : Key) :
    (firstLive? es key).map Entry.placeless = firstLive? (es.map Entry.placeless) key := by
  rw [firstLive?, firstLive?, List.find?_map]
  rfl

/-- A scan for a key needs the entries of its context only. -/
theorem firstLive?_filter (es : List Entry) (key : Key) :
    firstLive? (es.filter fun e => e.context == key.context) key = firstLive? es key := by
  rw [firstLive?, firstLive?, List.find?_filter]
  congr 1
  funext e
  unfold Entry.isLiveFor
  by_cases here : e.context = key.context <;> simp [here]

namespace SameByContext

variable {es es' : List Entry}

/-- A scan finds the same entry, apart from its places. -/
theorem firstLive? (same : SameByContext es es') (key : Key) :
    (Catalog.firstLive? es key).map Entry.placeless
      = (Catalog.firstLive? es' key).map Entry.placeless := by
  rw [← firstLive?_filter es, ← firstLive?_filter es', firstLive?_map_placeless,
    firstLive?_map_placeless, same key.context]

/-- One list has the entries of the other, apart from their places, in some order. -/
theorem perm (same : SameByContext es es') :
    (es.map Entry.placeless).Perm (es'.map Entry.placeless) := by
  rw [List.perm_iff_count]
  intro e
  -- equal entries are in the same context, so they can be counted there
  have counted : ∀ among : List Entry, (among.map Entry.placeless).count e
      = ((among.filter fun x => x.context == e.context).map Entry.placeless).count e := by
    intro among
    rw [← filter_map_placeless _ (fun _ => rfl)]
    symm
    exact List.count_filter (by simp)
  rw [counted es, counted es', same e.context]

/-- There are as many entries of each kind, whatever does not depend on their places. -/
theorem countP_eq (same : SameByContext es es') (p : Entry → Bool)
    (blind : ∀ e, p e.placeless = p e) : es.countP p = es'.countP p := by
  have counted : ∀ among : List Entry, (among.map Entry.placeless).countP p = among.countP p := by
    intro among
    rw [List.countP_map]
    exact List.countP_congr fun e _ => by rw [Function.comp_apply, blind]
  rw [← counted es, ← counted es']
  exact same.perm.countP_eq p

end SameByContext

/-! ## Catalogs -/

/-- Which text is shown depends on the entry that is found, and not on its places. -/
theorem resolve_eq_of_placeless (c : Catalog) (context source : String) :
    c.resolve context source
      = (((c.lookup? context source).map Entry.placeless).bind Entry.usable?).getD source := by
  unfold resolve
  cases c.lookup? context source <;> rfl

/-- **Catalogs with the same entries in each context** show the same texts, find the same
entries, and have the same counts and the same duplicates, the latter in some order. -/
theorem ofEdits_of_sameByContext (language language' : Tag) {edits edits' : List Edit}
    (same : SameByContext (pushed edits) (pushed edits')) :
    (∀ context source, (ofEdits language edits).resolve context source
      = (ofEdits language' edits').resolve context source) ∧
    (∀ context source, ((ofEdits language edits).lookup? context source).map Entry.placeless
      = ((ofEdits language' edits').lookup? context source).map Entry.placeless) ∧
    (ofEdits language edits).stats = (ofEdits language' edits').stats ∧
    (ofEdits language edits).duplicateKeys.toList.Perm
      (ofEdits language' edits').duplicateKeys.toList := by
  have lookups : ∀ context source,
      ((ofEdits language edits).lookup? context source).map Entry.placeless
        = ((ofEdits language' edits').lookup? context source).map Entry.placeless := by
    intro context source
    rw [lookup?_ofEdits, lookup?_ofEdits]
    exact same.firstLive? ⟨context, source⟩
  refine ⟨?_, lookups, ?_, ?_⟩
  · intro context source
    rw [resolve_eq_of_placeless, resolve_eq_of_placeless, lookups]
  · unfold stats
    simp only [← Array.countP_toList, entries_ofEdits]
    congr 1 <;> exact same.countP_eq _ fun _ => rfl
  · -- the entries that are hidden may differ, but not how many there are with each key
    rw [List.perm_iff_count]
    intro key
    rw [duplicateKeys_ofEdits, duplicateKeys_ofEdits, count_hiddenAfter, count_hiddenAfter,
      same.countP_eq _ fun _ => rfl]

end Catalog

end Phrasebook
