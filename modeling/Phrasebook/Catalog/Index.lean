import Std.Data.HashMap
import Phrasebook.Catalog.Entry

/-!
# Positions by key

A key is looked up in two steps, first the context and then the text within it.

- `Index`: the positions noted so far.
- `Index.find?`, `Index.insert`: the two operations. `find?_insert` says that together they
  behave like one table of keys.
-/

namespace Phrasebook

/-- Positions by context and text. -/
structure Index where
  /-- For each context, the position noted for each of its texts. -/
  contexts : Std.HashMap String (Std.HashMap String Nat)

namespace Index

/-- Nothing is noted. -/
def empty : Index :=
  ⟨∅⟩

/-- The position noted for a key. -/
def find? (i : Index) (key : Key) : Option Nat :=
  i.contexts[key.context]?.bind fun sources => sources[key.source]?

/-- Notes the position for a key. A context without positions gets its table first. -/
def insert (i : Index) (key : Key) (position : Nat) : Index :=
  ⟨i.contexts.alter key.context fun sources? =>
    some ((sources?.getD ∅).insert key.source position)⟩

@[simp] theorem find?_empty (key : Key) : empty.find? key = none := by
  simp [find?, empty]

/-- A position is noted for its key and for no other. -/
theorem find?_insert (i : Index) (key other : Key) (position : Nat) :
    (i.insert key position).find? other
      = if key = other then some position else i.find? other := by
  obtain ⟨context, source⟩ := key
  obtain ⟨context', source'⟩ := other
  unfold find? insert
  rw [Std.HashMap.getElem?_alter]
  by_cases hc : context = context'
  · subst hc
    by_cases hs : source = source'
    · simp [hs]
    · -- the table of the context gains another text, so the old answer stands
      cases hold : i.contexts[context]? with
      | none => simp [hs]
      | some sources => simp [Std.HashMap.getElem?_insert, hs]
  · simp [hc]

end Index

end Phrasebook
