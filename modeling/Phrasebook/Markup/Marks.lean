import Phrasebook.Markup.Position

/-!
# Marks

An item of a document is reported when its end has been read, but it stands where it begins. So a
mark is left where an item begins, and a report takes up the earliest mark that is left. An item
without a mark of its own, such as text that begins with a reference, takes the mark of the next
one.

- `Marks.leave`: an item begins.
- `Marks.take`: an item is reported.
-/

namespace Phrasebook.Markup

/-- The marks that have been left. -/
structure Marks where
  /-- Where the last reported item stands. -/
  current : Position
  /-- The marks of the items to come, in the order they were left in. -/
  later : List Position
deriving DecidableEq, Repr

namespace Marks

/-- The marks before the first item. -/
def start : Marks :=
  ⟨Position.start, []⟩

/-- Leaves a mark. -/
def leave (m : Marks) (p : Position) : Marks :=
  { m with later := m.later ++ [p] }

/-- Takes up the earliest mark. An item without one stands where it is reported. -/
def take (m : Marks) (p : Position) : Marks :=
  match m.later with
  | earliest :: later => ⟨earliest, later⟩
  | [] => ⟨p, []⟩

end Marks

end Phrasebook.Markup
