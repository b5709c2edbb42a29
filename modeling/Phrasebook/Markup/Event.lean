import Phrasebook.Markup.Position

/-!
# Events of a document

Reading a document yields its start tags, end tags and stretches of text in the order in which
they stand in it. Whatever breaks the rules of the syntax ends the reading, and the events up to
that point are still given, since a rule about the tree may have been broken before.

- `Event`: one item. A tag without content counts as a start tag and an end tag.
- `Events`: the items, and how the reading ended.
-/

namespace Phrasebook.Markup

/-- An item of a document. Names are given without the qualifier of a namespace, and tags with the
position they are reported at. -/
inductive Event where
  | startTag (name : String) (attributes : List (String × String)) (position : Position)
  | endTag (position : Position)
  /-- A stretch of text, which may go on in the next event. -/
  | text (content : String)
deriving DecidableEq, Repr

/-- How the reading of a document ended. -/
inductive Ending where
  /-- The document is over, with the position of its end. -/
  | complete (position : Position)
  /-- The rules of the syntax are broken. -/
  | malformed (position : Position)
deriving DecidableEq, Repr

/-- What a document yields. -/
structure Events where
  items : List Event
  ending : Ending
deriving DecidableEq, Repr

end Phrasebook.Markup
