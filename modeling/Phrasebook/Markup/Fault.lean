import Phrasebook.Markup.Position
import Phrasebook.Text.Quoted

/-!
# Faults of a document

Reading a document never recovers from a fault: the first one is the answer. A fault of the
syntax is known by its place; a fault of the content names the element and what is wrong with it,
so that a translator finds it in the file.

- `Malformation`: a breach of the syntax.
- `Fault`: the causes.
- `Fault.position`, `Fault.message`: where a fault is and how it is worded.
-/

namespace Phrasebook.Markup

open Text

/-- The ways to break the syntax of a document. -/
inductive Breach where
  /-- A rule of the syntax is broken. -/
  | rule
  /-- There is an end tag and no element that it could close. -/
  | strayEndTag
  /-- The document is over and has no element. -/
  | missingRoot
deriving DecidableEq, Repr

/-- A breach of the syntax, and where it is. -/
structure Malformation where
  breach : Breach
  position : Position
deriving DecidableEq, Repr

/-- Why a document was refused. -/
inductive Fault where
  /-- The syntax is broken. -/
  | malformed (malformation : Malformation)
  /-- An element lies deeper than documents may nest. -/
  | tooDeep (position : Position)
  /-- The root element has another name than this kind of document asks for. -/
  | unexpectedRoot (expected found : String) (position : Position)
  /-- A child element that has to be there is not. -/
  | missingElement (parent element : String) (position : Position)
  /-- An attribute that has to be there is not. -/
  | missingAttribute (element name : String) (position : Position)
  /-- An attribute has a value without a meaning. -/
  | invalidAttribute (element name value : String) (position : Position)
deriving DecidableEq, Repr

/-- The wording of a breach, behind its position. Which rule is broken is left out: it is not told
apart here. -/
def Breach.detail : Breach → String
  | rule => ""
  | strayEndTag => ": end tag without a matching start tag"
  | missingRoot => ": document has no root element"

namespace Fault

/-- Where the fault is. -/
def position : Fault → Position
  | malformed m => m.position
  | tooDeep p | unexpectedRoot _ _ p | missingElement _ _ p | missingAttribute _ _ p
  | invalidAttribute _ _ _ p => p

/-- The name of an element in angle brackets. -/
def tagText (element : String) : String :=
  "<" ++ element ++ ">"

/-- The wording of a fault. -/
def message : Fault → String
  | malformed m => "malformed XML at " ++ m.position.text ++ m.breach.detail
  | tooDeep p => "malformed XML at " ++ p.text ++ ": elements nested too deeply"
  | unexpectedRoot expected found p =>
    "unexpected root element " ++ tagText found ++ " at " ++ p.text ++ ", expected " ++
      tagText expected
  | missingElement parent element p =>
    tagText parent ++ " at " ++ p.text ++ " has no " ++ tagText element ++ " child"
  | missingAttribute element name p =>
    tagText element ++ " at " ++ p.text ++ " has no " ++ quoted name ++ " attribute"
  | invalidAttribute element name value p =>
    tagText element ++ " at " ++ p.text ++ " has invalid " ++ quoted name ++ " value " ++
      quoted value

end Fault

end Phrasebook.Markup
