import Phrasebook.Markup.Fault
import Phrasebook.Text.Numeral

/-!
# Elements

A document as a tree. Comments and instructions are gone, and neighbouring stretches of text are
one node.

- `Node`, `Element`: the tree. An `Element` is a node that is not text, seen from outside.
- `Element.attribute?`, `Element.elements`, `Element.child?`: the parts of an element.
- `Element.text`: the characters of an element. Characters that a document cannot contain are
  written as elements `<byte value="x1b"/>`, and they are read in place.
-/

namespace Phrasebook.Markup

open Text

/-- A node of a document. -/
inductive Node where
  | text (content : String)
  /-- An element with its name, attributes, place and children. -/
  | element (name : String) (attributes : List (String × String)) (position : Position)
      (children : List Node)
deriving Repr

/-- An element with its attributes and children. -/
structure Element where
  name : String
  attributes : List (String × String)
  /-- The place of the `<` of its start tag. -/
  position : Position
  children : List Node
deriving Repr

/-- The element that a node is, unless it is text. -/
def Node.element? : Node → Option Element
  | .text _ => none
  | .element name attributes position children => some ⟨name, attributes, position, children⟩

namespace Element

/-- The element as a child of another one. -/
def node (e : Element) : Node :=
  .element e.name e.attributes e.position e.children

/-- The value of an attribute. -/
def attribute? (e : Element) (name : String) : Option String :=
  e.attributes.lookup name

/-- The children that are elements, in order. -/
def elements (e : Element) : List Element :=
  e.children.filterMap Node.element?

/-- The first child element with a name. -/
def child? (e : Element) (name : String) : Option Element :=
  e.elements.find? fun child => child.name == name

/-- The number that an escape writes: hexadecimal after an `x`, else decimal. -/
def escapeCode? : List Char → Option Nat
  | 'x' :: digits | 'X' :: digits => unsigned? 16 digits
  | digits => unsigned? 10 digits

/-- The character that an escape stands for. -/
def escapedChar (e : Element) : Except Fault Char :=
  match e.attribute? "value" with
  | none => .error (.missingAttribute "byte" "value" e.position)
  | some written =>
    match (escapeCode? written.toList).bind scalar? with
    | some c => .ok c
    | none => .error (.invalidAttribute "byte" "value" written e.position)

/-- The characters that a child contributes to the text. -/
def textOfNode (node : Node) : Except Fault (List Char) :=
  match node with
  | .text content => .ok content.toList
  | .element name attributes position children =>
    if name = "byte" then
      (escapedChar ⟨name, attributes, position, children⟩).map fun c => [c]
    else .ok []

/-- The characters that children contribute, one after the other. -/
def textOfNodes : List Node → Except Fault (List Char)
  | [] => .ok []
  | node :: nodes => do
    let first ← textOfNode node
    let rest ← textOfNodes nodes
    return first ++ rest

/-- The text of an element. Elements within it contribute nothing, except escapes. -/
def text (e : Element) : Except Fault String :=
  (textOfNodes e.children).map String.ofList

end Element

end Phrasebook.Markup
