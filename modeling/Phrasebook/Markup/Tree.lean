import Phrasebook.Markup.Element
import Phrasebook.Markup.Event

/-!
# The tree of a document

The events of a document say how its elements nest. A stack of open elements turns them into a
tree; it may hold `maxDepth` elements, so that no document can make the tree deeper.

- `Builder`: the open elements, the innermost first, and the last root that is complete.
- `Builder.step`: one event.
- `Element.ofEvents`: the root element of a document. Of several roots it is the last one.
-/

namespace Phrasebook.Markup

/-- The number of elements that may be open at once. -/
def maxDepth : Nat := 64

/-- A tree that is being built. -/
structure Builder where
  /-- The open elements, the innermost first. Their children are in reverse order. -/
  nesting : List Element
  /-- The last element that was closed when no other was open. -/
  root : Option Element

namespace Builder

/-- Nothing has been read. -/
def start : Builder :=
  ⟨[], none⟩

/-- Adds text after the children so far, to the last one if that is text. -/
def addText (children : List Node) (content : String) : List Node :=
  match children with
  | .text before :: rest => .text (before ++ content) :: rest
  | children => .text content :: children

/-- The element with its children in document order. -/
def closed (e : Element) : Element :=
  { e with children := e.children.reverse }

/-- Takes in one event. An end tag needs an open element; text outside the root changes nothing. -/
def step (b : Builder) : Event → Except Fault Builder
  | .startTag name attributes position =>
    if b.nesting.length < maxDepth then
      .ok { b with nesting := ⟨name, attributes, position, []⟩ :: b.nesting }
    else
      .error (.tooDeep position)
  | .endTag position =>
    match b.nesting with
    | [] => .error (.malformed ⟨.strayEndTag, position⟩)
    | [e] => .ok ⟨[], some (closed e)⟩
    | e :: parent :: rest =>
      .ok { b with
        nesting := { parent with children := (closed e).node :: parent.children } :: rest }
  | .text content =>
    match b.nesting with
    | [] => .ok b
    | e :: rest =>
      .ok { b with nesting := { e with children := addText e.children content } :: rest }

/-- Takes in events one after the other, up to the first fault. -/
def run (b : Builder) : List Event → Except Fault Builder
  | [] => .ok b
  | event :: events =>
    match b.step event with
    | .ok b' => b'.run events
    | .error fault => .error fault

end Builder

/-- The root element of a document. A fault of the tree comes before the fault of the syntax
that ended the reading. -/
def Element.ofEvents (events : Events) : Except Fault Element :=
  match Builder.start.run events.items with
  | .error fault => .error fault
  | .ok b =>
    match events.ending with
    | .malformed position => .error (.malformed ⟨.rule, position⟩)
    | .complete position =>
      match b.root with
      | some e => .ok e
      | none => .error (.malformed ⟨.missingRoot, position⟩)

end Phrasebook.Markup
