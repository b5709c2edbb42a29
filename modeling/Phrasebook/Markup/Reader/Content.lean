import Phrasebook.Markup.Reader.State

/-!
# Text and the items in it

Outside the root element only white space may stand between tags, comments and instructions.
Comments vanish and marked sections are text, so a stretch of text may be written in several
parts.

- `State.readBetween`: a token of text, or between items outside the root.
- `State.readComment`, `State.readMarked`: comments and marked sections.
-/

namespace Phrasebook.Markup

namespace State

/-- A start tag begins. -/
def beginTag (s : State) : State :=
  match s.progress with
  | .nothing => { s.beginDocument with progress := .element }
  | _ => { s.beginItem with progress := .element }

/-- A document type declaration begins. It is not reported, so its mark is taken up at once. It
stands before the first element, and there is only one. -/
def beginDoctype (s : State) : Except Failure State :=
  match s.progress with
  | .nothing | .prolog =>
    { s.beginItem.takeMark with progress := .doctype }.enter (.doctype .between)
  | .doctype | .element => s.failHere

/-- A token outside the root element. -/
def readOutside (s : State) (t : Token) : Except Failure State :=
  match t with
  | .char c => if isSpace c then .ok s.beginDocument else s.failHere
  | .commentStart => s.beginDocument.enter .comment
  | .tagStart => s.beginTag.enter (.tagName .empty)
  | .doctypeStart => s.beginDoctype
  | .instructionStart => s.beginItem.enter (.instruction (.name .empty))
  | _ => s.failHere

/-- A token of text. Tokens that begin nothing here are text themselves. A reference or a `;`
leaves no mark, not even where a stretch of text begins with it. -/
def readText (s : State) (t : Token) : Except Failure State :=
  match t with
  | .char c => if s.version.admitsText c then .ok (s.markText.addText [c]) else s.failHere
  | .tagEnd | .emptyTagEnd | .equals | .quote _ | .commentEnd | .instructionEnd =>
    .ok (s.markText.addText t.content)
  | .referenceStart => s.enter (.textReference [])
  | .referenceEnd => .ok (s.addText t.content)
  | .commentStart => s.enter .comment
  | .sectionStart => s.enter .marked
  | .tagStart => s.beginTag.enter (.tagName .empty)
  | .endTagStart => s.beginItem.enter (.endName .empty)
  | .instructionStart => s.beginItem.enter (.instruction (.name .empty))
  | .doctypeStart | .declarationStart | .sectionEnd | .invalid => s.failHere

/-- A token of text, or outside the root. -/
def readBetween (s : State) (t : Token) : Except Failure State :=
  if s.isOutside then s.readOutside t else s.readText t

/-- A token of a comment. -/
def readComment (s : State) (t : Token) : Except Failure State :=
  match t with
  | .commentEnd => s.enter .between
  | .char c => if s.version.admits c then .ok s else s.failHere
  | _ => .ok s

/-- A token of a marked section. -/
def readMarked (s : State) (t : Token) : Except Failure State :=
  match t with
  | .sectionEnd => s.enter .between
  | .char c => if s.version.admits c then .ok (s.markText.addText [c]) else s.failHere
  | t => .ok (s.markText.addText t.content)

end State

end Phrasebook.Markup
