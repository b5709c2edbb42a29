import Phrasebook.Markup.Reader.Content
import Phrasebook.Markup.Reader.Declaration
import Phrasebook.Markup.Reader.Doctype
import Phrasebook.Markup.Reader.Tag

/-!
# Reading documents

The events of a document, from its bytes. The reader is a fold: a byte may complete a character,
a character may complete tokens, and a token leads from one state to the next. The one departure
is the replacement of an entity, which is read in place of its reference; since a replacement may
contain references, their number is limited until the document itself goes on.

- `State.read`: one token.
- `State.readChar`: one character of the document, with the replacement it may have led to.
- `Events.ofBytes`: the events of a document.
-/

namespace Phrasebook.Markup

namespace State

/-- A quoted value is complete. -/
def finishValue (s : State) (value : Value) : Except Failure State :=
  let text := String.ofList value.read.reverse
  match value.purpose with
  | .attributeOf tag name => s.finishAttribute tag name text
  | .field field => s.finishField field text

/-- A token in or before a quoted value. A `<` that begins a start tag or an instruction may not
stand in it; all other tokens may. -/
def readValue (s : State) (value : Value) (t : Token) : Except Failure State :=
  match value.quote, t with
  | none, .char c => if isSpace c then .ok s else s.failHere
  | none, .quote q => s.enter (.value { value with quote := some q })
  | none, _ => s.failHere
  | some _, .referenceStart => s.enter (.valueReference value [])
  | some _, .tagStart | some _, .instructionStart => s.failHere
  | some _, .char c =>
    if s.version.admitsText c then s.enter (.value { value with read := c :: value.read })
    else s.failHere
  | some q, t =>
    if t = .quote q then s.finishValue value
    else s.enter (.value { value with read := t.content.reverse ++ value.read })

/-- One token. Characters that make up no token have no place anywhere. -/
def read (s : State) (t : Token) : Except Failure State :=
  if t = .invalid then s.failHere
  else
    match s.mode with
    | .between => s.readBetween t
    | .comment => s.readComment t
    | .marked => s.readMarked t
    | .textReference read => s.readTextReference read t
    | .valueReference value read => s.readValueReference value read t
    | .tagName name => s.readTagName name t
    | .tag tag place => s.readTag tag place t
    | .value value => s.readValue value t
    | .endName name => s.readEndName name t
    | .endBlank name => s.readEndBlank name t
    | .instruction place => s.readInstruction place t
    | .declaration place => s.readDeclaration place t
    | .doctype place => s.readDoctype place t

/-- Tokens one after the other. -/
def readAll (s : State) : List Placed → Except Failure State
  | [] => .ok s
  | ⟨t, p⟩ :: tokens =>
    match { s with place := p }.read t with
    | .ok s' => s'.readAll tokens
    | .error failure => .error failure

/-- One character, after which the document goes on at `behind`. -/
def step (s : State) (c : Char) (behind : Position) : Except Failure State :=
  let (tokens, lexer) := s.lexer.step c s.head behind
  { s with lexer := lexer, head := behind }.readAll tokens

/-! ## Replacements -/

/-- The number of replacements that may follow each other before the document goes on. -/
def maxReplacements : Nat := 10

/-- The number of characters that may still have to be read where another replacement follows. -/
def maxUnread : Nat := 1000000

/-- Reads the characters of a replacement, none of which has a place in the document. If they
lead to another replacement, that one stands before the rest of them, and `again` reads on. -/
def readReplaced (again : List Char → State → Except Failure State) :
    List Char → State → Except Failure State
  | [], s => .ok s
  | c :: cs, s =>
    match s.step c s.head with
    | .error failure => .error failure
    | .ok s' =>
      if s'.replacement.isEmpty then readReplaced again cs s'
      else if cs.length ≤ maxUnread then
        again (s'.replacement ++ cs) { s' with replacement := [] }
      else s'.failHere

/-- Reads a replacement that may lead to so many further ones. -/
def readReplacement : Nat → List Char → State → Except Failure State
  | 0 => readReplaced fun _ s => s.failHere
  | further + 1 => readReplaced (readReplacement further)

/-- Reads one character of the document. -/
def readChar (s : State) (c : Char) : Except Failure State :=
  match s.step c (s.head.advance c) with
  | .error failure => .error failure
  | .ok s' =>
    if s'.replacement.isEmpty then .ok s'
    else readReplacement (maxReplacements - 1) s'.replacement { s' with replacement := [] }

/-- The document may end here. -/
def isComplete (s : State) : Bool :=
  s.isOutside && s.progress = .element && s.lexer.isIdle &&
    match s.mode with
    | .between => true
    | _ => false

/-- The events of a document that ends here. The end counts as an item. -/
def finish (s : State) : Events where
  items := s.events.reverse
  ending := if s.isComplete then .complete (s.marks.take s.head).current else .malformed s.head

end State

namespace Events

/-- The events of a document that breaks off. -/
def broken (events : List Event) (position : Position) : Events where
  items := events.reverse
  ending := .malformed position

/-- Reads the bytes of a document from a state on. Bytes that make up no character are reported
at the front of the document, whatever their place. -/
def read : List UInt8 → Unfinished → State → Events
  | [], .nothing, s => s.finish
  | [], _, s => broken s.events Position.start
  | byte :: bytes, unfinished, s =>
    match decode s.encoding unfinished byte with
    | .more unfinished' => read bytes unfinished' s
    | .invalid => broken s.events Position.start
    | .char c =>
      match s.readChar c with
      | .ok s' => read bytes .nothing s'
      | .error failure => broken failure.events failure.position

/-- The bytes, after a mark of UTF-8, begin with a start tag: a `<` and none of `!`, `/` and `?`. -/
def startWithTag : List UInt8 → Bool
  | 0xef :: 0xbb :: 0xbf :: 0x3c :: next :: _ | 0x3c :: next :: _ =>
    next != 0x21 && next != 0x2f && next != 0x3f
  | _ => false

/-- Puts the first tag at the front of the document. -/
def pinFirst (events : Events) : Events :=
  match events.items with
  | .startTag name attributes _ :: rest =>
    { events with items := .startTag name attributes Position.start :: rest }
  | _ => events

/-- The events of a document. A tag that begins the document has no mark and would be placed at
its end. -/
def ofBytes (bytes : List UInt8) : Events :=
  let (encoding, rest) := Encoding.detect bytes
  let events := read rest .nothing (State.start encoding)
  if startWithTag bytes then events.pinFirst else events

end Events

end Phrasebook.Markup
