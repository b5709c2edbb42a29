import Phrasebook.Markup.Encoding
import Phrasebook.Markup.Event
import Phrasebook.Markup.Marks
import Phrasebook.Markup.Name
import Phrasebook.Markup.Token.Lexer

/-!
# What a reader of documents knows

A document is read token by token. Between two tokens everything that matters is in one `State`:
where the reader stands in the syntax, which elements are open, which entities are declared, and
which events have been found. Each step either leads to the next state or fails at the token that
it has read.

- `Mode`: the place in the syntax, with whatever has been read of an unfinished item.
- `State`: the mode and all that outlives it.
- `State.failHere`: the way to fail.
- `State.beginDocument`, `State.beginItem`: the document or an item of it begins.
-/

namespace Phrasebook.Markup

/-! ## Unfinished items -/

/-- A start tag of which the name has been read. -/
structure StartTag where
  name : Name
  /-- The attributes so far, the last one first. Namespace declarations are not among them. -/
  attributes : List (Name × String)
  /-- The qualifiers that the tag declares. -/
  qualifiers : List String
deriving Repr

/-- The places within a start tag after its name. -/
inductive TagPlace where
  /-- After white space: an attribute or the end of the tag follows. -/
  | blank
  /-- In the name of an attribute. -/
  | attributeName (name : PartialName)
  /-- After the name of an attribute. -/
  | equals (name : Name)
  /-- Directly after the value of an attribute. -/
  | afterValue
deriving Repr

/-- The fields of the declaration `<?xml … ?>`, in the order they stand in. -/
inductive Field where
  | version
  | encoding
  | standalone
deriving DecidableEq, Repr

/-- The first letter of a field's name, and the other ones. -/
def Field.letters : Field → Char × String
  | .version => ('v', "ersion")
  | .encoding => ('e', "ncoding")
  | .standalone => ('s', "tandalone")

/-- The places within the declaration. -/
inductive DeclarationPlace where
  /-- After white space: one of the listed fields follows, or the end unless one is required. -/
  | before (allowed : List Field)
  /-- In the name of a field, after its first letter. -/
  | name (field : Field) (name : PartialName)
  /-- After the name of a field. -/
  | equals (field : Field)
  /-- Directly after the value of a field. -/
  | afterValue (field : Field)
deriving Repr

/-- What a quoted value is for. -/
inductive Purpose where
  | attributeOf (tag : StartTag) (name : Name)
  | field (field : Field)
deriving Repr

/-- A quoted value that is being read. -/
structure Value where
  purpose : Purpose
  /-- The quote that ends the value, once it has begun. -/
  quote : Option Quote
  /-- The value so far, the last character first. -/
  read : List Char
deriving Repr

/-- The places within a processing instruction. -/
inductive InstructionPlace where
  /-- In its name. -/
  | name (name : Word)
  /-- In its data. -/
  | data
deriving Repr

/-- The places within a document type declaration. -/
inductive DoctypePlace where
  /-- Between its declarations. -/
  | between
  /-- In a quoted text. -/
  | quoted (q : Quote)
  | comment
  /-- In the word that says what is declared, the last character first. -/
  | keyword (read : List Char)
  /-- Before the name of an entity; `isParameter` after a `%`. -/
  | beforeEntityName (isParameter : Bool)
  /-- In the name of an entity. -/
  | entityName (name : Word)
  /-- Between the name of an entity and its value. -/
  | beforeEntityValue (name : String)
  /-- In the value of an entity, the last character first. -/
  | entityValue (name : String) (read : List Char)
  /-- After an `&` in the value of an entity. -/
  | valueReference (name : String) (read : List Char)
  /-- In the digits of a numeric reference in the value of an entity. -/
  | valueNumeric (name : String) (read digits : List Char)
  /-- In the name of a parameter entity in the value of an entity. -/
  | valueParameter (name : String) (read parameter : List Char)
  /-- In the name of a parameter entity between declarations. -/
  | parameterReference (read : List Char)
  /-- In the rest of a declaration that nothing depends on. -/
  | rest
deriving Repr

/-- Where the reader stands in the syntax. -/
inductive Mode where
  /-- In text, or outside the root element. -/
  | between
  | comment
  /-- In a marked section of text. -/
  | marked
  /-- In a reference in text, the last character first. -/
  | textReference (read : List Char)
  /-- In a reference in a quoted value, the last character first. -/
  | valueReference (value : Value) (read : List Char)
  /-- In the name of a start tag. -/
  | tagName (name : PartialName)
  /-- In a start tag after its name. -/
  | tag (tag : StartTag) (place : TagPlace)
  /-- In or before a quoted value. -/
  | value (value : Value)
  /-- In the name of an end tag. -/
  | endName (name : PartialName)
  /-- In an end tag after its name. -/
  | endBlank (name : Name)
  | instruction (place : InstructionPlace)
  | declaration (place : DeclarationPlace)
  | doctype (place : DoctypePlace)
deriving Repr

/-! ## States -/

/-- An element that has been opened and not closed. -/
structure OpenElement where
  name : Name
  /-- The qualifiers that its start tag declares. -/
  qualifiers : List String
deriving Repr

/-- How far a document has come. -/
inductive Progress where
  /-- Nothing has been read. -/
  | nothing
  /-- Neither a document type declaration nor an element has been read. -/
  | prolog
  /-- A document type declaration has been read. -/
  | doctype
  /-- An element has been read. -/
  | element
deriving DecidableEq, Repr

/-- All that the reader knows after a part of a document. -/
structure State where
  lexer : Lexer
  /-- The position of the next character. -/
  head : Position
  /-- The position of the token that is being read. -/
  place : Position
  marks : Marks
  mode : Mode
  progress : Progress
  /-- The version of the syntax. -/
  version : Version
  /-- How the next bytes are decoded. -/
  encoding : Encoding
  /-- The encoding named in the declaration, until the declaration ends. -/
  declared : Option String
  /-- The open elements, the innermost first. -/
  nesting : List OpenElement
  /-- The entities and their replacements. Parameter entities have a `%` before their name. -/
  entities : List (String × List Char)
  /-- What is to be read before the next character of the document. -/
  replacement : List Char
  /-- The text since the last event, the last character first. -/
  pending : List Char
  /-- The events so far, the last one first. -/
  events : List Event

/-- Where a document broke the rules, and what had been read before. -/
structure Failure where
  position : Position
  /-- The events so far, the last one first. -/
  events : List Event

namespace State

/-- The state before the first character. -/
def start (encoding : Encoding) : State where
  lexer := Lexer.start
  head := Position.start
  place := Position.start
  marks := Marks.start
  mode := .between
  progress := .nothing
  version := .v10
  encoding := encoding
  declared := none
  nesting := []
  entities := []
  replacement := []
  pending := []
  events := []

/-- No element is open. -/
def isOutside (s : State) : Bool :=
  s.nesting.isEmpty

/-- Goes on in another mode. -/
def enter (s : State) (mode : Mode) : Except Failure State :=
  .ok { s with mode := mode }

/-- Fails at the token being read. -/
def failHere (s : State) : Except Failure State :=
  .error ⟨s.place, s.events⟩

/-- Leaves a mark at the token being read. -/
def leaveMark (s : State) : State :=
  { s with marks := s.marks.leave s.place }

/-- Takes up the earliest mark. -/
def takeMark (s : State) : State :=
  { s with marks := s.marks.take s.place }

/-- Adds characters to the text. -/
def addText (s : State) (cs : List Char) : State :=
  { s with pending := cs.reverse ++ s.pending }

/-- Leaves a mark where a stretch of text begins. -/
def markText (s : State) : State :=
  if s.pending.isEmpty then s.leaveMark else s

/-- The document begins, unless it has begun before. Its beginning counts as an item. -/
def beginDocument (s : State) : State :=
  match s.progress with
  | .nothing => { s.leaveMark.takeMark with progress := .prolog }
  | _ => s

/-- An item begins that ends a stretch of text. -/
def beginItem (s : State) : State :=
  if s.pending.isEmpty then s.leaveMark
  else
    { s.leaveMark.takeMark with
      pending := []
      events := .text (String.ofList s.pending.reverse) :: s.events }

end State

/-! ## Names -/

/-- What a token does to a name that is being read. -/
inductive NameStep where
  | more (name : PartialName)
  /-- The name is complete, and the token stands behind it. -/
  | complete (name : Name)
  | refused

/-- The name is complete. -/
def PartialName.finish (name : PartialName) : NameStep :=
  match name.name? with
  | some complete => .complete complete
  | none => .refused

/-- A token within or behind a name. White space ends a name, and so does a token of `closers`. -/
def PartialName.read (name : PartialName) (closers : List Token) (t : Token) : NameStep :=
  match t with
  | .char c =>
    match name.extend? c with
    | some name' => .more name'
    | none => if isSpace c then name.finish else .refused
  | t => if closers.contains t then name.finish else .refused

end Phrasebook.Markup
