import Phrasebook.Markup.Reader.State

/-!
# Processing instructions and the declaration

A processing instruction carries no content and is skipped. An instruction named `xml` is the
declaration of the document: it may stand at the very front only, and names the version, then
perhaps the encoding, then perhaps whether the document stands alone.

- `State.readInstruction`: the tokens of an instruction.
- `State.readDeclaration`: the tokens of the declaration.
- `State.endDeclaration`: the declaration is complete, and the rest of the document is decoded
  as it says.
-/

namespace Phrasebook.Markup

namespace State

/-! ## The declaration -/

/-- The fields that may follow a field. -/
def fieldsAfter : Field → List Field
  | .version => [.encoding, .standalone]
  | .encoding => [.standalone]
  | .standalone => []

/-- The declaration ends. An encoding that is unknown or contradicts the byte order mark is
reported here. -/
def endDeclaration (s : State) : Except Failure State :=
  let ended := { s.takeMark with progress := .prolog }
  match s.declared with
  | none => ended.enter .between
  | some name =>
    match (DeclaredEncoding.ofName? name).bind s.encoding.declare? with
    | some encoding => { ended with encoding := encoding }.enter .between
    | none => s.failHere

/-- The value of a field is complete. -/
def finishField (s : State) (field : Field) (value : String) : Except Failure State :=
  match field with
  | .version =>
    match Version.ofText? value with
    | some version => { s with version := version }.enter (.declaration (.afterValue field))
    | none => s.failHere
  | .encoding => { s with declared := some value }.enter (.declaration (.afterValue field))
  | .standalone =>
    if value == "yes" || value == "no" then s.enter (.declaration (.afterValue field))
    else s.failHere

/-- The value of a field follows. -/
def beginFieldValue (s : State) (field : Field) : Except Failure State :=
  s.enter (.value ⟨.field field, none, []⟩)

/-- A token in the name of a field. The letters after the first one make up a name of their own,
of which only the part without a qualifier counts. -/
def readFieldName (s : State) (field : Field) (name : PartialName) (t : Token) :
    Except Failure State :=
  match name.read [.equals] t with
  | .more name' => s.enter (.declaration (.name field name'))
  | .refused => s.failHere
  | .complete complete =>
    if complete.base = field.letters.2 then
      if t = .equals then s.beginFieldValue field
      else s.enter (.declaration (.equals field))
    else s.failHere

/-- A token of the declaration outside quoted values. -/
def readDeclaration (s : State) (place : DeclarationPlace) (t : Token) :
    Except Failure State :=
  match place, t with
  | .name field name, t => s.readFieldName field name t
  | .before allowed, .char c =>
    if isSpace c then .ok s
    else match allowed.find? fun field => field.letters.1 = c with
    | some field => s.enter (.declaration (.name field .empty))
    | none => s.failHere
  | .before allowed, .instructionEnd =>
    if allowed.contains .version then s.failHere else s.endDeclaration
  | .equals _, .char c => if isSpace c then .ok s else s.failHere
  | .equals field, .equals => s.beginFieldValue field
  | .afterValue field, .char c =>
    if isSpace c then s.enter (.declaration (.before (fieldsAfter field))) else s.failHere
  | .afterValue _, .instructionEnd => s.endDeclaration
  | _, _ => s.failHere

/-! ## Instructions -/

/-- The name `xml` in any casing. Only the declaration has it. -/
def isDeclarationName (name : List Char) : Bool :=
  decide (name.map Char.toLower = ['x', 'm', 'l'])

/-- The name of an instruction ends with white space, and data follow. -/
def nameInstruction (s : State) (name : List Char) : Except Failure State :=
  if name = ['x', 'm', 'l'] ∧ s.progress = .nothing then
    s.enter (.declaration (.before [.version]))
  else if isDeclarationName name then s.failHere
  else s.beginDocument.enter (.instruction .data)

/-- An instruction ends with its name. At the front of a document it is the beginning that is
reported here, and the mark of the instruction is left over. -/
def endBareInstruction (s : State) (name : List Char) : Except Failure State :=
  if name.isEmpty || isDeclarationName name then s.failHere
  else
    match s.progress with
    | .nothing => s.beginDocument.enter .between
    | _ => s.takeMark.enter .between

/-- A token of an instruction. -/
def readInstruction (s : State) (place : InstructionPlace) (t : Token) :
    Except Failure State :=
  match place, t with
  | .name name, .char c =>
    match name.extend? c with
    | some name' => s.enter (.instruction (.name name'))
    | none => if isSpace c then s.nameInstruction name.chars else s.failHere
  | .name name, .instructionEnd => s.endBareInstruction name.chars
  | .name _, _ => s.failHere
  | .data, .instructionEnd => s.takeMark.enter .between
  | .data, .char c => if s.version.admits c then .ok s else s.failHere
  | .data, _ => .ok s

end State

end Phrasebook.Markup
