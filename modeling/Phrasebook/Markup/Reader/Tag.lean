import Phrasebook.Markup.Reader.State

/-!
# Tags

Start tags with their attributes, and end tags. A qualifier has to be declared by the element
itself or by one around it; `xml` needs no declaration. An attribute `xmlns` or with the
qualifier `xmlns` declares a namespace and is not listed.

- `StartTag.isTaken`: whether a name may not be repeated.
- `State.openElement`: a start tag is complete.
- `State.closeElement`: an end tag is complete.
- `State.readTag`, `State.finishAttribute`: the tokens of a start tag and the values in it.
-/

namespace Phrasebook.Markup

/-- The name of a namespace that the syntax itself defines, from the segments of its path. -/
def standardNamespace (path : List String) : String :=
  String.intercalate "/" ("http:" :: "" :: "www.w3.org" :: path)

/-- The namespace of the qualifier `xml`. -/
def xmlNamespace : String := standardNamespace ["XML", "1998", "namespace"]

/-- The namespace of the qualifier `xmlns`. -/
def xmlnsNamespace : String := standardNamespace ["2000", "xmlns", ""]

/-- The number of attributes that an element may have. -/
def maxAttributes : Nat := 65536

/-- The number of attributes whose names the next one is free to repeat. Fewer attributes, and
more, keep their names to themselves. -/
def freeAfter : Nat := 8

/-- A name that another attribute of the tag keeps to itself. Only the ninth attribute may have
the name of one before it. -/
def StartTag.isTaken (tag : StartTag) (name : Name) : Bool :=
  tag.attributes.length != freeAfter && tag.attributes.any fun (other, _) => other = name

namespace State

/-- The qualifier of a name is declared by the tag, by an open element or by the syntax. -/
def isBound (s : State) (tag : StartTag) (name : Name) : Bool :=
  match name.qualifier with
  | none => true
  | some qualifier =>
    qualifier == "xml" || tag.qualifiers.contains qualifier ||
      s.nesting.any fun element => element.qualifiers.contains qualifier

/-- A start tag is complete. The element stays open unless the tag says that it is empty. -/
def openElement (s : State) (tag : StartTag) (isEmpty : Bool) : Except Failure State :=
  let attributes := tag.attributes.reverse
  if s.isBound tag tag.name && attributes.all fun (name, _) => s.isBound tag name then
    let listed := attributes.map fun (name, value) => (name.base, value)
    let marked := s.takeMark
    let opened := Event.startTag tag.name.base listed marked.marks.current :: s.events
    if isEmpty then
      { marked with events := .endTag marked.marks.current :: opened }.enter .between
    else
      let element := OpenElement.mk tag.name tag.qualifiers
      { marked with events := opened, nesting := element :: s.nesting }.enter .between
  else
    s.failHere

/-- An end tag is complete; it has to name the innermost open element. -/
def closeElement (s : State) (name : Name) : Except Failure State :=
  match s.nesting with
  | element :: rest =>
    if element.name = name then
      let marked := s.takeMark
      let closed := Event.endTag marked.marks.current :: s.events
      { marked with events := closed, nesting := rest }.enter .between
    else s.failHere
  | [] => s.failHere

/-! ## Start tags -/

/-- A token in the name of a start tag. -/
def readTagName (s : State) (name : PartialName) (t : Token) : Except Failure State :=
  match name.read [.tagEnd, .emptyTagEnd] t with
  | .more name' => s.enter (.tagName name')
  | .refused => s.failHere
  | .complete complete =>
    if complete.isReserved then s.failHere
    else
      let tag := ⟨complete, [], []⟩
      match t with
      | .tagEnd => s.openElement tag false
      | .emptyTagEnd => s.openElement tag true
      | _ => s.enter (.tag tag .blank)

/-- A token in the name of an attribute. The name must not be taken. -/
def readAttributeName (s : State) (tag : StartTag) (name : PartialName) (t : Token) :
    Except Failure State :=
  match name.read [.equals] t with
  | .more name' => s.enter (.tag tag (.attributeName name'))
  | .refused => s.failHere
  | .complete complete =>
    if tag.isTaken complete then s.failHere
    else if t = .equals then s.enter (.value ⟨.attributeOf tag complete, none, []⟩)
    else s.enter (.tag tag (.equals complete))

/-- A token in a start tag after its name. -/
def readTag (s : State) (tag : StartTag) (place : TagPlace) (t : Token) :
    Except Failure State :=
  match place, t with
  | .attributeName name, t => s.readAttributeName tag name t
  | .blank, .tagEnd | .afterValue, .tagEnd => s.openElement tag false
  | .blank, .emptyTagEnd | .afterValue, .emptyTagEnd => s.openElement tag true
  | .blank, .char c =>
    if isSpace c then .ok s
    else if isNameStart c then s.enter (.tag tag (.attributeName (.ofFirst c)))
    else s.failHere
  | .afterValue, .char c => if isSpace c then s.enter (.tag tag .blank) else s.failHere
  | .equals name, .equals => s.enter (.value ⟨.attributeOf tag name, none, []⟩)
  | .equals _, .char c => if isSpace c then .ok s else s.failHere
  | _, _ => s.failHere

/-- A namespace declaration for a qualifier. The two qualifiers of the syntax cannot get another
meaning, and a declaration cannot be taken back. -/
def declareQualifier (s : State) (tag : StartTag) (qualifier value : String) :
    Except Failure State :=
  if qualifier == "xmlns" || (qualifier == "xml" && value != xmlNamespace) || value.isEmpty then
    s.failHere
  else
    s.enter (.tag { tag with qualifiers := qualifier :: tag.qualifiers } .afterValue)

/-- A declaration of the namespace of names without a qualifier. -/
def declareDefault (s : State) (tag : StartTag) (value : String) : Except Failure State :=
  if ["xmlns", "xml", xmlNamespace, xmlnsNamespace].contains value then s.failHere
  else s.enter (.tag tag .afterValue)

/-- The value of an attribute is complete. -/
def finishAttribute (s : State) (tag : StartTag) (name : Name) (value : String) :
    Except Failure State :=
  if name.qualifier == some "xmlns" then s.declareQualifier tag name.base value
  else if name.qualifier == none && name.base == "xmlns" then s.declareDefault tag value
  else if tag.attributes.length < maxAttributes then
    s.enter (.tag { tag with attributes := (name, value) :: tag.attributes } .afterValue)
  else s.failHere

/-! ## End tags -/

/-- A token in the name of an end tag. -/
def readEndName (s : State) (name : PartialName) (t : Token) : Except Failure State :=
  match name.read [.tagEnd] t with
  | .more name' => s.enter (.endName name')
  | .refused => s.failHere
  | .complete complete =>
    if complete.isReserved then s.failHere
    else if t = .tagEnd then s.closeElement complete
    else s.enter (.endBlank complete)

/-- A token in an end tag after its name. -/
def readEndBlank (s : State) (name : Name) (t : Token) : Except Failure State :=
  match t with
  | .tagEnd => s.closeElement name
  | .char c => if isSpace c then .ok s else s.failHere
  | _ => s.failHere

end State

end Phrasebook.Markup
