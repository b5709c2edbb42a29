import Phrasebook.Markup.Reader.State
import Phrasebook.Text.Numeral

/-!
# References

`&name;` stands for the replacement of an entity, `&#n;` and `&#xn;` for the character with a
number. Five entities are always there; all others are declared in the document.

- `numericReference?`, `standardEntity?`: the references that stand for one character.
- `State.resolveReference`: what a reference stands for.
- `State.readTextReference`, `State.readValueReference`: references in text and in values.
-/

namespace Phrasebook.Markup

open Text

/-- The character of a numeric reference without its `#`, if the document may contain it. -/
def numericReference? (version : Version) (digits : List Char) : Option Char :=
  let code? := match digits with
    | 'x' :: hexadecimal => unsigned? 16 hexadecimal
    | decimal => unsigned? 10 decimal
  (code?.bind scalar?).filter version.admits

/-- The character of one of the five standard entities. -/
def standardEntity? : String → Option Char
  | "lt" => some '<'
  | "gt" => some '>'
  | "amp" => some '&'
  | "apos" => some '\''
  | "quot" => some '"'
  | _ => none

/-- What a reference stands for. -/
inductive Referent where
  | character (c : Char)
  | replacement (text : List Char)
  /-- Nothing is known by this name. -/
  | undefined
deriving Repr

/-- A character goes on the name of a reference of which `read` has been read. -/
def continuesReference (read : List Char) (c : Char) : Bool :=
  if read.isEmpty then isNameStart c || c == '#' else isNameChar c

namespace State

/-- What the reference with a given name stands for. -/
def resolveReference (s : State) (name : List Char) : Referent :=
  match standardEntity? (String.ofList name) with
  | some c => .character c
  | none =>
    match name with
    | '#' :: digits =>
      match numericReference? s.version digits with
      | some c => .character c
      | none => .undefined
    | _ =>
      match s.entities.lookup (String.ofList name) with
      | some text => .replacement text
      | none => .undefined

/-- A token of a reference in text. The replacement of an entity is read like a part of the
document. -/
def readTextReference (s : State) (read : List Char) (t : Token) : Except Failure State :=
  match t with
  | .char c =>
    if continuesReference read c then s.enter (.textReference (c :: read)) else s.failHere
  | .referenceEnd =>
    match s.resolveReference read.reverse with
    | .character c => (s.addText [c]).enter .between
    | .replacement text => { s with replacement := text }.enter .between
    | .undefined => s.failHere
  | _ => s.failHere

/-- A token of a reference in a quoted value. The replacement of an entity is taken as it is. -/
def readValueReference (s : State) (value : Value) (read : List Char) (t : Token) :
    Except Failure State :=
  match t with
  | .char c =>
    if continuesReference read c then s.enter (.valueReference value (c :: read))
    else s.failHere
  | .referenceEnd =>
    match s.resolveReference read.reverse with
    | .character c => s.enter (.value { value with read := c :: value.read })
    | .replacement text =>
      s.enter (.value { value with read := text.reverse ++ value.read })
    | .undefined => s.failHere
  | _ => s.failHere

end State

end Phrasebook.Markup
