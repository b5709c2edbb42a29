import Phrasebook.Markup.Reader.Reference

/-!
# Document type declarations

Nothing is validated, so of a document type declaration only the entities count. The first
declaration of a name holds. The replacement of an entity is what its quoted value becomes once
numeric references and parameter entities in it are replaced; an external entity is replaced by
nothing.

- `State.readDoctype`: the tokens of a document type declaration.
-/

namespace Phrasebook.Markup

open Text

namespace State

/-- Goes on in another place of the declaration. -/
def enterDoctype (s : State) (place : DoctypePlace) : Except Failure State :=
  s.enter (.doctype place)

/-- Declares an entity, unless there is one with this name. -/
def declareEntity (s : State) (name : String) (replacement : List Char) : State :=
  if (s.entities.lookup name).isSome then s
  else { s with entities := (name, replacement) :: s.entities }

/-- The replacement of a parameter entity, of whose name the last character comes first. -/
def parameterEntity? (s : State) (name : List Char) : Option (List Char) :=
  s.entities.lookup (String.ofList ('%' :: name.reverse))

/-- A token between the declarations of a document type. Instructions are not told from what
stands around them. -/
def readDoctypeBetween (s : State) (t : Token) : Except Failure State :=
  match t with
  | .tagEnd => s.enter .between
  | .declarationStart => s.enterDoctype (.keyword [])
  | .char '%' => s.enterDoctype (.parameterReference [])
  | .commentStart => s.enterDoctype .comment
  | .quote q => s.enterDoctype (.quoted q)
  | .sectionStart | .sectionEnd => s.failHere
  | _ => .ok s

/-- The word that says what is declared is complete. -/
def finishKeyword (s : State) (word : String) : Except Failure State :=
  if word == "ENTITY" then s.enterDoctype (.beforeEntityName false)
  else if ["NOTATION", "ELEMENT", "ATTLIST"].contains word then s.enterDoctype .rest
  else s.failHere

/-- A token in the word that says what is declared. -/
def readKeyword (s : State) (read : List Char) (t : Token) : Except Failure State :=
  match t with
  | .char c =>
    if 'A' ≤ c && c ≤ 'Z' then s.enterDoctype (.keyword (c :: read))
    else if isSpace c then s.finishKeyword (String.ofList read.reverse)
    else s.failHere
  | _ => s.failHere

/-- A token before the name of an entity. -/
def readBeforeEntityName (s : State) (isParameter : Bool) (t : Token) : Except Failure State :=
  match t with
  | .char c =>
    if isSpace c then .ok s
    else if isNameStart c then
      let front := if isParameter then Word.empty.push '%' else Word.empty
      s.enterDoctype (.entityName (front.push c))
    else if c == '%' && !isParameter then s.enterDoctype (.beforeEntityName true)
    else s.failHere
  | _ => s.failHere

/-- A token in the name of an entity. -/
def readEntityName (s : State) (name : Word) (t : Token) : Except Failure State :=
  match t with
  | .char c =>
    match name.extend? c with
    | some name' => s.enterDoctype (.entityName name')
    | none => if isSpace c then s.enterDoctype (.beforeEntityValue name.text) else s.failHere
  | _ => s.failHere

/-- A token between the name of an entity and its value. -/
def readBeforeEntityValue (s : State) (name : String) (t : Token) : Except Failure State :=
  match t with
  | .char c =>
    if isSpace c then .ok s
    else if c == 'S' || c == 'P' then (s.declareEntity name []).enterDoctype .rest
    else s.failHere
  | .quote _ => s.enterDoctype (.entityValue name [])
  | _ => s.failHere

/-- A token in the value of an entity. -/
def readEntityValue (s : State) (name : String) (read : List Char) (t : Token) :
    Except Failure State :=
  match t with
  | .char c =>
    if c == '&' then s.enterDoctype (.valueReference name read)
    else if c == '%' then s.enterDoctype (.valueParameter name read [])
    else if s.version.admits c then s.enterDoctype (.entityValue name (c :: read))
    else s.failHere
  | .quote _ => (s.declareEntity name read.reverse).enterDoctype .rest
  | _ => s.failHere

/-- A token after an `&` in the value of an entity. References to other entities stay as they
are and are resolved where the value is used. -/
def readEntityValueReference (s : State) (name : String) (read : List Char) (t : Token) :
    Except Failure State :=
  match t with
  | .char c =>
    if c == '#' then s.enterDoctype (.valueNumeric name read [])
    else if s.version.admits c then s.enterDoctype (.entityValue name (c :: '&' :: read))
    else s.failHere
  | _ => s.failHere

/-- A token of a numeric reference in the value of an entity. -/
def readEntityValueNumeric (s : State) (name : String) (read digits : List Char) (t : Token) :
    Except Failure State :=
  match t with
  | .char c =>
    if c == ';' then
      match numericReference? s.version digits.reverse with
      | some d => s.enterDoctype (.entityValue name (d :: read))
      | none => s.failHere
    else if s.version.admits c then s.enterDoctype (.valueNumeric name read (c :: digits))
    else s.failHere
  | _ => s.failHere

/-- A token in the name of a parameter entity in the value of an entity. -/
def readEntityValueParameter (s : State) (name : String) (read parameter : List Char)
    (t : Token) : Except Failure State :=
  match t with
  | .char c =>
    if isNameChar c then s.enterDoctype (.valueParameter name read (c :: parameter))
    else if c == ';' then
      match s.parameterEntity? parameter with
      | some text => s.enterDoctype (.entityValue name (text.reverse ++ read))
      | none => s.failHere
    else s.failHere
  | _ => s.failHere

/-- A token in the name of a parameter entity between declarations. Its replacement is read like
a part of the document. -/
def readParameterReference (s : State) (read : List Char) (t : Token) : Except Failure State :=
  match t with
  | .char c =>
    if isNameChar c then s.enterDoctype (.parameterReference (c :: read)) else s.failHere
  | .referenceEnd =>
    match s.parameterEntity? read with
    | some text => { s with replacement := text }.enterDoctype .between
    | none => s.failHere
  | _ => s.failHere

/-- A token of a document type declaration. -/
def readDoctype (s : State) (place : DoctypePlace) (t : Token) : Except Failure State :=
  match place with
  | .between => s.readDoctypeBetween t
  | .quoted q => if t = .quote q then s.enterDoctype .between else .ok s
  | .comment => if t = .commentEnd then s.enterDoctype .between else .ok s
  | .keyword read => s.readKeyword read t
  | .beforeEntityName isParameter => s.readBeforeEntityName isParameter t
  | .entityName name => s.readEntityName name t
  | .beforeEntityValue name => s.readBeforeEntityValue name t
  | .entityValue name read => s.readEntityValue name read t
  | .valueReference name read => s.readEntityValueReference name read t
  | .valueNumeric name read digits => s.readEntityValueNumeric name read digits t
  | .valueParameter name read parameter => s.readEntityValueParameter name read parameter t
  | .parameterReference read => s.readParameterReference read t
  | .rest => if t = .tagEnd then s.enterDoctype .between else .ok s

end State

end Phrasebook.Markup
