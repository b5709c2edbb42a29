/-!
# Data of settings

What a file of settings says, whatever format it is written in. Settings are texts, in records
and lists; a number, a truth value or a time can stand in a file, but nothing is ever made of it.

- `Datum`: the values.
- `Datum.text?`, `Datum.fields?`: a value as what a setting asks for.
-/

namespace Phrasebook

/-- A value of a data format. -/
inductive Datum where
  | text (value : String)
  | list (items : List Datum)
  | record (fields : List (String × Datum))
  /-- The value that stands for the lack of one. -/
  | null
  /-- A number, a truth value or a time. -/
  | other
deriving Inhabited

namespace Datum

/-- What a data format allows beside the plain form of records and alternatives. -/
structure Convention where
  /-- A list in place of a record may be longer than the record. -/
  allowsSurplus : Bool
  /-- The value is the content of an alternative that has none. -/
  isVoid : Datum → Bool

/-- The convention of TOML: no content is an empty list or record. -/
def Convention.toml : Convention where
  allowsSurplus := true
  isVoid
    | list [] | record [] => true
    | _ => false

/-- The convention of JSON: no content is null. -/
def Convention.json : Convention where
  allowsSurplus := false
  isVoid
    | null => true
    | _ => false

/-- The value, if it is a text. -/
def text? : Datum → Option String
  | text value => some value
  | _ => none

/-- The values of a record's fields. A list gives them in the order of `names`, as far as it
goes. -/
def fields? (convention : Convention) (names : List String) :
    Datum → Option (String → Option Datum)
  | record fields => some fun name => fields.lookup name
  | list items =>
    if convention.allowsSurplus || items.length ≤ names.length then
      some fun name => (names.zip items).lookup name
    else none
  | _ => none

/-- The name of an alternative, which stands alone or with an empty content. -/
def alternative? (convention : Convention) : Datum → Option String
  | text name => some name
  | record [(name, content)] => if convention.isVoid content then some name else none
  | _ => none

/-- A field that need not be there; one that is there has to be readable. -/
def fieldOr {α : Type} (field : Option Datum) (default : α) (read? : Datum → Option α) :
    Option α :=
  match field with
  | none => some default
  | some value => read? value

end Datum

end Phrasebook
