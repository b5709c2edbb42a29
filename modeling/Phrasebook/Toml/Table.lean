import Phrasebook.Datum

/-!
# Tables in TOML

The tables of a file grow while it is read: a header opens a table, a dotted name creates the
tables on its way, and what is complete must not be opened again. So a table remembers how it
came to be.

| | named by a header | passed through by a header | created by a dotted name |
|---|---|---|---|
| a later header may open it | no | yes | no |
| a dotted name may lead into it | no | not to its own fields | yes |

- `Node`: what a name stands for while a file is read.
- `openTable`, `openEntry`, `assign`: a header, a header of a list, and an assignment.
- `Node.datum`: the value, once all is read.
-/

namespace Phrasebook.Toml

/-- How a table came to be. -/
inductive Origin where
  /-- It has a header of its own. -/
  | header
  /-- A longer header passed through it. -/
  | implied
  /-- A dotted name led through it. -/
  | dotted
deriving DecidableEq, Repr

/-- What a name stands for while a file is read. -/
inductive Node where
  /-- A value, which is complete. -/
  | value (datum : Datum)
  | table (origin : Origin) (fields : List (String × Node))
  /-- A list of tables, of which the last one can still grow. -/
  | series (earlier : List (List (String × Node))) (last : List (String × Node))

/-- The fields of a table in the order in which they were first mentioned. -/
abbrev Fields := List (String × Node)

/-- Changes what a name stands for; a new name comes last. -/
def alter (name : String) (change : Option Node → Option Node) : Fields → Option Fields
  | [] => (change none).map fun node => [(name, node)]
  | (n, node) :: fields =>
    if n = name then (change (some node)).map fun node => (n, node) :: fields
    else (alter name change fields).map ((n, node) :: ·)

/-- Changes the table that the names of a header lead to. Of a list of tables the last one
counts. -/
def within (change : Fields → Option Fields) : List String → Fields → Option Fields
  | [], fields => change fields
  | name :: names, fields =>
    alter name (fun
      | none => (within change names []).map (.table .implied)
      | some (.table origin fields) => (within change names fields).map (.table origin)
      | some (.series earlier last) => (within change names last).map (.series earlier)
      | some (.value _) => none) fields

/-- Opens the table of a header. -/
def openTable (name : String) : Fields → Option Fields :=
  alter name fun
    | none => some (.table .header [])
    | some (.table .implied fields) => some (.table .header fields)
    | some _ => none

/-- Opens the next table of a list. -/
def openEntry (name : String) : Fields → Option Fields :=
  alter name fun
    | none => some (.series [] [])
    | some (.series earlier last) => some (.series (earlier ++ [last]) [])
    | some _ => none

/-- Gives a value to a name that has none. The names before the last one lead to the table of the
name. -/
def assign (value : Datum) : List String → Fields → Option Fields
  | [], _ => none
  | [name], fields =>
    alter name (fun
      | none => some (.value value)
      | some _ => none) fields
  | name :: next :: names, fields =>
    let go := assign value (next :: names)
    alter name (fun
      | none => (go []).map (.table .dotted)
      | some (.table .dotted fields) => (go fields).map (.table .dotted)
      | some (.table .implied fields) =>
        if names.isEmpty then none else (go fields).map (.table .implied)
      | some (.series earlier last) =>
        if names.isEmpty then none else (go last).map (.series earlier)
      | some (.table .header _) => none
      | some (.value _) => none) fields

mutual

/-- The value of a node. -/
def Node.datum : Node → Datum
  | .value datum => datum
  | .table _ fields => .record (fieldData fields)
  | .series earlier last => .list (seriesData earlier ++ [.record (fieldData last)])

/-- The values of fields. -/
def fieldData : List (String × Node) → List (String × Datum)
  | [] => []
  | (name, node) :: fields => (name, node.datum) :: fieldData fields

/-- The values of the tables in a list. -/
def seriesData : List (List (String × Node)) → List Datum
  | [] => []
  | fields :: rest => .record (fieldData fields) :: seriesData rest

end

end Phrasebook.Toml
