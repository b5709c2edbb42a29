import Phrasebook.Storage.Access

/-!
# Files in memory

A tree of directories and files as a value. A place in it is the list of names on the way from
the root, and a path leads from the working directory to a place, one name at a time: each name
has to be looked up in a directory that exists, and `..` leads back up.

- `Tree.place`: the place a path leads to. Everything on the way to it exists.
- `Tree.read`, `Tree.list`, `Tree.write`, `Tree.createDirectories`: the requests of
  `MonadStorage`, which `StateM Tree` answers with them.
- `Tree.remove`: takes away a file, or a directory with all that is in it.
-/

namespace Phrasebook.Storage

/-- Where a file or directory is: the names on the way from the root. -/
abbrev Place := List String

/-- What is at a place. -/
inductive Item where
  | file (bytes : Bytes)
  | directory
deriving DecidableEq, Repr

/-- A file system. -/
structure Tree where
  /-- Where relative paths start. -/
  workingDirectory : Place
  /-- What is where; the root itself needs no mention. -/
  items : List (Place × Item)

namespace Tree

/-- What is at a place. -/
def item? (t : Tree) (place : Place) : Option Item :=
  if place.isEmpty then some .directory else t.items.lookup place

/-- Puts an item at a place, instead of what is there. -/
def put (t : Tree) (place : Place) (item : Item) : Tree :=
  { t with items := (place, item) :: t.items.filter fun entry => entry.1 != place }

/-- The place is a directory, or the reason why it is none. -/
def checkDirectory (t : Tree) (place : Place) : Except AccessError Unit :=
  match t.item? place with
  | some .directory => .ok ()
  | some (.file _) => .error .notDirectory
  | none => .error .notFound

/-! ## Paths -/

/-- The place that one name leads to. -/
def step (place : Place) (name : List Char) : Place :=
  if Pathname.isIdle name then place
  else if name = ['.', '.'] then place.dropLast
  else place ++ [String.ofList name]

/-- Where the names of a path start. -/
def startOf (t : Tree) (p : Pathname) : Place :=
  if p.isAbsolute then [] else t.workingDirectory

/-- The greatest size of a name. -/
def nameLimit : Nat := 255

/-- A directory can have an item with this name, or the reason why none has. -/
def checkName (name : List Char) : Except AccessError Unit :=
  if (String.ofList name).utf8ByteSize ≤ nameLimit then .ok () else .error .refused

/-- The place that names lead to. Each one is looked up in a directory. -/
def walk (t : Tree) (place : Place) : List (List Char) → Except AccessError Place
  | [] => .ok place
  | name :: names => do
    t.checkDirectory place
    checkName name
    t.walk (step place name) names

/-- The size that a path has to stay below. -/
def pathLimit : Nat := 4096

/-- The path can be looked up at all. -/
def admits (p : Pathname) : Bool :=
  !p.text.toList.contains '\x00' && p.text.utf8ByteSize < pathLimit

/-- The place that a path leads to. There need not be anything. -/
def place (t : Tree) (p : Pathname) : Except AccessError Place :=
  if p.text.isEmpty then .error .notFound
  else if admits p then t.walk (t.startOf p) p.names
  else .error .refused

/-! ## Requests -/

/-- The bytes of a file. -/
def read (t : Tree) (p : Pathname) : Except AccessError Bytes := do
  match t.item? (← t.place p) with
  | some (.file bytes) => return bytes
  | some .directory => throw .isDirectory
  | none => throw .notFound

/-- The name of a place in a directory, if it lies directly there. -/
def nameIn? (directory place : Place) : Option String :=
  match place.getLast? with
  | some name => if place.dropLast = directory then some name else none
  | none => none

/-- The names in a directory. -/
def list (t : Tree) (p : Pathname) : Except AccessError (List String) := do
  let place ← t.place p
  t.checkDirectory place
  return t.items.filterMap fun entry => nameIn? place entry.1

/-- Writes a file anew. -/
def write (t : Tree) (p : Pathname) (bytes : Bytes) : Except AccessError Unit × Tree :=
  match t.place p with
  | .error e => (.error e, t)
  | .ok place =>
    if t.item? place = some .directory then (.error .isDirectory, t)
    else (.ok (), t.put place (.file bytes))

/-- Walks along names and creates the directories that are missing. -/
def makeWay (t : Tree) (place : Place) : List (List Char) → Except AccessError Unit × Tree
  | [] => (.ok (), t)
  | name :: names =>
    match checkName name with
    | .error e => (.error e, t)
    | .ok () =>
      let next := step place name
      match t.item? next with
      | some .directory => t.makeWay next names
      | some (.file _) => (.error .notDirectory, t)
      | none => (t.put next .directory).makeWay next names

/-- Creates a directory and those on the way to it. -/
def createDirectories (t : Tree) (p : Pathname) : Except AccessError Unit × Tree :=
  if admits p then t.makeWay (t.startOf p) p.names else (.error .refused, t)

/-- Takes away what is at a path, with all that is below it. -/
def remove (t : Tree) (p : Pathname) : Except AccessError Unit × Tree :=
  match t.place p with
  | .error e => (.error e, t)
  | .ok place =>
    if (t.item? place).isSome then
      (.ok (), { t with items := t.items.filter fun entry => !place.isPrefixOf entry.1 })
    else (.error .notFound, t)

instance : MonadStorage (StateM Tree) where
  read p := do return (← get).read p
  list p := do return (← get).list p
  createDirectories p := fun t => t.createDirectories p
  write p bytes := fun t => t.write p bytes

end Tree

end Phrasebook.Storage
