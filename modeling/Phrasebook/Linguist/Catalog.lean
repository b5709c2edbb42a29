import Phrasebook.Catalog.Basic
import Phrasebook.Linguist.Hint
import Phrasebook.Markup.Document

/-!
# Catalogs as Qt Linguist writes them

A `.ts` file is a document with the root `TS`. Its messages stand in `context` elements, or
directly below the root for messages without a context:

    <TS version="2.1" language="cs-CZ" sourcelanguage="en">
      <context>
        <name>AboutDialog</name>
        <message>
          <location filename="res/AboutDialog.ui" line="38"/>
          <source>About</source>
          <translation type="unfinished"></translation>
        </message>
      </context>
    </TS>

Elements and attributes that are not mentioned here are skipped. The first fault in document
order ends the reading, with the header before the messages and, within a message, its texts
before its hints.

- `Options`: what a file that leaves something open is taken to mean.
- `readMessage`, `readContext`, `readBlocks`: the additions that parts of the tree stand for.
- `readCatalog`: the catalog of a tree; `parseCatalog`: the catalog of a file.
-/

namespace Phrasebook.Linguist

open Phrasebook.Locale Markup Text

/-- How to read a file that leaves something open. -/
structure Options where
  /-- The language of a file that names none. -/
  defaultLanguage : Option Tag := none
  /-- The status of a translation without a type. -/
  untypedStatus : Status := .finished
deriving DecidableEq

/-! ## The header -/

/-- The tag in an attribute of the root; a blank attribute counts as absent. -/
def readTag (root : Element) (name : String) : Except Fault (Option Tag) :=
  match (root.attribute? name).map trim with
  | none => .ok none
  | some written =>
    if written.isEmpty then .ok none
    else match Tag.parse written with
      | .ok tag => .ok (some tag)
      | .error _ => .error (.invalidAttribute "TS" name written root.position)

/-- The language of the translations. -/
def readLanguage (options : Options) (root : Element) : Except Fault Tag := do
  match ← readTag root "language" with
  | some tag => return tag
  | none =>
    match options.defaultLanguage with
    | some tag => return tag
    | none => throw (.missingAttribute "TS" "language" root.position)

/-- The other facts in the header. -/
def readHeader (root : Element) : Except Fault (List Catalog.Edit) := do
  let sourceLanguage ← readTag root "sourcelanguage"
  return sourceLanguage.toList.map .sourceLanguage ++
    (root.attribute? "version").toList.map .formatVersion

/-! ## Messages -/

/-- The status that a translation declares. -/
def readStatus (options : Options) (translation : Element) : Except Fault Status :=
  match translation.attribute? "type" with
  | none => .ok options.untypedStatus
  | some "unfinished" => .ok .unfinished
  | some "obsolete" => .ok .obsolete
  | some "vanished" => .ok .obsolete
  | some "finished" => .ok .finished
  | some other => .error (.invalidAttribute "translation" "type" other translation.position)

/-- The element with the text of a translation. Of plural forms and of variants by length only
the first one counts. -/
def firstForm (translation : Element) : Element :=
  ((translation.child? "numerusform").or (translation.child? "lengthvariant")).getD translation

/-- The text and the status of a message's translation. A message without one is unfinished. -/
def readTranslation (options : Options) (message : Element) : Except Fault (String × Status) :=
  match message.child? "translation" with
  | none => .ok ("", .unfinished)
  | some translation => do
    let text ← (firstForm translation).text
    let status ← readStatus options translation
    return (text, status)

/-- The text of a child that has to be there. -/
def requiredText (parent : Element) (parentName childName : String) : Except Fault String :=
  match parent.child? childName with
  | some child => child.text
  | none => .error (.missingElement parentName childName parent.position)

/-- The text of a child that need not be there. -/
def optionalText (parent : Element) (childName : String) : Except Fault (Option String) :=
  match parent.child? childName with
  | some child => child.text.map some
  | none => .ok none

/-- The children with a name. -/
def childrenNamed (parent : Element) (name : String) : List Element :=
  parent.elements.filter fun child => child.name == name

/-- The entry of a message. -/
def readMessage (options : Options) (context : String) (trail : Trail) (message : Element) :
    Except Fault (Entry × Trail) := do
  let source ← requiredText message "message" "source"
  let (translation, status) ← readTranslation options message
  let oldSource ← optionalText message "oldsource"
  let comment ← optionalText message "comment"
  let extraComment ← optionalText message "extracomment"
  let translatorComment ← optionalText message "translatorcomment"
  let (locations, trail) ← trail.followAll (childrenNamed message "location")
  let entry : Entry := {
    context, source, translation, status, oldSource, comment, extraComment, translatorComment,
    id := message.attribute? "id", locations }
  return (entry, trail)

/-- The entries of messages in one context. -/
def readMessages (options : Options) (context : String) :
    Trail → List Element → Except Fault (List Entry)
  | _, [] => .ok []
  | trail, message :: messages => do
    let (entry, trail) ← readMessage options context trail message
    let entries ← readMessages options context trail messages
    return entry :: entries

/-! ## The document -/

/-- The additions of a `context` element. Its hints do not refer to those of another one. -/
def readContext (options : Options) (context : Element) : Except Fault (List Catalog.Edit) := do
  let name ← requiredText context "context" "name"
  let entries ← readMessages options name Trail.start (childrenNamed context "message")
  return .openContext name :: entries.map .push

/-- The additions of the root's children, in order. The messages among them share a trail. -/
def readBlocks (options : Options) : Trail → List Element → Except Fault (List Catalog.Edit)
  | _, [] => .ok []
  | trail, block :: blocks =>
    if block.name = "context" then do
      let edits ← readContext options block
      let rest ← readBlocks options trail blocks
      return edits ++ rest
    else if block.name = "message" then do
      let (entry, trail) ← readMessage options "" trail block
      let rest ← readBlocks options trail blocks
      return .push entry :: rest
    else
      readBlocks options trail blocks

/-- The catalog that a tree stands for. -/
def readCatalog (options : Options) (root : Element) : Except Fault Catalog := do
  if root.name ≠ "TS" then
    throw (.unexpectedRoot "TS" root.name root.position)
  let language ← readLanguage options root
  let header ← readHeader root
  let blocks ← readBlocks options Trail.start root.elements
  return Catalog.ofEdits language (header ++ blocks)

/-- The catalog in a file. -/
def parseCatalog (options : Options) (bytes : List UInt8) : Except Fault Catalog := do
  let root ← readDocument bytes
  readCatalog options root

end Phrasebook.Linguist
