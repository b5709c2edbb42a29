import Phrasebook.Locale.Tag
import Phrasebook.Markup.Document

/-!
# Lists of languages

The languages that a user can choose from, each with its name in that language:

    <languages>
      <language ietfCode="cs-CZ" name="Čeština"/>
    </languages>

- `LanguageName`: one language of the list.
- `readLanguageList`: the list of a tree; `parseLanguageList`: the list in a file.
-/

namespace Phrasebook.Linguist

open Phrasebook.Locale Markup

/-- A language and its name. -/
structure LanguageName where
  tag : Tag
  name : String
deriving DecidableEq

/-- The value of an attribute that has to be there. -/
def requiredAttribute (element : Element) (name : String) : Except Fault String :=
  match element.attribute? name with
  | some value => .ok value
  | none => .error (.missingAttribute "language" name element.position)

/-- The language that an element stands for. -/
def readLanguageName (element : Element) : Except Fault LanguageName := do
  let code ← requiredAttribute element "ietfCode"
  match Tag.parse code with
  | .error _ => throw (.invalidAttribute "language" "ietfCode" code element.position)
  | .ok tag =>
    let name ← requiredAttribute element "name"
    return ⟨tag, name⟩

/-- The languages of a tree, in order. -/
def readLanguageList (root : Element) : Except Fault (List LanguageName) := do
  if root.name ≠ "languages" then
    throw (.unexpectedRoot "languages" root.name root.position)
  (root.elements.filter fun e => e.name == "language").mapM readLanguageName

/-- The languages in a file. -/
def parseLanguageList (bytes : List UInt8) : Except Fault (List LanguageName) := do
  let root ← readDocument bytes
  readLanguageList root

end Phrasebook.Linguist
