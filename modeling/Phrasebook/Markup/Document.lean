import Phrasebook.Markup.Reader
import Phrasebook.Markup.Tree

/-!
# Documents

- `readDocument`: the root element of a document, from its bytes. Either the whole document
  follows the rules, or the first fault is the answer.
-/

namespace Phrasebook.Markup

/-- Reads a whole document. -/
def readDocument (bytes : List UInt8) : Except Fault Element :=
  Element.ofEvents (Events.ofBytes bytes)

end Phrasebook.Markup
