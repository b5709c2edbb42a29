/-!
# Tokens of a document

The smallest items that the rules of the syntax speak of: the openings and closings of tags,
comments, sections and instructions, the few characters with a role of their own, and all other
characters one by one.

- `Token`: the items.
- `Token.content`: what an item adds to a text or to a value.
-/

namespace Phrasebook.Markup

/-- The two characters that quote a value. -/
inductive Quote where
  | single
  | double
deriving DecidableEq, Repr

/-- The written form of a quote. -/
def Quote.char : Quote → Char
  | .single => '\''
  | .double => '"'

/-- An item of the syntax. -/
inductive Token where
  /-- `<` -/
  | tagStart
  /-- `</` -/
  | endTagStart
  /-- `>` -/
  | tagEnd
  /-- `/>` -/
  | emptyTagEnd
  /-- `<?` -/
  | instructionStart
  /-- `?>` -/
  | instructionEnd
  /-- `<!DOCTYPE` -/
  | doctypeStart
  /-- `<!`, before the word that says what is declared. -/
  | declarationStart
  /-- `<!--` -/
  | commentStart
  /-- `-->` -/
  | commentEnd
  /-- `<![CDATA[` -/
  | sectionStart
  /-- `]]>` -/
  | sectionEnd
  /-- `&` -/
  | referenceStart
  /-- `;` -/
  | referenceEnd
  /-- `=` -/
  | equals
  | quote (q : Quote)
  /-- Any other character. -/
  | char (c : Char)
  /-- Characters that make up no item. -/
  | invalid
deriving DecidableEq, Repr

/-- What a token adds to a text or to a value that it stands in. It is the token as it is
written, but the opening of a declaration adds nothing. -/
def Token.content : Token → List Char
  | .tagStart => ['<']
  | .endTagStart => ['<', '/']
  | .tagEnd => ['>']
  | .emptyTagEnd => ['/', '>']
  | .instructionStart => ['<', '?']
  | .instructionEnd => ['?', '>']
  | .doctypeStart => ['<', '!', 'D', 'O', 'C', 'T', 'Y', 'P', 'E']
  | .commentStart => ['<', '!', '-', '-']
  | .commentEnd => ['-', '-', '>']
  | .sectionStart => ['<', '!', '[', 'C', 'D', 'A', 'T', 'A', '[']
  | .sectionEnd => [']', ']', '>']
  | .referenceStart => ['&']
  | .referenceEnd => [';']
  | .equals => ['=']
  | .quote q => [q.char]
  | .char c => [c]
  | .declarationStart | .invalid => []

end Phrasebook.Markup
