import Phrasebook.Markup.Character
import Phrasebook.Markup.Position
import Phrasebook.Markup.Token

/-!
# From characters to tokens

Which token a character belongs to depends on the region that it stands in, since comments,
sections, instructions and declarations have fewer tokens than text has. A token of several
characters is kept as a fragment until it is clear what it is. A fragment that comes to nothing
falls apart into single characters.

The regions follow from the tokens alone. A comment that opens within a quoted value is a comment
here, even though it is a part of the value to whoever reads the tokens.

A token stands where its first character stood. After a fragment that fell apart the character
that decided it has been read already, so a token which begins with that character is placed
behind it.

- `Lexer`: the region, and the fragment that is being read.
- `Lexer.step`: one character.
-/

namespace Phrasebook.Markup

/-- A part of a document with tokens of its own. -/
inductive Region where
  /-- Text and tags. -/
  | text
  /-- A document type declaration, between the declarations in it. -/
  | doctype
  /-- A declaration within a document type. -/
  | declaration
  /-- A quoted text within such a declaration. -/
  | quoted (q : Quote)
  | comment
  /-- A marked section of text. -/
  | marked
  | instruction
deriving DecidableEq, Repr

/-- Characters that may turn out to be a longer token. -/
inductive Fragment where
  /-- `<` -/
  | opener
  /-- `<!` and the characters `read`. -/
  | exclamation (read : List Char)
  /-- `/` -/
  | slash
  /-- `?` in an instruction. -/
  | question
  /-- `-` in a comment. -/
  | dash
  /-- `--` in a comment. -/
  | dashes
  /-- `]` -/
  | bracket
  /-- `]]` -/
  | brackets
deriving DecidableEq, Repr

/-- A token and where it stands. -/
structure Placed where
  token : Token
  position : Position
deriving DecidableEq, Repr

/-- What is known between two characters. -/
structure Lexer where
  region : Region
  /-- A document type declaration is open. -/
  isInDoctype : Bool
  /-- The unfinished token, and where it begins. -/
  fragment : Option (Fragment × Position)
deriving DecidableEq, Repr

namespace Lexer

/-- The state before the first character. -/
def start : Lexer :=
  ⟨.text, false, none⟩

/-- The region around comments, instructions and declarations. -/
def surrounding (l : Lexer) : Region :=
  if l.isInDoctype then .doctype else .text

/-- A token is complete, and another region begins. -/
def complete (l : Lexer) (token : Token) (p : Position) (region : Region) :
    List Placed × Lexer :=
  ([⟨token, p⟩], { l with region := region, fragment := none })

/-- A token is complete within its region. -/
def give (l : Lexer) (token : Token) (p : Position) : List Placed × Lexer :=
  l.complete token p l.region

/-- A fragment goes on. -/
def keep (l : Lexer) (fragment : Fragment) (p : Position) : List Placed × Lexer :=
  ([], { l with fragment := some (fragment, p) })

/-- The token of a character that references and quotes give a role to, or any other one. -/
def ofChar : Char → Token
  | '&' => .referenceStart
  | ';' => .referenceEnd
  | '"' => .quote .double
  | '\'' => .quote .single
  | c => .char c

/-- The token of a character in text and tags, or in an instruction. -/
def ofTagChar : Char → Token
  | '>' => .tagEnd
  | '=' => .equals
  | c => ofChar c

/-- The first character of a token, which stands at `p`. -/
def first (l : Lexer) (c : Char) (p : Position) : List Placed × Lexer :=
  match l.region with
  | .text =>
    match c with
    | '<' => l.keep .opener p
    | '/' => l.keep .slash p
    | ']' => l.keep .bracket p
    | c => l.give (ofTagChar c) p
  | .doctype =>
    match c with
    | '<' => l.keep .opener p
    | '>' => { l with isInDoctype := false }.complete .tagEnd p .text
    | c => l.give (ofChar c) p
  | .declaration =>
    match c with
    | '<' => l.give .invalid p
    | '>' => l.complete .tagEnd p l.surrounding
    | '"' => l.complete (.quote .double) p (.quoted .double)
    | '\'' => l.complete (.quote .single) p (.quoted .single)
    | c => l.give (ofChar c) p
  | .quoted q =>
    if c = q.char then l.complete (.quote q) p .declaration else l.give (.char c) p
  | .comment => if c = '-' then l.keep .dash p else l.give (.char c) p
  | .marked => if c = ']' then l.keep .bracket p else l.give (.char c) p
  | .instruction =>
    match c with
    | '?' => l.keep .question p
    | '<' => l.give .tagStart p
    | c => l.give (ofTagChar c) p

/-- A fragment comes to nothing. `token` takes its place, and `c` begins another token in the
given region. -/
def fallApart (l : Lexer) (token : Token) (p : Position) (region : Region) (c : Char)
    (behind : Position) : List Placed × Lexer :=
  let (tokens, l') := { l with region := region, fragment := none }.first c behind
  (⟨token, p⟩ :: tokens, l')

/-- The characters after `<!` that make up a token. -/
def exclamations : List (List Char) :=
  [['-', '-'], ['[', 'C', 'D', 'A', 'T', 'A', '['], ['D', 'O', 'C', 'T', 'Y', 'P', 'E']]

/-- A character after `<!` and the characters `read`. -/
def afterExclamation (l : Lexer) (read : List Char) (p : Position) (c : Char)
    (behind : Position) : List Placed × Lexer :=
  let read' := read ++ [c]
  if read' = ['-', '-'] then l.complete .commentStart p .comment
  else if read' = ['[', 'C', 'D', 'A', 'T', 'A', '['] then l.complete .sectionStart p .marked
  else if read' = ['D', 'O', 'C', 'T', 'Y', 'P', 'E'] then
    { l with isInDoctype := true }.complete .doctypeStart p .doctype
  else if exclamations.any fun item => read'.isPrefixOf item then l.keep (.exclamation read') p
  else if l.isInDoctype && read.isEmpty && ['E', 'A', 'N'].contains c then
    l.fallApart .declarationStart p .declaration c behind
  else l.give .invalid p

/-- A character after a closing bracket. -/
def afterBracket (l : Lexer) (p : Position) (c : Char) (behind : Position) :
    List Placed × Lexer :=
  if c = ']' then l.keep .brackets p else l.fallApart (.char ']') p l.region c behind

/-- A character after a fragment, which stands at `p`. -/
def next (l : Lexer) (fragment : Fragment) (p : Position) (c : Char) (behind : Position) :
    List Placed × Lexer :=
  match fragment with
  | .opener =>
    if c = '?' then l.complete .instructionStart p .instruction
    else if c = '/' then l.complete .endTagStart p l.surrounding
    else if c = '!' then l.keep (.exclamation []) p
    else if isSpace c || isNameChar c then l.fallApart .tagStart p l.surrounding c behind
    else l.give .invalid p
  | .exclamation read => l.afterExclamation read p c behind
  | .slash =>
    if c = '>' then l.complete .emptyTagEnd p l.surrounding
    else l.fallApart (.char '/') p l.surrounding c behind
  | .question =>
    if c = '>' then l.complete .instructionEnd p l.surrounding
    else l.fallApart (.char '?') p .instruction c behind
  | .dash =>
    if c = '-' then l.keep .dashes p else l.fallApart (.char '-') p .comment c behind
  | .dashes =>
    if c = '>' then l.complete .commentEnd p l.surrounding else l.give .invalid p
  | .bracket => l.afterBracket p c behind
  | .brackets =>
    if c = '>' then
      l.complete .sectionEnd p (if l.region = .marked then .text else l.surrounding)
    else
      let (tokens, l') := l.afterBracket behind c behind
      (⟨.char ']', p⟩ :: tokens, l')

/-- One character, which stands at `p`; `behind` is the place after it. -/
def step (l : Lexer) (c : Char) (p behind : Position) : List Placed × Lexer :=
  match l.fragment with
  | none => l.first c p
  | some (fragment, start) => l.next fragment start c behind

/-- A document may end here. -/
def isIdle (l : Lexer) : Bool :=
  l.region = .text && l.fragment.isNone

end Lexer

end Phrasebook.Markup
