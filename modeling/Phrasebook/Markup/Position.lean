/-!
# Positions in a document

Lines end at `\n` and columns count characters; both start at 1.

- `Position.advance`: the position after a character.
- `Position.text`: the position as diagnostics name it.
-/

namespace Phrasebook.Markup

/-- A place in a document. -/
structure Position where
  line : Nat
  column : Nat
deriving DecidableEq, Repr, Inhabited

namespace Position

/-- The place of the first character. -/
def start : Position :=
  ⟨1, 1⟩

/-- The place after a character that stands at `p`. -/
def advance (p : Position) (c : Char) : Position :=
  if c = '\n' then ⟨p.line + 1, 1⟩ else ⟨p.line, p.column + 1⟩

/-- Line and column with a colon between. -/
def text (p : Position) : String :=
  toString p.line ++ ":" ++ toString p.column

end Position

end Phrasebook.Markup
