/-!
# Characters of XML

The character classes of the XML recommendation. Which characters a document may contain at all
depends on the version it declares.

- `isSpace`, `isNameStart`, `isNameChar`: the classes that decide where names begin and end.
- `Version.admits`: what may stand in comments, marked sections and instructions, and what a
  numeric reference may denote.
- `Version.admitsText`: what may stand in text and attribute values. Version 1.1 admits control
  characters only by reference.
-/

namespace Phrasebook.Markup

/-- The four characters that separate. -/
def isSpace (c : Char) : Bool :=
  c == ' ' || c == '\t' || c == '\n' || c == '\r'

/-- Characters that a name may begin with. -/
def isNameStart (c : Char) : Bool :=
  let n := c.toNat
  c.isAlpha || c == ':' || c == '_' || (0xc0 ≤ n && n ≤ 0xd6) || (0xd8 ≤ n && n ≤ 0xf6) ||
    (0xf8 ≤ n && n ≤ 0x2ff) || (0x370 ≤ n && n ≤ 0x37d) || (0x37f ≤ n && n ≤ 0x1fff) ||
    (0x200c ≤ n && n ≤ 0x200d) || (0x2070 ≤ n && n ≤ 0x218f) || (0x2c00 ≤ n && n ≤ 0x2fef) ||
    (0x3001 ≤ n && n ≤ 0xd7ff) || (0xf900 ≤ n && n ≤ 0xfdcf) || (0xfdf0 ≤ n && n ≤ 0xfffd) ||
    (0x10000 ≤ n && n ≤ 0xeffff)

/-- Characters that may stand in a name after the first. -/
def isNameChar (c : Char) : Bool :=
  let n := c.toNat
  isNameStart c || c.isDigit || c == '-' || c == '.' || n == 0xb7 ||
    (0x300 ≤ n && n ≤ 0x36f) || (0x203f ≤ n && n ≤ 0x2040)

/-- The version that a document declares. -/
inductive Version where
  | v10
  | v11
deriving DecidableEq, Repr

namespace Version

/-- The versions by their numbers. -/
def ofText? : String → Option Version
  | "1.0" => some .v10
  | "1.1" => some .v11
  | _ => none

/-- The character may occur in a document of this version. -/
def admits (version : Version) (c : Char) : Bool :=
  let n := c.toNat
  match version with
  | .v10 => n == 0x9 || n == 0xa || n == 0xd || (0x20 ≤ n && n != 0xfffe && n != 0xffff)
  | .v11 => 0x1 ≤ n && n != 0xfffe && n != 0xffff

/-- The character may occur as such in text and in attribute values. -/
def admitsText (version : Version) (c : Char) : Bool :=
  let n := c.toNat
  version.admits c &&
    match version with
    | .v10 => true
    | .v11 =>
      !((0x1 ≤ n && n ≤ 0x8) || (0xb ≤ n && n ≤ 0xc) || (0xe ≤ n && n ≤ 0x1f) ||
        (0x7f ≤ n && n ≤ 0x84) || (0x86 ≤ n && n ≤ 0x9f))

end Version

end Phrasebook.Markup
