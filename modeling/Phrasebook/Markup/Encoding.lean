import Phrasebook.Text.Numeral

/-!
# From bytes to characters

A document is a list of bytes, and how they make up characters is settled in two stages: by a
byte order mark at the very front, and by the encoding that the document's declaration names.
Decoding therefore goes byte by byte, and the encoding may change between two characters.

- `Encoding.detect`: the encoding that a byte order mark announces, and the bytes after it.
- `Encoding.declare?`: the encoding after a declaration, unless it contradicts the mark.
- `decode`: one byte, given what is known of an unfinished character.
-/

namespace Phrasebook.Markup

open Text

/-- How bytes make up characters. -/
inductive Encoding where
  /-- UTF-8 for want of a mark; a declaration may say otherwise. -/
  | assumedUtf8
  | utf8
  | latin1
  | ascii
  | utf16BigEndian
  | utf16LittleEndian
deriving DecidableEq, Repr

/-- An encoding as a declaration can name it. -/
inductive DeclaredEncoding where
  | utf8
  | latin1
  | utf16
  | ascii
deriving DecidableEq, Repr

namespace DeclaredEncoding

/-- The names of the encodings, in the order in which they are compared. -/
def labels : List (String × DeclaredEncoding) :=
  [("utf-8", .utf8), ("utf8", .utf8), ("iso-8859-1", .latin1), ("latin1", .latin1),
    ("utf-16", .utf16), ("utf16", .utf16), ("ascii", .ascii), ("us-ascii", .ascii)]

/-- A name fits a label if one of them begins with the other, in either case. -/
def fits (label name : String) : Bool :=
  (label.toList.zip name.toList).all fun (l, c) => l == c.toLower

/-- The encoding with a given name. -/
def ofName? (name : String) : Option DeclaredEncoding :=
  (labels.find? fun (label, _) => fits label name).map (·.2)

end DeclaredEncoding

namespace Encoding

/-- Looks for a byte order mark, which is no part of the document. -/
def detect : List UInt8 → Encoding × List UInt8
  | 0xef :: 0xbb :: 0xbf :: bytes => (.utf8, bytes)
  | 0xfe :: 0xff :: bytes => (.utf16BigEndian, bytes)
  | 0xff :: 0xfe :: bytes => (.utf16LittleEndian, bytes)
  | bytes => (.assumedUtf8, bytes)

/-- The encoding of the rest of the document after its declaration. Without a mark any encoding
of single bytes can be declared, and with one only the same encoding. -/
def declare? : Encoding → DeclaredEncoding → Option Encoding
  | .assumedUtf8, .utf8 => some .utf8
  | .assumedUtf8, .latin1 => some .latin1
  | .assumedUtf8, .ascii => some .ascii
  | .utf8, .utf8 => some .utf8
  | .utf16BigEndian, .utf16 => some .utf16BigEndian
  | .utf16LittleEndian, .utf16 => some .utf16LittleEndian
  | _, _ => none

end Encoding

/-- The part of a character that has been read. -/
inductive Unfinished where
  /-- The next byte begins a character. -/
  | nothing
  /-- `missing` more bytes follow; the bits so far are `value`, and a value below `least` should
  have been written with fewer bytes. -/
  | utf8 (missing value least : Nat)
  /-- The first byte of a 16-bit unit, perhaps after the first half of a surrogate pair. -/
  | halfUnit (byte : Nat) (lead : Option Nat)
  /-- The first half of a surrogate pair. -/
  | surrogate (lead : Nat)
deriving DecidableEq, Repr

/-- What one byte leads to. -/
inductive Decoded where
  | more (unfinished : Unfinished)
  | char (c : Char)
  | invalid
deriving DecidableEq, Repr

/-- The character with a code point, or a failure. -/
def Decoded.ofScalar (n : Nat) : Decoded :=
  match scalar? n with
  | some c => .char c
  | none => .invalid

/-- The first byte of a character in UTF-8. -/
def decodeUtf8Lead (b : Nat) : Decoded :=
  if b < 0x80 then .ofScalar b
  else if b < 0xc0 then .invalid
  else if b < 0xe0 then .more (.utf8 1 (b - 0xc0) 0x80)
  else if b < 0xf0 then .more (.utf8 2 (b - 0xe0) 0x800)
  else if b < 0xf8 then .more (.utf8 3 (b - 0xf0) 0x10000)
  else .invalid

/-- A further byte of a character in UTF-8. -/
def decodeUtf8Next (missing value least b : Nat) : Decoded :=
  if b < 0x80 || 0xc0 ≤ b then .invalid
  else
    let value := value * 64 + (b - 0x80)
    if 1 < missing then .more (.utf8 (missing - 1) value least)
    else if value < least then .invalid
    else .ofScalar value

/-- A 16-bit unit, perhaps after the first half of a surrogate pair. -/
def decodeUnit (lead : Option Nat) (unit : Nat) : Decoded :=
  let isLead := 0xd800 ≤ unit && unit < 0xdc00
  let isTrail := 0xdc00 ≤ unit && unit < 0xe000
  match lead with
  | none => if isLead then .more (.surrogate unit) else .ofScalar unit
  | some high =>
    if isTrail then .ofScalar (0x10000 + (high - 0xd800) * 0x400 + (unit - 0xdc00)) else .invalid

/-- One byte after an unfinished character. -/
def decode (encoding : Encoding) (unfinished : Unfinished) (byte : UInt8) : Decoded :=
  let b := byte.toNat
  match encoding with
  | .assumedUtf8 | .utf8 =>
    match unfinished with
    | .utf8 missing value least => decodeUtf8Next missing value least b
    | _ => decodeUtf8Lead b
  | .latin1 => .ofScalar b
  | .ascii => if b < 0x80 then .ofScalar b else .invalid
  | .utf16BigEndian =>
    match unfinished with
    | .halfUnit first lead => decodeUnit lead (first * 256 + b)
    | .surrogate lead => .more (.halfUnit b (some lead))
    | _ => .more (.halfUnit b none)
  | .utf16LittleEndian =>
    match unfinished with
    | .halfUnit first lead => decodeUnit lead (b * 256 + first)
    | .surrogate lead => .more (.halfUnit b (some lead))
    | _ => .more (.halfUnit b none)

end Phrasebook.Markup
