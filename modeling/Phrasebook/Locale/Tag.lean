import Phrasebook.Text.Blank
import Phrasebook.Text.Quoted

/-!
# Locale tags

A locale tag names a language and, in further subtags, a script, a region or a variant:
`cs-CZ`, `zh-Hant-TW`, `hu`. The same tag reaches us in many spellings, `cs_CZ.UTF-8@euro`
from an environment, `CS-cz` from a settings file; a `Tag` is the one canonical form of them.

- `recase`: the casing rule for subtags.
- `Canonical`: the pieces that a tag can have.
- `Tag`: a language and the subtags after it, together with the proof that they are in
  canonical form, so two tags with one text are one tag.
- `Tag.parse`: the tag of a spelling, or the reason why it names none.
-/

namespace Phrasebook

open Text

namespace Locale

/-- Why a spelling names no locale. A spelling is shown without the blanks around it. -/
inductive TagError where
  /-- Nothing stands before the end or the first `.` or `@`. -/
  | empty
  /-- The first piece is not a language. -/
  | invalidLanguage (spelling : String)
  /-- The first of the later pieces that is not a subtag. -/
  | invalidSubtag (spelling subtag : String)
deriving DecidableEq, Repr

/-- The wording of a tag error. -/
def TagError.message : TagError → String
  | .empty => "locale tag is empty"
  | .invalidLanguage spelling => "invalid language subtag in locale tag " ++ quoted spelling
  | .invalidSubtag spelling subtag =>
    "invalid subtag " ++ quoted subtag ++ " in locale tag " ++ quoted spelling

/-! ## Shapes of the pieces -/

/-- The pseudo-locale that names no language although it looks like one. -/
def posix : List Char := ['p', 'o', 's', 'i', 'x']

/-- Two to eight letters, in either case, other than `posix`. -/
def isLanguage (piece : List Char) : Bool :=
  decide (2 ≤ piece.length) && decide (piece.length ≤ 8) && piece.all Char.isAlpha &&
    decide (piece.map Char.toLower ≠ posix)

/-- One to eight letters or digits. -/
def isSubtag (piece : List Char) : Bool :=
  decide (1 ≤ piece.length) && decide (piece.length ≤ 8) && piece.all Char.isAlphanum

/-- Two letters (`CZ`) or three digits (`419`). -/
def isRegion (piece : List Char) : Bool :=
  (decide (piece.length = 2) && piece.all Char.isAlpha) ||
    (decide (piece.length = 3) && piece.all Char.isDigit)

/-- Four letters, as in `Latn`. -/
def isScript (piece : List Char) : Bool :=
  decide (piece.length = 4) && piece.all Char.isAlpha

/-! ## Casing -/

/-- Every letter in lower case. -/
def lowerCase (piece : List Char) : List Char :=
  piece.map Char.toLower

/-- Every letter in upper case. -/
def upperCase (piece : List Char) : List Char :=
  piece.map Char.toUpper

/-- The first letter in upper case, the others in lower case. -/
def titleCase : List Char → List Char
  | [] => []
  | c :: cs => c.toUpper :: cs.map Char.toLower

/-- The casing of subtags: the first region is upper case, a script is title case and all else,
a second region included, is lower case. The flag says whether the region is behind us. -/
def recase : Bool → List (List Char) → List (List Char)
  | _, [] => []
  | regionSeen, s :: ss =>
    if isRegion s && !regionSeen then upperCase s :: recase true ss
    else if isScript s then titleCase s :: recase regionSeen ss
    else lowerCase s :: recase regionSeen ss

/-! ## Tags -/

/-- The pieces of a tag, as they stand in its text: a language and subtags in the one casing. -/
inductive Canonical : List Char → List (List Char) → Prop
  | of_pieces {language : List Char} {subtags : List (List Char)}
      (hl : isLanguage language = true) (hs : subtags.all isSubtag = true) :
      Canonical (lowerCase language) (recase false subtags)

/-- A language alone is as canonical as with subtags. -/
theorem Canonical.alone {language : List Char} {subtags : List (List Char)}
    (h : Canonical language subtags) : Canonical language [] := by
  cases h with
  | of_pieces hl _ => exact @of_pieces _ [] hl rfl

/-- A locale tag in canonical form. -/
structure Tag where
  /-- The primary language subtag, `pt` in `pt-PT`. -/
  language : String
  /-- The subtags after it, in order. -/
  subtags : List String
  /-- Both are spelled the one canonical way. -/
  canonical : Canonical language.toList (subtags.map String.toList)
deriving DecidableEq

namespace Tag

/-- The canonical text: all subtags, joined by `-`. -/
def text (t : Tag) : String :=
  t.subtags.foldl (fun written s => written ++ "-" ++ s) t.language

instance : ToString Tag := ⟨Tag.text⟩

/-- Tags are ordered by their texts, code point by code point. -/
instance : Ord Tag := ⟨fun a b => compare a.text b.text⟩

/-- Separates the subtags of a spelling. -/
def isSeparator (c : Char) : Bool :=
  c == '-' || c == '_'

/-- Ends the part of a spelling that names a locale; an encoding or a modifier follows. -/
def isTerminator (c : Char) : Bool :=
  c == '.' || c == '@'

/-- The tag of a language and subtags in any casing. -/
def ofPieces (language : List Char) (subtags : List (List Char))
    (hl : isLanguage language = true) (hs : subtags.all isSubtag = true) : Tag where
  language := String.ofList (lowerCase language)
  subtags := (recase false subtags).map String.ofList
  canonical := by
    simpa [Function.comp_def] using Canonical.of_pieces hl hs

/-- Reads a spelling. Blanks around it are dropped, as is everything from the first `.` or `@`;
the rest is a language and subtags in any casing, separated by `-` or `_`. -/
def parse (spelling : String) : Except TagError Tag :=
  let trimmed := trimBlanks spelling.toList
  let bare := trimmed.takeWhile fun c => !isTerminator c
  if bare.isEmpty then
    .error .empty
  else
    let pieces := bare.splitOnP isSeparator
    let language := pieces.headD []
    let subtags := pieces.tail
    if hl : isLanguage language = true then
      if hs : subtags.all isSubtag = true then
        .ok (ofPieces language subtags hl hs)
      else
        let offending := (subtags.find? fun s => !isSubtag s).getD []
        .error (.invalidSubtag (String.ofList trimmed) (String.ofList offending))
    else
      .error (.invalidLanguage (String.ofList trimmed))

/-- The tag of the language that the messages are written in. -/
def source : Tag where
  language := "en"
  subtags := []
  canonical := @Canonical.of_pieces ['e', 'n'] [] rfl rfl

/-- The region, if the tag has one. -/
def region? (t : Tag) : Option String :=
  t.subtags.find? fun s => isRegion s.toList

/-- The tag has no subtag but its language. -/
def isLanguageOnly (t : Tag) : Bool :=
  t.subtags.isEmpty

/-- The tag reduced to its language. -/
def languageOnly (t : Tag) : Tag where
  language := t.language
  subtags := []
  canonical := t.canonical.alone

/-- Both tags have one primary language. -/
def sameLanguage (t u : Tag) : Bool :=
  t.language == u.language

end Tag

end Locale

end Phrasebook
