import Phrasebook.Markup.Character
import Phrasebook.Markup.Name
import Phrasebook.Markup.Token
import Phrasebook.Markup.Reader.Tag
import Phrasebook.Proofs.Markup.Outline

/-!
# Written documents

One tree can be written in many ways: a character as such, by reference or in a marked section,
a value in either kind of quotes, an element without content by one tag or by two, and comments
wherever they change nothing. This module says what all these ways are, without reading any of
them.

- `Denotes`: the references that stand for a character.
- `Part`: a piece of a written text. `WritesText` puts pieces together.
- `WritesAttributes`, `WritesNodes`, `WritesDocument`: the written forms of larger things.
- `IsPlainTag`: the tags that have a written form, as far as names are concerned.
- `FitsLimits`: the sizes up to which tags are read.
- `Node.bare`: a tree without its positions, of which a document says nothing.
-/

namespace Phrasebook.Markup

open Text

/-! ## Text -/

/-- The character may occur in a document. -/
def IsLegal (c : Char) : Prop :=
  Version.v10.admits c = true

instance (c : Char) : Decidable (IsLegal c) :=
  inferInstanceAs (Decidable (_ = true))

/-- What stands between `&` and `;` in a reference to a character. -/
inductive Denotes : List Char → Char → Prop
  | lt : Denotes ['l', 't'] '<'
  | gt : Denotes ['g', 't'] '>'
  | amp : Denotes ['a', 'm', 'p'] '&'
  | apos : Denotes ['a', 'p', 'o', 's'] '\''
  | quot : Denotes ['q', 'u', 'o', 't'] '"'
  | decimal {digits : List Char} {c : Char} (legal : IsLegal c)
      (number : natural? 10 digits = some c.toNat) : Denotes ('#' :: digits) c
  | hexadecimal {digits : List Char} {c : Char} (legal : IsLegal c)
      (number : natural? 16 digits = some c.toNat) : Denotes ('#' :: 'x' :: digits) c

/-- A piece of a written text. -/
inductive Part where
  /-- A character as such. -/
  | plain (c : Char)
  /-- A reference to a character. -/
  | reference (name : List Char) (c : Char)
  /-- A marked section. -/
  | marked (cs : List Char)
  /-- A comment, which is no text. -/
  | comment (cs : List Char)
deriving DecidableEq

namespace Part

/-- The characters that a piece stands for. -/
def content : Part → List Char
  | plain c => [c]
  | reference _ c => [c]
  | marked cs => cs
  | comment _ => []

/-- A piece as it stands in the document. -/
def written : Part → List Char
  | plain c => [c]
  | reference name _ => '&' :: (name ++ [';'])
  | marked cs => "<![CDATA[".toList ++ cs ++ "]]>".toList
  | comment cs => "<!--".toList ++ cs ++ "-->".toList

/-- The piece keeps to the syntax of text. -/
def IsSound : Part → Prop
  | plain c => IsLegal c ∧ c ≠ '<' ∧ c ≠ '&'
  | reference name c => Denotes name c
  | marked cs => (∀ c ∈ cs, IsLegal c) ∧ ¬ "]]>".toList <:+: cs
  | comment cs => (∀ c ∈ cs, IsLegal c) ∧ ¬ "--".toList <:+: cs ++ ['-']

/-- The piece keeps to the syntax of a quoted value. -/
def IsSoundIn (q : Quote) : Part → Prop
  | plain c => IsLegal c ∧ c ≠ '<' ∧ c ≠ '&' ∧ c ≠ q.char
  | reference name c => Denotes name c
  | _ => False

/-- The characters that end a marked section, as such. -/
def sectionEnd : List Part :=
  [plain ']', plain ']', plain '>']

end Part

/-- Pieces of text one after the other. The end of a section may not stand in text. -/
structure WritesText (content : String) (parts : List Part) : Prop where
  content_eq : (parts.flatMap Part.content) = content.toList
  sound : ∀ part ∈ parts, part.IsSound
  apart : ¬ Part.sectionEnd <:+: parts

/-- Pieces of a quoted value one after the other. -/
structure WritesValue (q : Quote) (value : String) (parts : List Part) : Prop where
  content_eq : (parts.flatMap Part.content) = value.toList
  sound : ∀ part ∈ parts, part.IsSoundIn q

/-! ## Elements -/

/-- White space, perhaps none. -/
def IsBlank (cs : List Char) : Prop :=
  ∀ c ∈ cs, isSpace c = true

instance (cs : List Char) : Decidable (IsBlank cs) :=
  decidable_of_iff (cs.all isSpace = true) List.all_eq_true

/-- The attributes of a tag, with the white space before its end. -/
inductive WritesAttributes : List (String × String) → List Char → Prop
  | nil {blank : List Char} (isBlank : IsBlank blank) : WritesAttributes [] blank
  | cons {name value : String} {attributes : List (String × String)}
      {before between after rest : List Char} {q : Quote} {parts : List Part}
      (separated : before ≠ []) (blankBefore : IsBlank before) (blankBetween : IsBlank between)
      (blankAfter : IsBlank after) (writes : WritesValue q value parts)
      (others : WritesAttributes attributes rest) :
      WritesAttributes ((name, value) :: attributes)
        (before ++ name.toList ++ between ++ ['='] ++ after ++ [q.char] ++
          parts.flatMap Part.written ++ [q.char] ++ rest)

/-- Neighbouring nodes, with comments wherever there may be some. -/
inductive WritesNodes : List Node → List Char → Prop
  | nil : WritesNodes [] []
  | comment {cs rest : List Char} {nodes : List Node} (sound : (Part.comment cs).IsSound)
      (others : WritesNodes nodes rest) :
      WritesNodes nodes ((Part.comment cs).written ++ rest)
  | text {content : String} {parts : List Part} {rest : List Char} {nodes : List Node}
      (writes : WritesText content parts) (others : WritesNodes nodes rest) :
      WritesNodes (.text content :: nodes) (parts.flatMap Part.written ++ rest)
  | empty {name : String} {attributes : List (String × String)} {position : Position}
      {tag rest : List Char} {nodes : List Node} (writes : WritesAttributes attributes tag)
      (others : WritesNodes nodes rest) :
      WritesNodes (.element name attributes position [] :: nodes)
        (['<'] ++ name.toList ++ tag ++ ['/', '>'] ++ rest)
  | paired {name : String} {attributes : List (String × String)} {position : Position}
      {children nodes : List Node} {tag inner blank rest : List Char}
      (writes : WritesAttributes attributes tag) (content : WritesNodes children inner)
      (isBlank : IsBlank blank) (others : WritesNodes nodes rest) :
      WritesNodes (.element name attributes position children :: nodes)
        (['<'] ++ name.toList ++ tag ++ ['>'] ++ inner ++ ['<', '/'] ++ name.toList ++ blank ++
          ['>'] ++ rest)

/-- White space and comments. -/
inductive WritesNothing : List Char → Prop
  | nil : WritesNothing []
  | space {c : Char} {rest : List Char} (isSpace : isSpace c = true)
      (others : WritesNothing rest) : WritesNothing (c :: rest)
  | comment {cs rest : List Char} (sound : (Part.comment cs).IsSound)
      (others : WritesNothing rest) : WritesNothing ((Part.comment cs).written ++ rest)

/-- A document with its root element. -/
def WritesDocument (root : Element) (document : List Char) : Prop :=
  ∃ before tree after, WritesNothing before ∧ WritesNodes [root.node] tree ∧
    WritesNothing after ∧ document = before ++ tree ++ after

/-! ## Names -/

/-- A name without a qualifier. -/
def IsPlainName (name : String) : Prop :=
  (∃ c ∈ name.toList.head?, isNameStart c = true) ∧
    (∀ c ∈ name.toList, isNameChar c = true) ∧ ':' ∉ name.toList

instance (name : String) : Decidable (IsPlainName name) :=
  decidable_of_iff (name.toList.head?.any isNameStart = true ∧
      name.toList.all isNameChar = true ∧ ':' ∉ name.toList) <| by
    simp [IsPlainName, Option.any_eq_true]

/-- A tag with plain names, of which no two attributes have the same. The name `xmlns` is taken. -/
structure IsPlainTag (name : String) (attributes : List (String × String)) : Prop where
  plain : IsPlainName name
  plainAttributes : ∀ a ∈ attributes, IsPlainName a.1 ∧ a.1 ≠ "xmlns"
  distinct : (attributes.map Prod.fst).Nodup

/-- The number of bytes that characters take up in UTF-8. -/
def byteSize : List Char → Nat
  | [] => 0
  | c :: cs => c.utf8Size + byteSize cs

/-- The names of the tag, and their number, are within the bounds of the reader. -/
structure FitsLimits (name : String) (attributes : List (String × String)) : Prop where
  size : byteSize name.toList ≤ maxNameSize
  attributeSize : ∀ a ∈ attributes, byteSize a.1.toList ≤ maxNameSize
  number : attributes.length ≤ maxAttributes

mutual

/-- The tags of a node and of all elements within it have a property. -/
def Node.TagsAre (P : String → List (String × String) → Prop) : Node → Prop
  | .text _ => True
  | .element name attributes _ children => P name attributes ∧ AllTagsAre P children

/-- The tags of all elements among nodes and within them have a property. -/
def AllTagsAre (P : String → List (String × String) → Prop) : List Node → Prop
  | [] => True
  | node :: nodes => node.TagsAre P ∧ AllTagsAre P nodes

end

/-! ## Trees without positions -/

mutual

/-- A node without positions. -/
def Node.bare : Node → Node
  | .text content => .text content
  | .element name attributes _ children =>
    .element name attributes Position.start (bareAll children)

/-- Nodes without positions. -/
def bareAll : List Node → List Node
  | [] => []
  | node :: nodes => node.bare :: bareAll nodes

end

/-- An element without positions. -/
def Element.bare (e : Element) : Element :=
  { e with position := Position.start, children := bareAll e.children }

/-- An event without its position. -/
def Event.bare : Event → Event
  | .startTag name attributes _ => .startTag name attributes Position.start
  | .endTag _ => .endTag Position.start
  | .text content => .text content

end Phrasebook.Markup
