import Phrasebook.Proofs.Markup.View
import Phrasebook.Proofs.Text.Numeral

/-!
# Tokens of a document without declarations

One lemma for each token in each mode that text, comments, marked sections, tags and references
lead to. A document is read with these lemmas alone.

- `takes_enter`: a token that leads to another mode and does nothing else.
- `takes_text`, `takes_value`: the tokens that stand for themselves in text and in values.
- `takes_tagEnd`, `takes_emptyTagEnd`, `takes_closeElement`: the ends of tags.
-/

namespace Phrasebook.Markup

open Text

variable {r : Region} {f : Option Fragment} {o : List OpenElement} {p : List Char}
variable {es : List Event} {t : Token} {c : Char}

/-- A token that leads to another mode and does nothing else. -/
theorem takes_enter {m m' : Mode} (inside : m ≠ .between ∧ m ≠ .comment)
    (read : ∀ s : State, s.mode = m → s.version = .v10 → s.entities = [] →
      s.read t = s.enter m') :
    Takes ⟨r, f, m, o, p, es⟩ t ⟨r, f, m', o, p, es⟩ := by
  intro s shows
  rw [read s shows.mode shows.version shows.entities]
  exact shows.enter (shows.progress_of_mode inside) m'

theorem ok_eq_enter {s : State} {m : Mode} (mode : s.mode = m) :
    (.ok s : Except Failure State) = s.enter m := by
  cases mode
  rfl

/-! ## Text -/

/-- The token stands for itself in text. -/
inductive IsText : Token → Prop
  | char {c : Char} (legal : IsLegal c) : IsText (.char c)
  | tagEnd : IsText .tagEnd
  | emptyTagEnd : IsText .emptyTagEnd
  | equals : IsText .equals
  | quote (q : Quote) : IsText (.quote q)
  | referenceEnd : IsText .referenceEnd

theorem admitsText_of_isLegal (legal : IsLegal c) : Version.v10.admitsText c = true := by
  unfold Version.admitsText
  rw [legal]
  rfl

theorem takes_text (inside : o ≠ []) (text : IsText t) :
    Takes ⟨r, f, .between, o, p, es⟩ t ⟨r, f, .between, o, t.content.reverse ++ p, es⟩ := by
  intro s shows
  have progress := shows.progress_of_nesting inside
  have nested : s.isOutside = false := by
    unfold State.isOutside
    rw [shows.nesting]
    simp [inside]
  have marked := shows.markText.addText ((progress_markText s).trans progress) t.content
  have unmarked := shows.addText progress t.content
  have mode : s.mode = .between := shows.mode
  cases text with
  | char legal =>
    refine ⟨_, ?_, marked⟩
    simp [State.read, mode, State.readBetween, nested, State.readText, shows.version,
      admitsText_of_isLegal legal, Token.content]
  | referenceEnd =>
    refine ⟨_, ?_, unmarked⟩
    simp [State.read, mode, State.readBetween, nested, State.readText]
  | tagEnd | emptyTagEnd | equals | quote q =>
    refine ⟨_, ?_, marked⟩
    simp [State.read, mode, State.readBetween, nested, State.readText]

theorem takes_referenceStart (inside : o ≠ []) :
    Takes ⟨r, f, .between, o, p, es⟩ .referenceStart ⟨r, f, .textReference [], o, p, es⟩ := by
  intro s shows
  have read : s.read .referenceStart = s.enter (.textReference []) := by
    have mode : s.mode = .between := shows.mode
    simp [State.read, mode, State.readBetween, State.isOutside, shows.nesting, inside,
      State.readText]
  rw [read]
  exact shows.enter (shows.progress_of_nesting inside) _

theorem takes_sectionStart (inside : o ≠ []) :
    Takes ⟨r, f, .between, o, p, es⟩ .sectionStart ⟨r, f, .marked, o, p, es⟩ := by
  intro s shows
  have read : s.read .sectionStart = s.enter .marked := by
    have mode : s.mode = .between := shows.mode
    simp [State.read, mode, State.readBetween, State.isOutside, shows.nesting, inside,
      State.readText]
  rw [read]
  exact shows.enter (shows.progress_of_nesting inside) _

theorem takes_marked_char (legal : IsLegal c) :
    Takes ⟨r, f, .marked, o, p, es⟩ (.char c) ⟨r, f, .marked, o, c :: p, es⟩ := by
  intro s shows
  have progress := shows.progress_of_mode ⟨nofun, nofun⟩
  have mode : s.mode = .marked := shows.mode
  refine ⟨_, ?_, shows.markText.addText ((progress_markText s).trans progress) [c]⟩
  unfold IsLegal at legal
  simp [State.read, mode, State.readMarked, shows.version, legal]

theorem takes_sectionEnd :
    Takes ⟨r, f, .marked, o, p, es⟩ .sectionEnd ⟨r, f, .between, o, p, es⟩ :=
  takes_enter ⟨nofun, nofun⟩ fun s mode _ _ => by
    simp [State.read, mode, State.readMarked]

/-! ## Comments and white space outside of elements -/

theorem takes_commentStart :
    Takes ⟨r, f, .between, o, p, es⟩ .commentStart ⟨r, f, .comment, o, p, es⟩ := by
  intro s shows
  have mode : s.mode = .between := shows.mode
  by_cases outside : o = []
  · have step : s.read .commentStart = s.beginDocument.enter .comment := by
      have apart : s.readOutside .commentStart = s.beginDocument.enter .comment := rfl
      simp [State.read, mode, State.readBetween, State.isOutside, shows.nesting, outside, apart]
    rw [step]
    exact shows.beginDocument.enter_prolog (.inr rfl)
  · have step : s.read .commentStart = s.enter .comment := by
      simp [State.read, mode, State.readBetween, State.isOutside, shows.nesting, outside,
        State.readText]
    rw [step]
    exact shows.enter_prolog (.inr rfl)

theorem takes_comment_char (legal : IsLegal c) :
    Takes ⟨r, f, .comment, o, p, es⟩ (.char c) ⟨r, f, .comment, o, p, es⟩ := by
  intro s shows
  have mode : s.mode = .comment := shows.mode
  refine ⟨s, ?_, shows⟩
  unfold IsLegal at legal
  simp [State.read, mode, State.readComment, shows.version, legal]

theorem takes_commentEnd :
    Takes ⟨r, f, .comment, o, p, es⟩ .commentEnd ⟨r, f, .between, o, p, es⟩ := by
  intro s shows
  have step : s.read .commentEnd = s.enter .between := by
    have mode : s.mode = .comment := shows.mode
    simp [State.read, mode, State.readComment]
  rw [step]
  exact shows.enter_prolog (.inl rfl)

theorem takes_space_outside (space : isSpace c = true) :
    Takes ⟨r, f, .between, [], p, es⟩ (.char c) ⟨r, f, .between, [], p, es⟩ := by
  intro s shows
  have mode : s.mode = .between := shows.mode
  have apart : s.readOutside (.char c) = .ok s.beginDocument := if_pos space
  refine ⟨_, ?_, shows.beginDocument⟩
  simp [State.read, mode, State.readBetween, State.isOutside, shows.nesting, apart]

/-! ## References -/

theorem numericReference?_decimal {digits : List Char} (legal : IsLegal c)
    (number : natural? 10 digits = some c.toNat) :
    numericReference? .v10 digits = some c := by
  unfold numericReference?
  split
  case h_1 hexadecimal =>
    have letter : digit? 10 'x' = none := by
      decide
    rw [natural?_eq_none letter] at number
    cases number
  case h_2 =>
    have admitted : Version.v10.admits c = true := legal
    rw [unsigned?_of_natural? number]
    simp [scalar?_toNat, admitted]

theorem numericReference?_hexadecimal {digits : List Char} (legal : IsLegal c)
    (number : natural? 16 digits = some c.toNat) :
    numericReference? .v10 ('x' :: digits) = some c := by
  have admitted : Version.v10.admits c = true := legal
  show ((unsigned? 16 digits).bind scalar?).filter Version.v10.admits = some c
  rw [unsigned?_of_natural? number]
  simp [scalar?_toNat, admitted]

theorem standardEntity?_hash (digits : List Char) :
    standardEntity? (String.ofList ('#' :: digits)) = none := by
  unfold standardEntity?
  split
  case h_6 => rfl
  all_goals
    rename_i same
    simpa using congrArg String.toList same

/-- A reference that denotes a character stands for it. -/
theorem resolveReference_of_denotes {s : State} (version : s.version = .v10) {name : List Char}
    (denotes : Denotes name c) : s.resolveReference name = .character c := by
  unfold State.resolveReference
  cases denotes with
  | lt | gt | amp | apos | quot => rfl
  | decimal legal number =>
    rw [standardEntity?_hash]
    simp only [version, numericReference?_decimal legal number]
  | hexadecimal legal number =>
    rw [standardEntity?_hash]
    simp only [version, numericReference?_hexadecimal legal number]

theorem takes_textReference_char {read : List Char} (more : continuesReference read c = true) :
    Takes ⟨r, f, .textReference read, o, p, es⟩ (.char c)
      ⟨r, f, .textReference (c :: read), o, p, es⟩ :=
  takes_enter ⟨nofun, nofun⟩ fun s mode _ _ => by
    have step : s.readTextReference read (.char c) = s.enter (.textReference (c :: read)) :=
      if_pos more
    simp [State.read, mode, step]

theorem takes_textReference_end {read : List Char} (denotes : Denotes read.reverse c) :
    Takes ⟨r, f, .textReference read, o, p, es⟩ .referenceEnd
      ⟨r, f, .between, o, c :: p, es⟩ := by
  intro s shows
  have progress := shows.progress_of_mode ⟨nofun, nofun⟩
  have mode : s.mode = .textReference read := shows.mode
  have resolved : s.readTextReference read .referenceEnd = (s.addText [c]).enter .between := by
    unfold State.readTextReference
    dsimp only
    rw [resolveReference_of_denotes shows.version denotes]
  have step : s.read .referenceEnd = (s.addText [c]).enter .between := by
    simp [State.read, mode, resolved]
  rw [step]
  exact (shows.addText progress [c]).enter progress .between

/-! ## Quoted values -/

theorem takes_valueReference_char {value : Value} {read : List Char}
    (more : continuesReference read c = true) :
    Takes ⟨r, f, .valueReference value read, o, p, es⟩ (.char c)
      ⟨r, f, .valueReference value (c :: read), o, p, es⟩ :=
  takes_enter ⟨nofun, nofun⟩ fun s mode _ _ => by
    have step : s.readValueReference value read (.char c)
        = s.enter (.valueReference value (c :: read)) := if_pos more
    simp [State.read, mode, step]

theorem takes_valueReference_end {value : Value} {read : List Char}
    (denotes : Denotes read.reverse c) :
    Takes ⟨r, f, .valueReference value read, o, p, es⟩ .referenceEnd
      ⟨r, f, .value { value with read := c :: value.read }, o, p, es⟩ :=
  takes_enter ⟨nofun, nofun⟩ fun s mode version _ => by
    have resolved : s.readValueReference value read .referenceEnd
        = s.enter (.value { value with read := c :: value.read }) := by
      unfold State.readValueReference
      dsimp only
      rw [resolveReference_of_denotes version denotes]
    simp [State.read, mode, resolved]

variable {purpose : Purpose} {q : Quote} {read : List Char}

theorem takes_value (text : IsText t ∨ t = .sectionEnd) (other : t ≠ .quote q) :
    Takes ⟨r, f, .value ⟨purpose, some q, read⟩, o, p, es⟩ t
      ⟨r, f, .value ⟨purpose, some q, t.content.reverse ++ read⟩, o, p, es⟩ :=
  takes_enter ⟨nofun, nofun⟩ fun s mode version _ => by
    rcases text with text | rfl
    · cases text with
      | char legal =>
        simp [State.read, mode, State.readValue, version, admitsText_of_isLegal legal,
          Token.content]
      | quote q' => simp [State.read, mode, State.readValue, other]
      | tagEnd | emptyTagEnd | equals | referenceEnd =>
        simp [State.read, mode, State.readValue]
    · simp [State.read, mode, State.readValue]

theorem takes_value_referenceStart :
    Takes ⟨r, f, .value ⟨purpose, some q, read⟩, o, p, es⟩ .referenceStart
      ⟨r, f, .valueReference ⟨purpose, some q, read⟩ [], o, p, es⟩ :=
  takes_enter ⟨nofun, nofun⟩ fun s mode _ _ => by
    simp [State.read, mode, State.readValue]

theorem takes_value_space (space : isSpace c = true) :
    Takes ⟨r, f, .value ⟨purpose, none, read⟩, o, p, es⟩ (.char c)
      ⟨r, f, .value ⟨purpose, none, read⟩, o, p, es⟩ :=
  takes_enter ⟨nofun, nofun⟩ fun s mode _ _ => by
    rw [← ok_eq_enter mode]
    simp [State.read, mode, State.readValue, space]

theorem takes_value_quote :
    Takes ⟨r, f, .value ⟨purpose, none, read⟩, o, p, es⟩ (.quote q)
      ⟨r, f, .value ⟨purpose, some q, read⟩, o, p, es⟩ :=
  takes_enter ⟨nofun, nofun⟩ fun s mode _ _ => by
    simp [State.read, mode, State.readValue]

/-! ## Start tags -/

/-- An unfinished name without a colon. -/
def PartialName.plain (cs : List Char) : PartialName :=
  ⟨⟨cs.reverse, byteSize cs⟩, false⟩

/-- A token within a name that is read in one of three modes. -/
theorem read_name_char {name name' : PartialName} (more : name.extend? c = some name')
    (closers : List Token) : name.read closers (.char c) = .more name' := by
  simp [PartialName.read, more]

theorem isNameChar_of_isNameStart (start : isNameStart c = true) : isNameChar c = true := by
  simp [isNameChar, start]

theorem isNameChar_of_isSpace (space : isSpace c = true) : isNameChar c = false := by
  have blank : c = ' ' ∨ c = '\t' ∨ c = '\n' ∨ c = '\r' := by
    simpa [isSpace, or_assoc] using space
  rcases blank with rfl | rfl | rfl | rfl <;> decide

theorem isNameStart_of_isSpace (space : isSpace c = true) : isNameStart c = false := by
  cases start : isNameStart c with
  | false => rfl
  | true => exact (isNameChar_of_isNameStart start).symm.trans (isNameChar_of_isSpace space)

theorem isSpace_of_isNameStart (start : isNameStart c = true) : isSpace c = false := by
  cases space : isSpace c with
  | false => rfl
  | true => exact start.symm.trans (isNameStart_of_isSpace space)

theorem extend?_space (name : PartialName) (space : isSpace c = true) :
    name.extend? c = none := by
  have noColon : c ≠ ':' := by
    rintro rfl
    cases space
  unfold PartialName.extend? Word.extend?
  simp [noColon, isNameChar_of_isSpace space, isNameStart_of_isSpace space]

/-- A name ends with white space. -/
theorem read_name_space {name : PartialName} {complete : Name}
    (full : name.name? = some complete) (space : isSpace c = true) (closers : List Token) :
    name.read closers (.char c) = .complete complete := by
  simp [PartialName.read, extend?_space name space, space, PartialName.finish, full]

/-- A name ends with a token that may stand behind it. -/
theorem read_name_closer {name : PartialName} {complete : Name}
    (full : name.name? = some complete) {closers : List Token} (closes : t ∈ closers)
    (other : ∀ c, t ≠ .char c) : name.read closers t = .complete complete := by
  unfold PartialName.read
  split
  case h_1 c => exact absurd rfl (other c)
  case h_2 => simp [closes, PartialName.finish, full]

theorem takes_tagStart :
    Takes ⟨r, f, .between, o, p, es⟩ .tagStart
      ⟨r, f, .tagName .empty, o, [], withText p es⟩ := by
  intro s shows
  have mode : s.mode = .between := shows.mode
  have step : s.read .tagStart = s.beginTag.enter (.tagName .empty) := by
    by_cases outside : o = []
    · have apart : s.readOutside .tagStart = s.beginTag.enter (.tagName .empty) := rfl
      simp [State.read, mode, State.readBetween, State.isOutside, shows.nesting, outside, apart]
    · simp [State.read, mode, State.readBetween, State.isOutside, shows.nesting, outside,
        State.readText]
  rw [step]
  exact shows.beginTag.enter (progress_beginTag s) _

theorem takes_tagName_char {name name' : PartialName} (more : name.extend? c = some name') :
    Takes ⟨r, f, .tagName name, o, p, es⟩ (.char c) ⟨r, f, .tagName name', o, p, es⟩ :=
  takes_enter ⟨nofun, nofun⟩ fun s mode _ _ => by
    simp [State.read, mode, State.readTagName, read_name_char more]

theorem takes_attributeName_char {tag : StartTag} {name name' : PartialName}
    (more : name.extend? c = some name') :
    Takes ⟨r, f, .tag tag (.attributeName name), o, p, es⟩ (.char c)
      ⟨r, f, .tag tag (.attributeName name'), o, p, es⟩ :=
  takes_enter ⟨nofun, nofun⟩ fun s mode _ _ => by
    simp [State.read, mode, State.readTag, State.readAttributeName, read_name_char more]

theorem takes_endName_char {name name' : PartialName} (more : name.extend? c = some name') :
    Takes ⟨r, f, .endName name, o, p, es⟩ (.char c) ⟨r, f, .endName name', o, p, es⟩ :=
  takes_enter ⟨nofun, nofun⟩ fun s mode _ _ => by
    simp [State.read, mode, State.readEndName, read_name_char more]

variable {base : String} {tag : StartTag} {m : Mode}

/-- So much of the start tag has been read, and it may end here. -/
inductive MayEnd : StartTag → Mode → Prop
  | name {name : PartialName} {base : String} (full : name.name? = some ⟨none, base⟩) :
      MayEnd ⟨⟨none, base⟩, [], []⟩ (.tagName name)
  | blank {tag : StartTag} : MayEnd tag (.tag tag .blank)
  | afterValue {tag : StartTag} : MayEnd tag (.tag tag .afterValue)

/-- No name in the tag has a qualifier. -/
structure StartTag.IsPlain (tag : StartTag) : Prop where
  name : tag.name.qualifier = none
  attributes : ∀ a ∈ tag.attributes, a.1.qualifier = none

/-- The event of a start tag, without a position. -/
def StartTag.event (tag : StartTag) : Event :=
  .startTag tag.name.base (tag.attributes.reverse.map fun (name, value) => (name.base, value))
    Position.start

theorem MayEnd.inside (ends : MayEnd tag m) : m ≠ .between ∧ m ≠ .comment := by
  cases ends <;> exact ⟨nofun, nofun⟩

theorem takes_tag_space (ends : MayEnd tag m) (space : isSpace c = true) :
    Takes ⟨r, f, m, o, p, es⟩ (.char c) ⟨r, f, .tag tag .blank, o, p, es⟩ :=
  takes_enter ends.inside fun s mode _ _ => by
    cases ends with
    | name full =>
      simp [State.read, mode, State.readTagName, read_name_space full space, Name.isReserved]
    | blank =>
      rw [← ok_eq_enter mode]
      simp [State.read, mode, State.readTag, space]
    | afterValue => simp [State.read, mode, State.readTag, space]

theorem takes_attributeName_first (first : isNameStart c = true) :
    Takes ⟨r, f, .tag tag .blank, o, p, es⟩ (.char c)
      ⟨r, f, .tag tag (.attributeName (.ofFirst c)), o, p, es⟩ :=
  takes_enter ⟨nofun, nofun⟩ fun s mode _ _ => by
    simp [State.read, mode, State.readTag, isSpace_of_isNameStart first, first]

theorem takes_attributeName_space {name : PartialName} (full : name.name? = some ⟨none, base⟩)
    (free : tag.isTaken ⟨none, base⟩ = false) (space : isSpace c = true) :
    Takes ⟨r, f, .tag tag (.attributeName name), o, p, es⟩ (.char c)
      ⟨r, f, .tag tag (.equals ⟨none, base⟩), o, p, es⟩ :=
  takes_enter ⟨nofun, nofun⟩ fun s mode _ _ => by
    simp [State.read, mode, State.readTag, State.readAttributeName, read_name_space full space,
      free]

theorem takes_attributeName_equals {name : PartialName} (full : name.name? = some ⟨none, base⟩)
    (free : tag.isTaken ⟨none, base⟩ = false) :
    Takes ⟨r, f, .tag tag (.attributeName name), o, p, es⟩ .equals
      ⟨r, f, .value ⟨.attributeOf tag ⟨none, base⟩, none, []⟩, o, p, es⟩ :=
  takes_enter ⟨nofun, nofun⟩ fun s mode _ _ => by
    have complete : name.read [.equals] .equals = .complete ⟨none, base⟩ :=
      read_name_closer full (by simp) nofun
    simp [State.read, mode, State.readTag, State.readAttributeName, complete, free]

theorem takes_equals_space {name : Name} (space : isSpace c = true) :
    Takes ⟨r, f, .tag tag (.equals name), o, p, es⟩ (.char c)
      ⟨r, f, .tag tag (.equals name), o, p, es⟩ :=
  takes_enter ⟨nofun, nofun⟩ fun s mode _ _ => by
    rw [← ok_eq_enter mode]
    simp [State.read, mode, State.readTag, space]

theorem takes_equals {name : Name} :
    Takes ⟨r, f, .tag tag (.equals name), o, p, es⟩ .equals
      ⟨r, f, .value ⟨.attributeOf tag name, none, []⟩, o, p, es⟩ :=
  takes_enter ⟨nofun, nofun⟩ fun s mode _ _ => by
    simp [State.read, mode, State.readTag]

theorem takes_value_end {value : String} (other : base ≠ "xmlns")
    (room : tag.attributes.length < maxAttributes) :
    Takes ⟨r, f, .value ⟨.attributeOf tag ⟨none, base⟩, some q, value.toList.reverse⟩, o, p, es⟩
      (.quote q)
      ⟨r, f, .tag { tag with attributes := (⟨none, base⟩, value) :: tag.attributes } .afterValue,
        o, p, es⟩ :=
  takes_enter ⟨nofun, nofun⟩ fun s mode _ _ => by
    simp [State.read, mode, State.readValue, State.finishValue, State.finishAttribute, other, room]

/-- Names without a qualifier need no declaration. -/
theorem isBound_of_isPlain (s : State) (plain : tag.IsPlain) :
    (s.isBound tag tag.name && tag.attributes.reverse.all fun (name, _) => s.isBound tag name)
      = true := by
  have unqualified : ∀ {name : Name}, name.qualifier = none → s.isBound tag name = true := by
    intro name none_given
    unfold State.isBound
    rw [none_given]
  simp only [unqualified plain.name, Bool.true_and, List.all_reverse, List.all_eq_true]
  exact fun a mem => unqualified (plain.attributes a mem)

theorem read_tagEnd {s : State} (ends : MayEnd tag s.mode) :
    s.read .tagEnd = s.openElement tag false ∧ s.read .emptyTagEnd = s.openElement tag true := by
  generalize mode : s.mode = m at ends
  cases ends with
  | @name name base full =>
    have complete : name.read [.tagEnd, .emptyTagEnd] .tagEnd = .complete ⟨none, base⟩ :=
      read_name_closer full (by simp) nofun
    have completeEmpty :
        name.read [.tagEnd, .emptyTagEnd] .emptyTagEnd = .complete ⟨none, base⟩ :=
      read_name_closer full (by simp) nofun
    constructor
    · simp [State.read, mode, State.readTagName, complete, Name.isReserved]
    · simp [State.read, mode, State.readTagName, completeEmpty, Name.isReserved]
  | blank | afterValue => constructor <;> simp [State.read, mode, State.readTag]

theorem takes_tagEnd (ends : MayEnd tag m) (plain : tag.IsPlain) :
    Takes ⟨r, f, m, o, p, es⟩ .tagEnd
      ⟨r, f, .between, ⟨tag.name, tag.qualifiers⟩ :: o, p, tag.event :: es⟩ := by
  intro s shows
  have progress := shows.progress_of_mode ends.inside
  have mode : s.mode = m := shows.mode
  rw [(read_tagEnd (mode ▸ ends)).1, State.openElement, if_pos (isBound_of_isPlain s plain)]
  exact ⟨_, rfl, shows.scanner, rfl, .inl progress, congrArg (List.cons _) shows.nesting,
    shows.pending, congrArg (List.cons _) shows.events, shows.version, shows.encoding,
    shows.entities, shows.replacement⟩

theorem takes_emptyTagEnd (ends : MayEnd tag m) (plain : tag.IsPlain) :
    Takes ⟨r, f, m, o, p, es⟩ .emptyTagEnd
      ⟨r, f, .between, o, p, .endTag Position.start :: tag.event :: es⟩ := by
  intro s shows
  have progress := shows.progress_of_mode ends.inside
  have mode : s.mode = m := shows.mode
  rw [(read_tagEnd (mode ▸ ends)).2, State.openElement, if_pos (isBound_of_isPlain s plain)]
  exact ⟨_, rfl, shows.scanner, rfl, .inl progress, shows.nesting, shows.pending,
    congrArg (fun events => Event.endTag Position.start :: tag.event :: events) shows.events,
    shows.version, shows.encoding, shows.entities, shows.replacement⟩

/-! ## End tags -/

theorem takes_endTagStart (inside : o ≠ []) :
    Takes ⟨r, f, .between, o, p, es⟩ .endTagStart
      ⟨r, f, .endName .empty, o, [], withText p es⟩ := by
  intro s shows
  have mode : s.mode = .between := shows.mode
  have step : s.read .endTagStart = s.beginItem.enter (.endName .empty) := by
    simp [State.read, mode, State.readBetween, State.isOutside, shows.nesting, inside,
      State.readText]
  rw [step]
  exact shows.beginItem.enter ((progress_beginItem s).trans (shows.progress_of_nesting inside)) _

theorem takes_endName_space {name : PartialName} (full : name.name? = some ⟨none, base⟩)
    (space : isSpace c = true) :
    Takes ⟨r, f, .endName name, o, p, es⟩ (.char c) ⟨r, f, .endBlank ⟨none, base⟩, o, p, es⟩ :=
  takes_enter ⟨nofun, nofun⟩ fun s mode _ _ => by
    simp [State.read, mode, State.readEndName, read_name_space full space, Name.isReserved]

theorem takes_endBlank_space {name : Name} (space : isSpace c = true) :
    Takes ⟨r, f, .endBlank name, o, p, es⟩ (.char c) ⟨r, f, .endBlank name, o, p, es⟩ :=
  takes_enter ⟨nofun, nofun⟩ fun s mode _ _ => by
    rw [← ok_eq_enter mode]
    simp [State.read, mode, State.readEndBlank, space]

/-- The name of an end tag is complete. -/
inductive NamesEnd (name : Name) : Mode → Prop
  | name {unfinished : PartialName} (full : unfinished.name? = some name)
      (plain : name.qualifier = none) : NamesEnd name (.endName unfinished)
  | blank : NamesEnd name (.endBlank name)

theorem takes_closeElement {name : Name} (names : NamesEnd name m) (qualifiers : List String) :
    Takes ⟨r, f, m, ⟨name, qualifiers⟩ :: o, p, es⟩ .tagEnd
      ⟨r, f, .between, o, p, .endTag Position.start :: es⟩ := by
  intro s shows
  have mode : s.mode = m := shows.mode
  have inside : m ≠ .between ∧ m ≠ .comment := by
    cases names <;> exact ⟨nofun, nofun⟩
  have step : s.read .tagEnd = s.closeElement name := by
    cases names with
    | @name unfinished full plain =>
      have complete : unfinished.read [.tagEnd] .tagEnd = .complete name :=
        read_name_closer full (by simp) nofun
      simp [State.read, mode, State.readEndName, complete, Name.isReserved, plain]
    | blank => simp [State.read, mode, State.readEndBlank]
  have nesting : s.nesting = ⟨name, qualifiers⟩ :: o := shows.nesting
  rw [step, State.closeElement, nesting]
  simp only [if_pos]
  exact ⟨_, rfl, shows.scanner, rfl, .inl (shows.progress_of_mode inside), rfl, shows.pending,
    congrArg (List.cons _) shows.events, shows.version, shows.encoding, shows.entities,
    shows.replacement⟩

end Phrasebook.Markup
