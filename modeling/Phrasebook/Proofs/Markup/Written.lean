import Phrasebook.Proofs.Markup.Collector

/-!
# Reading what was written

Each written form is read to its end, and the events are those of the tree.

- `reads_name`, `reads_attributes`, `reads_startTag`, `reads_endTag`: tags.
- `HasRead`: the state between two nodes, with these events so far.
- `exists_reads_nodes`: neighbouring nodes. The induction is on the way they are written.
-/

namespace Phrasebook.Markup

open Text

variable {o : List OpenElement} {p cs text : List Char} {es evs : List Event} {m : Mode}
variable {f : Option Fragment} {c : Char} {s : State}

/-! ## Names and white space -/

theorem byteSize_append (cs ds : List Char) : byteSize (cs ++ ds) = byteSize cs + byteSize ds := by
  induction cs with
  | nil => exact (Nat.zero_add _).symm
  | cons c cs ih => rw [List.cons_append, byteSize, byteSize, ih, Nat.add_assoc]

theorem extend?_plain {before : List Char} (noColon : c ≠ ':')
    (named : (if before = [] then isNameStart c else isNameChar c) = true)
    (fits : byteSize before ≤ maxNameSize) :
    (PartialName.plain before).extend? c = some (.plain (before ++ [c])) := by
  have grown : (Word.push ⟨before.reverse, byteSize before⟩ c)
      = ⟨(before ++ [c]).reverse, byteSize (before ++ [c])⟩ := by
    simp [Word.push, byteSize, byteSize_append]
  have goes_on : ((if before.reverse.isEmpty = true then isNameStart c else isNameChar c) &&
      decide (byteSize before ≤ maxNameSize)) = true := by
    rw [Bool.and_eq_true, decide_eq_true_eq]
    exact ⟨by simpa using named, fits⟩
  unfold PartialName.extend? Word.extend? PartialName.plain
  rw [if_neg noColon, if_pos goes_on, grown]
  rfl

theorem extend?_empty (start : isNameStart c = true) (noColon : c ≠ ':') :
    PartialName.empty.extend? c = some (.plain [c]) :=
  @extend?_plain c [] noColon start (Nat.zero_le _)

theorem name?_plain (nonempty : cs ≠ []) (noColon : ':' ∉ cs) :
    (PartialName.plain cs).name? = some ⟨none, String.ofList cs⟩ := by
  have whole : cs.splitOn ':' = [cs] := List.splitOn_eq_singleton noColon
  unfold PartialName.name? Name.ofChars? PartialName.plain Word.chars
  simp [whole, nonempty]

/-- A name goes on. -/
theorem reads_nameRest {mode : PartialName → Mode}
    (takes : ∀ {name name' : PartialName} {c : Char}, name.extend? c = some name' →
      Takes ⟨.text, none, mode name, o, p, es⟩ (.char c) ⟨.text, none, mode name', o, p, es⟩)
    {before : List Char} (nonempty : before ≠ [])
    (named : ∀ c ∈ cs, isNameChar c = true ∧ c ≠ ':')
    (fits : byteSize (before ++ cs) ≤ maxNameSize) :
    Reads (View.Shows ⟨.text, none, mode (.plain before), o, p, es⟩) cs
      (View.Shows ⟨.text, none, mode (.plain (before ++ cs)), o, p, es⟩) := by
  induction cs generalizing before with
  | nil =>
    rw [List.append_nil]
    exact Reads.nil _
  | cons c cs ih =>
    obtain ⟨named_c, noColon⟩ := named c List.mem_cons_self
    have split : before ++ c :: cs = (before ++ [c]) ++ cs := List.append_cons ..
    have fits_before : byteSize before ≤ maxNameSize := by
      rw [byteSize_append] at fits
      omega
    have more := extend?_plain noColon (by rw [if_neg nonempty]; exact named_c) fits_before
    rw [split] at fits ⊢
    exact (reads_inert (isInert_of_isNameChar named_c) (takes more)).cons
      (ih (by simp) (fun d mem => named d (List.mem_cons_of_mem c mem)) fits)

theorem exists_cons_of_isPlainName {name : String} (plain : IsPlainName name) :
    ∃ c cs, name.toList = c :: cs ∧ isNameStart c = true ∧ c ≠ ':' ∧
      ∀ d ∈ cs, isNameChar d = true ∧ d ≠ ':' := by
  obtain ⟨⟨c, first, start⟩, named, noColon⟩ := plain
  obtain ⟨cs, split⟩ := List.head?_eq_some_iff.mp first
  rw [split] at named noColon
  rw [List.mem_cons, not_or] at noColon
  exact ⟨c, cs, split, start, fun colon => noColon.1 colon.symm,
    fun d mem => ⟨named d (List.mem_cons_of_mem c mem), fun colon => noColon.2 (colon ▸ mem)⟩⟩

theorem name?_of_isPlainName {name : String} (plain : IsPlainName name) :
    (PartialName.plain name.toList).name? = some ⟨none, name⟩ := by
  obtain ⟨c, cs, split, -⟩ := exists_cons_of_isPlainName plain
  have nonempty : name.toList ≠ [] := by
    rw [split]
    exact List.cons_ne_nil c cs
  rw [name?_plain nonempty plain.2.2, String.ofList_toList]

/-- A whole name. -/
theorem reads_name {mode : PartialName → Mode}
    (takes : ∀ {name name' : PartialName} {c : Char}, name.extend? c = some name' →
      Takes ⟨.text, none, mode name, o, p, es⟩ (.char c) ⟨.text, none, mode name', o, p, es⟩)
    {name : String} (plain : IsPlainName name) (fits : byteSize name.toList ≤ maxNameSize) :
    Reads (View.Shows ⟨.text, none, mode .empty, o, p, es⟩) name.toList
      (View.Shows ⟨.text, none, mode (.plain name.toList), o, p, es⟩) := by
  obtain ⟨c, cs, split, start, noColon, named⟩ := exists_cons_of_isPlainName plain
  rw [split] at fits ⊢
  have inert := isInert_of_isNameChar (isNameChar_of_isNameStart start)
  exact (reads_inert inert (takes (extend?_empty start noColon))).cons
    (reads_nameRest takes (List.cons_ne_nil c []) named fits)

/-- White space that changes nothing. -/
theorem reads_blank
    (takes : ∀ {c : Char}, isSpace c = true →
      Takes ⟨.text, none, m, o, p, es⟩ (.char c) ⟨.text, none, m, o, p, es⟩)
    (blank : IsBlank cs) :
    Reads (View.Shows ⟨.text, none, m, o, p, es⟩) cs
      (View.Shows ⟨.text, none, m, o, p, es⟩) := by
  induction cs with
  | nil => exact Reads.nil _
  | cons c cs ih =>
    have space := blank c List.mem_cons_self
    exact (reads_inert (isInert_of_isSpace space) (takes space)).cons
      (ih fun d mem => blank d (List.mem_cons_of_mem c mem))

/-! ## Start tags -/

/-- A start tag with these attributes. -/
def StartTag.with (name : String) (attributes : List (String × String)) : StartTag where
  name := ⟨none, name⟩
  attributes := (attributes.map fun (name, value) => (⟨none, name⟩, value)).reverse
  qualifiers := []

/-- The state in a tag. -/
abbrev InMode (m : Mode) (o : List OpenElement) (es : List Event) : State → Prop :=
  View.Shows ⟨.text, none, m, o, [], es⟩

/-- So much of a start tag has been read, and it may end here. -/
def InTag (tag : StartTag) (o : List OpenElement) (es : List Event) (s : State) : Prop :=
  ∃ m, MayEnd tag m ∧ InMode m o es s

variable {name name' value : String} {attributes done : List (String × String)} {tag : StartTag}

theorem isPlain_with : (StartTag.with name attributes).IsPlain := by
  refine ⟨rfl, ?_⟩
  intro a mem
  obtain ⟨b, -, rfl⟩ := List.mem_map.mp (List.mem_reverse.mp mem)
  rfl

theorem event_with :
    (StartTag.with name attributes).event = .startTag name attributes Position.start := by
  simp [StartTag.event, StartTag.with, Function.comp_def]

theorem with_snoc : StartTag.with name (done ++ [(name', value)])
    = { StartTag.with name done with
        attributes := (⟨none, name'⟩, value) :: (StartTag.with name done).attributes } := by
  simp [StartTag.with]

/-- A name is free if no attribute before has it. -/
theorem isTaken_with (distinct : name' ∉ done.map Prod.fst) :
    (StartTag.with name done).isTaken ⟨none, name'⟩ = false := by
  unfold StartTag.isTaken
  rw [Bool.and_eq_false_iff, List.any_eq_false]
  refine .inr fun a mem => ?_
  obtain ⟨b, there, rfl⟩ := List.mem_map.mp (List.mem_reverse.mp mem)
  have other : b.1 ≠ name' := fun same => distinct (same ▸ List.mem_map_of_mem there)
  simpa using other

/-- White space in a tag, before an attribute or the end. -/
theorem reads_tagBlank (blank : IsBlank cs) (nonempty : cs ≠ []) :
    Reads (InTag tag o es) cs (InMode (.tag tag .blank) o es) := by
  cases cs with
  | nil => exact absurd rfl nonempty
  | cons c cs =>
    have space := blank c List.mem_cons_self
    have first : Reads (InTag tag o es) [c] (InMode (.tag tag .blank) o es) := by
      rintro s ⟨m, ends, shows⟩
      exact reads_inert (isInert_of_isSpace space) (takes_tag_space ends space) s shows
    exact first.cons (reads_blank (takes_tag_space .blank)
      fun d mem => blank d (List.mem_cons_of_mem c mem))

theorem inTag_of_blank (blank : IsBlank cs) : Reads (InTag tag o es) cs (InTag tag o es) := by
  by_cases nonempty : cs = []
  · cases nonempty
    exact Reads.nil _
  · exact (reads_tagBlank blank nonempty).weaken fun s shows => ⟨_, .blank, shows⟩

/-- The name of an attribute, and the sign after it. -/
theorem reads_attributeName {between : List Char} (plain : IsPlainName name)
    (fits : byteSize name.toList ≤ maxNameSize) (free : tag.isTaken ⟨none, name⟩ = false)
    (blank : IsBlank between) :
    Reads (InMode (.tag tag .blank) o es) (name.toList ++ (between ++ ['=']))
      (InMode (.value ⟨.attributeOf tag ⟨none, name⟩, none, []⟩) o es) := by
  have full := name?_of_isPlainName plain
  have named : Reads (InMode (.tag tag .blank) o es) name.toList
      (InMode (.tag tag (.attributeName (.plain name.toList))) o es) := by
    obtain ⟨c, cs, split, start, noColon, named⟩ := exists_cons_of_isPlainName plain
    rw [split] at fits ⊢
    have first : PartialName.ofFirst c = .plain [c] := by
      simp [PartialName.ofFirst, PartialName.plain, Word.empty, Word.push, byteSize]
    have inert := isInert_of_isNameChar (isNameChar_of_isNameStart start)
    exact (reads_inert inert (first ▸ takes_attributeName_first start)).cons
      (reads_nameRest takes_attributeName_char (List.cons_ne_nil c []) named fits)
  refine named.append ?_
  cases between with
  | nil =>
    exact reads_single (by decide) (by decide) (by decide)
      (takes_attributeName_equals full free)
  | cons c between =>
    have space := blank c List.mem_cons_self
    have rest : Reads (InMode (.tag tag (.equals ⟨none, name⟩)) o es) between
        (InMode (.tag tag (.equals ⟨none, name⟩)) o es) :=
      reads_blank takes_equals_space fun d mem => blank d (List.mem_cons_of_mem c mem)
    exact (reads_inert (isInert_of_isSpace space)
      (takes_attributeName_space full free space)).cons
      (rest.append (reads_single (by decide) (by decide) (by decide) takes_equals))

theorem begins_quote (q : Quote) : Begins .text q.char [.quote q] .text none := by
  cases q <;> exact begins_text (by decide) (by decide) (by decide)

/-- A quoted value, and the white space before it. -/
theorem reads_attributeValue {after : List Char} {q : Quote} {parts : List Part}
    (blank : IsBlank after) (writes : WritesValue q value parts) (other : name ≠ "xmlns")
    (room : tag.attributes.length < maxAttributes) :
    Reads (InMode (.value ⟨.attributeOf tag ⟨none, name⟩, none, []⟩) o es)
      (after ++ ([q.char] ++ (parts.flatMap Part.written ++ [q.char])))
      (InMode (.tag { tag with attributes := (⟨none, name⟩, value) :: tag.attributes }
        .afterValue) o es) := by
  have opened : Reads (InMode (.value ⟨.attributeOf tag ⟨none, name⟩, none, []⟩) o es) [q.char]
      ((ofValue (.attributeOf tag ⟨none, name⟩) q o es).Has none []) :=
    (reads_of_scans (scans_of_begins (begins_quote q)) (.single takes_value_quote)).weaken
      fun s => Collector.has_none (k := ofValue (.attributeOf tag ⟨none, name⟩) q o es)
  obtain ⟨f, holds, reads⟩ :=
    exists_reads_valueParts (f := none) (.attributeOf tag ⟨none, name⟩) q o es writes.sound
      trivial []
  rw [writes.content_eq, List.append_nil] at reads
  have stops : ¬ goesOn f q.char := by
    intro goes
    rcases goesOn_imp goes with same | same <;> cases q <;> cases same
  have closed : Reads
      ((ofValue (.attributeOf tag ⟨none, name⟩) q o es).Has f value.toList.reverse) [q.char]
      (InMode (.tag { tag with attributes := (⟨none, name⟩, value) :: tag.attributes }
        .afterValue) o es) :=
    Collector.reads_leave (k := ofValue (.attributeOf tag ⟨none, name⟩) q o es) holds stops
      (fun d mem => accepts_value (.inl (.char (isLegal_of_mem_held mem))) nofun)
      (begins_quote q) (.single (takes_value_end other room))
  exact (reads_blank takes_value_space blank).append (opened.append (reads.append closed))

/-- **The attributes of a tag**, behind others that have been read. -/
theorem reads_attributes (writes : WritesAttributes attributes cs)
    (plain : IsPlainTag name (done ++ attributes)) (limits : FitsLimits name (done ++ attributes)) :
    Reads (InTag (.with name done) o es) cs (InTag (.with name (done ++ attributes)) o es) := by
  induction writes generalizing done with
  | nil blank =>
    rw [List.append_nil]
    exact inTag_of_blank blank
  | @cons name' value attributes before between after rest q parts separated blankBefore
      blankBetween blankAfter writes _ ih =>
    have mem : (name', value) ∈ done ++ (name', value) :: attributes := by simp
    obtain ⟨plain_name, other⟩ := plain.plainAttributes _ mem
    have fits := limits.attributeSize _ mem
    have free : (StartTag.with name done).isTaken ⟨none, name'⟩ = false := by
      have distinct := plain.distinct
      rw [List.map_append, List.map_cons] at distinct
      exact isTaken_with fun taken =>
        (List.nodup_append.mp distinct).2.2 name' taken name' List.mem_cons_self rfl
    have room : (StartTag.with name done).attributes.length < maxAttributes := by
      have number := limits.number
      simp only [List.length_append, List.length_cons] at number
      simp only [StartTag.with, List.length_reverse, List.length_map]
      omega
    have read_one : Reads (InTag (.with name done) o es)
        (before ++ (name'.toList ++ (between ++ ['='])
          ++ (after ++ ([q.char] ++ (parts.flatMap Part.written ++ [q.char])))))
        (InTag (.with name (done ++ [(name', value)])) o es) := by
      rw [with_snoc]
      refine (reads_tagBlank blankBefore separated).append
        ((reads_attributeName plain_name fits free blankBetween).append ?_)
      exact (reads_attributeValue blankAfter writes other room).weaken
        fun s shows => ⟨_, .afterValue, shows⟩
    have again : done ++ (name', value) :: attributes = (done ++ [(name', value)]) ++ attributes :=
      List.append_cons ..
    rw [again] at plain limits ⊢
    have whole := read_one.append (ih plain limits)
    simpa only [List.append_assoc] using whole

/-! ## Between nodes -/

/-- The state between two nodes, with these events so far. Text that is not over yet counts as
an event. Outside of elements nothing is held back. -/
def HasRead (o : List OpenElement) (evs : List Event) (s : State) : Prop :=
  ∃ f text es, Holds .text f ∧ (o = [] → f = none) ∧ withText text es = evs ∧
    (ofText o es).Has f text s

/-- The state after a `<` between two nodes. -/
def Opened (o : List OpenElement) (evs : List Event) (s : State) : Prop :=
  ∃ text es, withText text es = evs ∧ ((ofText o es).view (some .opener) text).Shows s

theorem hasRead_of_shows (shows : ((ofText o es).view none text).Shows s)
    (same : withText text es = evs) : HasRead o evs s :=
  ⟨none, text, es, trivial, fun _ => rfl, same, Collector.has_none shows⟩

theorem eq_none_of_held (holds : Holds .text f) (nothing : held f = []) : f = none := by
  match f with
  | none => rfl
  | some .slash | some .bracket | some .brackets => cases nothing
  | some .opener | some (.exclamation _) | some .question | some .dash | some .dashes =>
    cases holds

/-- If the last event is no text, no text is unfinished. -/
theorem shows_of_hasRead (before : HasRead o evs s)
    (apart : ∀ content es, evs ≠ .text content :: es) :
    ((ofText o evs).view none []).Shows s := by
  obtain ⟨f, text, es, holds, -, same, read, joined, shows⟩ := before
  cases text with
  | nil =>
    cases same
    obtain ⟨nothing, rfl⟩ := List.append_eq_nil_iff.mp joined
    cases eq_none_of_held holds (List.reverse_eq_nil_iff.mp nothing)
    exact shows
  | cons c text => exact absurd same.symm (apart _ _)

theorem opened_of_hasRead : Reads (HasRead o evs) ['<'] (Opened o evs) := by
  rintro s ⟨f, text, es, holds, outside, same, has⟩
  obtain ⟨s', read, shows⟩ := reads_opener holds outside s has
  exact ⟨s', read, text, es, same, shows⟩

theorem reads_comment_between (sound : (Part.comment cs).IsSound) :
    Reads (HasRead o evs) (Part.comment cs).written (HasRead o evs) := by
  rintro s ⟨f, text, es, holds, outside, same, has⟩
  obtain ⟨s', read, shows⟩ := reads_comment holds outside sound s has
  exact ⟨s', read, hasRead_of_shows shows same⟩

/-- **A start tag**, up to the end of it. -/
theorem reads_startTag (writes : WritesAttributes attributes cs)
    (plain : IsPlainTag name attributes) (limits : FitsLimits name attributes) :
    Reads (HasRead o evs) (['<'] ++ (name.toList ++ cs)) (InTag (.with name attributes) o evs) := by
  have full := name?_of_isPlainName plain.plain
  have named : Reads (Opened o evs) name.toList
      (InMode (.tagName (.plain name.toList)) o evs) := by
    obtain ⟨c, letters, split, start, noColon, named⟩ := exists_cons_of_isPlainName plain.plain
    have fits := limits.size
    rw [split] at fits ⊢
    have charName := isNameChar_of_isNameStart start
    have inert := isInert_of_isNameChar charName
    have other {d : Char} (unnamed : isNameChar d = false) : c ≠ d :=
      fun same => by rw [same, unnamed] at charName; cases charName
    have begins : Begins .text c [.char c] .text none :=
      inert.token ▸ begins_text inert.noTag inert.noSlash inert.noBracket
    have first : Reads (Opened o evs) [c] (InMode (.tagName (.plain [c])) o evs) := by
      rintro s ⟨text, es, rfl, shows⟩
      exact reads_of_scans
        (scans_tagStart begins charName (other (by decide)) inert.noSlash (other (by decide)))
        (.cons takes_tagStart (.single (takes_tagName_char (extend?_empty start noColon)))) s shows
    exact first.cons (reads_nameRest takes_tagName_char (List.cons_ne_nil c []) named fits)
  have ended : ∀ s, InMode (.tagName (.plain name.toList)) o evs s →
      InTag (.with name []) o evs s :=
    fun s shows => ⟨_, .name full, shows⟩
  have rest : Reads (InTag (.with name []) o evs) cs (InTag (.with name attributes) o evs) :=
    reads_attributes writes plain limits
  exact opened_of_hasRead.append ((named.weaken ended).append rest)

/-- A start tag after which the element is open. -/
theorem reads_openingTag (writes : WritesAttributes attributes cs)
    (plain : IsPlainTag name attributes) (limits : FitsLimits name attributes) :
    Reads (HasRead o evs) (['<'] ++ (name.toList ++ cs) ++ ['>'])
      (HasRead (⟨⟨none, name⟩, []⟩ :: o) (.startTag name attributes Position.start :: evs)) := by
  refine (reads_startTag writes plain limits).append ?_
  rintro s ⟨m, ends, shows⟩
  obtain ⟨s', read, there⟩ := reads_single (c := '>') (by decide) (by decide) (by decide)
    (takes_tagEnd ends isPlain_with) s shows
  rw [event_with] at there
  exact ⟨s', read, hasRead_of_shows there rfl⟩

/-- A tag without content. -/
theorem reads_emptyTag (writes : WritesAttributes attributes cs)
    (plain : IsPlainTag name attributes) (limits : FitsLimits name attributes) :
    Reads (HasRead o evs) (['<'] ++ (name.toList ++ cs) ++ ['/', '>'])
      (HasRead o (.endTag Position.start :: .startTag name attributes Position.start :: evs)) := by
  refine (reads_startTag writes plain limits).append ?_
  rintro s ⟨m, ends, shows⟩
  have slash : Reads (InMode m o evs) ['/']
      (View.Shows ⟨.text, some .slash, m, o, [], evs⟩) :=
    reads_of_scans (scans_of_begins (begins_text_fragment (by simp))) .nil
  obtain ⟨s', read, there⟩ := slash.cons
    (reads_of_scans scans_emptyTagEnd (.single (takes_emptyTagEnd ends isPlain_with))) s shows
  rw [event_with] at there
  exact ⟨s', read, hasRead_of_shows there rfl⟩

/-- **An end tag.** -/
theorem reads_endTag {blank : List Char} (plain : IsPlainName name)
    (fits : byteSize name.toList ≤ maxNameSize) (isBlank : IsBlank blank) :
    Reads (HasRead (⟨⟨none, name⟩, []⟩ :: o) evs) (['<', '/'] ++ (name.toList ++ (blank ++ ['>'])))
      (HasRead o (.endTag Position.start :: evs)) := by
  have full := name?_of_isPlainName plain
  have opened : Reads (HasRead (⟨⟨none, name⟩, []⟩ :: o) evs) ['<', '/']
      (InMode (.endName .empty) (⟨⟨none, name⟩, []⟩ :: o) evs) := by
    refine opened_of_hasRead.cons ?_
    rintro s ⟨text, es, rfl, shows⟩
    exact reads_of_scans scans_endTagStart
      (.single (takes_endTagStart (List.cons_ne_nil _ _))) s shows
  have closed (m : Mode) (names : NamesEnd ⟨none, name⟩ m) :
      Reads (InMode m (⟨⟨none, name⟩, []⟩ :: o) evs) ['>']
        (HasRead o (.endTag Position.start :: evs)) := by
    intro s shows
    obtain ⟨s', read, there⟩ := reads_single (c := '>') (by decide) (by decide) (by decide)
      (takes_closeElement names []) s shows
    exact ⟨s', read, hasRead_of_shows there rfl⟩
  refine opened.append ((reads_name takes_endName_char plain fits).append ?_)
  cases blank with
  | nil => exact closed _ (.name full rfl)
  | cons c blank =>
    have space := isBlank c List.mem_cons_self
    have rest : Reads (InMode (.endBlank ⟨none, name⟩) (⟨⟨none, name⟩, []⟩ :: o) evs) blank
        (InMode (.endBlank ⟨none, name⟩) (⟨⟨none, name⟩, []⟩ :: o) evs) :=
      reads_blank takes_endBlank_space fun d mem => isBlank d (List.mem_cons_of_mem c mem)
    exact (reads_inert (isInert_of_isSpace space) (takes_endName_space full space)).cons
      (rest.append (closed _ .blank))

/-! ## Nodes -/

/-- The last event is text. -/
def endsWithText : List Event → Bool
  | .text _ :: _ => true
  | _ => false

/-- A text between other nodes. -/
theorem reads_text {content : String} {parts : List Part} (writes : WritesText content parts)
    (inside : o ≠ []) (nonempty : content ≠ "") (apart : endsWithText evs = false) :
    Reads (HasRead o evs) (parts.flatMap Part.written) (HasRead o (.text content :: evs)) := by
  have other : ∀ content es, evs ≠ .text content :: es := by
    rintro content es rfl
    cases apart
  obtain ⟨f, holds, reads⟩ :=
    exists_reads_parts (f := none) o evs inside writes.sound trivial writes.apart []
  rw [writes.content_eq, List.append_nil] at reads
  have same : withText content.toList.reverse evs = .text content :: evs := by
    have : content.toList ≠ [] := by simpa using nonempty
    simp [withText, this]
  have from_read := reads.strengthen fun s before =>
    Collector.has_none (shows_of_hasRead before other)
  refine from_read.weaken fun s has => ?_
  exact ⟨f, _, evs, holds, fun none_open => absurd none_open inside, same, has⟩

/-- The events so far, the last one first, with these behind them. -/
def behind (evs items : List Event) : List Event :=
  (items.map Event.bare).reverse ++ evs

theorem behind_cons (evs : List Event) (item : Event) (items : List Event) :
    behind evs (item :: items) = behind (item.bare :: evs) items := by
  simp [behind]

theorem behind_append (evs items more : List Event) :
    behind evs (items ++ more) = behind (behind evs items) more := by
  simp [behind]

/-- **Neighbouring nodes are read** as they were written, whatever has been read before. -/
theorem exists_reads_nodes {nodes : List Node} (writes : WritesNodes nodes cs)
    (plain : AllTagsAre IsPlainTag nodes) (limits : AllTagsAre FitsLimits nodes)
    (tidy : AreTidy nodes) :
    ∃ items, Yields nodes items ∧ ∀ o evs, (o = [] → ∀ content, .text content ∉ nodes) →
      (beginsWithText nodes = true → endsWithText evs = false) →
      Reads (HasRead o evs) cs (HasRead o (behind evs items)) := by
  induction writes with
  | nil => exact ⟨[], .nil, fun o evs _ _ => Reads.nil _⟩
  | comment sound _ ih =>
    obtain ⟨items, yields, reads⟩ := ih plain limits tidy
    exact ⟨items, yields, fun o evs inside apart =>
      (reads_comment_between sound).append (reads o evs inside apart)⟩
  | @text content parts rest nodes writes _ ih =>
    obtain ⟨nonempty, alone, tidy⟩ := tidy
    obtain ⟨items, yields, reads⟩ := ih plain.2 limits.2 tidy
    have joined : String.join [content] = content := by simp [String.join]
    refine ⟨[content].map .text ++ items, joined ▸ .text (by simp) yields, ?_⟩
    intro o evs inside apart
    have open_now : o ≠ [] := fun none_open => inside none_open content List.mem_cons_self
    -- no text is the neighbour of this one, so the stretch of it ends where it ends
    have next := reads o (.text content :: evs) (fun none_open => absurd none_open open_now)
      fun begins => absurd ⟨rfl, begins⟩ alone
    show Reads _ _ (HasRead o (behind evs (.text content :: items)))
    rw [behind_cons]
    exact (reads_text writes open_now nonempty (apart rfl)).append next
  | @empty name attributes position tag rest nodes writes _ ih =>
    obtain ⟨items, yields, reads⟩ := ih plain.2 limits.2 tidy.2.2
    refine ⟨.startTag name attributes position :: .endTag position :: items,
      .element .nil yields, ?_⟩
    intro o evs inside apart
    rw [behind_cons, behind_cons]
    have next := reads o
      (.endTag Position.start :: .startTag name attributes Position.start :: evs)
      (fun none_open content mem => inside none_open content (List.mem_cons_of_mem _ mem))
      fun _ => rfl
    have whole := (reads_emptyTag writes plain.1.1 limits.1.1).append next
    simpa only [List.append_assoc, Event.bare] using whole
  | @paired name attributes position children nodes tag inner blank rest writes _ isBlank _
      ihContent ihRest =>
    obtain ⟨itemsInside, yieldsInside, readsInside⟩ := ihContent plain.1.2 limits.1.2 tidy.1
    obtain ⟨items, yields, reads⟩ := ihRest plain.2 limits.2 tidy.2.2
    refine ⟨.startTag name attributes position :: (itemsInside ++ .endTag position :: items),
      .element yieldsInside yields, ?_⟩
    intro o evs inside apart
    rw [behind_cons, behind_append, behind_cons]
    have content := readsInside (⟨⟨none, name⟩, []⟩ :: o)
      (.startTag name attributes Position.start :: evs)
      (fun none_open => absurd none_open (List.cons_ne_nil _ _)) fun _ => rfl
    have next := reads o
      (.endTag Position.start :: behind (.startTag name attributes Position.start :: evs) itemsInside)
      (fun none_open content mem => inside none_open content (List.mem_cons_of_mem _ mem))
      fun _ => rfl
    have whole := (reads_openingTag writes plain.1.1 limits.1.1).append
      (content.append ((reads_endTag plain.1.1.plain limits.1.1.size isBlank).append next))
    simpa only [List.append_assoc, Event.bare] using whole

end Phrasebook.Markup
