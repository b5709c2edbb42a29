import Phrasebook.Proofs.Markup.Steps

/-!
# Collecting text

Text, marked sections and quoted values are read alike: characters are collected, and up to two
of them are held back until it is clear that they begin no token. A `Collector` is what the three
have in common.

- `Collector.Has`: so much has been collected, what is held back included.
- `Collector.exists_reads`: one more character.
- `Collector.reads_leave`: the character after the last one.
- `reads_comment`, `reads_section`, `Collector.reads_reference`: pieces that are no plain
  characters.
- `exists_reads_parts`, `exists_reads_valueParts`: all pieces of a text and of a value.
-/

namespace Phrasebook.Markup

open Text

/-- A place in which characters are collected. -/
structure Collector where
  region : Region
  nesting : List OpenElement
  events : List Event
  /-- The mode when these characters have been collected, the last one first. -/
  mode : List Char → Mode
  /-- The text when these characters have been collected. -/
  pending : List Char → List Char

namespace Collector

/-- The view when so much has been collected. -/
def view (k : Collector) (fragment : Option Fragment) (read : List Char) : View :=
  ⟨k.region, fragment, k.mode read, k.nesting, k.pending read, k.events⟩

/-- The token stands for itself here. -/
def Accepts (k : Collector) (t : Token) : Prop :=
  ∀ fragment read, Takes (k.view fragment read) t (k.view fragment (t.content.reverse ++ read))

/-- So much has been read, the last character first. The fragment holds back the end of it. -/
def Has (k : Collector) (fragment : Option Fragment) (text : List Char) (s : State) : Prop :=
  ∃ read, (held fragment).reverse ++ read = text ∧ (k.view fragment read).Shows s

variable {k : Collector} {f f' : Option Fragment} {text : List Char} {c : Char}
variable {tokens : List Token}

theorem has_none {s : State} (shows : (k.view none text).Shows s) : k.Has none text s :=
  ⟨text, rfl, shows⟩

theorem shows_of_has_none {s : State} (has : k.Has none text s) : (k.view none text).Shows s := by
  obtain ⟨_, rfl, shows⟩ := has
  exact shows

/-- Tokens that stand for themselves are collected. -/
theorem takesAll (accepts : ∀ t ∈ tokens, k.Accepts t) (read : List Char) :
    TakesAll (k.view f read) tokens
      (k.view f ((tokens.flatMap Token.content).reverse ++ read)) := by
  induction tokens generalizing read with
  | nil => exact .nil
  | cons t tokens ih =>
    have rest := ih (fun t' mem => accepts t' (List.mem_cons_of_mem t mem))
      (t.content.reverse ++ read)
    rw [List.flatMap_cons, List.reverse_append, List.append_assoc]
    exact .cons (accepts t List.mem_cons_self f read) rest

/-- A character that is collected, or held back. -/
theorem reads_of_scans (scans : Scans k.region f c tokens k.region f')
    (balance : tokens.flatMap Token.content ++ held f' = held f ++ [c])
    (accepts : ∀ t ∈ tokens, k.Accepts t) : Reads (k.Has f text) [c] (k.Has f' (c :: text)) := by
  rintro s ⟨read, rfl, shows⟩
  obtain ⟨s', done, there⟩ := Markup.reads_of_scans (v := k.view f read) scans
    (takesAll accepts read) s shows
  refine ⟨s', done, _, ?_, there⟩
  rw [← List.append_assoc, ← List.reverse_append, balance]
  simp

/-- **One more character.** What is held back afterwards is the end of what was held back before
and of the character. -/
theorem exists_reads {own : List Token} {first : Option Fragment} (holds : Holds k.region f)
    (begins : Begins k.region c own k.region first) (holdsFirst : Holds k.region first)
    (balance : own.flatMap Token.content ++ held first = [c])
    (acceptsOwn : ∀ t ∈ own, k.Accepts t) (acceptsHeld : ∀ d ∈ held f, k.Accepts (.char d))
    (acceptsEmpty : f = some .slash → k.Accepts .emptyTagEnd)
    (acceptsEnd : f = some .brackets → c = '>' → k.region = .text ∧ k.Accepts .sectionEnd) :
    ∃ f', Holds k.region f' ∧ held f' <:+ held f ++ [c] ∧
      ∀ text, Reads (k.Has f text) [c] (k.Has f' (c :: text)) := by
  obtain ⟨tokens, f', scans, holds', balanced, given⟩ :=
    exists_scans holds begins holdsFirst balance fun brackets tag => (acceptsEnd brackets tag).1
  refine ⟨f', holds', ⟨_, balanced⟩, fun text => reads_of_scans scans balanced ?_⟩
  intro t mem
  rcases given t mem with mine | before | ⟨rfl, slash⟩ | ⟨rfl, brackets, tag⟩
  · exact acceptsOwn t mine
  · obtain ⟨d, back, rfl⟩ := List.mem_map.mp before
    exact acceptsHeld d back
  · exact acceptsEmpty slash
  · exact (acceptsEnd brackets tag).2

/-- **The character after the last one.** What was held back is collected. -/
theorem reads_leave {v' : View} (holds : Holds k.region f) (stops : ¬ goesOn f c)
    (acceptsHeld : ∀ d ∈ held f, k.Accepts (.char d))
    (begins : Begins k.region c tokens k.region f')
    (takes : TakesAll (k.view f' text) tokens v') : Reads (k.Has f text) [c] v'.Shows := by
  rintro s ⟨read, rfl, shows⟩
  have accepts : ∀ t ∈ (held f).map Token.char, k.Accepts t := by
    intro t mem
    obtain ⟨d, back, rfl⟩ := List.mem_map.mp mem
    exact acceptsHeld d back
  have back := takesAll (f := f') accepts read
  rw [content_chars] at back
  exact Markup.reads_of_scans (v := k.view f read) (scans_held holds stops begins)
    (back.append takes) s shows

end Collector

variable {f : Option Fragment} {o : List OpenElement} {p text cs : List Char} {es : List Event}
variable {m : Mode} {v' : View} {t : Token} {c : Char}

/-! ## The three collectors -/

/-- The text between tags. -/
def ofText (o : List OpenElement) (es : List Event) : Collector :=
  ⟨.text, o, es, fun _ => .between, id⟩

/-- A marked section. -/
def ofSection (o : List OpenElement) (es : List Event) : Collector :=
  ⟨.marked, o, es, fun _ => .marked, id⟩

/-- A quoted value. -/
def ofValue (purpose : Purpose) (q : Quote) (o : List OpenElement) (es : List Event) :
    Collector :=
  ⟨.text, o, es, fun read => .value ⟨purpose, some q, read⟩, fun _ => []⟩

theorem isLegal_of_mem_held {d : Char} (mem : d ∈ held f) : IsLegal d := by
  have slash : IsLegal '/' := rfl
  have bracket : IsLegal ']' := rfl
  have dash : IsLegal '-' := rfl
  unfold held at mem
  split at mem
  case h_1 => exact List.mem_singleton.mp mem ▸ slash
  case h_2 => exact List.mem_singleton.mp mem ▸ bracket
  case h_3 =>
    have : d = ']' := by simpa using mem
    exact this ▸ bracket
  case h_4 => exact List.mem_singleton.mp mem ▸ dash
  case h_5 => cases mem

theorem isText_ofTagChar (legal : IsLegal c) (noReference : c ≠ '&') :
    IsText (Lexer.ofTagChar c) := by
  unfold Lexer.ofTagChar
  split
  case h_1 => exact .tagEnd
  case h_2 => exact .equals
  case h_3 =>
    unfold Lexer.ofChar
    split
    case h_1 => exact absurd rfl noReference
    case h_2 => exact .referenceEnd
    case h_3 | h_4 => exact .quote _
    case h_5 => exact .char legal

theorem accepts_text (inside : o ≠ []) (isText : IsText t) : (ofText o es).Accepts t :=
  fun _ _ => takes_text inside isText

theorem accepts_section (legal : IsLegal c) : (ofSection o es).Accepts (.char c) :=
  fun _ _ => takes_marked_char legal

theorem accepts_value {purpose : Purpose} {q : Quote} (text : IsText t ∨ t = .sectionEnd)
    (other : t ≠ .quote q) : (ofValue purpose q o es).Accepts t :=
  fun _ _ => takes_value text other

/-- A plain character of text. -/
theorem exists_reads_text (o : List OpenElement) (es : List Event) (inside : o ≠ [])
    (holds : Holds .text f) (sound : (Part.plain c).IsSound)
    (apart : f = some .brackets → c ≠ '>') :
    ∃ f', Holds .text f' ∧ held f' <:+ held f ++ [c] ∧
      ∀ text, Reads ((ofText o es).Has f text) [c] ((ofText o es).Has f' (c :: text)) := by
  obtain ⟨legal, noTag, noReference⟩ := sound
  obtain ⟨own, first, begins, holdsFirst, balance, mine⟩ := exists_begins_text noTag
  refine Collector.exists_reads (k := ofText o es) holds begins holdsFirst balance ?_ ?_ ?_ ?_
  · intro t mem
    exact accepts_text inside (mine t mem ▸ isText_ofTagChar legal noReference)
  · exact fun d mem => accepts_text inside (.char (isLegal_of_mem_held mem))
  · exact fun _ => accepts_text inside .emptyTagEnd
  · exact fun brackets tag => absurd tag (apart brackets)

/-- A character of a marked section. -/
theorem exists_reads_section (o : List OpenElement) (es : List Event)
    (holds : Holds .marked f) (legal : IsLegal c) (apart : f = some .brackets → c ≠ '>') :
    ∃ f', Holds .marked f' ∧ held f' <:+ held f ++ [c] ∧
      ∀ text, Reads ((ofSection o es).Has f text) [c] ((ofSection o es).Has f' (c :: text)) := by
  obtain ⟨own, first, begins, holdsFirst, balance, mine⟩ := exists_begins_marked c
  refine Collector.exists_reads (k := ofSection o es) holds begins holdsFirst balance ?_ ?_ ?_ ?_
  · intro t mem
    exact mine t mem ▸ accepts_section legal
  · exact fun d mem => accepts_section (isLegal_of_mem_held mem)
  · rintro rfl
    cases holds
  · exact fun brackets tag => absurd tag (apart brackets)

/-- A plain character of a quoted value. -/
theorem exists_reads_value (purpose : Purpose) {q : Quote} (o : List OpenElement)
    (es : List Event) (holds : Holds .text f) (sound : (Part.plain c).IsSoundIn q) :
    ∃ f', Holds .text f' ∧
      ∀ text, Reads ((ofValue purpose q o es).Has f text) [c]
        ((ofValue purpose q o es).Has f' (c :: text)) := by
  obtain ⟨legal, noTag, noReference, noQuote⟩ := sound
  obtain ⟨own, first, begins, holdsFirst, balance, mine⟩ := exists_begins_text noTag
  have other : Lexer.ofTagChar c ≠ .quote q := by
    intro same
    have : [c] = [q.char] := (content_ofTagChar c).symm.trans (congrArg Token.content same)
    exact noQuote (List.singleton_inj.mp this)
  have := Collector.exists_reads (k := ofValue purpose q o es) holds begins holdsFirst balance
    ?_ ?_ ?_ ?_
  · obtain ⟨f', holds', -, reads⟩ := this
    exact ⟨f', holds', reads⟩
  · intro t mem
    cases mine t mem
    exact accepts_value (.inl (isText_ofTagChar legal noReference)) other
  · exact fun d mem => accepts_value (.inl (.char (isLegal_of_mem_held mem))) nofun
  · exact fun _ => accepts_value (.inl .emptyTagEnd) nofun
  · exact fun _ _ => ⟨rfl, accepts_value (.inr rfl) nofun⟩

/-! ## Comments -/

/-- A `<` after text. Outside of elements nothing is held back. -/
theorem reads_opener (holds : Holds .text f) (outside : o = [] → f = none) :
    Reads ((ofText o es).Has f text) ['<'] ((ofText o es).view (some .opener) text).Shows := by
  have stops : ¬ goesOn f '<' := by
    unfold goesOn
    split <;> simp
  have accepts : ∀ d ∈ held f, (ofText o es).Accepts (.char d) := by
    intro d mem
    by_cases none_open : o = []
    · cases outside none_open
      cases mem
    · exact accepts_text none_open (.char (isLegal_of_mem_held mem))
  exact Collector.reads_leave (k := ofText o es) holds stops accepts
    (begins_text_fragment (by simp)) .nil

/-- The inside of a comment and its end. A dash may be held back. -/
theorem reads_commentBody (dash : f = none ∨ f = some .dash) (legal : ∀ c ∈ cs, IsLegal c)
    (apart : ¬ ['-', '-'] <:+: held f ++ (cs ++ ['-'])) :
    Reads (View.Shows ⟨.comment, f, .comment, o, p, es⟩) (cs ++ ['-', '-', '>'])
      (View.Shows ⟨.text, none, .between, o, p, es⟩) := by
  induction cs generalizing f with
  | nil =>
    have none_held : f = none := by
      rcases dash with rfl | rfl
      · rfl
      · exact absurd (List.infix_refl _) apart
    cases none_held
    exact (reads_of_scans (scans_of_begins begins_comment_dash) .nil).cons
      ((reads_of_scans scans_dash_dash .nil).cons
        (reads_of_scans scans_commentEnd (.single takes_commentEnd)))
  | cons c cs ih =>
    have legal_c := legal c List.mem_cons_self
    have ih := fun {f} dash => ih (f := f) dash fun d mem => legal d (List.mem_cons_of_mem c mem)
    -- behind a character that is no dash, nothing is held back
    have shorter : ¬ ['-', '-'] <:+: held none ++ (cs ++ ['-']) :=
      fun dashes => apart (dashes.trans ⟨held f ++ [c], [], by simp [held]⟩)
    by_cases is_dash : c = '-'
    · cases is_dash
      have none_held : f = none := by
        rcases dash with rfl | rfl
        · rfl
        · exact absurd ⟨[], cs ++ ['-'], rfl⟩ apart
      cases none_held
      exact (reads_of_scans (scans_of_begins begins_comment_dash) .nil).cons
        (ih (.inr rfl) apart)
    · rcases dash with rfl | rfl
      · exact (reads_of_scans (scans_of_begins (begins_comment is_dash))
          (.single (takes_comment_char legal_c))).cons (ih (.inl rfl) shorter)
      · have two : TakesAll ⟨.comment, none, .comment, o, p, es⟩ [.char '-', .char c]
            ⟨.comment, none, .comment, o, p, es⟩ :=
          .cons (takes_comment_char rfl) (.single (takes_comment_char legal_c))
        exact (reads_of_scans (scans_dash is_dash) two).cons (ih (.inl rfl) shorter)

/-- **A comment is no text.** What was held back before it is. -/
theorem reads_comment (holds : Holds .text f) (outside : o = [] → f = none)
    (sound : (Part.comment cs).IsSound) :
    Reads ((ofText o es).Has f text) (Part.comment cs).written
      ((ofText o es).view none text).Shows := by
  obtain ⟨legal, apart⟩ := sound
  have body : Reads (View.Shows ⟨.comment, none, .comment, o, text, es⟩) (cs ++ ['-', '-', '>'])
      (View.Shows ⟨.text, none, .between, o, text, es⟩) :=
    reads_commentBody (.inl rfl) legal apart
  have opened : Reads ((ofText o es).Has f text) ['<', '!', '-', '-']
      (View.Shows ⟨.comment, none, .comment, o, text, es⟩) :=
    (reads_opener holds outside).cons
      ((reads_of_scans scans_exclamation .nil).cons
        ((reads_of_scans (scans_exclamation_more (by simp)) .nil).cons
          (reads_of_scans scans_commentStart (.single takes_commentStart))))
  have written : (Part.comment cs).written = ['<', '!', '-', '-'] ++ (cs ++ ['-', '-', '>']) :=
    List.append_assoc ..
  rw [written]
  exact opened.append body

/-! ## Marked sections -/

/-- What is held back with another closing bracket: two of them at most. -/
def afterBracket : Option Fragment → Option Fragment
  | none => some .bracket
  | some _ => some .brackets

theorem reads_section_bracket (holds : Holds .marked f) :
    Reads ((ofSection o es).Has f text) [']']
      ((ofSection o es).Has (afterBracket f) (']' :: text)) := by
  have accepts : ∀ t ∈ [Token.char ']'], (ofSection o es).Accepts t := by
    intro t mem
    cases List.mem_singleton.mp mem
    exact accepts_section rfl
  match f, holds with
  | none, _ =>
    exact Collector.reads_of_scans (k := ofSection o es)
      (scans_of_begins begins_marked_bracket) rfl (by simp)
  | some .bracket, _ =>
    exact Collector.reads_of_scans (k := ofSection o es) scans_bracket_bracket rfl (by simp)
  | some .brackets, _ =>
    exact Collector.reads_of_scans (k := ofSection o es) scans_brackets_bracket rfl accepts

/-- The end of a marked section. -/
theorem reads_sectionEnd (holds : Holds .marked f) :
    Reads ((ofSection o es).Has f text) [']', ']', '>'] ((ofText o es).view none text).Shows := by
  have holds' : Holds .marked (afterBracket f) := by
    cases f <;> exact .inr rfl
  have brackets : afterBracket (afterBracket f) = some .brackets := by
    cases f <;> rfl
  refine (reads_section_bracket holds).cons ((reads_section_bracket holds').cons ?_)
  rw [brackets]
  rintro s ⟨read, same, shows⟩
  cases same
  exact reads_of_scans (scans_sectionEnd (.inr rfl)) (.single takes_sectionEnd) s shows

/-- The inside of a marked section and its end. -/
theorem reads_sectionBody (holds : Holds .marked f) (legal : ∀ c ∈ cs, IsLegal c)
    (apart : ¬ [']', ']', '>'] <:+: held f ++ cs) :
    Reads ((ofSection o es).Has f text) (cs ++ [']', ']', '>'])
      ((ofText o es).view none (cs.reverse ++ text)).Shows := by
  induction cs generalizing f text with
  | nil => exact reads_sectionEnd holds
  | cons c cs ih =>
    have not_end : f = some .brackets → c ≠ '>' := by
      rintro rfl rfl
      exact apart ⟨[], cs, rfl⟩
    obtain ⟨f', holds', ⟨given, back⟩, reads⟩ :=
      exists_reads_section o es holds (legal c List.mem_cons_self) not_end
    -- what is still held back is the end of what there was, so the rest has no `]]>` either
    have shorter : ¬ [']', ']', '>'] <:+: held f' ++ cs := by
      intro ends
      apply apart
      have : held f ++ c :: cs = given ++ (held f' ++ cs) := by
        rw [← List.append_assoc, back, List.append_assoc, List.singleton_append]
      rw [this]
      exact ends.trans (List.suffix_append _ _).isInfix
    rw [List.reverse_cons, List.append_assoc, List.singleton_append]
    exact (reads text).cons
      (ih holds' (fun d mem => legal d (List.mem_cons_of_mem c mem)) shorter)

/-- **A marked section is text.** -/
theorem reads_section (inside : o ≠ []) (holds : Holds .text f)
    (sound : (Part.marked cs).IsSound) :
    Reads ((ofText o es).Has f text) (Part.marked cs).written
      ((ofText o es).view none (cs.reverse ++ text)).Shows := by
  obtain ⟨legal, apart⟩ := sound
  have body : Reads ((ofSection o es).Has none text) (cs ++ [']', ']', '>'])
      ((ofText o es).view none (cs.reverse ++ text)).Shows :=
    reads_sectionBody trivial legal apart
  have word (read : List Char) (d : Char)
      (more : (read, d) ∈ [([], '-'), ([], '['), (['['], 'C'), (['[', 'C'], 'D'),
        (['[', 'C', 'D'], 'A'), (['[', 'C', 'D', 'A'], 'T'), (['[', 'C', 'D', 'A', 'T'], 'A')]) :
      Reads ((ofText o es).view (some (.exclamation read)) text).Shows [d]
        ((ofText o es).view (some (.exclamation (read ++ [d]))) text).Shows :=
    reads_of_scans (scans_exclamation_more more) .nil
  have opened : Reads ((ofText o es).Has f text) "<![CDATA[".toList
      ((ofSection o es).Has none text) := by
    refine (reads_opener holds fun none_open => absurd none_open inside).cons ?_
    refine Reads.cons (reads_of_scans scans_exclamation .nil) ?_
    refine (word [] '[' (by simp)).cons ((word ['['] 'C' (by simp)).cons ?_)
    refine (word ['[', 'C'] 'D' (by simp)).cons ((word ['[', 'C', 'D'] 'A' (by simp)).cons ?_)
    refine (word ['[', 'C', 'D', 'A'] 'T' (by simp)).cons
      ((word ['[', 'C', 'D', 'A', 'T'] 'A' (by simp)).cons ?_)
    exact (reads_of_scans scans_sectionStart (.single (takes_sectionStart inside))).weaken
      fun s shows => Collector.has_none (k := ofSection o es) shows
  have written : (Part.marked cs).written = "<![CDATA[".toList ++ (cs ++ [']', ']', '>']) :=
    List.append_assoc ..
  rw [written]
  exact opened.append body

/-! ## Characters that are no tokens of their own -/

/-- The character is nothing but a character wherever it stands in text and tags. -/
structure IsInert (c : Char) : Prop where
  noTag : c ≠ '<'
  noSlash : c ≠ '/'
  noBracket : c ≠ ']'
  token : Lexer.ofTagChar c = .char c

theorem isInert_of_not_mem (other : c ∉ ['<', '/', ']', '>', '=', '&', ';', '"', '\'']) :
    IsInert c := by
  simp only [List.mem_cons, List.not_mem_nil, or_false, not_or] at other
  obtain ⟨noTag, noSlash, noBracket, noEnd, noEquals, noReference, noEnd', noDouble, noSingle⟩ :=
    other
  refine ⟨noTag, noSlash, noBracket, ?_⟩
  unfold Lexer.ofTagChar
  split
  case h_1 => exact absurd rfl noEnd
  case h_2 => exact absurd rfl noEquals
  case h_3 =>
    unfold Lexer.ofChar
    split
    case h_1 => exact absurd rfl noReference
    case h_2 => exact absurd rfl noEnd'
    case h_3 => exact absurd rfl noDouble
    case h_4 => exact absurd rfl noSingle
    case h_5 => rfl

theorem isInert_of_isNameChar (named : isNameChar c = true) : IsInert c := by
  apply isInert_of_not_mem
  intro mem
  have others : ∀ d ∈ ['<', '/', ']', '>', '=', '&', ';', '"', '\''], isNameChar d = false := by
    simp [isNameChar, isNameStart]
  cases named.symm.trans (others c mem)

theorem isInert_of_isSpace (space : isSpace c = true) : IsInert c := by
  apply isInert_of_not_mem
  intro mem
  have others : ∀ d ∈ ['<', '/', ']', '>', '=', '&', ';', '"', '\''], isSpace d = false := by
    simp [isSpace]
  cases space.symm.trans (others c mem)

/-- A character that begins a token in text and tags, and ends it. -/
theorem reads_single (noTag : c ≠ '<') (noSlash : c ≠ '/') (noBracket : c ≠ ']')
    (takes : Takes ⟨.text, none, m, o, p, es⟩ (Lexer.ofTagChar c) v') :
    Reads (View.Shows ⟨.text, none, m, o, p, es⟩) [c] v'.Shows :=
  reads_of_scans (scans_of_begins (begins_text noTag noSlash noBracket)) (.single takes)

theorem reads_inert (inert : IsInert c)
    (takes : Takes ⟨.text, none, m, o, p, es⟩ (.char c) v') :
    Reads (View.Shows ⟨.text, none, m, o, p, es⟩) [c] v'.Shows :=
  reads_single inert.noTag inert.noSlash inert.noBracket (inert.token ▸ takes)

/-! ## References -/

theorem isNameChar_of_natural? {base n : Nat} (number : natural? base cs = some n) :
    ∀ d ∈ cs, isNameChar d = true := by
  intro d mem
  have alphanum := isAlphanum_of_natural? number d mem
  rcases Bool.or_eq_true_iff.mp alphanum with letter | digit
  · simp [isNameChar, isNameStart, letter]
  · simp [isNameChar, digit]

/-- The name of a reference to a character begins and goes on as such names do. -/
theorem exists_cons_of_denotes {name : List Char} (denotes : Denotes name c) :
    ∃ first rest, name = first :: rest ∧ continuesReference [] first = true ∧ IsInert first ∧
      ∀ d ∈ rest, isNameChar d = true := by
  have hash : continuesReference [] '#' = true ∧ IsInert '#' :=
    ⟨by decide, isInert_of_not_mem (by decide)⟩
  cases denotes with
  | lt | gt | amp | apos | quot =>
    exact ⟨_, _, rfl, by decide, isInert_of_not_mem (by decide), List.all_eq_true.mp (by decide)⟩
  | decimal legal number => exact ⟨_, _, rfl, hash.1, hash.2, isNameChar_of_natural? number⟩
  | hexadecimal legal number =>
    refine ⟨_, _, rfl, hash.1, hash.2, ?_⟩
    intro d mem
    rcases List.mem_cons.mp mem with rfl | mem
    · decide
    · exact isNameChar_of_natural? number d mem

/-- The name of a reference is read alike in text and in values. -/
theorem reads_referenceName {mode : List Char → Mode}
    (takes : ∀ {read : List Char} {d : Char}, continuesReference read d = true →
      Takes ⟨.text, none, mode read, o, p, es⟩ (.char d) ⟨.text, none, mode (d :: read), o, p, es⟩)
    {name : List Char} (denotes : Denotes name c) :
    Reads (View.Shows ⟨.text, none, mode [], o, p, es⟩) name
      (View.Shows ⟨.text, none, mode name.reverse, o, p, es⟩) := by
  obtain ⟨first, rest, rfl, begins, inert, named⟩ := exists_cons_of_denotes denotes
  have goes_on : ∀ {rest : List Char}, (∀ d ∈ rest, isNameChar d = true) → ∀ read, read ≠ [] →
      Reads (View.Shows ⟨.text, none, mode read, o, p, es⟩) rest
        (View.Shows ⟨.text, none, mode (rest.reverse ++ read), o, p, es⟩) := by
    intro rest
    induction rest with
    | nil => exact fun _ read _ => Reads.nil _
    | cons d rest ih =>
      intro named read nonempty
      have named_d := named d List.mem_cons_self
      have more : continuesReference read d = true := by
        simp [continuesReference, nonempty, named_d]
      have rest := ih (fun e mem => named e (List.mem_cons_of_mem d mem)) (d :: read)
        (List.cons_ne_nil _ _)
      rw [List.reverse_cons, List.append_assoc, List.singleton_append]
      exact (reads_inert (isInert_of_isNameChar named_d) (takes more)).cons rest
  rw [List.reverse_cons]
  exact (reads_inert inert (takes begins)).cons (goes_on named [first] (List.cons_ne_nil _ _))

theorem goesOn_imp (goes : goesOn f c) : c = '>' ∨ c = ']' := by
  unfold goesOn at goes
  split at goes
  case h_1 => exact .inl goes
  case h_2 => exact .inr goes
  case h_3 => exact goes.symm
  case h_4 => cases goes

/-- **A reference is the character it denotes**, wherever its name is read in a mode of its own. -/
theorem Collector.reads_reference {k : Collector} (region : k.region = .text)
    (holds : Holds .text f) (accepts : ∀ d ∈ held f, k.Accepts (.char d))
    {mode : List Char → Mode} {name : List Char} (denotes : Denotes name c)
    (starts : Takes (k.view none text) .referenceStart
      ⟨.text, none, mode [], k.nesting, k.pending text, k.events⟩)
    (goes_on : ∀ {read : List Char} {d : Char}, continuesReference read d = true →
      Takes ⟨.text, none, mode read, k.nesting, k.pending text, k.events⟩ (.char d)
        ⟨.text, none, mode (d :: read), k.nesting, k.pending text, k.events⟩)
    (ends : ∀ {read : List Char}, Denotes read.reverse c →
      Takes ⟨.text, none, mode read, k.nesting, k.pending text, k.events⟩ .referenceEnd
        (k.view none (c :: text))) :
    Reads (k.Has f text) ('&' :: (name ++ [';'])) (k.view none (c :: text)).Shows := by
  obtain ⟨_, nesting, events, base, pending⟩ := k
  cases region
  have begins : Begins .text '&' [.referenceStart] .text none :=
    begins_text (by decide) (by decide) (by decide)
  have opened := Collector.reads_leave holds
    (fun goes => (goesOn_imp goes).elim (by decide) (by decide)) accepts begins (.single starts)
  have named := reads_referenceName goes_on denotes
  have denotes : Denotes name.reverse.reverse c := by
    rw [List.reverse_reverse]
    exact denotes
  have closed := reads_single (c := ';') (by decide) (by decide) (by decide) (ends denotes)
  exact opened.cons (named.append closed)

theorem reads_textReference (inside : o ≠ []) (holds : Holds .text f) {name : List Char}
    (denotes : Denotes name c) :
    Reads ((ofText o es).Has f text) (Part.reference name c).written
      ((ofText o es).view none (c :: text)).Shows :=
  Collector.reads_reference rfl holds
    (fun _ mem => accepts_text inside (.char (isLegal_of_mem_held mem))) denotes
    (takes_referenceStart inside) takes_textReference_char takes_textReference_end

theorem reads_valueReference {purpose : Purpose} {q : Quote} (holds : Holds .text f)
    {name : List Char} (denotes : Denotes name c) :
    Reads ((ofValue purpose q o es).Has f text) (Part.reference name c).written
      ((ofValue purpose q o es).view none (c :: text)).Shows :=
  Collector.reads_reference rfl holds
    (fun _ mem => accepts_value (.inl (.char (isLegal_of_mem_held mem))) nofun) denotes
    takes_value_referenceStart takes_valueReference_char takes_valueReference_end

/-! ## All pieces -/

/-- A piece that is no plain character holds nothing back. -/
theorem reads_piece {part : Part} (inside : o ≠ []) (holds : Holds .text f)
    (sound : part.IsSound) (other : ∀ c, part ≠ .plain c) :
    Reads ((ofText o es).Has f text) part.written
      ((ofText o es).Has none (part.content.reverse ++ text)) := by
  have shows : Reads ((ofText o es).Has f text) part.written
      ((ofText o es).view none (part.content.reverse ++ text)).Shows := by
    cases part with
    | plain c => exact absurd rfl (other c)
    | reference name c => exact reads_textReference inside holds sound
    | marked cs => exact reads_section inside holds sound
    | comment cs => exact reads_comment holds (fun none_open => absurd none_open inside) sound
  exact shows.weaken fun s => Collector.has_none

/-- **Pieces of text are read as what they stand for.** The end of a section stands nowhere in
them, not even with what was held back before. -/
theorem exists_reads_parts (o : List OpenElement) (es : List Event) (inside : o ≠ [])
    {parts : List Part} (sound : ∀ part ∈ parts, part.IsSound) (holds : Holds .text f)
    (apart : ¬ Part.sectionEnd <:+: (held f).map .plain ++ parts) (text : List Char) :
    ∃ f', Holds .text f' ∧
      Reads ((ofText o es).Has f text) (parts.flatMap Part.written)
        ((ofText o es).Has f' ((parts.flatMap Part.content).reverse ++ text)) := by
  induction parts generalizing f text with
  | nil => exact ⟨f, holds, Reads.nil _⟩
  | cons part parts ih =>
    have sound_part := sound part List.mem_cons_self
    have sound_parts : ∀ part' ∈ parts, part'.IsSound :=
      fun part' mem => sound part' (List.mem_cons_of_mem part mem)
    have shorter {rest : List Part} (suffix : rest <:+ (held f).map .plain ++ part :: parts) :
        ¬ Part.sectionEnd <:+: rest := fun ends => apart (ends.trans suffix.isInfix)
    simp only [List.flatMap_cons, List.reverse_append, List.append_assoc]
    -- only plain characters are held back together with those before them
    by_cases plain : ∃ c, part = .plain c
    · obtain ⟨c, rfl⟩ := plain
      have not_end : f = some .brackets → c ≠ '>' := by
        rintro rfl rfl
        exact apart ⟨[], parts, rfl⟩
      obtain ⟨f₁, holds₁, ⟨given, back⟩, reads⟩ :=
        exists_reads_text o es inside holds sound_part not_end
      have suffix : (held f₁).map .plain ++ parts <:+ (held f).map .plain ++ .plain c :: parts := by
        have same := congrArg (List.map Part.plain) back
        rw [List.map_append, List.map_append] at same
        exact ⟨given.map .plain, by rw [← List.append_assoc, same]; simp⟩
      obtain ⟨f', holds', reads'⟩ := ih sound_parts holds₁ (shorter suffix) (c :: text)
      exact ⟨f', holds', (reads text).append reads'⟩
    · have suffix : parts <:+ (held f).map .plain ++ part :: parts :=
        (List.suffix_cons part parts).trans (List.suffix_append _ _)
      obtain ⟨f', holds', reads'⟩ := ih (f := none) sound_parts trivial (shorter suffix)
        (part.content.reverse ++ text)
      have reads : Reads ((ofText o es).Has f text) part.written
          ((ofText o es).Has none (part.content.reverse ++ text)) :=
        reads_piece inside holds sound_part fun c same => plain ⟨c, same⟩
      exact ⟨f', holds', reads.append reads'⟩

/-- Pieces of a quoted value. -/
theorem exists_reads_valueParts (purpose : Purpose) (q : Quote) (o : List OpenElement)
    (es : List Event) {parts : List Part} (sound : ∀ part ∈ parts, part.IsSoundIn q)
    (holds : Holds .text f) (text : List Char) :
    ∃ f', Holds .text f' ∧
      Reads ((ofValue purpose q o es).Has f text) (parts.flatMap Part.written)
        ((ofValue purpose q o es).Has f' ((parts.flatMap Part.content).reverse ++ text)) := by
  induction parts generalizing f text with
  | nil => exact ⟨f, holds, Reads.nil _⟩
  | cons part parts ih =>
    have sound_part := sound part List.mem_cons_self
    have sound_parts : ∀ part' ∈ parts, part'.IsSoundIn q :=
      fun part' mem => sound part' (List.mem_cons_of_mem part mem)
    simp only [List.flatMap_cons, List.reverse_append, List.append_assoc]
    cases part with
    | plain c =>
      obtain ⟨f₁, holds₁, reads⟩ := exists_reads_value purpose o es holds sound_part
      obtain ⟨f', holds', reads'⟩ := ih sound_parts holds₁ (c :: text)
      exact ⟨f', holds', (reads text).append reads'⟩
    | reference name c =>
      have reads : Reads ((ofValue purpose q o es).Has f text) (Part.reference name c).written
          ((ofValue purpose q o es).Has none (c :: text)) :=
        (reads_valueReference holds sound_part).weaken fun s => Collector.has_none
      obtain ⟨f', holds', reads'⟩ := ih (f := none) sound_parts trivial (c :: text)
      exact ⟨f', holds', reads.append reads'⟩
    | marked cs | comment cs => cases sound_part

end Phrasebook.Markup
