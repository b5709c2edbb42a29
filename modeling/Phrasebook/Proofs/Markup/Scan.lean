import Phrasebook.Markup.Token.Lexer

/-!
# The lexer without positions

Which tokens a character completes does not depend on where it stands. Without positions a
lexer comes down to a region and a fragment, and one character leads from one such pair to
another.

- `Lexer.At`: the region and the fragment of a lexer, outside of document types.
- `Gives`: what the result of a step is, apart from positions.
- `Begins`: what a character does that begins a token.
- `Scans`: what a character does, whether it begins a token or goes on a fragment.
- `scans_held`: a fragment that comes to nothing gives the characters that it holds back, and
  the next one begins a token.
-/

namespace Phrasebook.Markup

/-- The lexer is in a region, with a fragment of a token or without one. -/
structure Lexer.At (l : Lexer) (region : Region) (fragment : Option Fragment) : Prop where
  region : l.region = region
  outside : l.isInDoctype = false
  fragment : l.fragment.map Prod.fst = fragment

/-- The result of a step consists of these tokens and a lexer at this point. -/
def Gives (result : List Placed × Lexer) (tokens : List Token) (region : Region)
    (fragment : Option Fragment) : Prop :=
  result.1.map Placed.token = tokens ∧ result.2.At region fragment

/-- In a region, a character that begins a token gives these tokens and leads to this point. -/
def Begins (region : Region) (c : Char) (tokens : List Token) (region' : Region)
    (fragment' : Option Fragment) : Prop :=
  ∀ (l : Lexer) (p : Position), l.region = region → l.isInDoctype = false →
    Gives (l.first c p) tokens region' fragment'

/-- From one point, a character gives these tokens and leads to another point. -/
def Scans (region : Region) (fragment : Option Fragment) (c : Char) (tokens : List Token)
    (region' : Region) (fragment' : Option Fragment) : Prop :=
  ∀ (l : Lexer) (p behind : Position), l.At region fragment →
    Gives (l.step c p behind) tokens region' fragment'

variable {l : Lexer} {region region' : Region} {fragment' : Option Fragment} {c : Char}
variable {tokens : List Token}

/-! ## Parts of a step -/

theorem gives_complete (outside : l.isInDoctype = false) (token : Token) (p : Position)
    (region : Region) : Gives (l.complete token p region) [token] region none :=
  ⟨rfl, rfl, outside, rfl⟩

theorem gives_keep (outside : l.isInDoctype = false) (fragment : Fragment) (p : Position) :
    Gives (l.keep fragment p) [] l.region (some fragment) :=
  ⟨rfl, rfl, outside, rfl⟩

theorem surrounding_eq (outside : l.isInDoctype = false) : l.surrounding = .text := by
  unfold Lexer.surrounding
  rw [outside]
  rfl

theorem gives_fallApart (outside : l.isInDoctype = false)
    (begins : Begins region c tokens region' fragment') (token : Token)
    (p behind : Position) :
    Gives (l.fallApart token p region c behind) (token :: tokens) region' fragment' := by
  obtain ⟨given, at_end⟩ :=
    begins { l with region := region, fragment := none } behind rfl outside
  exact ⟨congrArg (List.cons token) given, at_end⟩

theorem scans_of_begins (begins : Begins region c tokens region' fragment') :
    Scans region none c tokens region' fragment' := by
  intro l p behind here
  unfold Lexer.step
  cases held : l.fragment with
  | none => exact begins l p here.region here.outside
  | some fragment =>
    have := here.fragment
    rw [held] at this
    cases this

theorem scans_of_next {fragment : Fragment}
    (next : ∀ (l : Lexer) (p behind : Position), l.region = region → l.isInDoctype = false →
      Gives (l.next fragment p c behind) tokens region' fragment') :
    Scans region (some fragment) c tokens region' fragment' := by
  intro l p behind here
  unfold Lexer.step
  cases held : l.fragment with
  | none =>
    have := here.fragment
    rw [held] at this
    cases this
  | some fragment =>
    have same := here.fragment
    rw [held] at same
    cases same
    exact next l _ behind here.region here.outside

/-! ## First characters -/

theorem begins_text (noTag : c ≠ '<') (noSlash : c ≠ '/') (noBracket : c ≠ ']') :
    Begins .text c [Lexer.ofTagChar c] .text none := by
  intro l p here outside
  have first : l.first c p = l.give (Lexer.ofTagChar c) p := by
    unfold Lexer.first
    rw [here]
    dsimp only
    split
    · exact absurd rfl noTag
    · exact absurd rfl noSlash
    · exact absurd rfl noBracket
    · rfl
  rw [first, ← here]
  exact gives_complete outside _ p l.region

/-- The three characters that may begin a longer token in text. -/
theorem begins_text_fragment {fragment : Fragment}
    (begins : (c, fragment) ∈ [('<', .opener), ('/', .slash), (']', Fragment.bracket)]) :
    Begins .text c [] .text (some fragment) := by
  intro l p here outside
  have first : l.first c p = l.keep fragment p := by
    unfold Lexer.first
    rw [here]
    simp only [List.mem_cons, Prod.mk.injEq, List.not_mem_nil, or_false] at begins
    rcases begins with ⟨rfl, rfl⟩ | ⟨rfl, rfl⟩ | ⟨rfl, rfl⟩ <;> rfl
  rw [first, ← here]
  exact gives_keep outside fragment p

theorem begins_comment (noDash : c ≠ '-') : Begins .comment c [.char c] .comment none := by
  intro l p here outside
  have first : l.first c p = l.give (.char c) p := by
    unfold Lexer.first
    rw [here]
    exact if_neg noDash
  rw [first, ← here]
  exact gives_complete outside _ p l.region

theorem begins_comment_dash : Begins .comment '-' [] .comment (some .dash) := by
  intro l p here outside
  have first : l.first '-' p = l.keep .dash p := by
    unfold Lexer.first
    rw [here]
    rfl
  rw [first, ← here]
  exact gives_keep outside .dash p

theorem begins_marked (noBracket : c ≠ ']') : Begins .marked c [.char c] .marked none := by
  intro l p here outside
  have first : l.first c p = l.give (.char c) p := by
    unfold Lexer.first
    rw [here]
    exact if_neg noBracket
  rw [first, ← here]
  exact gives_complete outside _ p l.region

theorem begins_marked_bracket : Begins .marked ']' [] .marked (some .bracket) := by
  intro l p here outside
  have first : l.first ']' p = l.keep .bracket p := by
    unfold Lexer.first
    rw [here]
    rfl
  rw [first, ← here]
  exact gives_keep outside .bracket p

/-! ## Fragments that hold characters back -/

/-- The characters that a fragment holds back, which it gives when it comes to nothing. -/
def held : Option Fragment → List Char
  | some .slash => ['/']
  | some .bracket => [']']
  | some .brackets => [']', ']']
  | some .dash => ['-']
  | _ => []

/-- The fragment holds characters back that are nothing but characters. -/
def Holds (region : Region) : Option Fragment → Prop
  | none => True
  | some .slash => region = .text
  | some .bracket | some .brackets => region = .text ∨ region = .marked
  | _ => False

/-- The character may go on a fragment. -/
def goesOn : Option Fragment → Char → Prop
  | some .slash, c => c = '>'
  | some .bracket, c => c = ']'
  | some .brackets, c => c = ']' ∨ c = '>'
  | _, _ => False

theorem gives_afterBracket (here : l.region = region) (outside : l.isInDoctype = false)
    (begins : Begins region c tokens region' fragment') (noBracket : c ≠ ']')
    (p behind : Position) :
    Gives (l.afterBracket p c behind) (.char ']' :: tokens) region' fragment' := by
  unfold Lexer.afterBracket
  rw [if_neg noBracket, here]
  exact gives_fallApart outside begins _ p behind

/-- **A fragment comes to nothing** with a character that does not go on it. -/
theorem scans_held {fragment : Option Fragment} (holds : Holds region fragment)
    (stops : ¬ goesOn fragment c) (begins : Begins region c tokens region' fragment') :
    Scans region fragment c ((held fragment).map .char ++ tokens) region' fragment' := by
  cases fragment with
  | none => exact scans_of_begins begins
  | some fragment =>
    apply scans_of_next
    intro l p behind here outside
    cases fragment with
    | slash =>
      cases holds
      have : c ≠ '>' := stops
      simp only [Lexer.next, if_neg this, surrounding_eq outside]
      exact gives_fallApart outside begins _ p behind
    | bracket => exact gives_afterBracket here outside begins stops p behind
    | brackets =>
      have noBracket : c ≠ ']' := fun same => stops (.inl same)
      have noEnd : c ≠ '>' := fun same => stops (.inr same)
      simp only [Lexer.next, if_neg noEnd]
      obtain ⟨given, at_end⟩ := gives_afterBracket here outside begins noBracket behind behind
      exact ⟨congrArg (List.cons (Token.char ']')) given, at_end⟩
    | opener => cases holds
    | exclamation read => cases holds
    | question => cases holds
    | dash => cases holds
    | dashes => cases holds

theorem scans_emptyTagEnd : Scans .text (some .slash) '>' [.emptyTagEnd] .text none := by
  apply scans_of_next
  intro l p behind _ outside
  rw [← surrounding_eq outside]
  exact gives_complete outside _ p _

theorem scans_bracket_bracket :
    Scans region (some .bracket) ']' [] region (some .brackets) := by
  apply scans_of_next
  intro l p behind here outside
  rw [← here]
  exact gives_keep outside .brackets p

theorem scans_brackets_bracket :
    Scans region (some .brackets) ']' [.char ']'] region (some .brackets) := by
  apply scans_of_next
  intro l p behind here outside
  rw [← here]
  exact ⟨rfl, (gives_keep outside .brackets behind).2⟩

theorem scans_sectionEnd (within : region = .text ∨ region = .marked) :
    Scans region (some .brackets) '>' [.sectionEnd] .text none := by
  apply scans_of_next
  intro l p behind here outside
  have next : l.next .brackets p '>' behind = l.complete .sectionEnd p .text := by
    rcases within with rfl | rfl
    · simp only [Lexer.next, here, surrounding_eq outside]
      rfl
    · simp only [Lexer.next, here]
      rfl
  rw [next]
  exact gives_complete outside _ p .text

theorem content_ofTagChar (c : Char) : (Lexer.ofTagChar c).content = [c] := by
  unfold Lexer.ofTagChar
  split
  case h_1 | h_2 => rfl
  case h_3 =>
    unfold Lexer.ofChar
    split <;> rfl

theorem content_chars (cs : List Char) : (cs.map .char).flatMap Token.content = cs := by
  induction cs with
  | nil => rfl
  | cons c cs ih => exact congrArg (List.cons c) ih

/-- What a character gives that begins a token, where all tokens are characters at once or held
back, as in text. -/
theorem exists_begins_text (noTag : c ≠ '<') :
    ∃ own fragment', Begins .text c own .text fragment' ∧ Holds .text fragment' ∧
      own.flatMap Token.content ++ held fragment' = [c] ∧ ∀ t ∈ own, t = Lexer.ofTagChar c := by
  by_cases slash : c = '/'
  · subst slash
    exact ⟨[], some .slash, begins_text_fragment (by simp), rfl, rfl, by simp⟩
  by_cases bracket : c = ']'
  · subst bracket
    exact ⟨[], some .bracket, begins_text_fragment (by simp), .inl rfl, rfl, by simp⟩
  exact ⟨[Lexer.ofTagChar c], none, begins_text noTag slash bracket, trivial,
    by simp [held, content_ofTagChar], by simp⟩

/-- The same in a marked section. -/
theorem exists_begins_marked (c : Char) :
    ∃ own fragment', Begins .marked c own .marked fragment' ∧ Holds .marked fragment' ∧
      own.flatMap Token.content ++ held fragment' = [c] ∧ ∀ t ∈ own, t = .char c := by
  by_cases bracket : c = ']'
  · subst bracket
    exact ⟨[], some .bracket, begins_marked_bracket, .inr rfl, rfl, by simp⟩
  exact ⟨[.char c], none, begins_marked bracket, trivial, rfl, by simp⟩

/-- **No character is lost**: after another one, what the tokens say and what is held back is
what was held back before and the character. -/
theorem exists_scans {fragment first : Option Fragment} {own : List Token}
    (holds : Holds region fragment) (begins : Begins region c own region first)
    (holdsFirst : Holds region first) (balance : own.flatMap Token.content ++ held first = [c])
    (within : fragment = some .brackets → c = '>' → region = .text) :
    ∃ tokens fragment', Scans region fragment c tokens region fragment' ∧
      Holds region fragment' ∧
      tokens.flatMap Token.content ++ held fragment' = held fragment ++ [c] ∧
      ∀ t ∈ tokens, t ∈ own ∨ t ∈ (held fragment).map Token.char ∨
        (t = .emptyTagEnd ∧ fragment = some .slash) ∨
        (t = .sectionEnd ∧ fragment = some .brackets ∧ c = '>') := by
  by_cases goes : goesOn fragment c
  · match fragment, goes with
    | some .slash, goes =>
      cases holds
      cases goes
      exact ⟨[.emptyTagEnd], none, scans_emptyTagEnd, trivial, rfl, by simp⟩
    | some .bracket, goes =>
      cases goes
      exact ⟨[], some .brackets, scans_bracket_bracket, holds, rfl, by simp⟩
    | some .brackets, .inl goes =>
      cases goes
      exact ⟨[.char ']'], some .brackets, scans_brackets_bracket, holds, rfl, by simp [held]⟩
    | some .brackets, .inr goes =>
      cases goes
      cases within rfl rfl
      exact ⟨[.sectionEnd], none, scans_sectionEnd (.inl rfl), trivial, rfl, by simp⟩
  · refine ⟨_, first, scans_held holds goes begins, holdsFirst, ?_, ?_⟩
    · rw [List.flatMap_append, content_chars, List.append_assoc, balance]
    · intro t mem
      rcases List.mem_append.mp mem with before | new
      · exact .inr (.inl before)
      · exact .inl new

/-! ## Openings of tags, comments and sections -/

theorem scans_endTagStart : Scans .text (some .opener) '/' [.endTagStart] .text none := by
  apply scans_of_next
  intro l p behind _ outside
  rw [← surrounding_eq outside]
  exact gives_complete outside _ p _

theorem scans_tagStart (begins : Begins .text c tokens region' fragment')
    (named : isNameChar c = true) (noInstruction : c ≠ '?') (noSlash : c ≠ '/')
    (noDeclaration : c ≠ '!') :
    Scans .text (some .opener) c (.tagStart :: tokens) region' fragment' := by
  apply scans_of_next
  intro l p behind _ outside
  have next : l.next .opener p c behind = l.fallApart .tagStart p .text c behind := by
    simp only [Lexer.next, if_neg noInstruction, if_neg noSlash, if_neg noDeclaration, named,
      Bool.or_true, if_true, surrounding_eq outside]
  rw [next]
  exact gives_fallApart outside begins _ p behind

theorem scans_exclamation : Scans .text (some .opener) '!' [] .text (some (.exclamation [])) := by
  apply scans_of_next
  intro l p behind here outside
  rw [← here]
  exact gives_keep outside (.exclamation []) p

/-- A character goes on the word after `<!`. -/
theorem scans_exclamation_more {read : List Char}
    (more : (read, c) ∈ [([], '-'), ([], '['), (['['], 'C'), (['[', 'C'], 'D'),
      (['[', 'C', 'D'], 'A'), (['[', 'C', 'D', 'A'], 'T'), (['[', 'C', 'D', 'A', 'T'], 'A')]) :
    Scans .text (some (.exclamation read)) c [] .text (some (.exclamation (read ++ [c]))) := by
  apply scans_of_next
  intro l p behind here outside
  have next : l.next (.exclamation read) p c behind = l.keep (.exclamation (read ++ [c])) p := by
    simp only [List.mem_cons, Prod.mk.injEq, List.not_mem_nil, or_false] at more
    rcases more with ⟨rfl, rfl⟩ | ⟨rfl, rfl⟩ | ⟨rfl, rfl⟩ | ⟨rfl, rfl⟩ | ⟨rfl, rfl⟩ | ⟨rfl, rfl⟩ |
      ⟨rfl, rfl⟩ <;> rfl
  rw [next, ← here]
  exact gives_keep outside _ p

theorem scans_commentStart :
    Scans .text (some (.exclamation ['-'])) '-' [.commentStart] .comment none := by
  apply scans_of_next
  intro l p behind _ outside
  exact gives_complete outside _ p _

theorem scans_sectionStart :
    Scans .text (some (.exclamation ['[', 'C', 'D', 'A', 'T', 'A'])) '[' [.sectionStart] .marked
      none := by
  apply scans_of_next
  intro l p behind _ outside
  exact gives_complete outside _ p _

/-! ## Comments -/

theorem scans_dash (noDash : c ≠ '-') :
    Scans .comment (some .dash) c [.char '-', .char c] .comment none := by
  apply scans_of_next
  intro l p behind _ outside
  have next : l.next .dash p c behind = l.fallApart (.char '-') p .comment c behind := by
    simp only [Lexer.next, if_neg noDash]
  rw [next]
  exact gives_fallApart outside (begins_comment noDash) _ p behind

theorem scans_dash_dash : Scans .comment (some .dash) '-' [] .comment (some .dashes) := by
  apply scans_of_next
  intro l p behind here outside
  rw [← here]
  exact gives_keep outside .dashes p

theorem scans_commentEnd : Scans .comment (some .dashes) '>' [.commentEnd] .text none := by
  apply scans_of_next
  intro l p behind _ outside
  rw [← surrounding_eq outside]
  exact gives_complete outside _ p _

end Phrasebook.Markup
