import Phrasebook.Markup.Reader
import Phrasebook.Proofs.Markup.Scan
import Phrasebook.Proofs.Markup.Writing

/-!
# The reader without positions

Positions are noted on the way and decide nothing. What remains of a state without them is a
`View`, and tokens and characters lead from one view to another.

- `View.Shows`: the view of a state in a document without declarations.
- `Takes`, `TakesAll`: what tokens do to a view.
- `Reads`: what characters do, as a contract between conditions on the state before and after
  them. It says that reading succeeds, too.
- `reads_of_scans`: a character does what the tokens do that it completes.
- `View.Shows.beginTag`, `View.Shows.addText` and so on: the parts of a step.
-/

namespace Phrasebook.Markup

/-- What a state knows apart from positions. -/
structure View where
  region : Region
  fragment : Option Fragment
  mode : Mode
  nesting : List OpenElement
  pending : List Char
  /-- The events so far without positions, the last one first. -/
  events : List Event

namespace View

/-- Nothing has been read but white space and comments. -/
structure IsProlog (v : View) : Prop where
  mode : v.mode = .between ∨ v.mode = .comment
  nesting : v.nesting = []
  pending : v.pending = []
  events : v.events = []

/-- The state is at this point of a document that declares nothing. -/
structure Shows (v : View) (s : State) : Prop where
  scanner : s.lexer.At v.region v.fragment
  mode : s.mode = v.mode
  progress : s.progress = .element ∨ v.IsProlog
  nesting : s.nesting = v.nesting
  pending : s.pending = v.pending
  events : s.events.map Event.bare = v.events
  version : s.version = .v10
  encoding : s.encoding = .assumedUtf8
  entities : s.entities = []
  replacement : s.replacement = []

end View

/-- Characters of the document lead from one state to another. Each of them is encoded as the
reader has assumed from the start. -/
inductive ReadsTo : State → List Char → State → Prop
  | nil {s : State} : ReadsTo s [] s
  | cons {s next s' : State} {c : Char} {cs : List Char} (encoding : s.encoding = .assumedUtf8)
      (first : s.readChar c = .ok next) (rest : ReadsTo next cs s') : ReadsTo s (c :: cs) s'

/-- From one view, a token leads to another. -/
def Takes (v : View) (t : Token) (v' : View) : Prop :=
  ∀ s, v.Shows s → ∃ s', s.read t = .ok s' ∧ v'.Shows s'

/-- From one view, tokens lead to another. -/
inductive TakesAll : View → List Token → View → Prop
  | nil {v : View} : TakesAll v [] v
  | cons {v w v' : View} {t : Token} {tokens : List Token} (first : Takes v t w)
      (rest : TakesAll w tokens v') : TakesAll v (t :: tokens) v'

/-- From every state with one property, characters lead to a state with another. -/
def Reads (P : State → Prop) (cs : List Char) (Q : State → Prop) : Prop :=
  ∀ s, P s → ∃ s', ReadsTo s cs s' ∧ Q s'

variable {v w v' : View} {s s' : State} {t : Token} {c : Char} {cs ds : List Char}
variable {P Q R : State → Prop}

/-! ## Composition -/

theorem TakesAll.single (h : Takes v t v') : TakesAll v [t] v' :=
  .cons h .nil

theorem TakesAll.append {tokens more : List Token} (h : TakesAll v tokens w)
    (h' : TakesAll w more v') : TakesAll v (tokens ++ more) v' := by
  induction h with
  | nil => exact h'
  | cons first _ ih => exact .cons first (ih h')

theorem ReadsTo.append {s'' : State} (first : ReadsTo s cs s') (rest : ReadsTo s' ds s'') :
    ReadsTo s (cs ++ ds) s'' := by
  induction first with
  | nil => exact rest
  | cons encoding first _ ih => exact .cons encoding first (ih rest)

theorem Reads.nil (P : State → Prop) : Reads P [] P :=
  fun s here => ⟨s, .nil, here⟩

theorem Reads.append (h : Reads P cs Q) (h' : Reads Q ds R) : Reads P (cs ++ ds) R := by
  intro s before
  obtain ⟨between, first, here⟩ := h s before
  obtain ⟨after, rest, there⟩ := h' between here
  exact ⟨after, first.append rest, there⟩

theorem Reads.cons (h : Reads P [c] Q) (h' : Reads Q ds R) : Reads P (c :: ds) R :=
  h.append h'

theorem Reads.weaken (h : Reads P cs Q) (weaker : ∀ s, Q s → R s) : Reads P cs R := by
  intro s before
  obtain ⟨after, read, here⟩ := h s before
  exact ⟨after, read, weaker after here⟩

theorem Reads.strengthen (h : Reads Q cs R) (stronger : ∀ s, P s → Q s) : Reads P cs R :=
  fun s before => h s (stronger s before)

/-! ## Parts of a step -/

namespace View.Shows

/-- Only marks are different, and the place of the token being read. -/
theorem of_marks (h : v.Shows s) (marks : Marks) (place : Position) :
    v.Shows { s with marks := marks, place := place } :=
  ⟨h.scanner, h.mode, h.progress, h.nesting, h.pending, h.events, h.version, h.encoding,
    h.entities, h.replacement⟩

theorem leaveMark (h : v.Shows s) : v.Shows s.leaveMark :=
  h.of_marks _ _

theorem markText (h : v.Shows s) : v.Shows s.markText := by
  unfold State.markText
  split
  · exact h.leaveMark
  · exact h

/-- The lexer has gone on. -/
theorem scan (h : v.Shows s) {lexer : Lexer} {region : Region} {fragment : Option Fragment}
    (scanner : lexer.At region fragment) (head : Position) :
    { v with region := region, fragment := fragment }.Shows
      { s with lexer := lexer, head := head } :=
  ⟨scanner, h.mode, h.progress.imp_right fun before => ⟨before.1, before.2, before.3, before.4⟩,
    h.nesting, h.pending, h.events, h.version, h.encoding, h.entities, h.replacement⟩

/-- An element has begun unless the mode is one of the two of the prolog. -/
theorem progress_of_mode (h : v.Shows s) (inside : v.mode ≠ .between ∧ v.mode ≠ .comment) :
    s.progress = .element :=
  h.progress.resolve_right fun before => before.mode.elim inside.1 inside.2

/-- An element has begun if one is open. -/
theorem progress_of_nesting (h : v.Shows s) (inside : v.nesting ≠ []) :
    s.progress = .element :=
  h.progress.resolve_right fun before => inside before.nesting

/-- A step within an element goes on in another mode. -/
theorem enter (h : v.Shows s) (progress : s.progress = .element) (m : Mode) :
    ∃ s', s.enter m = .ok s' ∧ { v with mode := m }.Shows s' :=
  ⟨_, rfl, h.scanner, rfl, .inl progress, h.nesting, h.pending, h.events, h.version, h.encoding,
    h.entities, h.replacement⟩

/-- The two modes of the prolog lead to each other whatever has been read. -/
theorem enter_prolog (h : v.Shows s) {m : Mode} (aside : m = .between ∨ m = .comment) :
    ∃ s', s.enter m = .ok s' ∧ { v with mode := m }.Shows s' :=
  ⟨_, rfl, h.scanner, rfl, h.progress.imp_right fun before => ⟨aside, before.2, before.3, before.4⟩,
    h.nesting, h.pending, h.events, h.version, h.encoding, h.entities, h.replacement⟩

theorem addText (h : v.Shows s) (progress : s.progress = .element) (added : List Char) :
    { v with pending := added.reverse ++ v.pending }.Shows (s.addText added) :=
  ⟨h.scanner, h.mode, .inl progress, h.nesting, congrArg (added.reverse ++ ·) h.pending,
    h.events, h.version, h.encoding, h.entities, h.replacement⟩

theorem beginDocument (h : v.Shows s) : v.Shows s.beginDocument := by
  unfold State.beginDocument
  split
  case h_1 nothing =>
    have before := h.progress.resolve_left fun element => by
      rw [nothing] at element
      cases element
    exact ⟨h.scanner, h.mode, .inr before, h.nesting, h.pending, h.events, h.version,
      h.encoding, h.entities, h.replacement⟩
  case h_2 => exact h

end View.Shows

/-- The events with a stretch of text as the last one, unless it is empty. -/
def withText (pending : List Char) (events : List Event) : List Event :=
  if pending.isEmpty then events else .text (String.ofList pending.reverse) :: events

/-- The stretch of text is over. -/
def View.flushed (v : View) : View :=
  { v with pending := [], events := withText v.pending v.events }

namespace View.Shows

theorem beginItem (h : v.Shows s) : v.flushed.Shows s.beginItem := by
  obtain ⟨region, fragment, mode, nesting, pending, events⟩ := v
  unfold State.beginItem View.flushed withText
  rw [h.pending]
  split
  case isTrue empty =>
    cases List.isEmpty_iff.mp empty
    exact h.leaveMark
  case isFalse some_text =>
    have progress := h.progress.resolve_right fun before =>
      some_text (List.isEmpty_iff.mpr before.pending)
    exact ⟨h.scanner, h.mode, .inl progress, h.nesting, rfl, congrArg (List.cons _) h.events,
      h.version, h.encoding, h.entities, h.replacement⟩

/-- An element has begun. -/
theorem open_progress (h : v.Shows s) : v.Shows { s with progress := .element } :=
  ⟨h.scanner, h.mode, .inl rfl, h.nesting, h.pending, h.events, h.version, h.encoding,
    h.entities, h.replacement⟩

/-- A start tag begins. The first one ends no stretch of text. -/
theorem beginTag (h : v.Shows s) : v.flushed.Shows s.beginTag := by
  unfold State.beginTag
  split
  case h_1 nothing =>
    have before := h.progress.resolve_left fun element => by
      rw [nothing] at element
      cases element
    obtain ⟨region, fragment, mode, nesting, pending, events⟩ := v
    cases before.pending
    exact h.beginDocument.open_progress
  case h_2 => exact h.beginItem.open_progress

end View.Shows

theorem progress_beginTag (s : State) : s.beginTag.progress = .element := by
  unfold State.beginTag
  split <;> rfl

theorem progress_beginItem (s : State) : s.beginItem.progress = s.progress := by
  unfold State.beginItem
  split <;> rfl

theorem progress_markText (s : State) : s.markText.progress = s.progress := by
  unfold State.markText
  split <;> rfl

/-! ## From tokens to characters -/

theorem readAll_of_takesAll {tokens : List Token} (takes : TakesAll v tokens v')
    (shows : v.Shows s) {placed : List Placed} (same : placed.map Placed.token = tokens) :
    ∃ s', s.readAll placed = .ok s' ∧ v'.Shows s' := by
  induction takes generalizing s placed with
  | nil =>
    cases List.map_eq_nil_iff.mp same
    exact ⟨s, rfl, shows⟩
  | @cons v w v' t tokens first _ ih =>
    obtain ⟨⟨_, p⟩, placed, rfl, rfl, behind⟩ := List.map_eq_cons_iff.mp same
    obtain ⟨next, read, there⟩ := first _ (shows.of_marks s.marks p)
    rw [State.readAll, read]
    exact ih there behind

/-- **A character does what its tokens do.** -/
theorem reads_of_scans {region : Region} {fragment : Option Fragment} {tokens : List Token}
    (scans : Scans v.region v.fragment c tokens region fragment)
    (takes : TakesAll { v with region := region, fragment := fragment } tokens v') :
    Reads v.Shows [c] v'.Shows := by
  intro s shows
  obtain ⟨same, scanner⟩ := scans s.lexer s.head (s.head.advance c) shows.scanner
  obtain ⟨s', read, there⟩ :=
    readAll_of_takesAll takes (shows.scan scanner (s.head.advance c)) same
  have step : s.step c (s.head.advance c) = .ok s' := read
  have first : s.readChar c = .ok s' := by
    unfold State.readChar
    rw [step]
    simp [there.replacement]
  exact ⟨s', .cons shows.encoding first .nil, there⟩

end Phrasebook.Markup
