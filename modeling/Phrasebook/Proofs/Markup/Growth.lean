import Phrasebook.Markup.Document
import Phrasebook.Proofs.Markup.Outline

/-!
# A reader adds events

Whatever bytes a reader is given, it never takes an event back, and it gives an end tag only where
an element is open. So the events of a document nest, also where it breaks off, and those of a
part of a document do not depend on what comes behind it.

- `Grows`: events with others added to them, and the number of elements that are open then.
- `Follows`: the events of a state go on those of an earlier one.
- `Proceeds`: a step leads to such a state, or fails with such events. There is one lemma of this
  kind for each part of the reader; `proceeds_read` is that for one token, and `proceeds_readChar`
  that for one character with all that is read in its place.
- `Events.grows_read`: the events from a state on.
- `Events.nested_items`, `Events.items_append`: those of whole documents.
-/

namespace Phrasebook.Markup

/-! ## Growing events -/

/-- Events that have been added, the last one first, and the number of elements that are open
then. No end tag is added where none is open. -/
inductive Grows (n : Nat) (events : List Event) : Nat → List Event → Prop
  | refl : Grows n events n events
  | cons {m : Nat} {event : Event} {more : List Event} (before : Grows n events m more)
      (matched : ∀ closing, event = .endTag closing → m ≠ 0) :
      Grows n events (event.depthAfter m) (event :: more)

namespace Grows

variable {n m k : Nat} {events more later : List Event}

theorem text (h : Grows n events m more) (content : String) :
    Grows n events m (.text content :: more) :=
  have other : ∀ closing, Event.text content = .endTag closing → m ≠ 0 := nofun
  .cons h other

theorem startTag (h : Grows n events m more) (name : String)
    (attributes : List (String × String)) (position : Position) :
    Grows n events (m + 1) (.startTag name attributes position :: more) :=
  have other : ∀ closing, Event.startTag name attributes position = .endTag closing → m ≠ 0 :=
    nofun
  .cons h other

theorem endTag (h : Grows n events (m + 1) more) (position : Position) :
    Grows n events m (.endTag position :: more) :=
  have open_before : ∀ closing, Event.endTag position = .endTag closing → m + 1 ≠ 0 :=
    fun _ _ => Nat.succ_ne_zero m
  .cons h open_before

theorem suffix (h : Grows n events m more) : events <:+ more := by
  induction h with
  | refl => exact List.suffix_rfl
  | @cons m event more _ _ ih => exact ih.trans (List.suffix_cons event more)

/-- Nested events that grow still nest. -/
theorem nested (h : Grows n events m more) (before : Nested n events) : Nested m more := by
  induction h with
  | refl => exact before
  | cons _ matched ih => exact .cons ih matched

end Grows

namespace State

/-- The events of a state are those of an earlier one, with others added to them. -/
def Follows (base s : State) : Prop :=
  Grows base.nesting.length base.events s.nesting.length s.events

/-- The step leads to a state whose events go on the earlier ones, or its failure has such
events. -/
def Proceeds (base : State) : Except Failure State → Prop
  | .ok s => Follows base s
  | .error failure => ∃ n, Grows base.nesting.length base.events n failure.events

variable {base s : State}

/-! ## What a step is made of -/

theorem proceeds_ok (h : Follows base s) : Proceeds base (.ok s) :=
  h

theorem proceeds_enter (h : Follows base s) (mode : Mode) : Proceeds base (s.enter mode) :=
  h

theorem proceeds_failHere (h : Follows base s) : Proceeds base s.failHere :=
  ⟨_, h⟩

theorem follows_beginItem (h : Follows base s) : Follows base s.beginItem := by
  unfold beginItem
  split
  · exact h
  · exact Grows.text h _

theorem follows_beginDocument (h : Follows base s) : Follows base s.beginDocument := by
  unfold beginDocument
  split <;> exact h

theorem follows_beginTag (h : Follows base s) : Follows base s.beginTag := by
  unfold beginTag
  split
  · exact follows_beginDocument h
  · exact follows_beginItem h

theorem follows_markText (h : Follows base s) : Follows base s.markText := by
  unfold markText
  split <;> exact h

theorem follows_declareEntity (h : Follows base s) (name : String) (replacement : List Char) :
    Follows base (s.declareEntity name replacement) := by
  unfold declareEntity
  split <;> exact h

/-! ## Tags -/

theorem proceeds_openElement (h : Follows base s) (tag : StartTag) (isEmpty : Bool) :
    Proceeds base (s.openElement tag isEmpty) := by
  have opened := Grows.startTag h
  unfold openElement
  dsimp only
  split
  · split
    · -- the end tag of an empty element follows at once
      exact proceeds_ok (Grows.endTag (opened _ _ _) _)
    · exact proceeds_ok (opened _ _ _)
  · exact proceeds_failHere h

theorem proceeds_closeElement (h : Follows base s) (name : Name) :
    Proceeds base (s.closeElement name) := by
  unfold closeElement
  split
  · rename_i element rest nesting
    split
    · unfold Follows at h
      rw [nesting, List.length_cons] at h
      exact proceeds_ok (Grows.endTag h _)
    · exact proceeds_failHere h
  · exact proceeds_failHere h

theorem proceeds_readTagName (h : Follows base s) (name : PartialName) (t : Token) :
    Proceeds base (s.readTagName name t) := by
  unfold readTagName
  split
  · exact proceeds_enter h _
  · exact proceeds_failHere h
  · split
    · exact proceeds_failHere h
    · dsimp only
      split
      · exact proceeds_openElement h _ _
      · exact proceeds_openElement h _ _
      · exact proceeds_enter h _

theorem proceeds_readAttributeName (h : Follows base s) (tag : StartTag) (name : PartialName)
    (t : Token) : Proceeds base (s.readAttributeName tag name t) := by
  unfold readAttributeName
  split
  · exact proceeds_enter h _
  · exact proceeds_failHere h
  · split
    · exact proceeds_failHere h
    · split <;> exact proceeds_enter h _

theorem proceeds_readTag (h : Follows base s) (tag : StartTag) (place : TagPlace) (t : Token) :
    Proceeds base (s.readTag tag place t) := by
  unfold readTag
  -- wherever the token stands, it goes on, opens the element or is refused
  split
  all_goals repeat' split
  all_goals first
    | exact proceeds_readAttributeName h _ _ _
    | exact proceeds_openElement h _ _
    | exact proceeds_ok h
    | exact proceeds_failHere h

theorem proceeds_finishAttribute (h : Follows base s) (tag : StartTag) (name : Name)
    (value : String) :
    Proceeds base (s.finishAttribute tag name value) := by
  unfold finishAttribute declareQualifier declareDefault
  repeat' split
  all_goals first
    | exact proceeds_enter h _
    | exact proceeds_failHere h

theorem proceeds_readEndName (h : Follows base s) (name : PartialName) (t : Token) :
    Proceeds base (s.readEndName name t) := by
  unfold readEndName
  repeat' split
  all_goals first
    | exact proceeds_closeElement h _
    | exact proceeds_enter h _
    | exact proceeds_failHere h

theorem proceeds_readEndBlank (h : Follows base s) (name : Name) (t : Token) :
    Proceeds base (s.readEndBlank name t) := by
  unfold readEndBlank
  repeat' split
  all_goals first
    | exact proceeds_closeElement h _
    | exact proceeds_ok h
    | exact proceeds_failHere h

/-! ## Values and references -/

theorem proceeds_finishValue (h : Follows base s) (value : Value) :
    Proceeds base (s.finishValue value) := by
  unfold finishValue
  dsimp only
  split
  · exact proceeds_finishAttribute h _ _ _
  · unfold finishField
    repeat' split
    all_goals first
      | exact proceeds_ok h
      | exact proceeds_failHere h

theorem proceeds_readValue (h : Follows base s) (value : Value) (t : Token) :
    Proceeds base (s.readValue value t) := by
  unfold readValue
  repeat' split
  all_goals first
    | exact proceeds_finishValue h _
    | exact proceeds_ok h
    | exact proceeds_failHere h

theorem proceeds_readTextReference (h : Follows base s) (read : List Char) (t : Token) :
    Proceeds base (s.readTextReference read t) := by
  unfold readTextReference
  -- the reader tells single characters apart, so the kind of the token goes first
  cases t
  all_goals dsimp only
  all_goals repeat' split
  all_goals first
    | exact proceeds_ok h
    | exact proceeds_failHere h

theorem proceeds_readValueReference (h : Follows base s) (value : Value) (read : List Char)
    (t : Token) : Proceeds base (s.readValueReference value read t) := by
  unfold readValueReference
  cases t
  all_goals dsimp only
  all_goals repeat' split
  all_goals first
    | exact proceeds_enter h _
    | exact proceeds_failHere h

/-! ## Text and the items in it -/

theorem proceeds_beginDoctype (h : Follows base s) : Proceeds base s.beginDoctype := by
  unfold beginDoctype
  split
  · exact proceeds_ok (follows_beginItem h)
  · exact proceeds_ok (follows_beginItem h)
  · exact proceeds_failHere h
  · exact proceeds_failHere h

theorem proceeds_readOutside (h : Follows base s) (t : Token) :
    Proceeds base (s.readOutside t) := by
  unfold readOutside
  cases t
  all_goals dsimp only
  all_goals repeat' split
  all_goals first
    | exact proceeds_ok (follows_beginDocument h)
    | exact proceeds_ok (follows_beginTag h)
    | exact proceeds_ok (follows_beginItem h)
    | exact proceeds_beginDoctype h
    | exact proceeds_failHere h

theorem proceeds_readText (h : Follows base s) (t : Token) : Proceeds base (s.readText t) := by
  unfold readText
  repeat' split
  all_goals first
    | exact proceeds_ok h
    | exact proceeds_ok (follows_markText h)
    | exact proceeds_ok (follows_beginTag h)
    | exact proceeds_ok (follows_beginItem h)
    | exact proceeds_failHere h

theorem proceeds_readBetween (h : Follows base s) (t : Token) :
    Proceeds base (s.readBetween t) := by
  unfold readBetween
  split
  · exact proceeds_readOutside h t
  · exact proceeds_readText h t

theorem proceeds_readComment (h : Follows base s) (t : Token) :
    Proceeds base (s.readComment t) := by
  unfold readComment
  repeat' split
  all_goals first
    | exact proceeds_ok h
    | exact proceeds_failHere h

theorem proceeds_readMarked (h : Follows base s) (t : Token) : Proceeds base (s.readMarked t) := by
  unfold readMarked
  repeat' split
  all_goals first
    | exact proceeds_ok h
    | exact proceeds_ok (follows_markText h)
    | exact proceeds_failHere h

/-! ## Instructions and declarations -/

theorem proceeds_readInstruction (h : Follows base s) (place : InstructionPlace) (t : Token) :
    Proceeds base (s.readInstruction place t) := by
  unfold readInstruction nameInstruction endBareInstruction
  cases place <;> cases t
  all_goals dsimp only
  all_goals repeat' split
  all_goals first
    | exact proceeds_ok h
    | exact proceeds_ok (follows_beginDocument h)
    | exact proceeds_failHere h

theorem proceeds_endDeclaration (h : Follows base s) : Proceeds base s.endDeclaration := by
  unfold endDeclaration
  dsimp only
  repeat' split
  all_goals first
    | exact proceeds_ok h
    | exact proceeds_failHere h

theorem proceeds_readDeclaration (h : Follows base s) (place : DeclarationPlace) (t : Token) :
    Proceeds base (s.readDeclaration place t) := by
  unfold readDeclaration readFieldName
  repeat' split
  all_goals first
    | exact proceeds_ok h
    | exact proceeds_endDeclaration h
    | exact proceeds_failHere h

/-! ## Document type declarations -/

theorem proceeds_finishKeyword (h : Follows base s) (word : String) :
    Proceeds base (s.finishKeyword word) := by
  unfold finishKeyword
  repeat' split
  all_goals first
    | exact proceeds_ok h
    | exact proceeds_failHere h

theorem proceeds_readDoctypeBetween (h : Follows base s) (t : Token) :
    Proceeds base (s.readDoctypeBetween t) := by
  unfold readDoctypeBetween
  split
  all_goals first
    | exact proceeds_ok h
    | exact proceeds_failHere h

theorem proceeds_readKeyword (h : Follows base s) (read : List Char) (t : Token) :
    Proceeds base (s.readKeyword read t) := by
  unfold readKeyword
  repeat' split
  all_goals first
    | exact proceeds_ok h
    | exact proceeds_finishKeyword h _
    | exact proceeds_failHere h

/-- An entity is declared, by a name and a value that come in several places. -/
theorem proceeds_readEntity (h : Follows base s) (t : Token) (isParameter : Bool) (word : Word)
    (name : String) (read digits : List Char) :
    Proceeds base (s.readBeforeEntityName isParameter t) ∧
    Proceeds base (s.readEntityName word t) ∧
    Proceeds base (s.readBeforeEntityValue name t) ∧
    Proceeds base (s.readEntityValue name read t) ∧
    Proceeds base (s.readEntityValueReference name read t) ∧
    Proceeds base (s.readEntityValueNumeric name read digits t) ∧
    Proceeds base (s.readEntityValueParameter name read digits t) := by
  unfold readBeforeEntityName readEntityName readBeforeEntityValue readEntityValue
    readEntityValueReference readEntityValueNumeric readEntityValueParameter
  refine ⟨?_, ?_, ?_, ?_, ?_, ?_, ?_⟩
  all_goals repeat' split
  all_goals first
    | exact proceeds_ok h
    | exact proceeds_ok (follows_declareEntity h _ _)
    | exact proceeds_failHere h

theorem proceeds_readParameterReference (h : Follows base s) (read : List Char) (t : Token) :
    Proceeds base (s.readParameterReference read t) := by
  unfold readParameterReference
  cases t
  all_goals dsimp only
  all_goals repeat' split
  all_goals first
    | exact proceeds_ok h
    | exact proceeds_failHere h

theorem proceeds_readDoctype (h : Follows base s) (place : DoctypePlace) (t : Token) :
    Proceeds base (s.readDoctype place t) := by
  have entity := proceeds_readEntity h t
  unfold readDoctype
  cases place with
  | between => exact proceeds_readDoctypeBetween h t
  | quoted q =>
    dsimp only
    split <;> exact proceeds_ok h
  | comment =>
    dsimp only
    split <;> exact proceeds_ok h
  | keyword read => exact proceeds_readKeyword h read t
  | beforeEntityName isParameter => exact (entity isParameter .empty "" [] []).1
  | entityName name => exact (entity false name "" [] []).2.1
  | beforeEntityValue name => exact (entity false .empty name [] []).2.2.1
  | entityValue name read => exact (entity false .empty name read []).2.2.2.1
  | valueReference name read => exact (entity false .empty name read []).2.2.2.2.1
  | valueNumeric name read digits => exact (entity false .empty name read digits).2.2.2.2.2.1
  | valueParameter name read parameter =>
    exact (entity false .empty name read parameter).2.2.2.2.2.2
  | parameterReference read => exact proceeds_readParameterReference h read t
  | rest =>
    dsimp only
    split <;> exact proceeds_ok h

/-! ## Tokens and characters -/

/-- **One token adds events**, wherever in the syntax it stands. -/
theorem proceeds_read (h : Follows base s) (t : Token) : Proceeds base (s.read t) := by
  unfold read
  split
  · exact proceeds_failHere h
  · cases s.mode with
    | between => exact proceeds_readBetween h t
    | comment => exact proceeds_readComment h t
    | marked => exact proceeds_readMarked h t
    | textReference read => exact proceeds_readTextReference h read t
    | valueReference value read => exact proceeds_readValueReference h value read t
    | tagName name => exact proceeds_readTagName h name t
    | tag tag place => exact proceeds_readTag h tag place t
    | value value => exact proceeds_readValue h value t
    | endName name => exact proceeds_readEndName h name t
    | endBlank name => exact proceeds_readEndBlank h name t
    | instruction place => exact proceeds_readInstruction h place t
    | declaration place => exact proceeds_readDeclaration h place t
    | doctype place => exact proceeds_readDoctype h place t

theorem proceeds_readAll (h : Follows base s) (tokens : List Placed) :
    Proceeds base (s.readAll tokens) := by
  induction tokens generalizing s with
  | nil => exact proceeds_ok h
  | cons placed tokens ih =>
    obtain ⟨t, p⟩ := placed
    have first : Proceeds base ({ s with place := p }.read t) :=
      proceeds_read (s := { s with place := p }) h t
    unfold readAll
    cases read : { s with place := p }.read t with
    | error failure =>
      rw [read] at first
      exact first
    | ok next =>
      rw [read] at first
      exact ih first

theorem proceeds_step (h : Follows base s) (c : Char) (behind : Position) :
    Proceeds base (s.step c behind) :=
  proceeds_readAll (s := { s with lexer := (s.lexer.step c s.head behind).2, head := behind }) h _

/-- The characters of a replacement add events if what follows a further one does. -/
theorem proceeds_readReplaced {again : List Char → State → Except Failure State}
    (further : ∀ cs s, Follows base s → Proceeds base (again cs s)) (cs : List Char)
    (h : Follows base s) : Proceeds base (readReplaced again cs s) := by
  induction cs generalizing s with
  | nil => exact proceeds_ok h
  | cons c cs ih =>
    have stepped := proceeds_step h c s.head
    unfold readReplaced
    cases step : s.step c s.head with
    | error failure =>
      rw [step] at stepped
      exact stepped
    | ok next =>
      rw [step] at stepped
      dsimp only
      split
      · exact ih stepped
      · split
        · exact further _ { next with replacement := [] } stepped
        · exact proceeds_failHere stepped

theorem proceeds_readReplacement (further : Nat) (cs : List Char) (h : Follows base s) :
    Proceeds base (readReplacement further cs s) := by
  induction further generalizing cs s with
  | zero => exact proceeds_readReplaced (fun _ _ kept => proceeds_failHere kept) cs h
  | succ further ih => exact proceeds_readReplaced (fun cs _ kept => ih cs kept) cs h

/-- **One character adds events**, with all replacements that it leads to. -/
theorem proceeds_readChar (h : Follows base s) (c : Char) : Proceeds base (s.readChar c) := by
  have stepped := proceeds_step h c (s.head.advance c)
  unfold readChar
  cases step : s.step c (s.head.advance c) with
  | error failure =>
    rw [step] at stepped
    exact stepped
  | ok next =>
    rw [step] at stepped
    dsimp only
    split
    · exact proceeds_ok stepped
    · exact proceeds_readReplacement _ _ (s := { next with replacement := [] }) stepped

end State

/-! ## Documents -/

namespace Events

theorem items_broken (events : List Event) (position : Position) :
    (broken events position).items = events.reverse := rfl

/-- **The events from a state on** go on those of the state. No element is open in the end if the
document is complete. -/
theorem grows_read (bytes : List UInt8) (unfinished : Unfinished) {base s : State}
    (h : State.Follows base s) :
    ∃ n, Grows base.nesting.length base.events n (read bytes unfinished s).items.reverse ∧
      ∀ position, (read bytes unfinished s).ending = .complete position → n = 0 := by
  have ends {events : List Event} {n : Nat} {position : Position}
      (grown : Grows base.nesting.length base.events n events) :
      ∃ n, Grows base.nesting.length base.events n (broken events position).items.reverse ∧
        ∀ closing, (broken events position).ending = .complete closing → n = 0 := by
    refine ⟨n, ?_, nofun⟩
    rw [items_broken, List.reverse_reverse]
    exact grown
  induction bytes generalizing unfinished s with
  | nil =>
    cases unfinished with
    | nothing =>
      refine ⟨s.nesting.length, ?_, fun position complete => ?_⟩
      · show Grows _ _ _ s.events.reverse.reverse
        rw [List.reverse_reverse]
        exact h
      · have finished : s.isComplete = true := by
          cases closed : s.isComplete with
          | true => rfl
          | false => simp [read, State.finish, closed] at complete
        simp only [State.isComplete, State.isOutside, Bool.and_eq_true] at finished
        rw [List.isEmpty_iff.mp finished.1.1.1, List.length_nil]
    | utf8 missing value least => exact ends h
    | halfUnit byte lead => exact ends h
    | surrogate lead => exact ends h
  | cons byte bytes ih =>
    unfold read
    cases decode s.encoding unfinished byte with
    | more unfinished' => exact ih unfinished' h
    | invalid => exact ends h
    | char c =>
      have kept := State.proceeds_readChar h c
      dsimp only
      cases step : s.readChar c with
      | error failure =>
        rw [step] at kept
        obtain ⟨n, grown⟩ := kept
        exact ends grown
      | ok next =>
        rw [step] at kept
        exact ih .nothing kept

/-- What has been read is not changed by bytes behind it. -/
theorem read_append (bytes more : List UInt8) (unfinished : Unfinished) (s : State) :
    (read bytes unfinished s).items <+: (read (bytes ++ more) unfinished s).items := by
  induction bytes generalizing unfinished s with
  | nil =>
    have here : (read [] unfinished s).items = s.events.reverse := by
      cases unfinished <;> rfl
    obtain ⟨n, grown, -⟩ := grows_read more unfinished (State.proceeds_ok (.refl : s.Follows s))
    rw [here, List.nil_append, ← List.reverse_suffix, List.reverse_reverse]
    exact grown.suffix
  | cons byte bytes ih =>
    rw [List.cons_append]
    unfold read
    cases decode s.encoding unfinished byte with
    | more unfinished' => exact ih unfinished' s
    | invalid => exact List.prefix_rfl
    | char c =>
      dsimp only
      cases s.readChar c with
      | error failure => exact List.prefix_rfl
      | ok next => exact ih .nothing next

/-! ### The front of a document -/

/-- The beginnings of documents that the next byte can give another meaning: parts of a byte order
mark, and a `<` of which it is not clear what it begins. -/
def undecided : List (List UInt8) :=
  [[], [0x3c], [0xef], [0xef, 0xbb], [0xef, 0xbb, 0xbf], [0xef, 0xbb, 0xbf, 0x3c], [0xfe], [0xff]]

theorem items_undecided : ∀ bytes ∈ undecided, (ofBytes bytes).items = [] := by
  decide

theorem detect_append {bytes : List UInt8} (decided : bytes ∉ undecided) (more : List UInt8) :
    Encoding.detect (bytes ++ more)
      = ((Encoding.detect bytes).1, (Encoding.detect bytes).2 ++ more) := by
  -- a mark has three bytes at most, so these are the lengths that matter
  match bytes with
  | [] => exact absurd List.mem_cons_self decided
  | [_] | [_, _] | _ :: _ :: _ :: _ =>
    unfold Encoding.detect
    split <;> split <;> simp_all [undecided]

theorem startWithTag_append {bytes : List UInt8} (decided : bytes ∉ undecided)
    (more : List UInt8) : startWithTag (bytes ++ more) = startWithTag bytes := by
  match bytes with
  | [] => exact absurd List.mem_cons_self decided
  | [_] | [_, _] | [_, _, _] | [_, _, _, _] | _ :: _ :: _ :: _ :: _ :: _ =>
    unfold startWithTag
    split <;> split <;> simp_all [undecided]

theorem ending_pinFirst (events : Events) : events.pinFirst.ending = events.ending := by
  unfold pinFirst
  split <;> rfl

/-- The first start tag gets another position, and everything else stays. -/
theorem nested_pinFirst {n : Nat} {events : Events} (h : Nested n events.items.reverse) :
    Nested n events.pinFirst.items.reverse := by
  unfold pinFirst
  split
  · rename_i name attributes position rest items
    rw [items, List.reverse_cons] at h
    rw [List.reverse_cons]
    exact h.move_first Position.start
  · exact h

theorem pinFirst_prefix {events later : Events} (h : events.items <+: later.items) :
    events.pinFirst.items <+: later.pinFirst.items := by
  obtain ⟨items, ending⟩ := events
  obtain ⟨items', ending'⟩ := later
  obtain ⟨rest, same⟩ := h
  dsimp only at same
  subst same
  cases items with
  | nil => exact List.nil_prefix
  | cons event items => cases event <;> exact ⟨rest, rfl⟩

/-- **The events of a document nest**, also where it breaks off, and if it is complete all
elements are closed. -/
theorem nested_items (bytes : List UInt8) :
    ∃ n, Nested n (ofBytes bytes).items.reverse ∧
      ∀ position, (ofBytes bytes).ending = .complete position → n = 0 := by
  have started : (State.start (Encoding.detect bytes).1).Follows (State.start
      (Encoding.detect bytes).1) := .refl
  obtain ⟨n, grown, closed⟩ := grows_read (Encoding.detect bytes).2 .nothing started
  have nested : Nested n _ := grown.nested .nil
  unfold ofBytes
  dsimp only
  split
  · refine ⟨n, nested_pinFirst nested, fun position complete => ?_⟩
    rw [ending_pinFirst] at complete
    exact closed position complete
  · exact ⟨n, nested, closed⟩

/-- **Bytes behind a part of a document** add events behind those of this part. -/
theorem items_append (bytes more : List UInt8) :
    (ofBytes bytes).items <+: (ofBytes (bytes ++ more)).items := by
  by_cases decided : bytes ∈ undecided
  · rw [items_undecided bytes decided]
    exact List.nil_prefix
  · have read := read_append (Encoding.detect bytes).2 more .nothing
      (State.start (Encoding.detect bytes).1)
    unfold ofBytes
    rw [detect_append decided, startWithTag_append decided]
    dsimp only
    split
    · exact pinFirst_prefix read
    · exact read

end Events

end Phrasebook.Markup
