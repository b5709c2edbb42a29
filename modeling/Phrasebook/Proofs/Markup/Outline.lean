import Phrasebook.Markup.Tree

/-!
# Trees and the events they yield

The events of a document say how its elements nest, and the stack of open elements turns them
back into trees. Both directions are settled here for every sequence of top-level elements, so
that a document with one of them is a special case.

- `Yields`: the events of neighbouring nodes. A text may come in several stretches.
- `Outline`: the events of a sequence of top-level elements, with stray text between them.
- `run_outline`, `ofEvents_of_outline`: from events to trees. The last top-level element is the
  root, and every other one is lost.
- `openAfter`: the number of elements that are open behind some events.
- `Nested`: every end tag has a start tag before it.
- `Trace`: the invariant of the stack. What has been read are the events of the elements that
  are complete and of the open ones as far as they go.
- `Builder.StepSpec`: what one event does. `Builder.step_trace` says that it keeps the trace.
- `outline_of_ofEvents`: from trees to events. Whatever was built, its outline was read.
-/

namespace Phrasebook.Markup

/-! ## Events of a tree -/

/-- The events of neighbouring nodes, in the order of the document. -/
inductive Yields : List Node → List Event → Prop
  | nil : Yields [] []
  | text {stretches : List String} {nodes : List Node} {events : List Event}
      (nonempty : stretches ≠ []) (rest : Yields nodes events) :
      Yields (.text (String.join stretches) :: nodes) (stretches.map .text ++ events)
  | element {name : String} {attributes : List (String × String)} {position closing : Position}
      {children nodes : List Node} {inner events : List Event}
      (content : Yields children inner) (rest : Yields nodes events) :
      Yields (.element name attributes position children :: nodes)
        (.startTag name attributes position :: inner ++ .endTag closing :: events)

/-- The events of top-level elements. Text outside of them belongs to none. -/
inductive Outline : List Element → List Event → Prop
  | nil : Outline [] []
  | stray {content : String} {elements : List Element} {events : List Event}
      (rest : Outline elements events) : Outline elements (.text content :: events)
  | element {e : Element} {closing : Position} {elements : List Element}
      {inner events : List Event} (content : Yields e.children inner)
      (rest : Outline elements events) :
      Outline (e :: elements)
        (.startTag e.name e.attributes e.position :: inner ++ .endTag closing :: events)

mutual

/-- The number of elements that lie within each other, counted from a node. -/
def Node.height : Node → Nat
  | .text _ => 0
  | .element _ _ _ children => heightOf children + 1

/-- The greatest height among nodes. -/
def heightOf : List Node → Nat
  | [] => 0
  | node :: nodes => max node.height (heightOf nodes)

end

/-- The number of elements that lie within each other, the root included. -/
def Element.height (e : Element) : Nat :=
  heightOf e.children + 1

/-- The first of the nodes is text. -/
def beginsWithText : List Node → Bool
  | .text _ :: _ => true
  | _ => false

mutual

/-- No text within the node is empty or stands beside another one. -/
def Node.IsTidy : Node → Prop
  | .text content => content ≠ ""
  | .element _ _ _ children => AreTidy children

/-- No text among the nodes is empty or stands beside another one. -/
def AreTidy : List Node → Prop
  | [] => True
  | node :: nodes =>
    node.IsTidy ∧ ¬(beginsWithText [node] = true ∧ beginsWithText nodes = true) ∧ AreTidy nodes

end

/-! ## From events to trees -/

namespace Builder

theorem run_cons_of_ok {b b' : Builder} {event : Event} (step : b.step event = .ok b')
    (events : List Event) : b.run (event :: events) = b'.run events := by
  rw [run, step]

theorem run_cons_eq_ok {b b' : Builder} {event : Event} {events : List Event}
    (read : b.run (event :: events) = .ok b') :
    ∃ next, b.step event = .ok next ∧ next.run events = .ok b' := by
  rw [run] at read
  cases step : b.step event with
  | error fault =>
    rw [step] at read
    cases read
  | ok next =>
    rw [step] at read
    exact ⟨next, rfl, read⟩

theorem run_append_of_ok {b b' : Builder} {events : List Event} (read : b.run events = .ok b')
    (more : List Event) : b.run (events ++ more) = b'.run more := by
  induction events generalizing b with
  | nil =>
    cases read
    rfl
  | cons event events ih =>
    obtain ⟨next, step, read⟩ := run_cons_eq_ok read
    rw [List.cons_append, run_cons_of_ok step, ih read]

/-- Further stretches go on the text that stands last. -/
theorem run_stretches (e : Element) (rest : List Element) (root : Option Element)
    (before : String) (children : List Node) (stretches : List String) :
    run ⟨{ e with children := .text before :: children } :: rest, root⟩ (stretches.map .text)
      = .ok ⟨{ e with children := .text (stretches.foldl (· ++ ·) before) :: children } :: rest,
          root⟩ := by
  induction stretches generalizing before with
  | nil => rfl
  | cons s stretches ih => exact ih (before ++ s)

/-- A first stretch opens a text, unless one stands last already. -/
theorem addText_of_not_beginsWithText {children : List Node}
    (apart : beginsWithText children = false) (content : String) :
    addText children content = .text content :: children := by
  cases children with
  | nil => rfl
  | cons node children =>
    cases node with
    | text before => cases apart
    | element name attributes position inner => rfl

/-- The events of nodes add these nodes to the innermost open element. -/
theorem run_yields {nodes : List Node} {events : List Event} (h : Yields nodes events)
    (e : Element) (rest : List Element) (root : Option Element) (tidy : AreTidy nodes)
    (apart : beginsWithText nodes = true → beginsWithText e.children = false)
    (room : rest.length + 1 + heightOf nodes ≤ maxDepth) :
    run ⟨e :: rest, root⟩ events
      = .ok ⟨{ e with children := nodes.reverse ++ e.children } :: rest, root⟩ := by
  induction h generalizing e rest with
  | nil => rfl
  | @text stretches nodes events nonempty _ ih =>
    obtain ⟨-, alone, tidy⟩ := tidy
    have room : rest.length + 1 + heightOf nodes ≤ maxDepth := by
      simp only [heightOf, Node.height] at room
      omega
    obtain ⟨s, stretches, rfl⟩ := List.exists_cons_of_ne_nil nonempty
    have first : step ⟨e :: rest, root⟩ (.text s)
        = .ok ⟨{ e with children := .text s :: e.children } :: rest, root⟩ := by
      simp only [step, addText_of_not_beginsWithText (apart rfl)]
    have join : String.join (s :: stretches) = stretches.foldl (· ++ ·) s := by
      simp [String.join]
    have after : beginsWithText nodes = true →
        beginsWithText (.text (String.join (s :: stretches)) :: e.children) = false :=
      fun begins => absurd ⟨rfl, begins⟩ alone
    rw [List.map_cons, List.cons_append, run_cons_of_ok first,
      run_append_of_ok (run_stretches e rest root s e.children stretches), ← join,
      ih { e with children := .text (String.join (s :: stretches)) :: e.children } rest tidy
        after room]
    simp
  | @element name attributes position closing children nodes inner events _ _ ihContent ihRest =>
    obtain ⟨tidyChildren, -, tidy⟩ := tidy
    have deeper : (e :: rest).length + 1 + heightOf children ≤ maxDepth := by
      simp only [heightOf, Node.height] at room
      simp only [List.length_cons]
      omega
    have room : rest.length + 1 + heightOf nodes ≤ maxDepth := by
      simp only [heightOf] at room
      omega
    have opened : step ⟨e :: rest, root⟩ (.startTag name attributes position)
        = .ok ⟨⟨name, attributes, position, []⟩ :: e :: rest, root⟩ := by
      have : (e :: rest).length < maxDepth := by omega
      rw [step, if_pos this]
    have content := ihContent ⟨name, attributes, position, []⟩ (e :: rest) tidyChildren
      (fun _ => rfl) deeper
    have closes : step
        ⟨⟨name, attributes, position, children.reverse ++ []⟩ :: e :: rest, root⟩ (.endTag closing)
        = .ok ⟨{ e with
            children := .element name attributes position children :: e.children } :: rest,
            root⟩ := by
      simp [step, closed, Element.node]
    rw [List.cons_append, run_cons_of_ok opened, run_append_of_ok content,
      run_cons_of_ok closes,
      ihRest { e with children := .element name attributes position children :: e.children }
        rest tidy (fun _ => rfl) room]
    simp

/-- The events of top-level elements make the last of them the root. -/
theorem run_outline {elements : List Element} {events : List Event}
    (h : Outline elements events)
    (sound : ∀ e ∈ elements, AreTidy e.children ∧ e.height ≤ maxDepth)
    (root : Option Element) :
    run ⟨[], root⟩ events = .ok ⟨[], elements.getLast?.or root⟩ := by
  induction h generalizing root with
  | nil => rfl
  | stray _ ih =>
    rw [run_cons_of_ok rfl]
    exact ih sound root
  | @element e closing elements inner events content _ ih =>
    obtain ⟨tidy, height⟩ := sound e List.mem_cons_self
    have opened : step ⟨[], root⟩ (.startTag e.name e.attributes e.position)
        = .ok ⟨[⟨e.name, e.attributes, e.position, []⟩], root⟩ := rfl
    have room : ([] : List Element).length + 1 + heightOf e.children ≤ maxDepth := by
      unfold Element.height at height
      rw [List.length_nil]
      omega
    have content := run_yields content ⟨e.name, e.attributes, e.position, []⟩ [] root tidy
      (fun _ => rfl) room
    have closes : step ⟨[⟨e.name, e.attributes, e.position, e.children.reverse ++ []⟩], root⟩
        (.endTag closing) = .ok ⟨[], some e⟩ := by
      simp [step, closed]
    rw [List.cons_append, run_cons_of_ok opened, run_append_of_ok content,
      run_cons_of_ok closes, ih fun x mem => sound x (List.mem_cons_of_mem e mem)]
    rw [List.getLast?_cons]
    cases elements.getLast? <;> rfl

end Builder

/-- **The last top-level element is read** as the root. -/
theorem ofEvents_of_outline {elements : List Element} {root : Element} {events : List Event}
    (h : Outline (elements ++ [root]) events)
    (sound : ∀ e ∈ elements ++ [root], AreTidy e.children ∧ e.height ≤ maxDepth)
    (position : Position) : Element.ofEvents ⟨events, .complete position⟩ = .ok root := by
  have built := Builder.run_outline h sound none
  rw [List.getLast?_concat] at built
  unfold Element.ofEvents
  rw [show Builder.start = ⟨[], none⟩ from rfl, built]
  rfl

/-! ## From trees to events -/

/-- The number of open elements after an event. -/
def Event.depthAfter (n : Nat) : Event → Nat
  | .startTag _ _ _ => n + 1
  | .endTag _ => n - 1
  | .text _ => n

/-- The number of elements that are open behind some events. -/
def openAfter (events : List Event) : Nat :=
  events.foldl (fun n event => event.depthAfter n) 0

theorem openAfter_snoc (events : List Event) (event : Event) :
    openAfter (events ++ [event]) = event.depthAfter (openAfter events) := by
  rw [openAfter, List.foldl_append]
  rfl

/-- What has been read, the last event first, and the number of elements that are open then. No
end tag stands without a start tag before it. -/
inductive Nested : Nat → List Event → Prop
  | nil : Nested 0 []
  | cons {n : Nat} {event : Event} {events : List Event} (before : Nested n events)
      (matched : ∀ closing, event = .endTag closing → n ≠ 0) :
      Nested (event.depthAfter n) (event :: events)

theorem Nested.startTag {n : Nat} {events : List Event} (before : Nested n events)
    (name : String) (attributes : List (String × String)) (position : Position) :
    Nested (n + 1) (.startTag name attributes position :: events) :=
  have other : ∀ closing, Event.startTag name attributes position = .endTag closing → n ≠ 0 :=
    nofun
  .cons before other

/-- In events that nest, no more elements are closed than are open. -/
theorem Nested.eq_openAfter {n : Nat} {events : List Event} (nested : Nested n events) :
    n = openAfter events.reverse := by
  induction nested with
  | nil => rfl
  | @cons n event events _ _ ih => rw [List.reverse_cons, openAfter_snoc, ih]

/-- Positions have no part in how events nest. -/
theorem Nested.move_first {n : Nat} {events : List Event} {name : String}
    {attributes : List (String × String)} {position : Position}
    (h : Nested n (events ++ [.startTag name attributes position])) (moved : Position) :
    Nested n (events ++ [.startTag name attributes moved]) := by
  induction events generalizing n with
  | nil =>
    cases h with
    | cons before _ => exact before.startTag name attributes moved
  | cons event events ih =>
    cases h with
    | cons before matched => exact .cons (ih before) matched

/-- The events read so far are those of the elements that are complete, and of each open one its
start tag and the children it has. The innermost open element comes first. -/
inductive Trace (complete : List Element) : List Element → List Event → Prop
  | outside {events : List Event} (outline : Outline complete events) :
      Trace complete [] events
  | inside {e : Element} {rest : List Element} {before inner : List Event}
      (around : Trace complete rest before) (content : Yields e.children.reverse inner) :
      Trace complete (e :: rest)
        (before ++ .startTag e.name e.attributes e.position :: inner)

theorem Yields.append {nodes more : List Node} {events later : List Event}
    (h : Yields nodes events) (h' : Yields more later) :
    Yields (nodes ++ more) (events ++ later) := by
  induction h with
  | nil => exact h'
  | text nonempty _ ih =>
    rw [List.append_assoc]
    exact .text nonempty ih
  | element content _ _ ih =>
    rw [List.append_assoc]
    exact .element content ih

/-- Another stretch goes on the last text. -/
theorem Yields.extend {nodes : List Node} {before content : String} {events : List Event}
    (h : Yields (nodes ++ [.text before]) events) :
    Yields (nodes ++ [.text (before ++ content)]) (events ++ [.text content]) := by
  induction nodes generalizing events with
  | nil =>
    cases h with
    | @text stretches _ _ _ rest =>
      cases rest
      have joined : String.join stretches ++ content = String.join (stretches ++ [content]) := by
        simp [String.join]
      have longer : Yields [.text (String.join (stretches ++ [content]))]
          ((stretches ++ [content]).map .text ++ []) := .text (by simp) .nil
      rw [List.nil_append, joined]
      simpa using longer
  | cons node nodes ih =>
    cases h with
    | text nonempty rest =>
      rw [List.append_assoc]
      exact .text nonempty (ih rest)
    | element content rest =>
      rw [List.append_assoc]
      exact .element content (ih rest)

theorem Outline.append {elements more : List Element} {events later : List Event}
    (h : Outline elements events) (h' : Outline more later) :
    Outline (elements ++ more) (events ++ later) := by
  induction h with
  | nil => exact h'
  | stray _ ih => exact .stray ih
  | element content _ ih =>
    rw [List.append_assoc]
    exact .element content ih

/-- The children of an open element with a stretch of text behind them. -/
theorem Yields.addText {children : List Node} {inner : List Event}
    (h : Yields children.reverse inner) (content : String) :
    Yields (Builder.addText children content).reverse (inner ++ [.text content]) := by
  cases begins : beginsWithText children with
  | false =>
    rw [Builder.addText_of_not_beginsWithText begins, List.reverse_cons]
    have alone : Yields [.text (String.join [content])] ([content].map .text ++ []) :=
      .text (by simp) .nil
    exact h.append (by simpa [String.join] using alone)
  | true =>
    match children with
    | .text before :: children =>
      rw [List.reverse_cons] at h
      show Yields (.text (before ++ content) :: children).reverse _
      rw [List.reverse_cons]
      exact h.extend

namespace Builder

/-- What each event does to a builder that takes it in. -/
inductive StepSpec : Builder → Event → Builder → Prop
  | opens {b : Builder} {name : String} {attributes : List (String × String)} {position : Position}
      (room : b.nesting.length < maxDepth) :
      StepSpec b (.startTag name attributes position)
        { b with nesting := ⟨name, attributes, position, []⟩ :: b.nesting }
  | closesLast {e : Element} {root : Option Element} {closing : Position} :
      StepSpec ⟨[e], root⟩ (.endTag closing) ⟨[], some (closed e)⟩
  | closes {e parent : Element} {rest : List Element} {root : Option Element}
      {closing : Position} :
      StepSpec ⟨e :: parent :: rest, root⟩ (.endTag closing)
        ⟨{ parent with children := (closed e).node :: parent.children } :: rest, root⟩
  | stray {root : Option Element} {content : String} :
      StepSpec ⟨[], root⟩ (.text content) ⟨[], root⟩
  | adds {e : Element} {rest : List Element} {root : Option Element} {content : String} :
      StepSpec ⟨e :: rest, root⟩ (.text content)
        ⟨{ e with children := addText e.children content } :: rest, root⟩

theorem step_spec {b b' : Builder} {event : Event} (step : b.step event = .ok b') :
    StepSpec b event b' := by
  obtain ⟨nesting, root⟩ := b
  cases event with
  | startTag name attributes position =>
    by_cases room : nesting.length < maxDepth
    · simp only [Builder.step, if_pos room, Except.ok.injEq] at step
      subst step
      exact .opens room
    · simp [Builder.step, if_neg room] at step
  | endTag closing =>
    match nesting with
    | [] => cases step
    | [_] =>
      cases step
      exact .closesLast
    | _ :: _ :: _ =>
      cases step
      exact .closes
  | text content =>
    cases nesting with
    | nil =>
      cases step
      exact .stray
    | cons e rest =>
      cases step
      exact .adds

/-- **One event keeps the trace.** The root is the last element that is complete. -/
theorem step_trace {b b' : Builder} {event : Event} {complete : List Element}
    {events : List Event} (trace : Trace complete b.nesting events)
    (last : b.root = complete.getLast?) (step : b.step event = .ok b') :
    ∃ complete', Trace complete' b'.nesting (events ++ [event]) ∧
      b'.root = complete'.getLast? := by
  cases step_spec step with
  | @opens _ name attributes position _ =>
    have begun : Trace complete (⟨name, attributes, position, []⟩ :: b.nesting)
        (events ++ .startTag name attributes position :: []) := .inside trace .nil
    exact ⟨complete, begun, last⟩
  | @closesLast e root closing =>
    cases trace with
    | inside around children =>
      cases around with
      | outside outline =>
        refine ⟨complete ++ [closed e], .outside ?_, by simp⟩
        rw [List.append_assoc]
        exact outline.append (.element (e := closed e) children .nil)
  | @closes e parent rest root closing =>
    cases trace with
    | @inside _ _ _ inner around children =>
      cases around with
      | @inside _ _ before siblings around above =>
        refine ⟨complete, ?_, last⟩
        rw [List.append_assoc, List.append_assoc]
        have longer : Yields ((closed e).node :: parent.children).reverse
            (siblings ++ (.startTag e.name e.attributes e.position :: inner
              ++ [.endTag closing])) := by
          rw [List.reverse_cons]
          exact above.append (.element children .nil)
        exact .inside (e := { parent with children := (closed e).node :: parent.children })
          around longer
  | @stray root content =>
    cases trace with
    | outside outline =>
      have stray : Outline [] [.text content] := .stray .nil
      refine ⟨complete, .outside ?_, last⟩
      simpa using outline.append stray
  | @adds e rest root content =>
    cases trace with
    | inside around children =>
      refine ⟨complete, ?_, last⟩
      rw [List.append_assoc]
      exact .inside (e := { e with children := addText e.children content }) around
        (children.addText content)

theorem length_nesting_of_step {b b' : Builder} {event : Event} (step : b.step event = .ok b') :
    b'.nesting.length = event.depthAfter b.nesting.length := by
  cases step_spec step <;> rfl

/-- A run leaves as many elements open as its events do. -/
theorem length_nesting_of_run {b b' : Builder} {events : List Event}
    (read : b.run events = .ok b') :
    b'.nesting.length = events.foldl (fun n event => event.depthAfter n) b.nesting.length := by
  induction events generalizing b with
  | nil =>
    cases read
    rfl
  | cons event events ih =>
    obtain ⟨next, step, read⟩ := run_cons_eq_ok read
    rw [ih read, length_nesting_of_step step, List.foldl_cons]

/-- A run leaves a trace of all its events behind what was read before. -/
theorem trace_of_run {b b' : Builder} {complete : List Element} {before events : List Event}
    (trace : Trace complete b.nesting before) (last : b.root = complete.getLast?)
    (read : b.run events = .ok b') :
    ∃ complete', Trace complete' b'.nesting (before ++ events) ∧
      b'.root = complete'.getLast? := by
  induction events generalizing b complete before with
  | nil =>
    cases read
    rw [List.append_nil]
    exact ⟨complete, trace, last⟩
  | cons event events ih =>
    obtain ⟨next, step, read⟩ := run_cons_eq_ok read
    obtain ⟨complete', trace', last'⟩ := step_trace trace last step
    rw [List.append_cons]
    exact ih trace' last' read

end Builder

/-- A complete document has the last root that was closed. -/
theorem ofEvents_eq_ok_iff {events : Events} {root : Element} :
    Element.ofEvents events = .ok root ↔
      (∃ position, events.ending = .complete position) ∧
        ∃ b, Builder.start.run events.items = .ok b ∧ b.root = some root := by
  unfold Element.ofEvents
  cases Builder.start.run events.items with
  | error fault => simp
  | ok b =>
    cases events.ending with
    | malformed position => simp
    | complete position => cases last : b.root <;> simp [last]

/-- A document is refused by the stack, or else for its syntax. All end tags are left to the
stack. -/
theorem run_eq_error_or_malformed {events : Events} {fault : Fault}
    (refused : Element.ofEvents events = .error fault) :
    Builder.start.run events.items = .error fault ∨
      ∃ m, fault = .malformed m ∧ m.breach ≠ .strayEndTag := by
  unfold Element.ofEvents at refused
  cases run : Builder.start.run events.items with
  | error other =>
    rw [run] at refused
    cases refused
    exact .inl rfl
  | ok b =>
    rw [run] at refused
    cases ending : events.ending with
    | malformed position =>
      rw [ending] at refused
      cases refused
      exact .inr ⟨_, rfl, nofun⟩
    | complete position =>
      cases last : b.root with
      | none =>
        simp only [ending, last, Except.error.injEq] at refused
        exact .inr ⟨_, refused.symm, nofun⟩
      | some e => simp [ending, last] at refused

theorem ofEvents_eq_error {events : Events} {fault : Fault}
    (refused : Builder.start.run events.items = .error fault) :
    Element.ofEvents events = .error fault := by
  rw [Element.ofEvents, refused]

/-- **Whatever was built, its outline was read.** If all elements are closed in the end, the
events are those of some elements before the root and of the root itself. -/
theorem outline_of_ofEvents {events : List Event} {ending : Ending} {root : Element}
    (closed : openAfter events = 0) (read : Element.ofEvents ⟨events, ending⟩ = .ok root) :
    ∃ earlier, Outline (earlier ++ [root]) events := by
  obtain ⟨-, b, run, final⟩ := ofEvents_eq_ok_iff.mp read
  have length := Builder.length_nesting_of_run run
  have started : Trace [] Builder.start.nesting [] := .outside .nil
  obtain ⟨complete, trace, last⟩ := Builder.trace_of_run started rfl run
  rw [List.eq_nil_of_length_eq_zero (length.trans closed), List.nil_append] at trace
  rw [final] at last
  obtain ⟨earlier, rfl⟩ := List.getLast?_eq_some_iff.mp last.symm
  cases trace with
  | outside outline => exact ⟨earlier, outline⟩

/-! ## Start tags -/

/-- The event begins an element. -/
def Event.isStartTag : Event → Bool
  | .startTag _ _ _ => true
  | _ => false

/-- The start tags among events: one for each element, in the order of the document. -/
def startTags (events : List Event) : List Event :=
  events.filter Event.isStartTag

mutual

/-- The start tags of an element and of all elements within it. -/
def Node.startTags : Node → List Event
  | .text _ => []
  | .element name attributes position children =>
    .startTag name attributes position :: startTagsWithin children

/-- The start tags of all elements among nodes and within them. -/
def startTagsWithin : List Node → List Event
  | [] => []
  | node :: nodes => node.startTags ++ startTagsWithin nodes

end

/-- The start tags of an element and of all elements within it. -/
def Element.startTags (e : Element) : List Event :=
  e.node.startTags

/-- The number of top-level elements that begin among events, where `n` elements are open before
the first of these. -/
def topLevel (n : Nat) : List Event → Nat
  | [] => 0
  | event :: events =>
    (if n = 0 ∧ event.isStartTag then 1 else 0) + topLevel (event.depthAfter n) events

theorem startTags_ne_nil (e : Element) : e.startTags ≠ [] :=
  List.cons_ne_nil _ _

theorem startTags_append (events more : List Event) :
    startTags (events ++ more) = startTags events ++ startTags more :=
  List.filter_append ..

theorem startTags_stretches (stretches : List String) :
    startTags (stretches.map .text) = [] := by
  simp [startTags, Event.isStartTag]

theorem startTags_of_yields {nodes : List Node} {events : List Event}
    (h : Yields nodes events) : startTags events = startTagsWithin nodes := by
  induction h with
  | nil => rfl
  | text _ _ ih =>
    rw [startTags_append, startTags_stretches, ih]
    rfl
  | @element name attributes position closing children nodes inner events _ _ ihContent ihRest =>
    have opened : startTags (.startTag name attributes position :: inner)
        = .startTag name attributes position :: startTags inner := rfl
    have closed : startTags (.endTag closing :: events) = startTags events := rfl
    rw [startTags_append, opened, closed, ihContent, ihRest]
    rfl

theorem startTags_of_outline {elements : List Element} {events : List Event}
    (h : Outline elements events) : startTags events = elements.flatMap Element.startTags := by
  induction h with
  | nil => rfl
  | stray _ ih => exact ih
  | @element e closing elements inner events content _ ih =>
    have opened : startTags (.startTag e.name e.attributes e.position :: inner)
        = .startTag e.name e.attributes e.position :: startTags inner := rfl
    have closed : startTags (.endTag closing :: events) = startTags events := rfl
    rw [startTags_append, opened, closed, startTags_of_yields content, ih]
    rfl

theorem topLevel_stretches (n : Nat) (stretches : List String) (more : List Event) :
    topLevel n (stretches.map .text ++ more) = topLevel n more := by
  induction stretches with
  | nil => rfl
  | cons s stretches ih =>
    rw [List.map_cons, List.cons_append, topLevel, Event.depthAfter, ih]
    simp [Event.isStartTag]

/-- Nothing within an open element counts as top-level. -/
theorem topLevel_of_yields {nodes : List Node} {events : List Event} (h : Yields nodes events)
    (n : Nat) (more : List Event) :
    topLevel (n + 1) (events ++ more) = topLevel (n + 1) more := by
  induction h generalizing n more with
  | nil => rfl
  | text _ _ ih => rw [List.append_assoc, topLevel_stretches, ih]
  | element _ _ ihContent ihRest =>
    rw [List.append_assoc, List.cons_append, topLevel, Event.depthAfter, ihContent,
      List.cons_append, topLevel, Event.depthAfter, Nat.add_sub_cancel, ihRest]
    simp

theorem topLevel_of_outline {elements : List Element} {events : List Event}
    (h : Outline elements events) : topLevel 0 events = elements.length := by
  induction h with
  | nil => rfl
  | stray _ ih =>
    rw [topLevel, Event.depthAfter, ih]
    simp [Event.isStartTag]
  | element content _ ih =>
    rw [List.cons_append, topLevel, Event.depthAfter, topLevel_of_yields content, topLevel,
      Event.depthAfter, Nat.add_sub_cancel, ih, List.length_cons]
    simp [Event.isStartTag, Nat.add_comm]

end Phrasebook.Markup
