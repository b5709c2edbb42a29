import Mathlib.Data.List.Induction
import Phrasebook.Proofs.Markup.Growth

/-!
# How deep documents nest

A stack of open elements is kept while a document is read, and it has a limit. This module says
that the limit is one of the documents: how deep a start tag lies is told from the tags before it
alone, and a document is refused for it exactly at its first start tag that lies too deep.

- `TagAt`, `FirstTagAt`: the start tags of a level. Top-level elements are at level 1.
- `Builder.Fits`: the invariant of the stack. What is complete within an open element fits into
  the room above it.
- `Builder.exists_run`, `Builder.run_eq_error_iff`: which events are taken in, among those that
  nest, and which are refused.
- `depth_limit_exact`: all of it, for documents.
-/

namespace Phrasebook.Markup

/-! ## Levels -/

/-- Among the events there is a start tag at a level, with a position. -/
def TagAt (events : List Event) (level : Nat) (position : Position) : Prop :=
  ∃ before name attributes after, events = before ++ .startTag name attributes position :: after ∧
    openAfter before + 1 = level

/-- The same for the first start tag at the level. -/
def FirstTagAt (events : List Event) (level : Nat) (position : Position) : Prop :=
  ∃ before name attributes after, events = before ++ .startTag name attributes position :: after ∧
    openAfter before + 1 = level ∧ ∀ earlier, ¬ TagAt before level earlier

variable {events : List Event} {level : Nat} {position : Position}

theorem TagAt.append (tag : TagAt events level position) (more : List Event) :
    TagAt (events ++ more) level position := by
  obtain ⟨before, name, attributes, after, rfl, here⟩ := tag
  exact ⟨before, name, attributes, after ++ more, by simp, here⟩

theorem FirstTagAt.tagAt (first : FirstTagAt events level position) :
    TagAt events level position := by
  obtain ⟨before, name, attributes, after, split, here, -⟩ := first
  exact ⟨before, name, attributes, after, split, here⟩

/-- More events do not change which start tag is the first one. -/
theorem FirstTagAt.of_prefix {later : List Event} (first : FirstTagAt events level position)
    (front : events <+: later) : FirstTagAt later level position := by
  obtain ⟨more, rfl⟩ := front
  obtain ⟨before, name, attributes, after, rfl, here, none_before⟩ := first
  exact ⟨before, name, attributes, after ++ more, by simp, here, none_before⟩

/-- If there is a start tag at a level, there is a first one. -/
theorem exists_firstTagAt (tag : TagAt events level position) :
    ∃ first, FirstTagAt events level first := by
  -- the tags before a tag are fewer events, so the search for an earlier one ends
  induction known : events.length using Nat.strongRecOn generalizing events position with
  | ind length ih =>
    obtain ⟨before, name, attributes, after, rfl, here⟩ := tag
    by_cases earlier : ∃ p, TagAt before level p
    · obtain ⟨p, earlier⟩ := earlier
      have shorter : before.length < length := by
        rw [← known, List.length_append, List.length_cons]
        omega
      obtain ⟨first, found⟩ := ih before.length shorter earlier rfl
      exact ⟨first, found.of_prefix (List.prefix_append _ _)⟩
    · exact ⟨position, before, name, attributes, after, rfl, here, not_exists.mp earlier⟩

/-- A part of events that nest, from the first one on, nests. -/
theorem Nested.of_append {n : Nat} {before after : List Event}
    (nested : Nested n (before ++ after).reverse) : ∃ m, Nested m before.reverse := by
  induction after using List.reverseRecOn generalizing n with
  | nil =>
    rw [List.append_nil] at nested
    exact ⟨n, nested⟩
  | append_singleton after event ih =>
    rw [← List.append_assoc, List.reverse_concat] at nested
    cases nested with
    | cons earlier _ => exact ih earlier

/-- **An end tag has an element to close**, in events that nest. -/
theorem Nested.openAfter_pos {n : Nat} {before after : List Event} {closing : Position}
    (nested : Nested n (before ++ .endTag closing :: after).reverse) : 0 < openAfter before := by
  rw [List.append_cons] at nested
  obtain ⟨m, nested⟩ := nested.of_append
  rw [List.reverse_concat] at nested
  cases nested with
  | cons earlier matched =>
    rw [← List.reverse_reverse before, ← earlier.eq_openAfter]
    exact Nat.pos_of_ne_zero (matched closing rfl)

namespace Builder

/-! ## Heights -/

theorem heightOf_le_iff (nodes : List Node) (bound : Nat) :
    heightOf nodes ≤ bound ↔ ∀ node ∈ nodes, node.height ≤ bound := by
  induction nodes with
  | nil => simp [heightOf]
  | cons node nodes ih => rw [heightOf, Nat.max_le, ih, List.forall_mem_cons]

theorem heightOf_reverse (nodes : List Node) : heightOf nodes.reverse = heightOf nodes := by
  have bounds (bound : Nat) : heightOf nodes.reverse ≤ bound ↔ heightOf nodes ≤ bound := by
    rw [heightOf_le_iff, heightOf_le_iff]
    simp
  exact Nat.le_antisymm ((bounds _).mpr (Nat.le_refl _)) ((bounds _).mp (Nat.le_refl _))

theorem heightOf_addText (children : List Node) (content : String) :
    heightOf (addText children content) = heightOf children := by
  unfold addText
  split <;> simp [heightOf, Node.height]

/-- What is complete within open elements fits into the room above them. The innermost one comes
first. -/
def FitsOpen : List Element → Prop
  | [] => True
  | e :: around => heightOf e.children + (around.length + 1) ≤ maxDepth ∧ FitsOpen around

/-- The invariant of the stack and of the root. -/
structure Fits (b : Builder) : Prop where
  nesting : FitsOpen b.nesting
  root : ∀ e, b.root = some e → e.height ≤ maxDepth

/-- One event keeps everything within its room. -/
theorem Fits.step {b b' : Builder} {event : Event} (fits : b.Fits)
    (step : b.step event = .ok b') : b'.Fits := by
  obtain ⟨opened, last⟩ := fits
  cases step_spec step with
  | opens room =>
    have alone : heightOf [] + (b.nesting.length + 1) ≤ maxDepth := by
      rw [heightOf]
      omega
    exact ⟨⟨alone, opened⟩, last⟩
  | @closesLast e root closing =>
    refine ⟨trivial, fun root same => ?_⟩
    cases same
    show heightOf e.children.reverse + 1 ≤ maxDepth
    rw [heightOf_reverse]
    exact opened.1
  | @closes e parent rest root closing =>
    obtain ⟨here, there, others⟩ := opened
    refine ⟨⟨?_, others⟩, last⟩
    show max (heightOf e.children.reverse + 1) (heightOf parent.children)
      + (rest.length + 1) ≤ maxDepth
    rw [heightOf_reverse]
    rw [List.length_cons] at here
    omega
  | stray => exact ⟨trivial, last⟩
  | @adds e rest root content =>
    obtain ⟨here, others⟩ := opened
    exact ⟨⟨heightOf_addText e.children content ▸ here, others⟩, last⟩

theorem Fits.run {b b' : Builder} (fits : b.Fits) (run : b.run events = .ok b') : b'.Fits := by
  induction events generalizing b with
  | nil =>
    cases run
    exact fits
  | cons event events ih =>
    obtain ⟨next, step, run⟩ := run_cons_eq_ok run
    exact ih (fits.step step) run

theorem fits_start : start.Fits :=
  ⟨trivial, nofun⟩

/-- **The stack keeps to its limit.** -/
theorem length_nesting_le {b : Builder} (run : start.run events = .ok b) :
    b.nesting.length ≤ maxDepth := by
  obtain ⟨opened, -⟩ := fits_start.run run
  cases nesting : b.nesting with
  | nil => exact Nat.zero_le maxDepth
  | cons e around =>
    rw [nesting] at opened
    exact Nat.le_trans (Nat.le_add_left _ _) opened.1

/-! ## Refusals -/

theorem exists_step_endTag {b : Builder} (some_open : b.nesting ≠ []) (closing : Position) :
    ∃ b', b.step (.endTag closing) = .ok b' := by
  obtain ⟨nesting, root⟩ := b
  match nesting with
  | [] => exact absurd rfl some_open
  | [_] | _ :: _ :: _ => exact ⟨_, rfl⟩

theorem exists_step_text (b : Builder) (content : String) :
    ∃ b', b.step (.text content) = .ok b' := by
  obtain ⟨nesting, root⟩ := b
  cases nesting <;> exact ⟨_, rfl⟩

/-- **Events that nest are taken in** if no start tag lies too deep. -/
theorem exists_run {n : Nat} (nested : Nested n events.reverse)
    (fits : ∀ p, ¬ TagAt events (maxDepth + 1) p) : ∃ b, start.run events = .ok b := by
  induction events using List.reverseRecOn generalizing n with
  | nil => exact ⟨start, rfl⟩
  | append_singleton events event ih =>
    rw [List.reverse_concat] at nested
    cases nested with
    | cons earlier matched =>
      obtain ⟨b, run⟩ := ih earlier fun p tag => fits p (tag.append [event])
      have length : b.nesting.length = openAfter events := length_nesting_of_run run
      suffices ∃ b', b.step event = .ok b' by
        obtain ⟨b', step⟩ := this
        exact ⟨b', by rw [run_append_of_ok run, run_cons_of_ok step, Builder.run]⟩
      cases event with
      | startTag name attributes position =>
        have above : openAfter events ≠ maxDepth := fun full =>
          fits position ⟨events, name, attributes, [], rfl, by rw [full]⟩
        have bound := length_nesting_le run
        exact ⟨_, by rw [step, if_pos (by omega)]⟩
      | endTag closing =>
        refine exists_step_endTag (fun none_open => matched closing rfl ?_) closing
        rw [earlier.eq_openAfter, List.reverse_reverse, ← length, none_open, List.length_nil]
      | text content => exact exists_step_text b content

/-- **Events that nest are refused at their first start tag that lies too deep**, whatever
follows. -/
theorem run_eq_error_iff {n : Nat} (nested : Nested n events.reverse) (fault : Fault) :
    start.run events = .error fault ↔
      ∃ p, fault = .tooDeep p ∧ FirstTagAt events (maxDepth + 1) p := by
  have refuses {p : Position} (first : FirstTagAt events (maxDepth + 1) p) :
      start.run events = .error (.tooDeep p) := by
    obtain ⟨before, name, attributes, after, rfl, here, none_before⟩ := first
    obtain ⟨m, earlier⟩ := nested.of_append
    obtain ⟨b, run⟩ := exists_run earlier none_before
    have length : b.nesting.length = openAfter before := length_nesting_of_run run
    have full : ¬ b.nesting.length < maxDepth := by omega
    rw [run_append_of_ok run, Builder.run, step, if_neg full]
  constructor
  · intro refused
    by_cases deep : ∃ p, TagAt events (maxDepth + 1) p
    · obtain ⟨p, tag⟩ := deep
      obtain ⟨first, found⟩ := exists_firstTagAt tag
      have same := Except.error.inj (refused.symm.trans (refuses found))
      exact ⟨first, same, found⟩
    · obtain ⟨b, run⟩ := exists_run nested (not_exists.mp deep)
      rw [run] at refused
      cases refused
  · rintro ⟨p, rfl, first⟩
    exact refuses first

end Builder

/-! ## Documents -/

/-- A document is refused for its depth exactly if its events are. -/
theorem readDocument_eq_tooDeep_iff (bytes : List UInt8) (position : Position) :
    readDocument bytes = .error (.tooDeep position) ↔
      FirstTagAt (Events.ofBytes bytes).items (maxDepth + 1) position := by
  have refused : Builder.start.run (Events.ofBytes bytes).items = .error (.tooDeep position) ↔
      FirstTagAt (Events.ofBytes bytes).items (maxDepth + 1) position := by
    obtain ⟨n, nested, -⟩ := Events.nested_items bytes
    rw [Builder.run_eq_error_iff nested]
    simp
  rw [← refused, readDocument]
  constructor
  · intro failed
    rcases run_eq_error_or_malformed failed with run | ⟨m, same, -⟩
    · exact run
    · cases same
  · exact ofEvents_eq_error

/-- The stack refuses no end tag: the reader has compared each one with the open element. -/
theorem readDocument_ne_strayEndTag (bytes : List UInt8) (position : Position) :
    readDocument bytes ≠ .error (.malformed ⟨.strayEndTag, position⟩) := by
  intro refused
  rcases run_eq_error_or_malformed refused with run | ⟨m, same, other⟩
  · obtain ⟨n, nested, -⟩ := Events.nested_items bytes
    obtain ⟨p, same, -⟩ := (Builder.run_eq_error_iff nested _).mp run
    cases same
  · cases same
    exact other rfl

theorem height_of_readDocument {bytes : List UInt8} {root : Element}
    (read : readDocument bytes = .ok root) : root.height ≤ maxDepth := by
  obtain ⟨-, b, run, last⟩ := ofEvents_eq_ok_iff.mp read
  exact (Builder.fits_start.run run).root root last

/-- **The limit on depth is exact.** Up to no event of a document does the stack hold more than
`maxDepth` elements, and no tree is higher. If no start tag lies below that level, a document is
not refused for its depth. If one does, the document is refused at the first one of the next
level, with its position, and it stays refused whatever stands behind the part of it that goes up
to there. An end tag always has an element to close. -/
theorem depth_limit_exact (bytes : List UInt8) :
    (∀ before, before <+: (Events.ofBytes bytes).items →
      ∀ b, Builder.start.run before = .ok b → b.nesting.length ≤ maxDepth) ∧
    (∀ root, readDocument bytes = .ok root → root.height ≤ maxDepth) ∧
    ((∀ level p, TagAt (Events.ofBytes bytes).items level p → level ≤ maxDepth) →
      ∀ p, readDocument bytes ≠ .error (.tooDeep p)) ∧
    (∀ p, FirstTagAt (Events.ofBytes bytes).items (maxDepth + 1) p ↔
      readDocument bytes = .error (.tooDeep p)) ∧
    ((∃ p, TagAt (Events.ofBytes bytes).items (maxDepth + 1) p) →
      ∃ p, readDocument bytes = .error (.tooDeep p) ∧
        ∀ more, readDocument (bytes ++ more) = .error (.tooDeep p)) ∧
    ∀ before closing after, (Events.ofBytes bytes).items = before ++ .endTag closing :: after →
      0 < openAfter before := by
  refine ⟨fun before _ b run => Builder.length_nesting_le run,
    fun root read => height_of_readDocument read, fun shallow p refused => ?_,
    fun p => (readDocument_eq_tooDeep_iff bytes p).symm, ?_, fun before closing after split => ?_⟩
  · have first := (readDocument_eq_tooDeep_iff bytes p).mp refused
    exact Nat.not_succ_le_self maxDepth (shallow _ p first.tagAt)
  · rintro ⟨p, tag⟩
    obtain ⟨first, found⟩ := exists_firstTagAt tag
    refine ⟨first, (readDocument_eq_tooDeep_iff bytes first).mpr found, fun more => ?_⟩
    have later := found.of_prefix (Events.items_append bytes more)
    exact (readDocument_eq_tooDeep_iff (bytes ++ more) first).mpr later
  · obtain ⟨n, nested, -⟩ := Events.nested_items bytes
    rw [split] at nested
    exact nested.openAfter_pos

end Phrasebook.Markup
