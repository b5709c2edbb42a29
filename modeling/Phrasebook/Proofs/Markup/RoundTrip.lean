import Phrasebook.Markup.Document
import Phrasebook.Proofs.Markup.Decoding
import Phrasebook.Proofs.Markup.WellNested
import Phrasebook.Proofs.Markup.Written

/-!
# Reading undoes writing

- `exists_yields_of_bare`: events without positions determine the tree without positions.
- `exists_reads_document`: the characters of a written document.
- `exists_items_ofBytes`: its bytes.
- `readDocument_written`: the tree comes back, apart from positions.
-/

namespace Phrasebook.Markup

open Storage (bytesOf)
open Text (utf8EncodeChar_cases bytesOf_eq)

/-! ## Trees without positions -/

mutual

theorem height_bare : ∀ node : Node, node.bare.height = node.height
  | .text _ => rfl
  | .element name attributes position children => by
    rw [Node.bare, Node.height, Node.height, heightOf_bareAll children]

theorem heightOf_bareAll : ∀ nodes : List Node, heightOf (bareAll nodes) = heightOf nodes
  | [] => rfl
  | node :: nodes => by
    rw [bareAll, heightOf, heightOf, height_bare node, heightOf_bareAll nodes]

end

theorem beginsWithText_bareAll (nodes : List Node) :
    beginsWithText (bareAll nodes) = beginsWithText nodes := by
  match nodes with
  | [] | .text _ :: _ | .element .. :: _ => rfl

mutual

theorem isTidy_bare : ∀ node : Node, node.bare.IsTidy ↔ node.IsTidy
  | .text _ => Iff.rfl
  | .element name attributes position children => by
    rw [Node.bare, Node.IsTidy, Node.IsTidy, areTidy_bareAll children]

theorem areTidy_bareAll : ∀ nodes : List Node, AreTidy (bareAll nodes) ↔ AreTidy nodes
  | [] => Iff.rfl
  | node :: nodes => by
    have first : beginsWithText [node.bare] = beginsWithText [node] :=
      beginsWithText_bareAll [node]
    rw [bareAll, AreTidy, AreTidy, isTidy_bare node, first, beginsWithText_bareAll nodes,
      areTidy_bareAll nodes]

end

theorem eq_text_of_bare {event : Event} {content : String} (same : event.bare = .text content) :
    event = .text content := by
  cases event with
  | text => exact same
  | startTag | endTag => cases same

theorem eq_endTag_of_bare {event : Event} {position : Position}
    (same : event.bare = .endTag position) : ∃ moved, event = .endTag moved := by
  cases event with
  | endTag moved => exact ⟨moved, rfl⟩
  | startTag | text => cases same

theorem eq_startTag_of_bare {event : Event} {name : String} {attributes : List (String × String)}
    {position : Position} (same : event.bare = .startTag name attributes position) :
    ∃ moved, event = .startTag name attributes moved := by
  cases event with
  | startTag name' attributes' moved =>
    cases same
    exact ⟨moved, rfl⟩
  | endTag | text => cases same

theorem eq_stretches_of_bare {events : List Event} {stretches : List String}
    (same : events.map Event.bare = stretches.map .text) : events = stretches.map .text := by
  induction stretches generalizing events with
  | nil => exact List.map_eq_nil_iff.mp same
  | cons content stretches ih =>
    obtain ⟨event, rest, rfl, first, same⟩ := List.map_eq_cons_iff.mp same
    rw [eq_text_of_bare first, ih same]
    rfl

/-- Events that differ in positions only are those of nodes that differ in positions only. -/
theorem exists_yields_of_bare {nodes : List Node} {events events' : List Event}
    (h : Yields nodes events) (same : events'.map Event.bare = events.map Event.bare) :
    ∃ nodes', bareAll nodes' = bareAll nodes ∧ Yields nodes' events' := by
  induction h generalizing events' with
  | nil =>
    cases List.map_eq_nil_iff.mp same
    exact ⟨[], rfl, .nil⟩
  | @text stretches nodes events nonempty _ ih =>
    rw [List.map_append] at same
    obtain ⟨front, back, rfl, front_same, back_same⟩ := List.map_eq_append_iff.mp same
    have bare : (stretches.map Event.text).map Event.bare = stretches.map Event.text := by
      simp [Function.comp_def, Event.bare]
    obtain ⟨nodes', bare_nodes, yields⟩ := ih back_same
    rw [eq_stretches_of_bare (front_same.trans bare)]
    refine ⟨.text (String.join stretches) :: nodes', ?_, .text nonempty yields⟩
    rw [bareAll, bareAll, bare_nodes]
  | @element name attributes position closing children nodes inner events _ _ ihContent ihRest =>
    rw [List.cons_append, List.map_cons, List.map_append, List.map_cons] at same
    obtain ⟨opening, rest, rfl, opens, same⟩ := List.map_eq_cons_iff.mp same
    obtain ⟨front, back, rfl, front_same, back_same⟩ := List.map_eq_append_iff.mp same
    obtain ⟨closing, behind, rfl, closes, behind_same⟩ := List.map_eq_cons_iff.mp back_same
    obtain ⟨moved, rfl⟩ := eq_startTag_of_bare opens
    obtain ⟨closed, rfl⟩ := eq_endTag_of_bare closes
    obtain ⟨children', bare_children, content⟩ := ihContent front_same
    obtain ⟨nodes', bare_nodes, yields⟩ := ihRest behind_same
    refine ⟨.element name attributes moved children' :: nodes', ?_, .element content yields⟩
    rw [bareAll, bareAll, Node.bare, Node.bare, bare_children, bare_nodes]

/-! ## Documents -/

variable {cs : List Char} {evs : List Event} {root : Element}

/-- White space and comments change nothing, before the root element and behind it. -/
theorem reads_nothing (writes : WritesNothing cs) : Reads (HasRead [] evs) cs (HasRead [] evs) := by
  induction writes with
  | nil => exact Reads.nil _
  | @space c rest space _ ih =>
    have first : Reads (HasRead [] evs) [c] (HasRead [] evs) := by
      rintro s ⟨f, text, es, -, outside, same, has⟩
      cases outside rfl
      obtain ⟨s', read, there⟩ := reads_inert (isInert_of_isSpace space)
        (takes_space_outside space) s (Collector.shows_of_has_none has)
      exact ⟨s', read, hasRead_of_shows there same⟩
    exact first.cons ih
  | comment sound _ ih => exact (reads_comment_between sound).append ih

theorem areTidy_node (tidy : AreTidy root.children) : AreTidy [root.node] :=
  ⟨tidy, fun both => Bool.noConfusion both.1, trivial⟩

/-- **A document is read** to its end. -/
theorem exists_reads_document (writes : WritesDocument root cs)
    (plain : root.node.TagsAre IsPlainTag) (limits : root.node.TagsAre FitsLimits)
    (tidy : AreTidy root.children) :
    ∃ items, Yields [root.node] items ∧
      Reads (HasRead [] []) cs (HasRead [] (behind [] items)) := by
  obtain ⟨before, tree, after, writesBefore, writesTree, writesAfter, rfl⟩ := writes
  obtain ⟨items, yields, reads⟩ := exists_reads_nodes writesTree ⟨plain, trivial⟩
    ⟨limits, trivial⟩ (areTidy_node tidy)
  have no_text : ∀ content, Node.text content ∉ [root.node] := by
    intro content mem
    cases List.mem_singleton.mp mem
  have here := reads [] [] (fun _ => no_text) fun begins => Bool.noConfusion begins
  exact ⟨items, yields,
    ((reads_nothing writesBefore).append here).append (reads_nothing writesAfter)⟩

/-- The events of an element end with its end tag. -/
theorem exists_behind_of_yields {items : List Event} (yields : Yields [root.node] items) :
    ∃ earlier, behind [] items = .endTag Position.start :: earlier := by
  cases yields with
  | @element _ _ _ closing _ _ _ _ _ rest =>
    cases rest
    exact ⟨_, behind_append [] _ [.endTag closing]⟩

/-- A written document begins with a character of ASCII. -/
theorem exists_cons_of_writesDocument (writes : WritesDocument root cs) :
    ∃ c rest, cs = c :: rest ∧ c.toNat < 0x80 := by
  obtain ⟨name, attributes, position, children⟩ := root
  obtain ⟨before, tree, after, writesBefore, writesTree, -, rfl⟩ := writes
  cases writesBefore with
  | @space c rest space _ =>
    refine ⟨c, _, rfl, ?_⟩
    have blank : c = ' ' ∨ c = '\t' ∨ c = '\n' ∨ c = '\r' := by
      simpa [isSpace, or_assoc] using space
    rcases blank with rfl | rfl | rfl | rfl <;> decide
  | comment => exact ⟨'<', _, rfl, by decide⟩
  | nil =>
    cases writesTree with
    | comment | empty | paired => exact ⟨'<', _, rfl, by decide⟩

theorem shows_start : View.Shows ⟨.text, none, .between, [], [], []⟩ (State.start .assumedUtf8) :=
  ⟨⟨rfl, rfl, rfl⟩, rfl, .inr ⟨.inl rfl, rfl, rfl, rfl⟩, rfl, rfl, rfl, rfl, rfl, rfl, rfl⟩

/-- A document may end behind its root element. -/
theorem finish_of_shows {s : State} (shows : View.Shows ⟨.text, none, .between, [], [], evs⟩ s)
    (some_events : evs ≠ []) :
    (∃ position, s.finish.ending = .complete position) ∧
      s.finish.items.map Event.bare = evs.reverse := by
  have progress := shows.progress.resolve_right fun before => some_events before.events
  have idle : s.lexer.isIdle = true := by
    have fragment : s.lexer.fragment = none := Option.map_eq_none_iff.mp shows.scanner.fragment
    unfold Lexer.isIdle
    rw [shows.scanner.region, fragment]
    rfl
  have complete : s.isComplete = true := by
    unfold State.isComplete State.isOutside
    rw [shows.nesting, progress, idle, shows.mode]
    rfl
  constructor
  · unfold State.finish
    rw [if_pos complete]
    exact ⟨_, rfl⟩
  · show s.events.reverse.map Event.bare = evs.reverse
    rw [List.map_reverse, shows.events]

/-- A document that begins with a character of ASCII has no byte order mark. -/
theorem detect_of_ascii {byte : UInt8} {bytes : List UInt8} (ascii : byte.toNat < 0x80) :
    Encoding.detect (byte :: bytes) = (.assumedUtf8, byte :: bytes) := by
  unfold Encoding.detect
  split
  case h_4 => rfl
  all_goals
    rename_i same
    cases (List.cons.inj same).1
    exact absurd ascii (by decide)

theorem detect_bytesOf {document : String} {c : Char} {rest : List Char}
    (split : document.toList = c :: rest) (ascii : c.toNat < 0x80) :
    Encoding.detect (bytesOf document) = (.assumedUtf8, bytesOf document) := by
  have single : String.utf8EncodeChar c = [.ofNat c.toNat] := by
    rcases utf8EncodeChar_cases c with ⟨-, written⟩ | ⟨least, -⟩ | ⟨least, -⟩ | ⟨least, -⟩
    · exact written
    all_goals omega
  rw [bytesOf_eq, split, List.flatMap_cons, single]
  apply detect_of_ascii
  rw [UInt8.toNat_ofNat_of_lt' (by show c.toNat < 256; omega)]
  exact ascii

/-- Positions are all that is moved. -/
theorem items_pinFirst (events : Events) :
    events.pinFirst.items.map Event.bare = events.items.map Event.bare := by
  unfold Events.pinFirst
  split
  · rename_i name attributes position rest items
    rw [items]
    rfl
  · rfl

/-- **The events of a written document** are those of its root element. -/
theorem exists_items_ofBytes {document : String} (writes : WritesDocument root document.toList)
    (plain : root.node.TagsAre IsPlainTag) (limits : root.node.TagsAre FitsLimits)
    (tidy : AreTidy root.children) :
    ∃ items, Yields [root.node] items ∧
      (∃ position, (Events.ofBytes (bytesOf document)).ending = .complete position) ∧
      (Events.ofBytes (bytesOf document)).items.map Event.bare = items.map Event.bare := by
  obtain ⟨items, yields, reads⟩ := exists_reads_document writes plain limits tidy
  obtain ⟨earlier, last⟩ := exists_behind_of_yields yields
  obtain ⟨s, read, there⟩ := reads _ (hasRead_of_shows shows_start rfl)
  have apart : ∀ content es, behind [] items ≠ .text content :: es := by
    rw [last]
    exact fun _ _ same => Event.noConfusion (List.cons.inj same).1
  have some_events : behind [] items ≠ [] := by
    rw [last]
    exact List.cons_ne_nil _ _
  have all_items : (behind [] items).reverse = items.map Event.bare := by simp [behind]
  have finished : (∃ position, s.finish.ending = .complete position) ∧
      s.finish.items.map Event.bare = (behind [] items).reverse :=
    finish_of_shows (shows_of_hasRead there apart) some_events
  rw [all_items] at finished
  obtain ⟨c, rest, split, ascii⟩ := exists_cons_of_writesDocument writes
  have decoded : Events.read (bytesOf document) .nothing (State.start .assumedUtf8) = s.finish := by
    rw [bytesOf_eq]
    exact read_of_readsTo read
  refine ⟨items, yields, ?_⟩
  unfold Events.ofBytes
  rw [detect_bytesOf split ascii]
  dsimp only
  rw [decoded]
  split
  · rw [Events.ending_pinFirst, items_pinFirst]
    exact finished
  · exact finished

/-! ## Trees -/

theorem outline_of_yields {e : Element} {events : List Event} (yields : Yields [e.node] events) :
    Outline [e] events := by
  cases yields with
  | element content rest =>
    cases rest
    exact .element content .nil

/-- The events of an element without positions are those of an element that differs from it in
positions only. -/
theorem exists_outline_of_bare {e : Element} {events events' : List Event}
    (yields : Yields [e.node] events) (same : events'.map Event.bare = events.map Event.bare) :
    ∃ e' : Element, e'.bare = e.bare ∧ Outline [e'] events' := by
  obtain ⟨nodes, bare, yields'⟩ := exists_yields_of_bare yields same
  match nodes with
  | [.element name attributes position children] =>
    refine ⟨⟨name, attributes, position, children⟩, ?_, outline_of_yields yields'⟩
    obtain ⟨rfl, rfl, -, children⟩ := Node.element.inj (List.cons.inj bare).1
    simp only [Element.bare, children]
  | [] => cases bare
  | [.text _] => cases bare
  | _ :: _ :: _ => cases (List.cons.inj bare).2

theorem bare_eq {e e' : Element} (same : e'.bare = e.bare) :
    bareAll e'.children = bareAll e.children :=
  congrArg Element.children same

/-- **Reading undoes writing.** A tree without empty or neighbouring texts that is not too deep
comes back from its events, in however many stretches its texts come; and from every document that
it is written as, apart from the positions. -/
theorem readDocument_written {t : Element} (tidy : AreTidy t.children)
    (shallow : t.height ≤ maxDepth) :
    (∀ events position, Outline [t] events →
      Element.ofEvents ⟨events, .complete position⟩ = .ok t) ∧
    (t.node.TagsAre IsPlainTag → t.node.TagsAre FitsLimits →
      ∀ document : String, WritesDocument t document.toList →
        ∃ t', readDocument (bytesOf document) = .ok t' ∧ t'.bare = t.bare) := by
  have from_events {e : Element} {events : List Event} (outline : Outline [e] events)
      (tidy : AreTidy e.children) (shallow : e.height ≤ maxDepth) (position : Position) :
      Element.ofEvents ⟨events, .complete position⟩ = .ok e := by
    have sound : ∀ x ∈ [] ++ [e], AreTidy x.children ∧ x.height ≤ maxDepth := by
      intro x mem
      cases List.mem_singleton.mp mem
      exact ⟨tidy, shallow⟩
    exact @ofEvents_of_outline [] e events outline sound position
  refine ⟨fun events position outline => from_events outline tidy shallow position, ?_⟩
  intro plain limits document writes
  obtain ⟨items, yields, ⟨position, complete⟩, same⟩ := exists_items_ofBytes writes plain limits tidy
  obtain ⟨t', bare, outline⟩ := exists_outline_of_bare yields same
  have children := bare_eq bare
  have tidy' : AreTidy t'.children := by
    rw [← areTidy_bareAll, children, areTidy_bareAll]
    exact tidy
  have shallow' : t'.height ≤ maxDepth := by
    unfold Element.height at shallow ⊢
    rw [← heightOf_bareAll, children, heightOf_bareAll]
    exact shallow
  refine ⟨t', ?_, bare⟩
  have whole : Events.ofBytes (bytesOf document)
      = ⟨(Events.ofBytes (bytesOf document)).items, .complete position⟩ := by
    rw [← complete]
  rw [readDocument, whole]
  exact from_events outline tidy' shallow' position

/-- An element with an attribute, a text and another element. -/
def mixedTree : Element :=
  ⟨"a", [("k", "1&2")], Position.start, [.text "x<]>", .element "b" [] Position.start []]⟩

/-- The element with all kinds of pieces in its text, and with a comment and white space. -/
def mixedDocument : String :=
  "<!--!--><a k='1&amp;2'>x<![CDATA[<]]><!--n-->]&#62;<b/></a >\n"

theorem readDocument_written_mixed :
    AreTidy mixedTree.children ∧ mixedTree.height ≤ maxDepth ∧
    ∃ t', readDocument (bytesOf mixedDocument) = .ok t' ∧ t'.bare = mixedTree.bare := by
  have tidy : AreTidy mixedTree.children := by
    simp [mixedTree, AreTidy, Node.IsTidy, beginsWithText]
  have shallow : mixedTree.height ≤ maxDepth := by decide
  have plain : mixedTree.node.TagsAre IsPlainTag :=
    ⟨⟨by decide, by decide, by decide⟩, trivial, ⟨⟨by decide, by decide, by decide⟩, trivial⟩,
      trivial⟩
  have limits : mixedTree.node.TagsAre FitsLimits :=
    ⟨⟨by decide, by decide, by decide⟩, trivial, ⟨⟨by decide, by decide, by decide⟩, trivial⟩,
      trivial⟩
  have nothing : IsBlank [] := by decide
  have space : IsBlank [' '] := by decide
  have remark : (Part.comment ['!']).IsSound := ⟨List.forall_mem_singleton.mpr rfl, by decide⟩
  have value : WritesValue .single "1&2"
      [.plain '1', .reference ['a', 'm', 'p'] '&', .plain '2'] := by
    refine ⟨rfl, ?_⟩
    simp only [List.forall_mem_cons, Part.IsSoundIn]
    exact ⟨by decide, .amp, by decide, by simp⟩
  have text : WritesText "x<]>"
      [.plain 'x', .marked ['<'], .comment ['n'], .plain ']', .reference ['#', '6', '2'] '>'] := by
    refine ⟨rfl, ?_, by decide⟩
    simp only [List.forall_mem_cons, Part.IsSound]
    exact ⟨by decide, ⟨⟨by decide, by simp⟩, by decide⟩, ⟨⟨by decide, by simp⟩, by decide⟩,
      by decide, .decimal rfl rfl, by simp⟩
  have tag : WritesAttributes [("k", "1&2")] _ :=
    .cons (by simp) space nothing nothing value (.nil nothing)
  have inner : WritesNodes [.element "b" [] Position.start []] _ := .empty (.nil nothing) .nil
  have tree : WritesNodes [mixedTree.node] _ := .paired tag (.text text inner) space .nil
  have writes : WritesDocument mixedTree mixedDocument.toList :=
    ⟨_, _, _, .comment remark .nil, tree, .space (c := '\n') rfl .nil, rfl⟩
  exact ⟨tidy, shallow,
    (readDocument_written tidy shallow).2 plain limits mixedDocument writes⟩

end Phrasebook.Markup
