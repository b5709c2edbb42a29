import Phrasebook.Proofs.Markup.Growth
import Phrasebook.Storage.Access

/-!
# Documents nest

The reader compares each end tag with the element that is open. So the events that it gives nest
whatever bytes it is given, and the tree of a document can be compared with them.

- `openAfter_ofBytes`: a complete document leaves no element open.
- `kept_iff_one_root`: which elements of a document are in its tree.
-/

namespace Phrasebook.Markup

open Storage (bytesOf)

/-- **A complete document closes all of its elements**, whatever stands in it. -/
theorem Events.openAfter_ofBytes {bytes : List UInt8} {position : Position}
    (complete : (ofBytes bytes).ending = .complete position) :
    openAfter (ofBytes bytes).items = 0 := by
  obtain ⟨n, nested, closed⟩ := nested_items bytes
  have whole := nested.eq_openAfter
  rwa [List.reverse_reverse, closed position complete, eq_comm] at whole

/-- A document has a root element only if it is complete. -/
theorem ending_of_readDocument {bytes : List UInt8} {root : Element}
    (read : readDocument bytes = .ok root) :
    ∃ position, (Events.ofBytes bytes).ending = .complete position :=
  (ofEvents_eq_ok_iff.mp read).1

/-- **Of the elements of a document, those of its last top-level element are in the tree.** The
others come before it. So nothing is lost exactly if the document has one top-level element. -/
theorem kept_iff_one_root {bytes : List UInt8} {root : Element}
    (read : readDocument bytes = .ok root) :
    (∃ earlier, Outline (earlier ++ [root]) (Events.ofBytes bytes).items ∧
      startTags (Events.ofBytes bytes).items
        = earlier.flatMap Element.startTags ++ root.startTags) ∧
    (startTags (Events.ofBytes bytes).items = root.startTags ↔
      topLevel 0 (Events.ofBytes bytes).items = 1) := by
  obtain ⟨position, complete⟩ := ending_of_readDocument read
  have closed := Events.openAfter_ofBytes complete
  obtain ⟨earlier, outline⟩ := outline_of_ofEvents closed read
  have tags : startTags (Events.ofBytes bytes).items
      = earlier.flatMap Element.startTags ++ root.startTags := by
    rw [startTags_of_outline outline, List.flatMap_append]
    simp
  refine ⟨⟨earlier, outline, tags⟩, ?_⟩
  rw [tags, topLevel_of_outline outline, List.length_append, List.length_singleton]
  cases earlier with
  | nil => simp
  | cons e earlier =>
    constructor
    · intro same
      have lost := List.append_eq_nil_iff.mp (List.append_left_eq_self.mp same)
      exact absurd lost.1 (startTags_ne_nil e)
    · intro one
      simp at one

/-- A document with one top-level element keeps all of its elements. -/
theorem kept_iff_one_root_nested :
    readDocument (bytesOf "<a><b/></a>")
      = .ok ⟨"a", [], ⟨1, 1⟩, [.element "b" [] ⟨1, 4⟩ []]⟩ ∧
    startTags (Events.ofBytes (bytesOf "<a><b/></a>")).items
      = Element.startTags ⟨"a", [], ⟨1, 1⟩, [.element "b" [] ⟨1, 4⟩ []]⟩ := by
  have read : readDocument (bytesOf "<a><b/></a>")
      = .ok ⟨"a", [], ⟨1, 1⟩, [.element "b" [] ⟨1, 4⟩ []]⟩ := rfl
  exact ⟨read, (kept_iff_one_root read).2.mpr (by decide +kernel)⟩

/-- **Two top-level elements are accepted**, and the first one is lost. -/
theorem earlier_root_lost :
    readDocument (bytesOf "<a/><b/>") = .ok ⟨"b", [], ⟨1, 5⟩, []⟩ ∧
    startTags (Events.ofBytes (bytesOf "<a/><b/>")).items
      = [.startTag "a" [] ⟨1, 1⟩, .startTag "b" [] ⟨1, 5⟩] :=
  ⟨rfl, rfl⟩

end Phrasebook.Markup
