import Phrasebook.Markup.Element
import Phrasebook.Proofs.Chain

/-!
# When an element has a text

Reading the text of an element fails only at an escape that names no character. This module says
so without mentioning the order in which the children are read.

- `Element.Escapes`: the character that an escape stands for.
- `Element.Decodable`: every escape directly within an element stands for a character.
- `text_ok_iff`: exactly then the element has a text.
-/

namespace Phrasebook

namespace Markup.Element

open Text

theorem name_of_child? {parent child : Element} {name : String}
    (found : parent.child? name = some child) : child.name = name := by
  have named := List.find?_some found
  exact beq_iff_eq.mp named

/-- The element is an escape for a character. -/
def Escapes (e : Element) (c : Char) : Prop :=
  ∃ written, e.attribute? "value" = some written ∧
    (escapeCode? written.toList).bind scalar? = some c

/-- Every escape directly within the element stands for a character. -/
def Decodable (e : Element) : Prop :=
  ∀ child ∈ e.elements, child.name = "byte" → ∃ c, child.Escapes c

theorem escapedChar_eq_ok_iff (e : Element) (c : Char) :
    e.escapedChar = .ok c ↔ e.Escapes c := by
  unfold escapedChar Escapes
  cases e.attribute? "value" with
  | none => simp
  | some written =>
    cases code : (escapeCode? written.toList).bind scalar? with
    | none => simp [code]
    | some c' => simp [code]

/-- Text has no faults, and of the elements only escapes can have one. -/
theorem textOfNode_ok_iff (node : Node) :
    (∃ cs, textOfNode node = .ok cs) ↔
      ∀ child ∈ node.element?, child.name = "byte" → ∃ c, child.Escapes c := by
  cases node with
  | text content => simp [textOfNode, Node.element?]
  | element name attributes position children =>
    simp only [textOfNode, Node.element?, Option.mem_some_iff, forall_eq']
    by_cases byte : name = "byte"
    · rw [if_pos byte]
      constructor
      · rintro ⟨cs, read⟩ -
        obtain ⟨c, escaped, -⟩ := map_eq_ok_iff.mp read
        exact ⟨c, (escapedChar_eq_ok_iff _ c).mp escaped⟩
      · intro escapes
        obtain ⟨c, escaped⟩ := escapes byte
        exact ⟨[c], map_eq_ok_iff.mpr ⟨c, (escapedChar_eq_ok_iff _ c).mpr escaped, rfl⟩⟩
    · simp [byte]

theorem textOfNodes_ok_iff (nodes : List Node) :
    (∃ cs, textOfNodes nodes = .ok cs) ↔
      ∀ child ∈ nodes.filterMap Node.element?, child.name = "byte" → ∃ c, child.Escapes c := by
  induction nodes with
  | nil => exact ⟨fun _ child mem => absurd mem List.not_mem_nil, fun _ => ⟨[], rfl⟩⟩
  | cons node nodes ih =>
    -- the chain succeeds when both of its parts do
    have parts : (∃ cs, textOfNodes (node :: nodes) = .ok cs) ↔
        (∃ first, textOfNode node = .ok first) ∧ ∃ rest, textOfNodes nodes = .ok rest := by
      constructor
      · rintro ⟨cs, read⟩
        obtain ⟨first, head, read⟩ := bind_eq_ok_iff.mp read
        obtain ⟨rest, tail, -⟩ := bind_eq_ok_iff.mp read
        exact ⟨⟨first, head⟩, rest, tail⟩
      · rintro ⟨⟨first, head⟩, rest, tail⟩
        exact ⟨first ++ rest,
          bind_eq_ok_iff.mpr ⟨first, head, bind_eq_ok_iff.mpr ⟨rest, tail, rfl⟩⟩⟩
    rw [parts, textOfNode_ok_iff, ih]
    cases found : node.element? with
    | none => simp [found]
    | some child => simp [found]

/-- **An element has a text** unless one of its escapes stands for no character. -/
theorem text_ok_iff (e : Element) : (∃ s, e.text = .ok s) ↔ e.Decodable := by
  unfold Decodable elements
  rw [← textOfNodes_ok_iff]
  constructor
  · rintro ⟨s, read⟩
    obtain ⟨cs, read, -⟩ := map_eq_ok_iff.mp read
    exact ⟨cs, read⟩
  · rintro ⟨cs, read⟩
    exact ⟨String.ofList cs, map_eq_ok_iff.mpr ⟨cs, read, rfl⟩⟩

end Markup.Element

end Phrasebook
