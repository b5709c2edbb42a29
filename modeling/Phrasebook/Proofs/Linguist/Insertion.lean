import Mathlib.Logic.Relation
import Phrasebook.Proofs.Linguist.Visible

/-!
# Content that says nothing

A catalog may carry elements that this format does not know, and white space or other characters
between its elements. This module says what can be inserted into a tree without any effect on
the catalog or on the fault that is found, wherever it is inserted.

- `Inserts`: one insertion. A position may change too, as what is inserted moves the rest.
- `Extends`: a tree and the same tree after any number of insertions.
- `visibleIn_of_inserts`: an insertion cannot be seen.
- `unknown_content_invisible`: hence the reader does not notice it.
-/

namespace Phrasebook.Linguist

open Markup

/-- One insertion among the nodes within an element, or anywhere below one of them. -/
inductive Inserts : String → List Node → List Node → Prop
  /-- An element with an unknown name. What is in it is not restricted. -/
  | element {parent name : String} {attributes : List (String × String)} {position : Position}
      {content nodes : List Node} (unknown : name ∉ vocabulary) :
      Inserts parent nodes (.element name attributes position content :: nodes)
  /-- Such an element in the middle of a text. -/
  | elementInText {parent name front back : String} {attributes : List (String × String)}
      {position : Position} {content nodes : List Node} (unknown : name ∉ vocabulary) :
      Inserts parent (.text (front ++ back) :: nodes)
        (.text front :: .element name attributes position content :: .text back :: nodes)
  /-- Characters where nobody reads them. -/
  | text {parent content : String} {nodes : List Node} (silent : parent ∈ silentNames) :
      Inserts parent nodes (.text content :: nodes)
  /-- Such characters within a text. -/
  | textInText {parent front content back : String} {nodes : List Node}
      (silent : parent ∈ silentNames) :
      Inserts parent (.text (front ++ back) :: nodes) (.text (front ++ content ++ back) :: nodes)
  /-- An insertion within the first node. -/
  | within {parent name : String} {attributes : List (String × String)} {position : Position}
      {children children' nodes : List Node} (inner : Inserts name children children') :
      Inserts parent (.element name attributes position children :: nodes)
        (.element name attributes position children' :: nodes)
  /-- An insertion behind the first node. -/
  | behind {parent : String} {node : Node} {nodes nodes' : List Node}
      (later : Inserts parent nodes nodes') : Inserts parent (node :: nodes) (node :: nodes')
  /-- The first node has moved. -/
  | moved {parent name : String} {attributes : List (String × String)}
      {position position' : Position} {children nodes : List Node} :
      Inserts parent (.element name attributes position children :: nodes)
        (.element name attributes position' children :: nodes)

/-- The second tree is the first one after insertions below the root. -/
structure Extends (root root' : Element) : Prop where
  name : root.name = root'.name
  attributes : root.attributes = root'.attributes
  children : Relation.ReflTransGen (Inserts root.name) root.children root'.children

/-- An element with an unknown name is not seen, nor what is in it. -/
theorem visibleOf_unknown (parent : String) {name : String} (unknown : name ∉ vocabulary)
    (attributes : List (String × String)) (position : Position) (content : List Node) :
    visibleOf parent (.element name attributes position content) = [] := by
  rw [visibleOf, if_neg unknown]

/-- Characters are not seen where nobody reads them. -/
theorem visibleOf_silent {parent : String} (silent : parent ∈ silentNames) (content : String) :
    visibleOf parent (.text content) = [] := by
  rw [visibleOf, if_pos silent]

/-- A text can be cut in two. -/
theorem visibleOf_append (parent front back : String) :
    visibleOf parent (.text (front ++ back))
      = visibleOf parent (.text front) ++ visibleOf parent (.text back) := by
  rw [visibleOf, visibleOf, visibleOf, String.toList_append, List.map_append]
  split <;> rfl

/-- **An insertion cannot be seen.** -/
theorem visibleIn_of_inserts {parent : String} {nodes nodes' : List Node}
    (inserts : Inserts parent nodes nodes') :
    visibleIn parent nodes = visibleIn parent nodes' := by
  induction inserts with
  | element unknown => rw [visibleIn, visibleOf_unknown _ unknown, List.nil_append]
  | elementInText unknown =>
    rw [visibleIn, visibleIn, visibleIn, visibleIn, visibleOf_unknown _ unknown,
      visibleOf_append, List.nil_append, List.append_assoc]
  | text silent => rw [visibleIn, visibleOf_silent silent, List.nil_append]
  | textInText silent =>
    rw [visibleIn, visibleIn, visibleOf_silent silent, visibleOf_silent silent]
  | within inner ih =>
    -- the node keeps its name, so it is seen with what is seen within it
    rw [visibleIn, visibleIn, visibleOf, visibleOf, ih]
  | behind later ih => rw [visibleIn, visibleIn, ih]
  | moved => rw [visibleIn, visibleIn, visibleOf, visibleOf]

/-- Nor can any number of them. -/
theorem visibleIn_of_insertions {parent : String} {nodes nodes' : List Node}
    (inserted : Relation.ReflTransGen (Inserts parent) nodes nodes') :
    visibleIn parent nodes = visibleIn parent nodes' := by
  induction inserted with
  | refl => rfl
  | tail _ last ih => exact ih.trans (visibleIn_of_inserts last)

theorem Extends.view_eq {root root' : Element} (h : Extends root root') :
    view root = view root' := by
  rw [view, view, ← h.name, h.attributes, visibleIn_of_insertions h.children]

/-- **Unknown content is invisible.** Whatever elements with unknown names are inserted below the
root, and whatever characters between its elements, the catalog is the same in every part, or it
is refused with the same fault, if perhaps at another position. -/
theorem unknown_content_invisible (options : Options) (root root' : Element)
    (inserted : Extends root root') :
    Agree (readCatalog options root) (readCatalog options root') :=
  readCatalog_agree options inserted.view_eq

/-- An element in the middle of a source, one that holds a source where none is, and characters
next to them. The second message is refused all the same, at another position. -/
theorem unknown_content_invisible_source :
    let node (name : String) (line : Nat) (children : List Node) : Node :=
      .element name [] ⟨line, 1⟩ children
    let root : Element := ⟨"TS", [("language", "hr")], ⟨1, 1⟩,
      [node "message" 2 [node "source" 3 [.text "Open"]], node "message" 4 []]⟩
    let root' : Element := ⟨"TS", [("language", "hr")], ⟨1, 1⟩,
      [node "message" 2 [node "source" 3 [.text "Op", node "b" 3 [.text "!"], .text "en"]],
        .text "next", node "message" 5 [node "extra" 6 [node "source" 7 []]]]⟩
    Extends root root' ∧ Agree (readCatalog {} root) (readCatalog {} root') := by
  intro node root root'
  have extended : Extends root root' := by
    refine { name := rfl, attributes := rfl, children := ?_ }
    have first : Inserts "source" [.text ("Op" ++ "en")]
        [.text "Op", node "b" 3 [.text "!"], .text "en"] := .elementInText (by decide)
    have second : Inserts "message" [] [node "extra" 6 [node "source" 7 []]] :=
      .element (by decide)
    have between : Inserts "TS" [node "message" 4 []] [.text "next", node "message" 4 []] :=
      .text (by decide)
    refine .head (.within (.within first)) ?_
    refine .head (.behind between) ?_
    refine .head (.behind (.behind (.within second))) ?_
    exact .single (.behind (.behind .moved))
  exact ⟨extended, unknown_content_invisible {} root root' extended⟩

end Phrasebook.Linguist
