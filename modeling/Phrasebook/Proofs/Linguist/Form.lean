import Phrasebook.Proofs.Linguist.Structure
import Phrasebook.Proofs.Markup.Writing

/-!
# The forms of a translation

A translation can be given in several forms, for the numbers it is used with and for the room it
has: plural forms, variants by length, or plural forms that are given as variants. One of them is
read. This module says which one that should be, the first one in the document that holds no other,
and where the reader finds it.

- `formsOf`, `formsAmong`: the forms that hold no other form, in the order of the document.
- `innermost`: the first of them, or the element itself.
- `IsTranslation`: the format of a translation.
- `IsSplit`: the first plural form is given as variants.
- `form_exact`: the form that is read is the innermost one, unless it lies in a split one.
- `split_form_lost`: what is read from a split one.
-/

namespace Phrasebook.Linguist

open Markup

/-! ## The first form -/

/-- The elements that hold one form of several. -/
def formNames : List String :=
  ["numerusform", "lengthvariant"]

mutual

/-- The forms that a node is or holds, in the order of the document. Those that hold another form
do not count. -/
def formsOf : Node → List Element
  | .text _ => []
  | .element name attributes position children =>
    match formsAmong children with
    | [] => if name ∈ formNames then [⟨name, attributes, position, children⟩] else []
    | form :: forms => form :: forms

/-- The same for neighbouring nodes. -/
def formsAmong : List Node → List Element
  | [] => []
  | node :: nodes => formsOf node ++ formsAmong nodes

end

/-- The first form within an element. An element without forms is the only form of itself. -/
def innermost (e : Element) : Element :=
  (formsAmong e.children).headD e

/-! ## The format -/

/-- There is no form within the element: it holds text, escapes, or what is skipped. -/
def HoldsText (e : Element) : Prop :=
  formsAmong e.children = []

/-- The element holds forms of one kind, with white space between them. -/
structure HoldsForms (kind : String) (form : Element → Prop) (e : Element) : Prop where
  nonempty : e.elements ≠ []
  forms : ∀ child ∈ e.elements, child.name = kind ∧ form child
  between : ∀ content, .text content ∈ e.children → IsBlank content.toList

/-- The element holds variants by length. -/
def HoldsVariants : Element → Prop :=
  HoldsForms "lengthvariant" HoldsText

/-- A translation holds its text, or plural forms, or variants by length. A plural form in turn
holds its text or variants by length. -/
inductive IsTranslation (e : Element) : Prop
  | text (holds : HoldsText e)
  | plurals (holds : HoldsForms "numerusform" (fun form => HoldsText form ∨ HoldsVariants form) e)
  | variants (holds : HoldsVariants e)

/-- The first plural form is given as variants by length. -/
def IsSplit (translation : Element) : Prop :=
  ∃ plural, translation.child? "numerusform" = some plural ∧
    ∃ variant, plural.child? "lengthvariant" = some variant

section

variable {e first : Element} {rest : List Element}

theorem formsAmong_eq_flatMap (nodes : List Node) :
    formsAmong nodes = (nodes.filterMap Node.element?).flatMap fun e => formsOf e.node := by
  induction nodes with
  | nil => rfl
  | cons node nodes ih =>
    cases node with
    | text content =>
      rw [formsAmong, ih]
      rfl
    | element name attributes position children =>
      rw [formsAmong, ih]
      rfl

/-- An element that is a form holds one at least, itself if no other. -/
theorem exists_formsOf_eq (named : first.name ∈ formNames) :
    ∃ others, formsOf first.node = innermost first :: others := by
  rw [Element.node, formsOf, innermost]
  cases formsAmong first.children with
  | nil => exact ⟨[], if_pos named⟩
  | cons form forms => exact ⟨forms, rfl⟩

/-- **The first child leads to the first form**, if it is a form. -/
theorem innermost_eq_of_first (split : e.elements = first :: rest)
    (named : first.name ∈ formNames) : innermost e = innermost first := by
  obtain ⟨others, forms⟩ := exists_formsOf_eq named
  have all : formsAmong e.children =
      innermost first :: (others ++ rest.flatMap fun e => formsOf e.node) := by
    rw [formsAmong_eq_flatMap, ← Element.elements, split, List.flatMap_cons, forms,
      List.cons_append]
  rw [innermost, all, List.headD_cons]

theorem HoldsText.innermost_eq (holds : HoldsText e) : innermost e = e := by
  rw [innermost, holds, List.headD_nil]

theorem HoldsText.child?_eq_none (holds : HoldsText e) {kind : String}
    (known : kind ∈ formNames) : e.child? kind = none := by
  cases found : e.child? kind with
  | none => rfl
  | some form =>
    have listed := List.mem_of_find?_eq_some found
    obtain ⟨others, forms⟩ := exists_formsOf_eq (Element.name_of_child? found ▸ known)
    have within : innermost form ∈ formsAmong e.children := by
      rw [formsAmong_eq_flatMap]
      refine List.mem_flatMap.mpr ⟨form, listed, ?_⟩
      rw [forms]
      exact List.mem_cons_self
    rw [holds] at within
    cases within

section

variable {kind : String} {form : Element → Prop}

/-- The first form of a kind is the first child. -/
theorem HoldsForms.exists_first (holds : HoldsForms kind form e) :
    ∃ first rest, e.elements = first :: rest ∧ e.child? kind = some first ∧ first.name = kind ∧
      form first := by
  obtain ⟨first, rest, split⟩ := List.exists_cons_of_ne_nil holds.nonempty
  obtain ⟨named, here⟩ := holds.forms first (split ▸ List.mem_cons_self)
  refine ⟨first, rest, split, ?_, named, here⟩
  rw [Element.child?, split]
  exact List.find?_cons_of_pos (beq_iff_eq.mpr named)

/-- There are no forms of another kind. -/
theorem HoldsForms.child?_eq_none (holds : HoldsForms kind form e) {other : String}
    (differs : kind ≠ other) : e.child? other = none := by
  refine List.find?_eq_none.mpr fun child mem => ?_
  rw [(holds.forms child mem).1]
  exact fun same => differs (beq_iff_eq.mp same)

/-- **Between forms there is only white space**, so the text of what holds them is blank. -/
theorem HoldsForms.exists_blank_text (holds : HoldsForms kind form e) (plain : kind ≠ "byte") :
    ∃ between, e.text = .ok between ∧ IsBlank between.toList := by
  have blank (nodes : List Node) (part : ∀ node ∈ nodes, node ∈ e.children) :
      ∃ cs, Element.textOfNodes nodes = .ok cs ∧ IsBlank cs := by
    induction nodes with
    | nil => exact ⟨[], rfl, nofun⟩
    | cons node nodes ih =>
      obtain ⟨here, later⟩ := List.forall_mem_cons.mp part
      obtain ⟨rest, tail, blank_rest⟩ := ih later
      have head : ∃ first, Element.textOfNode node = .ok first ∧ IsBlank first := by
        cases node with
        | text content => exact ⟨content.toList, rfl, holds.between content here⟩
        | element name attributes position children =>
          have listed : ⟨name, attributes, position, children⟩ ∈ e.elements :=
            List.mem_filterMap.mpr ⟨_, here, rfl⟩
          have named : name = kind := (holds.forms _ listed).1
          refine ⟨[], ?_, nofun⟩
          rw [Element.textOfNode, if_neg (named ▸ plain)]
      obtain ⟨first, head, blank_first⟩ := head
      exact ⟨first ++ rest, bind_eq_ok_iff.mpr ⟨first, head, bind_eq_ok_iff.mpr ⟨rest, tail, rfl⟩⟩,
        List.forall_mem_append.mpr ⟨blank_first, blank_rest⟩⟩
  obtain ⟨cs, read, blank⟩ := blank e.children fun _ mem => mem
  refine ⟨String.ofList cs, map_eq_ok_iff.mpr ⟨cs, read, rfl⟩, ?_⟩
  rw [String.toList_ofList]
  exact blank

end

theorem HoldsVariants.innermost_eq (holds : HoldsVariants e)
    (found : e.child? "lengthvariant" = some first) : innermost e = first := by
  obtain ⟨first', rest, split, found', named, plain⟩ := holds.exists_first
  obtain rfl : first = first' := Option.some_inj.mp (found.symm.trans found')
  rw [innermost_eq_of_first split (named ▸ by decide), plain.innermost_eq]

/-- What the reader takes for the first form, where there are plural forms. -/
theorem firstForm_of_plural (found : e.child? "numerusform" = some first) :
    firstForm e = first := by
  rw [firstForm, found]
  rfl

/-- **The first form is found** unless it lies in a split plural form. -/
theorem firstForm_eq_innermost {translation : Element} (format : IsTranslation translation)
    (whole : ¬ IsSplit translation) : firstForm translation = innermost translation := by
  cases format with
  | text holds =>
    rw [firstForm, holds.child?_eq_none (by decide), holds.child?_eq_none (by decide),
      holds.innermost_eq]
    rfl
  | plurals holds =>
    obtain ⟨first, rest, split, found, named, here⟩ := holds.exists_first
    rw [firstForm_of_plural found, innermost_eq_of_first split (named ▸ by decide)]
    rcases here with plain | variants
    · rw [plain.innermost_eq]
    · obtain ⟨variant, _, _, inner, _⟩ := variants.exists_first
      exact absurd ⟨first, found, variant, inner⟩ whole
  | variants holds =>
    obtain ⟨first, _, _, found, _⟩ := holds.exists_first
    rw [firstForm, holds.child?_eq_none (by decide), found, holds.innermost_eq found]
    rfl

/-- **A split plural form is read as a whole**: what is read is the white space between its
variants. -/
theorem firstForm_of_isSplit {translation : Element} (format : IsTranslation translation)
    (split : IsSplit translation) :
    ∃ plural variant, translation.child? "numerusform" = some plural ∧
      plural.child? "lengthvariant" = some variant ∧
      innermost translation = variant ∧ firstForm translation = plural ∧
      ∃ between, plural.text = .ok between ∧ IsBlank between.toList := by
  obtain ⟨plural, found, variant, inner⟩ := split
  cases format with
  | text holds =>
    rw [holds.child?_eq_none (by decide)] at found
    cases found
  | plurals holds =>
    obtain ⟨first, rest, split, found', named, here⟩ := holds.exists_first
    obtain rfl : plural = first := Option.some_inj.mp (found.symm.trans found')
    rcases here with plain | variants
    · rw [plain.child?_eq_none (by decide)] at inner
      cases inner
    · refine ⟨plural, variant, found, inner, ?_, firstForm_of_plural found,
        variants.exists_blank_text (by decide)⟩
      rw [innermost_eq_of_first split (named ▸ by decide), variants.innermost_eq inner]
  | variants holds =>
    rw [holds.child?_eq_none (by decide)] at found
    cases found

end

/-! ## What is read -/

/-- **The form that counts** is the first one in the document that holds no other: it is the one
that is read, by itself and in the catalog of a file, unless the first plural form is given as
variants. Then that plural form is read in the place of its first variant, and its text is the
white space between the variants, whatever they say. -/
theorem form_exact (options : Options) {translation : Element}
    (format : IsTranslation translation) :
    (∀ message, message.child? "translation" = some translation → ∀ text status,
      readTranslation options message = .ok (text, status) ↔
        (firstForm translation).text = .ok text ∧
          Declares options (translation.attribute? "type") status) ∧
    (∀ bytes catalog, parseCatalog options bytes = .ok catalog →
      ∃ root, readDocument bytes = .ok root ∧
        List.Forall₂ (fun site e => site.message.child? "translation" = some translation →
          (firstForm translation).text = .ok e.translation) (sites root) catalog.entries.toList) ∧
    (firstForm translation = innermost translation ↔ ¬ IsSplit translation) ∧
    (IsSplit translation → ∃ plural variant,
      translation.child? "numerusform" = some plural ∧
        plural.child? "lengthvariant" = some variant ∧
        innermost translation = variant ∧ firstForm translation = plural ∧
        ∃ between, plural.text = .ok between ∧ IsBlank between.toList) := by
  have fields {message : Element} {text : String} {status : Status}
      (found : message.child? "translation" = some translation) :
      HasTranslation options message text status ↔
        (firstForm translation).text = .ok text ∧
          Declares options (translation.attribute? "type") status := by
    simp [HasTranslation, found]
  refine ⟨fun message found text status => ?_, fun bytes catalog read => ?_, ?_,
    firstForm_of_isSplit format⟩
  · rw [readTranslation_eq_ok_iff, fields found]
  · obtain ⟨root, document, read⟩ := bind_eq_ok_iff.mp read
    obtain ⟨language, edits, -, rfl, rendered⟩ := exists_renders_of_readCatalog read
    refine ⟨root, document, ?_⟩
    rw [Catalog.entries_ofEdits]
    exact rendered.imp fun site e rendered found =>
      ((fields found).mp rendered.fields.translation).1
  · constructor
    · intro same split
      -- the plural form that is read and its variant have different names
      obtain ⟨plural, variant, found, inner, first, read, -⟩ := firstForm_of_isSplit format split
      have named := Element.name_of_child? found
      rw [← read, same, first, Element.name_of_child? inner] at named
      exact absurd named (by decide)
    · exact firstForm_eq_innermost format

/-- Two plural forms, of which the first one is read. -/
theorem form_exact_two_plurals :
    let plural (content : String) : Element := ⟨"numerusform", [], ⟨1, 1⟩, [.text content]⟩
    let translation : Element := ⟨"translation", [], ⟨1, 1⟩,
      [(plural "%n zaslon").node, .text " ", (plural "%n zaslona").node]⟩
    IsTranslation translation ∧ firstForm translation = innermost translation ∧
      (firstForm translation).text = .ok "%n zaslon" := by
  intro plural translation
  have plurals : HoldsForms "numerusform" (fun form => HoldsText form ∨ HoldsVariants form)
      translation := {
    nonempty := List.cons_ne_nil _ _
    forms := List.forall_mem_cons.mpr
      ⟨⟨rfl, .inl rfl⟩, List.forall_mem_singleton.mpr ⟨rfl, .inl rfl⟩⟩
    between := fun content mem => by
      obtain rfl : content = " " := by simpa [translation, Element.node] using mem
      decide }
  have whole : ¬ IsSplit translation := by
    rintro ⟨first, found, variant, inner⟩
    cases found
    cases inner
  exact ⟨.plurals plurals, (form_exact {} (.plurals plurals)).2.2.1.mpr whole, rfl⟩

/-- **Variants within a plural form are lost**: the blank between them is read. -/
theorem split_form_lost :
    let variant (content : String) : Element := ⟨"lengthvariant", [], ⟨1, 1⟩, [.text content]⟩
    let plural : Element := ⟨"numerusform", [], ⟨1, 1⟩,
      [(variant "%n soubor").node, .text " ", (variant "%n s.").node]⟩
    let translation : Element := ⟨"translation", [], ⟨1, 1⟩, [plural.node]⟩
    let message : Element := ⟨"message", [], ⟨1, 1⟩, [translation.node]⟩
    IsTranslation translation ∧ message.child? "translation" = some translation ∧
      (innermost translation).text = .ok "%n soubor" ∧
      readTranslation {} message = .ok (" ", .finished) := by
  intro variant plural translation message
  have variants : HoldsVariants plural := {
    nonempty := List.cons_ne_nil _ _
    forms := List.forall_mem_cons.mpr ⟨⟨rfl, rfl⟩, List.forall_mem_singleton.mpr ⟨rfl, rfl⟩⟩
    between := fun content mem => by
      obtain rfl : content = " " := by simpa [plural, Element.node] using mem
      decide }
  have plurals : HoldsForms "numerusform" (fun form => HoldsText form ∨ HoldsVariants form)
      translation := {
    nonempty := List.cons_ne_nil _ _
    forms := List.forall_mem_singleton.mpr ⟨rfl, .inr variants⟩
    between := fun content mem => by simp [translation, Element.node] at mem }
  exact ⟨.plurals plurals, rfl, rfl, rfl⟩

end Phrasebook.Linguist
