import Phrasebook.Linguist.Catalog
import Phrasebook.Proofs.Markup.Text

/-!
# What a reader sees of a tree

Much of a tree has no bearing on the catalog that it stands for: elements with other names than
those of the format, characters directly within elements that only hold others, and positions,
which appear in faults alone. This module leaves all this out of a tree and shows that a reader
cannot tell the difference.

- `vocabulary`, `silentNames`: the names that are looked for, and the elements whose own
  characters are not.
- `Visible`, `visibleIn`, `Element.view`: what is left of nodes and of an element.
- `Agree`: two readings give the same, or the same fault, if perhaps at different positions.
- `readCatalog_agree`: trees with one view are read alike. There is one lemma of this kind for
  each part of the reader.
-/

namespace Phrasebook

namespace Markup

/-- The fault without its position. -/
def Fault.unplaced : Fault → Fault
  | .malformed m => .malformed { m with position := Position.start }
  | .tooDeep _ => .tooDeep Position.start
  | .unexpectedRoot expected found _ => .unexpectedRoot expected found Position.start
  | .missingElement parent element _ => .missingElement parent element Position.start
  | .missingAttribute element name _ => .missingAttribute element name Position.start
  | .invalidAttribute element name value _ => .invalidAttribute element name value Position.start

/-- Two readings give the same, or they fail with one fault, if perhaps at different positions. -/
def Agree {α : Type} (x y : Except Fault α) : Prop :=
  x.mapError Fault.unplaced = y.mapError Fault.unplaced

namespace Agree

variable {α β : Type} {x y : Except Fault α}

theorem symm (h : Agree x y) : Agree y x :=
  Eq.symm h

theorem trans {z : Except Fault α} (h : Agree x y) (h' : Agree y z) : Agree x z :=
  Eq.trans h h'

/-- Readings that agree and succeed give the same. -/
theorem eq_of_ok {a b : α} (h : Agree (.ok a) (.ok b)) : a = b :=
  Except.ok.inj h

/-- Readings that agree step by step agree as a whole. -/
theorem bind {f g : α → Except Fault β} (h : Agree x y) (next : ∀ a, Agree (f a) (g a)) :
    Agree (x >>= f) (y >>= g) := by
  cases x with
  | error fault =>
    cases y with
    | error fault' => exact congrArg Except.error (Except.error.inj h)
    | ok b => cases h
  | ok a =>
    cases y with
    | error fault' => cases h
    | ok b =>
      cases Except.ok.inj h
      exact next a

theorem map (f : α → β) (h : Agree x y) : Agree (x.map f) (y.map f) := by
  cases x with
  | error fault =>
    cases y with
    | error fault' => exact congrArg Except.error (Except.error.inj h)
    | ok b => cases h
  | ok a =>
    cases y with
    | error fault' => cases h
    | ok b =>
      cases Except.ok.inj h
      rfl

end Agree

end Markup

namespace Linguist

open Markup

/-! ## Views -/

/-- The names of elements that a reader looks for below the root. -/
def vocabulary : List String :=
  ["context", "message", "name", "source", "translation", "oldsource", "comment", "extracomment",
    "translatorcomment", "location", "numerusform", "lengthvariant", "byte"]

/-- The elements whose own characters a reader passes over. -/
def silentNames : List String :=
  ["TS", "context", "message", "location"]

/-- What can be seen of a tree: characters that may be read, and elements that may be looked
for. -/
inductive Visible where
  | char (c : Char)
  | element (name : String) (attributes : List (String × String)) (content : List Visible)

mutual

/-- What can be seen of a node within an element. -/
def visibleOf : String → Node → List Visible
  | parent, .text content =>
    if parent ∈ silentNames then [] else content.toList.map .char
  | _, .element name attributes _ children =>
    if name ∈ vocabulary then [.element name attributes (visibleIn name children)] else []

/-- What can be seen of nodes within an element. -/
def visibleIn : String → List Node → List Visible
  | _, [] => []
  | parent, node :: nodes => visibleOf parent node ++ visibleIn parent nodes

end

/-- What can be seen of an element, whether or not it is looked for. -/
def view (e : Element) : Visible :=
  .element e.name e.attributes (visibleIn e.name e.children)

section View

variable {e e' : Element}

theorem name_of_view (same : view e = view e') : e.name = e'.name := by
  injection same

theorem attributes_of_view (same : view e = view e') : e.attributes = e'.attributes := by
  injection same

theorem attribute?_of_view (same : view e = view e') (name : String) :
    e.attribute? name = e'.attribute? name := by
  rw [Element.attribute?, Element.attribute?, attributes_of_view same]

theorem visibleIn_of_view (same : view e = view e') :
    visibleIn e.name e.children = visibleIn e'.name e'.children := by
  injection same

end View

/-! ## Elements among what can be seen -/

/-- It is an element, and its name is one of some. -/
def Visible.isNamed (among : String → Bool) : Visible → Bool
  | .char _ => false
  | .element name _ _ => among name

/-- Elements that are looked for are seen, in the order they stand in. -/
theorem map_view_elements (among : String → Bool)
    (known : ∀ name, among name = true → name ∈ vocabulary) (parent : String)
    (nodes : List Node) :
    ((nodes.filterMap Node.element?).filter fun e => among e.name).map view
      = (visibleIn parent nodes).filter (Visible.isNamed among) := by
  induction nodes with
  | nil => rw [visibleIn]; rfl
  | cons node nodes ih =>
    rw [visibleIn, List.filter_append, ← ih]
    cases node with
    | text content =>
      have none_seen : (visibleOf parent (.text content)).filter (Visible.isNamed among) = [] := by
        rw [visibleOf, List.filter_eq_nil_iff]
        intro seen mem
        split at mem
        · cases mem
        · obtain ⟨c, -, rfl⟩ := List.mem_map.mp mem
          exact Bool.false_ne_true
      rw [none_seen]
      rfl
    | element name attributes position children =>
      show List.map view (List.filter _ (⟨name, attributes, position, children⟩ ::
        nodes.filterMap Node.element?)) = _
      rw [List.filter_cons, visibleOf]
      by_cases here : among name = true
      · rw [if_pos here, if_pos (known name here), List.map_cons]
        simp [Visible.isNamed, here, view]
      · rw [if_neg here]
        split <;> simp [Visible.isNamed, here]

section Children

variable {e e' : Element}

theorem map_view_childrenNamed (e : Element) {name : String} (known : name ∈ vocabulary) :
    (childrenNamed e name).map view
      = (visibleIn e.name e.children).filter (Visible.isNamed fun other => other == name) := by
  have listed : ∀ other, (other == name) = true → other ∈ vocabulary := by
    intro other same
    rw [beq_iff_eq.mp same]
    exact known
  exact map_view_elements (fun other => other == name) listed e.name e.children

theorem childrenNamed_of_view (same : view e = view e') {name : String}
    (known : name ∈ vocabulary) :
    (childrenNamed e name).map view = (childrenNamed e' name).map view := by
  rw [map_view_childrenNamed e known, map_view_childrenNamed e' known, visibleIn_of_view same]

/-- The first child with a name is seen, if there is one. -/
theorem child?_of_view (same : view e = view e') (name : String) (known : name ∈ vocabulary) :
    (e.child? name = none ∧ e'.child? name = none) ∨
      ∃ child child', e.child? name = some child ∧ e'.child? name = some child' ∧
        child.name = name ∧ view child = view child' := by
  have first (e : Element) : e.child? name = (childrenNamed e name).head? := by
    rw [childrenNamed, List.head?_filter]
    rfl
  -- both elements have the same children with this name, so also the same first one
  have heads := congrArg List.head? (childrenNamed_of_view same known)
  rw [List.head?_map, List.head?_map, ← first, ← first] at heads
  cases found : e.child? name with
  | none =>
    rw [found] at heads
    exact .inl ⟨rfl, Option.map_eq_none_iff.mp heads.symm⟩
  | some child =>
    rw [found] at heads
    obtain ⟨child', found', views⟩ := Option.map_eq_some_iff.mp heads.symm
    exact .inr ⟨child, child', rfl, found', Element.name_of_child? found, views.symm⟩

end Children

/-! ## Texts -/

/-- The characters that a visible part contributes to a text. -/
def charsOf : Visible → Except Fault (List Char)
  | .char c => .ok [c]
  | .element name attributes _ =>
    if name = "byte" then
      (Element.escapedChar ⟨name, attributes, Position.start, []⟩).map fun c => [c]
    else .ok []

/-- The characters that visible parts contribute, one after the other. -/
def charsIn : List Visible → Except Fault (List Char)
  | [] => .ok []
  | part :: parts => do
    let first ← charsOf part
    let rest ← charsIn parts
    return first ++ rest

theorem charsIn_append (parts later : List Visible) :
    charsIn (parts ++ later) = (do
      let first ← charsIn parts
      let rest ← charsIn later
      return first ++ rest) := by
  induction parts with
  | nil =>
    show charsIn later = charsIn later >>= pure
    rw [bind_pure]
  | cons part parts ih =>
    rw [List.cons_append, charsIn, charsIn, ih]
    simp only [bind_assoc, pure_bind, List.append_assoc]

theorem charsIn_chars (cs : List Char) : charsIn (cs.map .char) = .ok cs := by
  induction cs with
  | nil => rfl
  | cons c cs ih =>
    rw [List.map_cons, charsIn, ih]
    rfl

theorem escapedChar_agree {e e' : Element} (same : e.attributes = e'.attributes) :
    Agree e.escapedChar e'.escapedChar := by
  unfold Element.escapedChar Element.attribute?
  rw [same]
  cases e'.attributes.lookup "value" with
  | none => rfl
  | some written =>
    dsimp only
    cases (Element.escapeCode? written.toList).bind Text.scalar? <;> rfl

/-- A text is made of what can be seen of the nodes, where characters are seen at all. -/
theorem textOfNodes_agree {parent : String} (heard : parent ∉ silentNames) (nodes : List Node) :
    Agree (Element.textOfNodes nodes) (charsIn (visibleIn parent nodes)) := by
  induction nodes with
  | nil => rw [visibleIn]; rfl
  | cons node nodes ih =>
    rw [visibleIn, charsIn_append, Element.textOfNodes]
    refine Agree.bind ?_ fun first => Agree.bind ih fun rest => rfl
    cases node with
    | text content =>
      rw [visibleOf, if_neg heard, charsIn_chars]
      rfl
    | element name attributes position children =>
      rw [visibleOf, Element.textOfNode]
      by_cases byte : name = "byte"
      · -- the character is in the attributes, so neither position nor content matters
        have known : name ∈ vocabulary := by
          rw [byte]
          decide
        have single : charsIn [.element name attributes (visibleIn name children)]
            = (Element.escapedChar ⟨name, attributes, Position.start, []⟩).map fun c => [c] := by
          rw [charsIn, charsOf, if_pos byte]
          cases Element.escapedChar ⟨name, attributes, Position.start, []⟩ <;> rfl
        have escaped : Agree (Element.escapedChar ⟨name, attributes, position, children⟩)
            (Element.escapedChar ⟨name, attributes, Position.start, []⟩) := escapedChar_agree rfl
        rw [if_pos byte, if_pos known, single]
        exact escaped.map _
      · rw [if_neg byte]
        split
        · rw [charsIn, charsOf, if_neg byte]
          rfl
        · rfl

section Reading

variable {e e' : Element}

theorem text_agree (same : view e = view e') (heard : e.name ∉ silentNames) :
    Agree e.text e'.text := by
  have here := textOfNodes_agree heard e.children
  have there := textOfNodes_agree (name_of_view same ▸ heard) e'.children
  rw [visibleIn_of_view same] at here
  exact (here.trans there.symm).map String.ofList

theorem requiredText_agree (same : view e = view e') (parentName : String) {name : String}
    (known : name ∈ vocabulary) (heard : name ∉ silentNames) :
    Agree (requiredText e parentName name) (requiredText e' parentName name) := by
  unfold requiredText
  rcases child?_of_view same _ known with
    ⟨missing, missing'⟩ | ⟨child, child', found, found', rfl, views⟩
  · rw [missing, missing']
    rfl
  · rw [found, found']
    exact text_agree views heard

theorem optionalText_agree (same : view e = view e') {name : String} (known : name ∈ vocabulary)
    (heard : name ∉ silentNames) : Agree (optionalText e name) (optionalText e' name) := by
  unfold optionalText
  rcases child?_of_view same _ known with
    ⟨missing, missing'⟩ | ⟨child, child', found, found', rfl, views⟩
  · rw [missing, missing']
    rfl
  · rw [found, found']
    exact (text_agree views heard).map some

/-! ## Messages -/

theorem readStatus_agree (options : Options) (same : view e = view e') :
    Agree (readStatus options e) (readStatus options e') := by
  unfold readStatus
  rw [attribute?_of_view same "type"]
  split <;> rfl

/-- The element with the text of a translation is seen. -/
theorem firstForm_of_view (same : view e = view e') (heard : e.name ∉ silentNames) :
    view (firstForm e) = view (firstForm e') ∧ (firstForm e).name ∉ silentNames := by
  unfold firstForm
  rcases child?_of_view same "numerusform" (by decide) with
    ⟨missing, missing'⟩ | ⟨child, child', found, found', named, views⟩
  · rw [missing, missing']
    rcases child?_of_view same "lengthvariant" (by decide) with
      ⟨missing, missing'⟩ | ⟨child, child', found, found', named, views⟩
    · rw [missing, missing']
      exact ⟨same, heard⟩
    · rw [found, found']
      refine ⟨views, ?_⟩
      show child.name ∉ silentNames
      rw [named]
      decide
  · rw [found, found']
    refine ⟨views, ?_⟩
    show child.name ∉ silentNames
    rw [named]
    decide

theorem readTranslation_agree (options : Options) (same : view e = view e') :
    Agree (readTranslation options e) (readTranslation options e') := by
  unfold readTranslation
  rcases child?_of_view same "translation" (by decide) with
    ⟨missing, missing'⟩ | ⟨child, child', found, found', named, views⟩
  · rw [missing, missing']
    rfl
  · rw [found, found']
    have heard : child.name ∉ silentNames := by
      rw [named]
      decide
    obtain ⟨forms, heard⟩ := firstForm_of_view views heard
    refine (text_agree forms heard).bind fun text => ?_
    exact (readStatus_agree options views).bind fun status => rfl

theorem follow_agree (t : Trail) (same : view e = view e') :
    Agree (t.follow e) (t.follow e') := by
  have named : t.nameFile e = t.nameFile e' := by
    rw [Trail.nameFile, Trail.nameFile, attribute?_of_view same]
  unfold Trail.follow
  simp only [named, attribute?_of_view same "line"]
  cases e'.attribute? "line" with
  | none => rfl
  | some written =>
    dsimp only
    cases lineNumber? (t.nameFile e').lastLine written <;> rfl

/-- Hints are followed alike, each with the trail that those before it left. -/
theorem followAll_agree {hints hints' : List Element} (same : hints.map view = hints'.map view)
    (t : Trail) : Agree (t.followAll hints) (t.followAll hints') := by
  induction hints generalizing hints' t with
  | nil =>
    cases List.map_eq_nil_iff.mp same.symm
    rfl
  | cons hint hints ih =>
    obtain ⟨hint', rest, rfl, first, others⟩ := List.map_eq_cons_iff.mp same.symm
    refine (follow_agree t first.symm).bind fun step => ?_
    exact (ih others.symm step.2).bind fun walk => rfl

theorem readMessage_agree (options : Options) (context : String) (t : Trail)
    (same : view e = view e') :
    Agree (readMessage options context t e) (readMessage options context t e') := by
  unfold readMessage
  rw [attribute?_of_view same "id"]
  refine (requiredText_agree same "message" (by decide) (by decide)).bind fun source => ?_
  refine (readTranslation_agree options same).bind fun translation => ?_
  refine (optionalText_agree same (by decide) (by decide)).bind fun oldSource => ?_
  refine (optionalText_agree same (by decide) (by decide)).bind fun comment => ?_
  refine (optionalText_agree same (by decide) (by decide)).bind fun extraComment => ?_
  refine (optionalText_agree same (by decide) (by decide)).bind fun translatorComment => ?_
  exact (followAll_agree (childrenNamed_of_view same (by decide)) t).bind fun walk => rfl

theorem readMessages_agree (options : Options) (context : String)
    {messages messages' : List Element} (same : messages.map view = messages'.map view)
    (t : Trail) :
    Agree (readMessages options context t messages) (readMessages options context t messages') := by
  induction messages generalizing messages' t with
  | nil =>
    cases List.map_eq_nil_iff.mp same.symm
    rfl
  | cons message messages ih =>
    obtain ⟨message', rest, rfl, first, others⟩ := List.map_eq_cons_iff.mp same.symm
    refine (readMessage_agree options context t first.symm).bind fun step => ?_
    exact (ih others.symm step.2).bind fun entries => rfl

/-! ## Trees -/

theorem readContext_agree (options : Options) (same : view e = view e') :
    Agree (readContext options e) (readContext options e') := by
  refine (requiredText_agree same "context" (by decide) (by decide)).bind fun name => ?_
  exact (readMessages_agree options name (childrenNamed_of_view same (by decide)) _).bind
    fun entries => rfl

/-- The name of a child of the root that is not passed over. -/
def isBlockName (name : String) : Bool :=
  name == "context" || name == "message"

/-- Other children of the root are passed over. -/
theorem readBlocks_filter (options : Options) (t : Trail) (children : List Element) :
    readBlocks options t (children.filter fun child => isBlockName child.name)
      = readBlocks options t children := by
  induction children generalizing t with
  | nil => rfl
  | cons child children ih =>
    rw [List.filter_cons]
    by_cases context : child.name = "context"
    · rw [if_pos (by simp [isBlockName, context]), readBlocks, readBlocks, if_pos context,
        if_pos context]
      simp only [ih]
    · by_cases message : child.name = "message"
      · rw [if_pos (by simp [isBlockName, message]), readBlocks, readBlocks, if_neg context,
          if_neg context, if_pos message, if_pos message]
        simp only [ih]
      · rw [if_neg (by simp [isBlockName, context, message]), ih, readBlocks, if_neg context,
          if_neg message]

theorem readBlocks_agree (options : Options) {children children' : List Element}
    (same : children.map view = children'.map view) (t : Trail) :
    Agree (readBlocks options t children) (readBlocks options t children') := by
  induction children generalizing children' t with
  | nil =>
    cases List.map_eq_nil_iff.mp same.symm
    rfl
  | cons child children ih =>
    obtain ⟨child', rest, rfl, first, others⟩ := List.map_eq_cons_iff.mp same.symm
    unfold readBlocks
    rw [name_of_view first]
    split
    · refine (readContext_agree options first.symm).bind fun edits => ?_
      exact (ih others.symm t).bind fun rest => rfl
    · split
      · refine (readMessage_agree options "" t first.symm).bind fun step => ?_
        exact (ih others.symm step.2).bind fun rest => rfl
      · exact ih others.symm t

/-- The header is in the attributes of the root. -/
theorem readTag_agree (same : e.attributes = e'.attributes) (name : String) :
    Agree (readTag e name) (readTag e' name) := by
  unfold readTag Element.attribute?
  rw [same]
  split
  · rfl
  · split
    · rfl
    · split <;> rfl

theorem readLanguage_agree (options : Options) (same : e.attributes = e'.attributes) :
    Agree (readLanguage options e) (readLanguage options e') := by
  refine (readTag_agree same "language").bind fun tag => ?_
  cases tag with
  | some tag => rfl
  | none => cases options.defaultLanguage <;> rfl

theorem readHeader_agree (same : e.attributes = e'.attributes) :
    Agree (readHeader e) (readHeader e') := by
  unfold readHeader Element.attribute?
  rw [same]
  exact (readTag_agree same "sourcelanguage").bind fun tag => rfl

/-- **Trees with one view are read alike.** -/
theorem readCatalog_agree (options : Options) (same : view e = view e') :
    Agree (readCatalog options e) (readCatalog options e') := by
  have blocks : Agree (readBlocks options Trail.start e.elements)
      (readBlocks options Trail.start e'.elements) := by
    have known : ∀ name, isBlockName name = true → name ∈ vocabulary := by
      intro name block
      rcases (Bool.or_eq_true _ _).mp block with context | message
      · rw [beq_iff_eq.mp context]
        decide
      · rw [beq_iff_eq.mp message]
        decide
    -- the others need not have counterparts: some are seen and some are not
    rw [← readBlocks_filter, ← readBlocks_filter options _ e'.elements]
    apply readBlocks_agree
    rw [Element.elements, Element.elements, map_view_elements isBlockName known e.name,
      map_view_elements isBlockName known e'.name, visibleIn_of_view same]
  unfold readCatalog
  rw [name_of_view same]
  split
  · rfl
  · have attributes := attributes_of_view same
    refine (readLanguage_agree options attributes).bind fun language => ?_
    refine (readHeader_agree attributes).bind fun header => ?_
    exact blocks.bind fun edits => rfl

end Reading

end Linguist

end Phrasebook
