import Phrasebook.Linguist.LanguageList
import Phrasebook.Proofs.Linguist.LineNumber
import Phrasebook.Proofs.Linguist.Structure
import Phrasebook.Proofs.Locale.Grammar
import Phrasebook.Proofs.Markup.Depth
import Phrasebook.Proofs.Markup.Escape
import Phrasebook.Storage.Access

/-!
# What faults say

A reading that has to give up names an element and what is wrong with it. This module says that
the tree bears it out: the element is there, by the name and at the place that are reported, and it
has the defect. The rules for values are those that are stated elsewhere without the reader: the
grammar of tags, the words for a status, the lines of integers and the codes of characters.

- `FailsOnly`: every fault of a reading satisfies a condition. It is kept when readings are
  chained (`failsOnly_bind`).
- `Within`: the elements of a tree.
- `Defect`, `ListDefect`: what can be wrong with an element of a catalog, and of a list of
  languages.
- `Blames`, `Truthful`: the invariant. Each part of the reader fails only with faults that the tree
  bears out.
- `faults_truthful`: the faults of files.
- `parseCatalog_missesValue`: where the language of a file is known, the only attribute that can be
  missing is the value of an escape.
-/

namespace Phrasebook

open Markup

/-! ## Faults of chained readings -/

/-- Every fault that the reading can end with satisfies the condition. -/
def FailsOnly {α : Type} (P : Fault → Prop) (reading : Except Fault α) : Prop :=
  ∀ fault, reading = .error fault → P fault

section

variable {α β : Type} {P : Fault → Prop}

theorem failsOnly_ok (a : α) : FailsOnly P (.ok a) := by
  intro fault failed
  cases failed

theorem failsOnly_error {fault : Fault} (h : P fault) :
    FailsOnly P (.error fault : Except Fault α) := by
  intro fault' failed
  cases failed
  exact h

/-- The first reading can fail, and the second one where the first succeeds. -/
theorem failsOnly_bind {x : Except Fault α} {f : α → Except Fault β} (first : FailsOnly P x)
    (second : ∀ a, x = .ok a → FailsOnly P (f a)) : FailsOnly P (x >>= f) := by
  intro fault failed
  rcases bind_eq_error_iff.mp failed with failed | ⟨a, read, failed⟩
  · exact first fault failed
  · exact second a read fault failed

theorem failsOnly_map {x : Except Fault α} (f : α → β) (h : FailsOnly P x) :
    FailsOnly P (x.map f) :=
  fun fault failed => h fault (map_eq_error_iff.mp failed)

theorem failsOnly_mapM {f : α → Except Fault β} {as : List α} (h : ∀ a ∈ as, FailsOnly P (f a)) :
    FailsOnly P (as.mapM f) := by
  induction as with
  | nil => exact failsOnly_ok []
  | cons a as ih =>
    obtain ⟨first, later⟩ := List.forall_mem_cons.mp h
    rw [List.mapM_cons]
    exact failsOnly_bind first fun _ _ => failsOnly_bind (ih later) fun _ _ => failsOnly_ok _

end

namespace Markup

/-- The name of the element that a fault is about. Faults of the syntax are about none. -/
def Fault.element? : Fault → Option String
  | malformed _ | tooDeep _ => none
  | unexpectedRoot _ found _ => some found
  | missingElement parent _ _ => some parent
  | missingAttribute element _ _ | invalidAttribute element _ _ _ => some element

/-- A document that is refused is refused for its syntax. -/
theorem readDocument_failsOnly (bytes : List UInt8) :
    FailsOnly (fun fault => fault.element? = none) (readDocument bytes) := by
  intro fault failed
  rcases run_eq_error_or_malformed failed with refused | ⟨malformation, rfl, -⟩
  · obtain ⟨n, nested, -⟩ := Events.nested_items bytes
    obtain ⟨p, rfl, -⟩ := (Builder.run_eq_error_iff nested fault).mp refused
    rfl
  · rfl

end Markup

namespace Linguist

open Phrasebook.Locale Text

/-! ## Defects -/

/-- The elements of a tree: the root and those within it. -/
inductive Within (root : Element) : Element → Prop
  | root : Within root root
  | child {e child : Element} (around : Within root e) (listed : child ∈ e.elements) :
      Within root child

/-- The children that have to be there, with the elements that need them. -/
def requiredChildren : List (String × String) :=
  [("context", "name"), ("message", "source")]

/-- What is wrong with an element of a catalog. A line can be wrong because of the hints before it,
those of other messages among them. -/
inductive Defect (options : Options) (root e : Element) : Fault → Prop
  | root (top : e = root) (other : e.name ≠ "TS") :
      Defect options root e (.unexpectedRoot "TS" e.name e.position)
  | child {name : String} (required : (e.name, name) ∈ requiredChildren)
      (missing : ∀ child ∈ e.elements, child.name ≠ name) :
      Defect options root e (.missingElement e.name name e.position)
  | language (top : e = root) (named : e.name = "TS") (blank : Blank e "language")
      (unknown : options.defaultLanguage = none) :
      Defect options root e (.missingAttribute e.name "language" e.position)
  | tag {name written : String} {reason : TagError} (top : e = root) (named : e.name = "TS")
      (tags : name = "language" ∨ name = "sourcelanguage")
      (given : e.attribute? name = some written)
      (refused : Tag.Outcome (trim written) (.error reason)) :
      Defect options root e (.invalidAttribute e.name name (trim written) e.position)
  | status {written : String} (named : e.name = "translation")
      (given : e.attribute? "type" = some written)
      (refused : ∀ status, ¬ Declares options (some written) status) :
      Defect options root e (.invalidAttribute e.name "type" written e.position)
  | line {site : Site} {before after : List Element} {places : List Location} {trail : Trail}
      {written : String} (named : e.name = "location") (listed : site ∈ sites root)
      (split : hints site.message = before ++ e :: after)
      (followed : Trail.start.followAll (site.earlier ++ before) = .ok (places, trail))
      (given : e.attribute? "line" = some written)
      (refused : ∀ n, GivesLine (trail.nameFile e).lastLine written.toList n →
        n < 0 ∨ 2 ^ 32 ≤ n) :
      Defect options root e (.invalidAttribute e.name "line" written e.position)
  | escape {fault : Fault} (refused : e.Refuses fault) : Defect options root e fault

/-- What is wrong with an element of a list of languages. -/
inductive ListDefect (root e : Element) : Fault → Prop
  | root (top : e = root) (other : e.name ≠ "languages") :
      ListDefect root e (.unexpectedRoot "languages" e.name e.position)
  | attribute {name : String} (named : e.name = "language")
      (required : name = "ietfCode" ∨ name = "name") (missing : e.attribute? name = none) :
      ListDefect root e (.missingAttribute e.name name e.position)
  | tag {written : String} {reason : TagError} (named : e.name = "language")
      (given : e.attribute? "ietfCode" = some written)
      (refused : Tag.Outcome written (.error reason)) :
      ListDefect root e (.invalidAttribute e.name "ietfCode" written e.position)

/-- There is an element with a defect that leads to the fault. -/
def Blames (root : Element) (defect : Element → Fault → Prop) (fault : Fault) : Prop :=
  ∃ e, Within root e ∧ defect e fault

/-- A reading of a part of a catalog fails only with faults that the tree bears out. -/
abbrev Truthful {α : Type} (options : Options) (root : Element) (reading : Except Fault α) : Prop :=
  FailsOnly (Blames root (Defect options root)) reading

section

variable {options : Options} {root e : Element} {fault : Fault}

/-- **A fault names the element** that has the defect, and its place. -/
theorem Defect.names (defect : Defect options root e fault) :
    fault.element? = some e.name ∧ fault.position = e.position := by
  cases defect with
  | escape refused => cases refused with
    | missing named => exact ⟨congrArg some named.symm, rfl⟩
    | invalid named => exact ⟨congrArg some named.symm, rfl⟩
  | _ => exact ⟨rfl, rfl⟩

theorem ListDefect.names (defect : ListDefect root e fault) :
    fault.element? = some e.name ∧ fault.position = e.position := by
  cases defect <;> exact ⟨rfl, rfl⟩

/-- A text that is no tag has a defect by the grammar of tags. -/
theorem outcome_of_parse_eq_error {written : String} {reason : TagError}
    (refused : Tag.parse written = .error reason) : Tag.Outcome written (.error reason) :=
  refused ▸ Tag.outcome_parse written

/-! ## The header -/

theorem readTag_truthful {name : String} (named : root.name = "TS")
    (tags : name = "language" ∨ name = "sourcelanguage") :
    Truthful options root (readTag root name) := by
  unfold readTag
  cases given : root.attribute? name with
  | none => exact failsOnly_ok none
  | some written =>
    simp only [Option.map_some]
    split
    · exact failsOnly_ok none
    · split
      · exact failsOnly_ok _
      · rename_i refused
        rw [← named]
        exact failsOnly_error
          ⟨root, .root, .tag rfl named tags given (outcome_of_parse_eq_error refused)⟩

theorem readLanguage_truthful (named : root.name = "TS") :
    Truthful options root (readLanguage options root) := by
  refine failsOnly_bind (readTag_truthful named (.inl rfl)) fun tag read => ?_
  rcases (readTag_eq_ok_iff root "language" tag).mp read with ⟨blank, rfl⟩ | ⟨t, -, rfl⟩
  · cases unknown : options.defaultLanguage with
    | some standard => exact failsOnly_ok standard
    | none =>
      rw [← named]
      exact failsOnly_error ⟨root, .root, .language rfl named blank unknown⟩
  · exact failsOnly_ok t

theorem readHeader_truthful (named : root.name = "TS") :
    Truthful options root (readHeader root) :=
  failsOnly_bind (readTag_truthful named (.inr rfl)) fun _ _ => failsOnly_ok _

/-! ## Texts and hints -/

theorem text_truthful (inside : Within root e) : Truthful options root e.text := by
  refine failsOnly_map _ fun fault failed => ?_
  obtain ⟨before, refused, after, split, -, refuses⟩ :=
    (Element.textOfNodes_eq_error_iff e.children fault).mp failed
  have listed : refused ∈ e.elements := by
    rw [Element.elements, split]
    exact List.mem_append_right before List.mem_cons_self
  exact ⟨refused, .child inside listed, .escape refuses⟩

theorem Within.of_child? {parent child : Element} {name : String} (inside : Within root parent)
    (found : parent.child? name = some child) : Within root child :=
  .child inside (List.mem_of_find?_eq_some found)

theorem requiredText_truthful {parent : Element} (inside : Within root parent) {name : String}
    (required : (parent.name, name) ∈ requiredChildren) :
    Truthful options root (requiredText parent parent.name name) := by
  unfold requiredText
  cases found : parent.child? name with
  | some child => exact text_truthful (inside.of_child? found)
  | none =>
    refine failsOnly_error ⟨parent, inside, .child required fun child listed named => ?_⟩
    exact List.find?_eq_none.mp found child listed (beq_iff_eq.mpr named)

theorem optionalText_truthful {parent : Element} (inside : Within root parent) (name : String) :
    Truthful options root (optionalText parent name) := by
  unfold optionalText
  cases found : parent.child? name with
  | some child => exact failsOnly_map some (text_truthful (inside.of_child? found))
  | none => exact failsOnly_ok none

theorem within_firstForm {translation : Element} (inside : Within root translation) :
    Within root (firstForm translation) := by
  unfold firstForm
  cases plural : translation.child? "numerusform" with
  | some form => exact inside.of_child? plural
  | none =>
    cases variant : translation.child? "lengthvariant" with
    | some form => exact inside.of_child? variant
    | none => exact inside

theorem readStatus_truthful {translation : Element} (inside : Within root translation)
    (named : translation.name = "translation") :
    Truthful options root (readStatus options translation) := by
  intro fault failed
  have refused : ∀ status, ¬ Declares options (translation.attribute? "type") status := by
    intro status declared
    rw [(readStatus_eq_ok_iff options translation status).mpr declared] at failed
    cases failed
  unfold readStatus at failed
  split at failed <;> cases failed
  rename_i written _ _ _ _ given
  rw [given] at refused
  rw [← named]
  exact ⟨translation, inside, .status named given refused⟩

theorem readTranslation_truthful {message : Element} (inside : Within root message) :
    Truthful options root (readTranslation options message) := by
  unfold readTranslation
  cases found : message.child? "translation" with
  | none => exact failsOnly_ok _
  | some translation =>
    have inside := inside.of_child? found
    have status : Truthful options root (readStatus options translation) :=
      readStatus_truthful inside (Element.name_of_child? found)
    exact failsOnly_bind (text_truthful (within_firstForm inside)) fun _ _ =>
      failsOnly_bind status fun _ _ => failsOnly_ok _

/-- The messages of a tree are elements of it. -/
theorem within_of_mem_sites {site : Site} (listed : site ∈ sites root) :
    Within root site.message ∧ site.message.name = "message" := by
  obtain ⟨child, among, held⟩ := exists_place_mem listed
  unfold messagesIn at held
  split at held
  · obtain ⟨message, below, same⟩ := List.mem_map.mp held
    obtain rfl : message = site.message := congrArg Prod.snd same
    obtain ⟨below, named⟩ := List.mem_filter.mp below
    exact ⟨.child (.child .root among) below, beq_iff_eq.mp named⟩
  · split at held
    · rename_i named
      obtain rfl : site.message = child := congrArg Prod.snd (List.mem_singleton.mp held)
      exact ⟨.child .root among, named⟩
    · cases held

/-- A hint is refused for the line that it gives after the hints before it. -/
theorem followAll_truthful {site : Site} (listed : site ∈ sites root) {before ahead : List Element}
    (split : hints site.message = before ++ ahead) {places : List Location} {trail : Trail}
    (followed : Trail.start.followAll (site.earlier ++ before) = .ok (places, trail)) :
    Truthful options root (trail.followAll ahead) := by
  induction ahead generalizing before places trail with
  | nil => exact failsOnly_ok _
  | cons hint ahead ih =>
    have below : hint ∈ hints site.message := by
      rw [split]
      exact List.mem_append_right before List.mem_cons_self
    obtain ⟨below, named⟩ := List.mem_filter.mp below
    have named := beq_iff_eq.mp named
    have first : Truthful options root (trail.follow hint) := by
      unfold Trail.follow
      dsimp only
      cases given : hint.attribute? "line" with
      | none => exact failsOnly_ok _
      | some written =>
        cases number : lineNumber? (trail.nameFile hint).lastLine written with
        | some n =>
          simp only [number]
          exact failsOnly_ok _
        | none =>
          simp only [number]
          rw [← named]
          exact failsOnly_error ⟨hint, .child (within_of_mem_sites listed).1 below,
            .line named listed split followed given (lineNumber?_eq_none_iff.mp number)⟩
    refine failsOnly_bind first fun next step => ?_
    obtain ⟨location, after⟩ := next
    have onward := Trail.followAll_snoc followed step
    rw [List.append_assoc] at onward
    have split : hints site.message = (before ++ [hint]) ++ ahead := by
      rw [split, List.append_assoc, List.singleton_append]
    exact failsOnly_bind (ih split onward) fun _ _ => failsOnly_ok _

/-! ## Messages -/

section

variable {before : List Location} {trail : Trail}

theorem readMessage_truthful (context : String) {site : Site} (listed : site ∈ sites root)
    (followed : Trail.start.followAll site.earlier = .ok (before, trail)) :
    Truthful options root (readMessage options context trail site.message) := by
  obtain ⟨inside, named⟩ := within_of_mem_sites listed
  have source : Truthful options root (requiredText site.message "message" "source") := by
    rw [← named]
    exact requiredText_truthful inside (named ▸ by decide)
  have note (name : String) : Truthful options root (optionalText site.message name) :=
    optionalText_truthful inside name
  have places : Truthful options root (trail.followAll (hints site.message)) :=
    followAll_truthful listed (List.nil_append _).symm (by rw [List.append_nil]; exact followed)
  unfold readMessage
  refine failsOnly_bind source fun _ _ => ?_
  refine failsOnly_bind (readTranslation_truthful inside) fun _ _ => ?_
  refine failsOnly_bind (note "oldsource") fun _ _ => ?_
  refine failsOnly_bind (note "comment") fun _ _ => ?_
  refine failsOnly_bind (note "extracomment") fun _ _ => ?_
  refine failsOnly_bind (note "translatorcomment") fun _ _ => ?_
  exact failsOnly_bind places fun _ _ => failsOnly_ok _

theorem readMessages_truthful (context : String) {block : Option Element}
    {earlier messages : List Element}
    (listed : ∀ site ∈ sitesOf block earlier messages, site ∈ sites root)
    (followed : Trail.start.followAll earlier = .ok (before, trail)) :
    Truthful options root (readMessages options context trail messages) := by
  induction messages generalizing earlier before trail with
  | nil => exact failsOnly_ok []
  | cons message messages ih =>
    obtain ⟨here, later⟩ := List.forall_mem_cons.mp listed
    refine failsOnly_bind (readMessage_truthful context here followed) fun next read => ?_
    obtain ⟨e, after⟩ := next
    exact failsOnly_bind (ih later (followAll_after_message followed read)) fun _ _ =>
      failsOnly_ok _

/-- **The children of the root** are read with the trail of the hints before them, so that what
is wrong with a hint is known from the tree. -/
theorem readBlocks_truthful {earlier children : List Element}
    (among : ∀ child ∈ children, child ∈ root.elements)
    (listed : ∀ site ∈ sitesAmong earlier children, site ∈ sites root)
    (followed : Trail.start.followAll earlier = .ok (before, trail)) :
    Truthful options root (readBlocks options trail children) := by
  induction children generalizing earlier before trail with
  | nil => exact failsOnly_ok []
  | cons child children ih =>
    obtain ⟨child_among, among⟩ := List.forall_mem_cons.mp among
    unfold readBlocks
    unfold sitesAmong at listed
    by_cases context : child.name = "context"
    · rw [if_pos context] at listed ⊢
      obtain ⟨here, later⟩ := List.forall_mem_append.mp listed
      have name : Truthful options root (requiredText child "context" "name") := by
        rw [← context]
        exact requiredText_truthful (.child .root child_among) (context ▸ by decide)
      have block : Truthful options root (readContext options child) :=
        failsOnly_bind name fun name _ =>
          failsOnly_bind (readMessages_truthful name here Trail.start.followAll_nil) fun _ _ =>
            failsOnly_ok _
      exact failsOnly_bind block fun _ _ =>
        failsOnly_bind (ih among later followed) fun _ _ => failsOnly_ok _
    · rw [if_neg context] at listed ⊢
      by_cases message : child.name = "message"
      · rw [if_pos message] at listed ⊢
        obtain ⟨here, later⟩ := List.forall_mem_cons.mp listed
        refine failsOnly_bind (readMessage_truthful "" here followed) fun next read => ?_
        obtain ⟨e, after⟩ := next
        exact failsOnly_bind (ih among later (followAll_after_message followed read)) fun _ _ =>
          failsOnly_ok _
      · rw [if_neg message] at listed ⊢
        exact ih among listed followed

end

/-! ## Files -/

theorem readCatalog_truthful (options : Options) (root : Element) :
    Truthful options root (readCatalog options root) := by
  unfold readCatalog
  by_cases named : root.name = "TS"
  · have blocks : Truthful options root (readBlocks options Trail.start root.elements) :=
      readBlocks_truthful (fun _ mem => mem) (fun _ mem => mem) Trail.start.followAll_nil
    rw [if_neg (not_not_intro named)]
    refine failsOnly_bind (readLanguage_truthful named) fun _ _ => ?_
    refine failsOnly_bind (readHeader_truthful named) fun _ _ => ?_
    exact failsOnly_bind blocks fun _ _ => failsOnly_ok _
  · rw [if_pos named]
    exact failsOnly_error ⟨root, .root, .root rfl named⟩

theorem readLanguageList_truthful (root : Element) :
    FailsOnly (Blames root (ListDefect root)) (readLanguageList root) := by
  have language : ∀ e ∈ root.elements.filter fun e => e.name == "language",
      FailsOnly (Blames root (ListDefect root)) (readLanguageName e) := by
    intro e mem
    obtain ⟨listed, named⟩ := List.mem_filter.mp mem
    have inside : Within root e := .child .root listed
    have named := beq_iff_eq.mp named
    have required {name : String} (known : name = "ietfCode" ∨ name = "name") :
        FailsOnly (Blames root (ListDefect root)) (requiredAttribute e name) := by
      unfold requiredAttribute
      split
      · exact failsOnly_ok _
      · rename_i missing
        rw [← named]
        exact failsOnly_error ⟨e, inside, .attribute named known missing⟩
    refine failsOnly_bind (required (.inl rfl)) fun code read => ?_
    split
    · rename_i reason refused
      have given : e.attribute? "ietfCode" = some code := by
        unfold requiredAttribute at read
        split at read <;> cases read
        assumption
      rw [← named]
      exact failsOnly_error ⟨e, inside, .tag named given (outcome_of_parse_eq_error refused)⟩
    · exact failsOnly_bind (required (.inr rfl)) fun _ _ => failsOnly_ok _
  unfold readLanguageList
  by_cases named : root.name = "languages"
  · rw [if_neg (not_not_intro named)]
    exact failsOnly_mapM language
  · rw [if_pos named]
    exact failsOnly_error ⟨root, .root, .root rfl named⟩

end

/-- A file is refused for its syntax, or for something in its tree. -/
theorem blames_of_file {α : Type} {read : Element → Except Fault α}
    {defect : Element → Element → Fault → Prop}
    (reads : ∀ root, FailsOnly (Blames root (defect root)) (read root)) {bytes : List UInt8}
    {fault : Fault} (failed : readDocument bytes >>= read = .error fault) :
    (readDocument bytes = .error fault ∧ fault.element? = none) ∨
      ∃ root e, readDocument bytes = .ok root ∧ Within root e ∧ defect root e fault := by
  rcases bind_eq_error_iff.mp failed with refused | ⟨root, document, failed⟩
  · exact .inl ⟨refused, readDocument_failsOnly bytes fault refused⟩
  · obtain ⟨e, inside, here⟩ := reads root fault failed
    exact .inr ⟨root, e, document, inside, here⟩

/-- If the fault is that an attribute is missing, it is the value of an escape. -/
def MissesValue (fault : Fault) : Prop :=
  ∀ element name position, fault = .missingAttribute element name position →
    element = "byte" ∧ name = "value"

/-- **The language of a file cannot be missing** if there is one for files that name none. -/
theorem parseCatalog_missesValue (options : Options) {language : Tag}
    (given : options.defaultLanguage = some language) (bytes : List UInt8) :
    FailsOnly MissesValue (parseCatalog options bytes) := by
  rintro fault failed element name position rfl
  rcases blames_of_file (readCatalog_truthful options) failed with
    ⟨-, none⟩ | ⟨root, e, -, -, defect⟩
  · cases none
  · cases defect with
    | language _ _ _ unknown => cases unknown.symm.trans given
    | escape refused => cases refused with
      | missing => exact ⟨rfl, rfl⟩

/-- **Faults are truthful.** A file that is no catalog, or no list of languages, either is refused
for its syntax, or it has a tree, and in the tree there is an element by the name and at the place
that the fault reports, which has the defect that it reports. -/
theorem faults_truthful (options : Options) (bytes : List UInt8) (fault : Fault) :
    (parseCatalog options bytes = .error fault →
      (readDocument bytes = .error fault ∧ fault.element? = none) ∨
        ∃ root e, readDocument bytes = .ok root ∧ Within root e ∧
          fault.element? = some e.name ∧ fault.position = e.position ∧
          Defect options root e fault) ∧
    (parseLanguageList bytes = .error fault →
      (readDocument bytes = .error fault ∧ fault.element? = none) ∨
        ∃ root e, readDocument bytes = .ok root ∧ Within root e ∧
          fault.element? = some e.name ∧ fault.position = e.position ∧
          ListDefect root e fault) := by
  constructor
  · intro failed
    rcases blames_of_file (readCatalog_truthful options) failed with
      refused | ⟨root, e, document, inside, defect⟩
    · exact .inl refused
    · exact .inr ⟨root, e, document, inside, defect.names.1, defect.names.2, defect⟩
  · intro failed
    rcases blames_of_file readLanguageList_truthful failed with
      refused | ⟨root, e, document, inside, defect⟩
    · exact .inl refused
    · exact .inr ⟨root, e, document, inside, defect.names.1, defect.names.2, defect⟩

/-- Of two attributes that are missing one is reported, with the place of the element. -/
example : parseLanguageList (Storage.bytesOf "<languages><x/>\n <language/></languages>")
    = .error (.missingAttribute "language" "ietfCode" ⟨2, 2⟩) := rfl

end Linguist

end Phrasebook
