import Phrasebook.Proofs.Catalog.Grouping
import Phrasebook.Proofs.Linguist.Structure
import Phrasebook.Proofs.Linguist.Visible
import Phrasebook.Proofs.Markup.Writing

/-!
# Contexts in several blocks

The messages of a context may be spread over blocks, with those of other contexts in between.
This module shows that it makes no difference how, as long as the messages of each context
remain the same and in the same order. Only the places of a message can differ, since hints
refer back within one block.

- `contextName?`, `messagesOf`: the messages of a tree that belong to a context.
- `placeless_eq_of_renders`: equal messages of one context have equal entries, apart from their
  places.
- `sameByContext_of_renders`: so trees with equal messages in each context have catalogs with
  equal entries in each context.
- `blocks_regrouped`: and these catalogs cannot be told apart.
-/

namespace Phrasebook.Linguist

open Markup

/-! ## The messages of a context -/

/-- The name of the context that messages in a block belong to, if it can be read. Those outside
of blocks have the empty one. -/
def contextName? : Option Element → Option String
  | none => some ""
  | some block => (block.child? "name").bind fun name => name.text.toOption

/-- The messages of a tree that belong to a context, in document order. -/
def messagesOf (root : Element) (name : String) : List Element :=
  ((root.elements.flatMap messagesIn).filter fun place => contextName? place.1 == some name).map
    Prod.snd

theorem contextName?_eq_some_iff (block : Option Element) (name : String) :
    contextName? block = some name ↔ NamesContext block name := by
  cases block with
  | none => simp [contextName?, NamesContext, eq_comm]
  | some block =>
    show (block.child? "name").bind _ = some name ↔ HasText block "name" name
    rw [Option.bind_eq_some_iff]
    refine exists_congr fun child => and_congr_right fun _ => ?_
    cases child.text <;> simp [Except.toOption]

/-- The messages of a context are those of the sites in its blocks. -/
theorem map_message_sites (root : Element) (name : String) :
    ((sites root).filter fun site => contextName? site.block == some name).map Site.message
      = messagesOf root name := by
  rw [messagesOf, ← map_place_sites, List.filter_map, List.map_map]
  rfl

/-! ## Positions are not seen -/

mutual

theorem visibleOf_bare : ∀ (parent : String) (node : Node),
    visibleOf parent node.bare = visibleOf parent node
  | _, .text _ => rfl
  | parent, .element name attributes position children => by
    rw [Node.bare, visibleOf, visibleOf, visibleIn_bareAll name children]

theorem visibleIn_bareAll : ∀ (parent : String) (nodes : List Node),
    visibleIn parent (bareAll nodes) = visibleIn parent nodes
  | _, [] => rfl
  | parent, node :: nodes => by
    rw [bareAll, visibleIn, visibleIn, visibleOf_bare parent node,
      visibleIn_bareAll parent nodes]

end

theorem view_bare (e : Element) : view e.bare = view e := by
  unfold view Element.bare
  rw [visibleIn_bareAll]

/-! ## Equal messages -/

section Entries

variable {options : Options} {site site' : Site} {e e' : Entry}

theorem hasText_unique {message message' : Element} (same : view message = view message')
    {name text text' : String} (known : name ∈ vocabulary) (heard : name ∉ silentNames)
    (h : HasText message name text) (h' : HasText message' name text') : text = text' := by
  -- the reader answers both messages alike, and each text is its answer
  have agree := requiredText_agree same "" known heard
  rw [(requiredText_eq_ok_iff _ _ _ _).mpr h, (requiredText_eq_ok_iff _ _ _ _).mpr h'] at agree
  exact agree.eq_of_ok

theorem mayHaveText_unique {message message' : Element} (same : view message = view message')
    {name : String} {text text' : Option String} (known : name ∈ vocabulary)
    (heard : name ∉ silentNames) (h : MayHaveText message name text)
    (h' : MayHaveText message' name text') : text = text' := by
  have agree := optionalText_agree same known heard
  rw [(optionalText_eq_ok_iff _ _ _).mpr h, (optionalText_eq_ok_iff _ _ _).mpr h'] at agree
  exact agree.eq_of_ok

theorem hasTranslation_unique {message message' : Element} (same : view message = view message')
    {text text' : String} {status status' : Status}
    (h : HasTranslation options message text status)
    (h' : HasTranslation options message' text' status') : (text, status) = (text', status') := by
  have agree := readTranslation_agree options same
  rw [(readTranslation_eq_ok_iff _ _ _ _).mpr h,
    (readTranslation_eq_ok_iff _ _ _ _).mpr h'] at agree
  exact agree.eq_of_ok

/-- **Equal messages of one context** have equal entries, apart from their places. -/
theorem placeless_eq_of_renders (same : view site.message = view site'.message)
    (rendered : Renders options site e) (rendered' : Renders options site' e')
    (context : e.context = e'.context) : e.placeless = e'.placeless := by
  obtain ⟨-, here, -⟩ := rendered
  obtain ⟨-, there, -⟩ := rendered'
  obtain ⟨translation, status⟩ :=
    Prod.mk.inj (hasTranslation_unique same here.translation there.translation)
  unfold Entry.placeless
  rw [Entry.mk.injEq]
  refine ⟨context, hasText_unique same (by decide) (by decide) here.source there.source,
    translation, status,
    mayHaveText_unique same (by decide) (by decide) here.oldSource there.oldSource,
    mayHaveText_unique same (by decide) (by decide) here.comment there.comment,
    mayHaveText_unique same (by decide) (by decide) here.extraComment there.extraComment,
    mayHaveText_unique same (by decide) (by decide) here.translatorComment there.translatorComment,
    ?_, rfl⟩
  rw [here.id, there.id, attribute?_of_view same]

/-- The same for several messages of one context. -/
theorem map_placeless_of_renders {among among' : List Site} {entries entries' : List Entry}
    {name : String} (rendered : List.Forall₂ (Renders options) among entries)
    (rendered' : List.Forall₂ (Renders options) among' entries')
    (same : among.map (fun site => view site.message) = among'.map fun site => view site.message)
    (context : ∀ e ∈ entries, e.context = name) (context' : ∀ e ∈ entries', e.context = name) :
    entries.map Entry.placeless = entries'.map Entry.placeless := by
  induction rendered generalizing among' entries' with
  | nil =>
    cases List.map_eq_nil_iff.mp same.symm
    cases rendered'
    rfl
  | cons first rest ih =>
    obtain ⟨site', others', rfl, views, others⟩ := List.map_eq_cons_iff.mp same.symm
    obtain ⟨e', rest', first', others_rendered, rfl⟩ := List.forall₂_cons_left_iff.mp rendered'
    rw [List.forall_mem_cons] at context context'
    rw [List.map_cons, List.map_cons,
      placeless_eq_of_renders views.symm first first' (context.1.trans context'.1.symm),
      ih others_rendered others.symm context.2 context'.2]

end Entries

/-- The entries of a context are those of its messages. -/
theorem forall₂_renders_filter {options : Options} {among : List Site} {entries : List Entry}
    (rendered : List.Forall₂ (Renders options) among entries) (name : String) :
    List.Forall₂ (Renders options)
      (among.filter fun site => contextName? site.block == some name)
      (entries.filter fun e => e.context == name) := by
  refine List.rel_filter ?_ rendered
  intro site e here
  show (contextName? site.block == some name) = true ↔ (e.context == name) = true
  rw [(contextName?_eq_some_iff site.block e.context).mpr here.context]
  simp

/-- **Trees with equal messages in each context** have equal entries in each context. -/
theorem sameByContext_of_renders {options : Options} {root root' : Element}
    {entries entries' : List Entry}
    (rendered : List.Forall₂ (Renders options) (sites root) entries)
    (rendered' : List.Forall₂ (Renders options) (sites root') entries')
    (same : ∀ name, (messagesOf root name).map Element.bare
      = (messagesOf root' name).map Element.bare) :
    Catalog.SameByContext entries entries' := by
  intro name
  have context : ∀ among : List Entry, ∀ e ∈ among.filter (fun e => e.context == name),
      e.context = name :=
    fun among e mem => beq_iff_eq.mp (List.mem_filter.mp mem).2
  -- sites and entries of this context still correspond, as each entry has its site's context
  refine map_placeless_of_renders (forall₂_renders_filter rendered name)
    (forall₂_renders_filter rendered' name) ?_ (context entries) (context entries')
  have views : ∀ messages : List Element, (messages.map Element.bare).map view
      = messages.map view := by
    intro messages
    rw [List.map_map]
    exact List.map_congr_left fun message _ => view_bare message
  have split : ∀ tree : Element,
      ((sites tree).filter fun site => contextName? site.block == some name).map
          (fun site => view site.message) = (messagesOf tree name).map view := by
    intro tree
    rw [← map_message_sites, List.map_map]
    rfl
  rw [split root, split root', ← views, ← views (messagesOf root' name), same name]

/-- **Spreading a context over blocks changes nothing.** Of two trees with one header that can be
read and have the same messages in each context, positions apart, however these are grouped, the
catalogs are of one language, show the same texts, find the same entries apart from their places,
and have the same counts and, in some order, the same duplicates. -/
theorem blocks_regrouped (options : Options) (root root' : Element) (catalog catalog' : Catalog)
    (attributes : root.attributes = root'.attributes)
    (read : readCatalog options root = .ok catalog)
    (read' : readCatalog options root' = .ok catalog')
    (same : ∀ name, (messagesOf root name).map Element.bare
      = (messagesOf root' name).map Element.bare) :
    catalog.language = catalog'.language ∧
    (∀ context source, catalog.resolve context source = catalog'.resolve context source) ∧
    (∀ context source, (catalog.lookup? context source).map Entry.placeless
      = (catalog'.lookup? context source).map Entry.placeless) ∧
    catalog.stats = catalog'.stats ∧
    catalog.duplicateKeys.toList.Perm catalog'.duplicateKeys.toList := by
  obtain ⟨language, edits, first, rfl, rendered⟩ := exists_renders_of_readCatalog read
  obtain ⟨language', edits', first', rfl, rendered'⟩ := exists_renders_of_readCatalog read'
  refine ⟨?_, Catalog.ofEdits_of_sameByContext language language'
    (sameByContext_of_renders rendered rendered' same)⟩
  rw [Catalog.language_ofEdits, Catalog.language_ofEdits]
  have agree := readLanguage_agree options attributes
  rw [first, first'] at agree
  exact agree.eq_of_ok

/-- A context in two blocks, cut in two ways, with a message outside of contexts between them or
before them. A hint in the second block goes on from another one in one tree only, and the last
message is a duplicate in both. -/
theorem blocks_regrouped_split :
    let message (line : Nat) (hint : List (String × String)) (source : String) : Node :=
      .element "message" [] ⟨line, 1⟩ [.element "location" hint ⟨line, 9⟩ [],
        .element "source" [] ⟨line, 19⟩ [.text source]]
    let block (line : Nat) (messages : List Node) : Node :=
      .element "context" [] ⟨line, 1⟩
        (.element "name" [] ⟨line, 9⟩ [.text "Menu"] :: messages)
    let root : Element := ⟨"TS", [("language", "hr")], ⟨1, 1⟩, [
      block 2 [message 3 [("filename", "menu.ui")] "Open", message 4 [] "Close"],
      message 5 [] "Ready", block 6 [message 7 [] "Open"]]⟩
    let root' : Element := ⟨"TS", [("language", "hr")], ⟨1, 1⟩, [
      message 2 [] "Ready", block 3 [message 4 [("filename", "menu.ui")] "Open"],
      block 5 [message 6 [] "Close", message 7 [] "Open"]]⟩
    root.attributes = root'.attributes ∧
    (∀ name, (messagesOf root name).map Element.bare = (messagesOf root' name).map Element.bare) ∧
    ∃ catalog catalog', readCatalog {} root = .ok catalog ∧ readCatalog {} root' = .ok catalog' ∧
      (∀ context source, catalog.resolve context source = catalog'.resolve context source) ∧
      catalog.duplicateKeys.toList.Perm catalog'.duplicateKeys.toList := by
  intro message block root root'
  have same : ∀ name, (messagesOf root name).map Element.bare
      = (messagesOf root' name).map Element.bare := by
    intro name
    by_cases outside : name = ""
    · rw [outside]
      rfl
    · by_cases within : name = "Menu"
      · rw [within]
        rfl
      · -- no block has another name
        have empty : ∀ tree : Element, (tree.elements.flatMap messagesIn).all
            (fun place => [some "", some "Menu"].contains (contextName? place.1)) = true →
            messagesOf tree name = [] := by
          intro tree named
          rw [messagesOf, List.map_eq_nil_iff, List.filter_eq_nil_iff]
          intro place mem here
          have known := List.all_eq_true.mp named place mem
          rw [beq_iff_eq.mp here] at known
          simp [outside, within] at known
        rw [empty root rfl, empty root' rfl]
  obtain ⟨catalog, read⟩ : ∃ catalog, readCatalog {} root = .ok catalog := ⟨_, rfl⟩
  obtain ⟨catalog', read'⟩ : ∃ catalog, readCatalog {} root' = .ok catalog := ⟨_, rfl⟩
  obtain ⟨-, texts, -, -, duplicates⟩ :=
    blocks_regrouped {} root root' catalog catalog' rfl read read' same
  exact ⟨rfl, same, catalog, catalog', read, read', texts, duplicates⟩

end Phrasebook.Linguist
