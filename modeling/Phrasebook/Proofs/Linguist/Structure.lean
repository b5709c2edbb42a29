import Mathlib.Data.List.Forall2
import Phrasebook.Proofs.Linguist.Header
import Phrasebook.Proofs.Linguist.Hint
import Phrasebook.Proofs.Linguist.Message

/-!
# Which trees are catalogs

Reading a tree as a catalog stops at the first fault. This module says which trees have no fault,
without following the reader through them, and that a catalog holds one entry for each message
element of the tree, in order.

- `Site`, `sites`: the message elements of a tree, each with what its reading depends on.
- `Renders`: the entry of a message element.
- `WellFormed`: a tree without a fault.
- `readBlocks_iff`: the reader's way through the root's children, with the trail it carries.
- `readCatalog_accepts`: the trees that are catalogs, and what their catalogs hold.
-/

namespace Phrasebook.Linguist

open Phrasebook.Locale Markup

/-! ## The messages of a tree -/

/-- A message element where it stands. -/
structure Site where
  /-- The `context` element around the message, unless it stands directly below the root. -/
  block : Option Element
  /-- The hints before the message that its own hints can refer to. -/
  earlier : List Element
  message : Element

/-- Messages that stand one after the other, after some hints. -/
def sitesOf (block : Option Element) : List Element → List Element → List Site
  | _, [] => []
  | earlier, message :: messages =>
    ⟨block, earlier, message⟩ :: sitesOf block (earlier ++ hints message) messages

/-- The messages among and within some children of the root. Those among them share their hints,
and each context starts without any. -/
def sitesAmong : List Element → List Element → List Site
  | _, [] => []
  | earlier, child :: children =>
    if child.name = "context" then
      sitesOf (some child) [] (childrenNamed child "message") ++ sitesAmong earlier children
    else if child.name = "message" then
      ⟨none, earlier, child⟩ :: sitesAmong (earlier ++ hints child) children
    else
      sitesAmong earlier children

/-- The messages of a tree, in order. -/
def sites (root : Element) : List Site :=
  sitesAmong [] root.elements

/-- The message of a site with the context around it. -/
def Site.place (site : Site) : Option Element × Element :=
  (site.block, site.message)

/-- The message elements that a child of the root is or holds, with the context around them. -/
def messagesIn (child : Element) : List (Option Element × Element) :=
  if child.name = "context" then
    (childrenNamed child "message").map fun message => (some child, message)
  else if child.name = "message" then
    [(none, child)]
  else
    []

theorem map_place_sitesOf (block : Option Element) (earlier messages : List Element) :
    (sitesOf block earlier messages).map Site.place
      = messages.map fun message => (block, message) := by
  induction messages generalizing earlier with
  | nil => rfl
  | cons message messages ih =>
    rw [sitesOf, List.map_cons, ih]
    rfl

theorem map_place_sitesAmong (earlier children : List Element) :
    (sitesAmong earlier children).map Site.place = children.flatMap messagesIn := by
  induction children generalizing earlier with
  | nil => rfl
  | cons child children ih =>
    unfold sitesAmong
    rw [List.flatMap_cons]
    unfold messagesIn
    split
    · rw [List.map_append, map_place_sitesOf, ih]
      rfl
    · split
      · rw [List.map_cons, ih]
        rfl
      · rw [ih]
        rfl

/-- **The sites are the message elements**, each once and in order: those that are children of
the root or of a context that is one. -/
theorem map_place_sites (root : Element) :
    (sites root).map Site.place = root.elements.flatMap messagesIn :=
  map_place_sitesAmong [] root.elements

/-- A site is found within a child of the root. -/
theorem exists_place_mem {root : Element} {site : Site} (mem : site ∈ sites root) :
    ∃ child ∈ root.elements, site.place ∈ messagesIn child := by
  have placed : site.place ∈ (sites root).map Site.place := List.mem_map_of_mem mem
  rw [map_place_sites] at placed
  exact List.mem_flatMap.mp placed

theorem context_of_mem_sites {root : Element} {site : Site} (mem : site ∈ sites root)
    {block : Element} (within : site.block = some block) :
    block ∈ root.elements ∧ block.name = "context" := by
  obtain ⟨child, listed, held⟩ := exists_place_mem mem
  unfold messagesIn at held
  split at held
  · rename_i named
    obtain ⟨message, -, same⟩ := List.mem_map.mp held
    obtain rfl : child = block := Option.some_inj.mp ((congrArg Prod.fst same).trans within)
    exact ⟨listed, named⟩
  · split at held
    · have outside : site.block = none := congrArg Prod.fst (List.mem_singleton.mp held)
      rw [outside] at within
      cases within
    · cases held

/-! ## The entries of a tree -/

/-- The context that messages in a block belong to; those outside of blocks have the empty one. -/
def NamesContext : Option Element → String → Prop
  | some block, name => HasText block "name" name
  | none, name => name = ""

theorem NamesContext.unique {block : Option Element} {name other : String}
    (h : NamesContext block name) (h' : NamesContext block other) : name = other := by
  cases block with
  | none => exact h.trans h'.symm
  | some block =>
    obtain ⟨child, found, read⟩ := h
    obtain ⟨child', found', read'⟩ := h'
    obtain rfl : child = child' := Option.some_inj.mp (found.symm.trans found')
    exact Except.ok.inj (read.symm.trans read')

/-- The places that the hints of a message stand for, after the hints before it. -/
def Site.HasPlaces (site : Site) (locations : List Location) : Prop :=
  ∃ before trail after, Trail.start.followAll site.earlier = .ok (before, trail) ∧
    trail.followAll (hints site.message) = .ok (locations, after)

/-- The entry is the one of the message at a site, in every field. -/
structure Renders (options : Options) (site : Site) (e : Entry) : Prop where
  context : NamesContext site.block e.context
  fields : Spells options site.message e
  places : site.HasPlaces e.locations

section Reading

variable {options : Options} {block : Option Element} {name : String} {earlier : List Element}
  {before : List Location} {trail : Trail}

/-- Reading a message where the trail is that of the hints before it. -/
theorem readMessage_iff_renders (named : NamesContext block name)
    (followed : Trail.start.followAll earlier = .ok (before, trail)) (message : Element)
    (e : Entry) :
    (∃ after, readMessage options name trail message = .ok (e, after)) ↔
      Renders options ⟨block, earlier, message⟩ e := by
  constructor
  · rintro ⟨after, read⟩
    obtain ⟨rfl, spelled, walk⟩ := (readMessage_eq_ok_iff _ _ _ _ _ _).mp read
    exact { context := named, fields := spelled, places := ⟨before, trail, after, followed, walk⟩ }
  · rintro ⟨context, fields, before', trail', after, followed', walk⟩
    -- there is one way to follow the hints before the message
    cases followed.symm.trans followed'
    exact ⟨after, (readMessage_eq_ok_iff _ _ _ _ _ _).mpr
      ⟨context.unique named, fields, walk⟩⟩

/-- The trail after a message is that of its hints too. -/
theorem followAll_after_message
    (followed : Trail.start.followAll earlier = .ok (before, trail)) {message : Element}
    {e : Entry} {after : Trail} (read : readMessage options name trail message = .ok (e, after)) :
    Trail.start.followAll (earlier ++ hints message) = .ok (before ++ e.locations, after) := by
  obtain ⟨-, -, walk⟩ := (readMessage_eq_ok_iff _ _ _ _ _ _).mp read
  exact (Trail.followAll_append_eq_ok_iff _ _ _ _ _).mpr
    ⟨before, trail, e.locations, followed, walk, rfl⟩

/-- Messages are read one by one, and the trail is always that of the hints so far. -/
theorem readMessages_eq_ok_iff (named : NamesContext block name)
    (followed : Trail.start.followAll earlier = .ok (before, trail)) (messages : List Element)
    (entries : List Entry) :
    readMessages options name trail messages = .ok entries ↔
      List.Forall₂ (Renders options) (sitesOf block earlier messages) entries := by
  induction messages generalizing earlier before trail entries with
  | nil => simp [readMessages, sitesOf, eq_comm]
  | cons message messages ih =>
    unfold readMessages sitesOf
    constructor
    · intro read
      obtain ⟨⟨e, after⟩, first, read⟩ := bind_eq_ok_iff.mp read
      obtain ⟨others, rest, read⟩ := bind_eq_ok_iff.mp read
      cases read
      have rendered := (readMessage_iff_renders named followed message e).mp ⟨after, first⟩
      exact .cons rendered ((ih (followAll_after_message followed first) others).mp rest)
    · rintro (_ | ⟨rendered, rest⟩)
      rename_i e others
      obtain ⟨after, first⟩ := (readMessage_iff_renders named followed message e).mpr rendered
      have others_read := (ih (followAll_after_message followed first) others).mpr rest
      exact bind_eq_ok_iff.mpr ⟨(e, after), first, bind_eq_ok_iff.mpr ⟨others, others_read, rfl⟩⟩

end Reading

theorem pushed_map_push (entries : List Entry) :
    Catalog.pushed (entries.map .push) = entries := by
  induction entries with
  | nil => rfl
  | cons e entries ih =>
    show e :: Catalog.pushed (entries.map .push) = e :: entries
    rw [ih]

/-- Reading a context: it needs a name, and its messages are read after no hints. -/
theorem readContext_iff (options : Options) (block : Element) (entries : List Entry) :
    (∃ edits, readContext options block = .ok edits ∧ Catalog.pushed edits = entries) ↔
      (∃ name, HasText block "name" name) ∧
      List.Forall₂ (Renders options) (sitesOf (some block) [] (childrenNamed block "message"))
        entries := by
  constructor
  · rintro ⟨edits, read, rfl⟩
    obtain ⟨name, named, read⟩ := bind_eq_ok_iff.mp read
    obtain ⟨entries, messages, read⟩ := bind_eq_ok_iff.mp read
    cases read
    have named : NamesContext (some block) name := (requiredText_eq_ok_iff _ _ _ _).mp named
    refine ⟨⟨name, named⟩, ?_⟩
    show List.Forall₂ _ _ (Catalog.pushed (entries.map .push))
    rw [pushed_map_push]
    exact (readMessages_eq_ok_iff named Trail.start.followAll_nil _ _).mp messages
  · rintro ⟨⟨name, named⟩, rendered⟩
    have within : NamesContext (some block) name := named
    have messages := (readMessages_eq_ok_iff within Trail.start.followAll_nil _ _).mpr rendered
    refine ⟨.openContext name :: entries.map .push, bind_eq_ok_iff.mpr ⟨name,
      (requiredText_eq_ok_iff block "context" "name" name).mpr named,
      bind_eq_ok_iff.mpr ⟨entries, messages, rfl⟩⟩, ?_⟩
    exact pushed_map_push entries

theorem forall₂_append_iff {α β : Type} {R : α → β → Prop} {xs xs' : List α} {ys : List β} :
    List.Forall₂ R (xs ++ xs') ys ↔
      ∃ zs zs', List.Forall₂ R xs zs ∧ List.Forall₂ R xs' zs' ∧ ys = zs ++ zs' := by
  constructor
  · intro related
    have left := List.forall₂_take xs.length related
    have right := List.forall₂_drop xs.length related
    rw [List.take_left] at left
    rw [List.drop_left] at right
    exact ⟨_, _, left, right, (List.take_append_drop xs.length ys).symm⟩
  · rintro ⟨zs, zs', left, right, rfl⟩
    exact List.rel_append left right

/-- **Reading the children of the root**, where the trail is that of the hints before them: every
context among them needs a name, and every message on the way gives an entry. -/
theorem readBlocks_iff (options : Options) {earlier : List Element} {before : List Location}
    {trail : Trail} (followed : Trail.start.followAll earlier = .ok (before, trail))
    (children : List Element) (entries : List Entry) :
    (∃ edits, readBlocks options trail children = .ok edits ∧ Catalog.pushed edits = entries) ↔
      (∀ child ∈ children, child.name = "context" → ∃ name, HasText child "name" name) ∧
      List.Forall₂ (Renders options) (sitesAmong earlier children) entries := by
  -- the trail has to vary with the hints it stands for, as each message moves both on
  induction children generalizing earlier before trail entries with
  | nil => simp [readBlocks, sitesAmong, Catalog.pushed, eq_comm]
  | cons child children ih =>
    rw [List.forall_mem_cons]
    unfold readBlocks sitesAmong
    by_cases context : child.name = "context"
    · -- a context has hints of its own and leaves the trail among the root's children alone
      rw [if_pos context, if_pos context, forall₂_append_iff]
      constructor
      · rintro ⟨edits, read, rfl⟩
        obtain ⟨block, first, read⟩ := bind_eq_ok_iff.mp read
        obtain ⟨rest, others, read⟩ := bind_eq_ok_iff.mp read
        cases read
        obtain ⟨named, here⟩ := (readContext_iff options child _).mp ⟨block, first, rfl⟩
        obtain ⟨all_named, there⟩ := (ih followed _).mp ⟨rest, others, rfl⟩
        exact ⟨⟨fun _ => named, all_named⟩, _, _, here, there, Catalog.pushed_append block rest⟩
      · rintro ⟨⟨named, all_named⟩, es, es', here, there, rfl⟩
        obtain ⟨block, first, rfl⟩ := (readContext_iff options child es).mpr ⟨named context, here⟩
        obtain ⟨rest, others, rfl⟩ := (ih followed es').mpr ⟨all_named, there⟩
        exact ⟨block ++ rest, bind_eq_ok_iff.mpr ⟨block, first, bind_eq_ok_iff.mpr
          ⟨rest, others, rfl⟩⟩, Catalog.pushed_append block rest⟩
    · rw [if_neg context, if_neg context]
      by_cases message : child.name = "message"
      · rw [if_pos message, if_pos message, List.forall₂_cons_left_iff]
        have outside : NamesContext none "" := rfl
        constructor
        · rintro ⟨edits, read, rfl⟩
          obtain ⟨⟨e, after⟩, first, read⟩ := bind_eq_ok_iff.mp read
          obtain ⟨rest, others, read⟩ := bind_eq_ok_iff.mp read
          cases read
          have rendered := (readMessage_iff_renders outside followed child e).mp ⟨after, first⟩
          obtain ⟨all_named, there⟩ :=
            (ih (followAll_after_message followed first) _).mp ⟨rest, others, rfl⟩
          exact ⟨⟨fun named => absurd named context, all_named⟩, e, _, rendered, there, rfl⟩
        · rintro ⟨⟨-, all_named⟩, e, es, rendered, there, rfl⟩
          obtain ⟨after, first⟩ := (readMessage_iff_renders outside followed child e).mpr rendered
          obtain ⟨rest, others, rfl⟩ :=
            (ih (followAll_after_message followed first) es).mpr ⟨all_named, there⟩
          exact ⟨.push e :: rest, bind_eq_ok_iff.mpr ⟨(e, after), first, bind_eq_ok_iff.mpr
            ⟨rest, others, rfl⟩⟩, rfl⟩
      · rw [if_neg message, if_neg message, ih followed]
        constructor
        · rintro ⟨all_named, there⟩
          exact ⟨⟨fun named => absurd named context, all_named⟩, there⟩
        · rintro ⟨⟨-, all_named⟩, there⟩
          exact ⟨all_named, there⟩

/-! ## Trees without a fault -/

/-- What a tree has to be like to be a catalog. -/
structure WellFormed (options : Options) (root : Element) : Prop where
  name : root.name = "TS"
  language : (∃ tag, NamesTag root "language" tag) ∨
    Blank root "language" ∧ options.defaultLanguage ≠ none
  sourceLanguage : Blank root "sourcelanguage" ∨ ∃ tag, NamesTag root "sourcelanguage" tag
  /-- Every context has a name that can be read. -/
  contexts : ∀ child ∈ root.elements, child.name = "context" →
    ∃ name, child.child? "name" = some name ∧ name.Decodable
  messages : ∀ place ∈ root.elements.flatMap messagesIn, Sound place.2
  /-- Every hint can be followed after those that it can refer to. -/
  hints : ∀ site ∈ sites root, ∀ before hint rest,
    site.earlier ++ hints site.message = before ++ hint :: rest → Resolves before hint

theorem exists_hasPlaces_iff (site : Site) :
    (∃ locations, site.HasPlaces locations) ↔
      ∀ before hint rest, site.earlier ++ hints site.message = before ++ hint :: rest →
        Resolves before hint := by
  rw [← Trail.followAll_ok_iff]
  constructor
  · rintro ⟨locations, before, trail, after, followed, walk⟩
    exact ⟨_, (Trail.followAll_append_eq_ok_iff _ _ _ _ _).mpr
      ⟨before, trail, locations, followed, walk, rfl⟩⟩
  · rintro ⟨⟨all, after⟩, walk⟩
    obtain ⟨before, trail, locations, followed, walk, -⟩ :=
      (Trail.followAll_append_eq_ok_iff _ _ _ _ _).mp walk
    exact ⟨locations, before, trail, after, followed, walk⟩

/-- A message has an entry when its context is named, it is sound and its hints can be followed. -/
theorem exists_renders_iff (options : Options) (site : Site) :
    (∃ e, Renders options site e) ↔
      (∃ name, NamesContext site.block name) ∧ Sound site.message ∧
        ∃ locations, site.HasPlaces locations := by
  constructor
  · rintro ⟨e, rendered⟩
    have sound := (exists_spells_iff options site.message e.context e.locations).mp
      ⟨e, rfl, rendered.fields, rfl⟩
    exact ⟨⟨e.context, rendered.context⟩, sound, e.locations, rendered.places⟩
  · rintro ⟨⟨name, named⟩, sound, locations, places⟩
    obtain ⟨e, rfl, spelled, rfl⟩ :=
      (exists_spells_iff options site.message name locations).mpr sound
    exact ⟨e, { context := named, fields := spelled, places := places }⟩

theorem exists_forall₂_iff {α β : Type} {R : α → β → Prop} {xs : List α} :
    (∃ ys, List.Forall₂ R xs ys) ↔ ∀ x ∈ xs, ∃ y, R x y := by
  induction xs with
  | nil => simp
  | cons x xs ih =>
    rw [List.forall_mem_cons, ← ih]
    constructor
    · rintro ⟨ys, related⟩
      obtain ⟨y, ys, here, there, rfl⟩ := List.forall₂_cons_left_iff.mp related
      exact ⟨⟨y, here⟩, ys, there⟩
    · rintro ⟨⟨y, here⟩, ys, there⟩
      exact ⟨y :: ys, .cons here there⟩

/-- A tree is read header first, and then child by child. -/
theorem readCatalog_eq_ok_iff (options : Options) (root : Element) (catalog : Catalog) :
    readCatalog options root = .ok catalog ↔
      root.name = "TS" ∧ ∃ language header blocks, HasLanguage options root language ∧
        readHeader root = .ok header ∧
        readBlocks options Trail.start root.elements = .ok blocks ∧
        catalog = Catalog.ofEdits language (header ++ blocks) := by
  unfold readCatalog
  by_cases named : root.name = "TS"
  · rw [if_neg (not_not_intro named)]
    constructor
    · intro read
      obtain ⟨language, first, read⟩ := bind_eq_ok_iff.mp read
      obtain ⟨header, second, read⟩ := bind_eq_ok_iff.mp read
      obtain ⟨blocks, third, read⟩ := bind_eq_ok_iff.mp read
      cases read
      exact ⟨named, language, header, blocks,
        (readLanguage_eq_ok_iff options root language).mp first, second, third, rfl⟩
    · rintro ⟨-, language, header, blocks, first, second, third, rfl⟩
      exact bind_eq_ok_iff.mpr ⟨language, (readLanguage_eq_ok_iff options root language).mpr first,
        bind_eq_ok_iff.mpr ⟨header, second, bind_eq_ok_iff.mpr ⟨blocks, third, rfl⟩⟩⟩
  · rw [if_pos named]
    constructor
    · intro read
      cases read
    · rintro ⟨named', -⟩
      exact absurd named' named

/-- Reading the root's children succeeds when the contexts among them are named and every message
has an entry. -/
theorem readBlocks_ok_iff (options : Options) (root : Element) :
    (∃ edits, readBlocks options Trail.start root.elements = .ok edits) ↔
      (∀ child ∈ root.elements, child.name = "context" → ∃ name, HasText child "name" name) ∧
      ∀ site ∈ sites root, ∃ e, Renders options site e := by
  rw [← exists_forall₂_iff]
  constructor
  · rintro ⟨edits, read⟩
    obtain ⟨named, rendered⟩ :=
      (readBlocks_iff options Trail.start.followAll_nil root.elements _).mp ⟨edits, read, rfl⟩
    exact ⟨named, _, rendered⟩
  · rintro ⟨named, entries, rendered⟩
    obtain ⟨edits, read, -⟩ :=
      (readBlocks_iff options Trail.start.followAll_nil root.elements entries).mpr ⟨named, rendered⟩
    exact ⟨edits, read⟩

/-- Every message of a tree has an entry when all messages are sound and all hints resolve. -/
theorem forall_renders_iff (options : Options) (root : Element)
    (named : ∀ child ∈ root.elements, child.name = "context" → ∃ name, HasText child "name" name) :
    (∀ site ∈ sites root, ∃ e, Renders options site e) ↔
      (∀ place ∈ root.elements.flatMap messagesIn, Sound place.2) ∧
      ∀ site ∈ sites root, ∀ before hint rest,
        site.earlier ++ hints site.message = before ++ hint :: rest → Resolves before hint := by
  rw [← map_place_sites, List.forall_mem_map]
  constructor
  · intro rendered
    have parts := fun site mem => (exists_renders_iff options site).mp (rendered site mem)
    refine ⟨fun site mem => (parts site mem).2.1, fun site mem => ?_⟩
    exact (exists_hasPlaces_iff site).mp (parts site mem).2.2
  · rintro ⟨sound, resolve⟩ site mem
    have context : ∃ name, NamesContext site.block name := by
      cases within : site.block with
      | none => exact ⟨"", rfl⟩
      | some block =>
        obtain ⟨listed, is_context⟩ := context_of_mem_sites mem within
        exact named block listed is_context
    exact (exists_renders_iff options site).mpr
      ⟨context, sound site mem, (exists_hasPlaces_iff site).mpr (resolve site mem)⟩

/-- The entries of a catalog that was read are those of the messages in the tree. -/
theorem exists_renders_of_readCatalog {options : Options} {root : Element} {catalog : Catalog}
    (read : readCatalog options root = .ok catalog) :
    ∃ language edits, readLanguage options root = .ok language ∧
      catalog = Catalog.ofEdits language edits ∧
      List.Forall₂ (Renders options) (sites root) (Catalog.pushed edits) := by
  obtain ⟨-, language, header, blocks, first, second, third, rfl⟩ :=
    (readCatalog_eq_ok_iff options root catalog).mp read
  refine ⟨language, header ++ blocks, (readLanguage_eq_ok_iff _ _ _).mpr first, rfl, ?_⟩
  rw [Catalog.pushed_append, pushed_header second, List.nil_append]
  exact ((readBlocks_iff options Trail.start.followAll_nil root.elements _).mp
    ⟨blocks, third, rfl⟩).2

/-- **The trees that are catalogs** are the well-formed ones, and no message is lost: the catalog
of such a tree is one of the tree's language, and its entries correspond one to one, in document
order, to the message elements that are children of the root or of a context below it, each entry
being in every field the one of its message. -/
theorem readCatalog_accepts (options : Options) (root : Element) :
    ((∃ catalog, readCatalog options root = .ok catalog) ↔ WellFormed options root) ∧
    (sites root).map Site.place = root.elements.flatMap messagesIn ∧
    ∀ catalog, readCatalog options root = .ok catalog →
      HasLanguage options root catalog.language ∧
      List.Forall₂ (Renders options) (sites root) catalog.entries.toList := by
  refine ⟨⟨?_, ?_⟩, map_place_sites root, ?_⟩
  · rintro ⟨catalog, read⟩
    obtain ⟨name, language, header, blocks, first, second, third, -⟩ :=
      (readCatalog_eq_ok_iff options root catalog).mp read
    obtain ⟨named, rendered⟩ := (readBlocks_ok_iff options root).mp ⟨blocks, third⟩
    obtain ⟨messages, resolve⟩ := (forall_renders_iff options root named).mp rendered
    exact {
      name := name
      language := (exists_hasLanguage_iff options root).mp ⟨language, first⟩
      sourceLanguage := (readHeader_ok_iff root).mp ⟨header, second⟩
      contexts := fun child mem is_context =>
        (exists_hasText_iff child "name").mp (named child mem is_context)
      messages := messages
      hints := resolve }
  · intro sound
    have named : ∀ child ∈ root.elements, child.name = "context" →
        ∃ name, HasText child "name" name :=
      fun child mem is_context =>
        (exists_hasText_iff child "name").mpr (sound.contexts child mem is_context)
    have rendered := (forall_renders_iff options root named).mpr ⟨sound.messages, sound.hints⟩
    obtain ⟨language, first⟩ := (exists_hasLanguage_iff options root).mpr sound.language
    obtain ⟨header, second⟩ := (readHeader_ok_iff root).mpr sound.sourceLanguage
    obtain ⟨blocks, third⟩ := (readBlocks_ok_iff options root).mpr ⟨named, rendered⟩
    exact ⟨_, (readCatalog_eq_ok_iff options root _).mpr
      ⟨sound.name, language, header, blocks, first, second, third, rfl⟩⟩
  · intro catalog read
    obtain ⟨-, language, header, blocks, first, second, third, rfl⟩ :=
      (readCatalog_eq_ok_iff options root catalog).mp read
    rw [Catalog.language_ofEdits, Catalog.entries_ofEdits, Catalog.pushed_append,
      pushed_header second, List.nil_append]
    obtain ⟨-, rendered⟩ :=
      (readBlocks_iff options Trail.start.followAll_nil root.elements _).mp ⟨blocks, third, rfl⟩
    exact ⟨first, rendered⟩

end Phrasebook.Linguist
