import Mathlib.Data.Finset.Card
import Mathlib.Data.Finset.Dedup
import Phrasebook.Proofs.Catalog.Duplicate

/-!
# What a catalog lists

Beside its entries a catalog lists the contexts that were mentioned, those of them that were
opened again, and the keys of entries that are never found. Each list grows on another branch of
the two edits that mention contexts. This module says what is in each of them, and in which
order, in terms of the history alone.

- `MentionedAt`, `ReopenedAt`: what happens to a context at a place of a history.
- `InOrderOfFirst`: a list of the names that something happens to, by the first time it does.
- `Draft.Lists`: the invariant. The lists of contexts are such lists. Every edit keeps it.
- `countP_isLive`: an entry in use brings a new key, or it is a duplicate.
- `listings_exact`: the lists that a history leaves behind.
-/

namespace Phrasebook.Catalog

open Phrasebook.Locale

/-! ## Names in the order of their first time -/

/-- The context that an edit mentions, if it mentions one. -/
def Edit.context? : Edit → Option String
  | .openContext name => some name
  | .push e => some e.context
  | .sourceLanguage _ | .formatVersion _ => none

/-- The edit at a place mentions a context. -/
def MentionedAt (edits : List Edit) (name : String) (place : Nat) : Prop :=
  ∃ edit, edits[place]? = some edit ∧ edit.context? = some name

/-- The edit at a place opens a context that has been mentioned before. -/
def ReopenedAt (edits : List Edit) (name : String) (place : Nat) : Prop :=
  edits[place]? = some (.openContext name) ∧ ∃ earlier < place, MentionedAt edits name earlier

/-- The names that something happens to, ordered by the first place where it does. -/
structure InOrderOfFirst (At : String → Nat → Prop) (names : List String) : Prop where
  mem : ∀ name, name ∈ names ↔ ∃ place, At name place
  order : names.Pairwise fun a b => ∃ place, At a place ∧ ∀ other, At b other → place < other

namespace InOrderOfFirst

variable {At At' : String → Nat → Prop} {names : List String}

/-- No name is listed twice. -/
theorem nodup (h : InOrderOfFirst At names) : names.Nodup := by
  refine h.order.imp ?_
  rintro a b ⟨place, here, first⟩ rfl
  exact Nat.lt_irrefl place (first place here)

theorem congr (h : InOrderOfFirst At names) (same : ∀ name place, At' name place ↔ At name place) :
    InOrderOfFirst At' names := by
  have equal : At' = At := funext fun name => funext fun place => propext (same name place)
  rw [equal]
  exact h

/-- When it happens to a name behind all other places, the name is added unless it is listed. -/
theorem snoc (h : InOrderOfFirst At names) {name : String} {last : Nat}
    (before : ∀ other place, At other place → place < last)
    (step : ∀ other place, At' other place ↔ At other place ∨ (other = name ∧ place = last)) :
    InOrderOfFirst At' (if name ∈ names then names else names ++ [name]) := by
  -- no first place moves, since the new one comes after all others
  have order : names.Pairwise fun a b =>
      ∃ place, At' a place ∧ ∀ other, At' b other → place < other := by
    refine h.order.imp ?_
    rintro a b ⟨place, here, first⟩
    refine ⟨place, (step a place).mpr (.inl here), fun other there => ?_⟩
    rcases (step b other).mp there with old | ⟨-, rfl⟩
    · exact first other old
    · exact before a place here
  split
  case isTrue listed =>
    refine { mem := fun other => ?_, order := order }
    simp only [step, exists_or, ← h.mem]
    constructor
    · exact .inl
    · rintro (old | ⟨_, rfl, -⟩)
      · exact old
      · exact listed
  case isFalse unlisted =>
    refine { mem := fun other => ?_, order := ?_ }
    · simp [step, exists_or, ← h.mem]
    · refine List.pairwise_append.mpr ⟨order, List.pairwise_singleton _ _, fun a mem b here => ?_⟩
      rw [List.mem_singleton] at here
      subst here
      obtain ⟨place, old⟩ := (h.mem a).mp mem
      refine ⟨place, (step a place).mpr (.inl old), fun other there => ?_⟩
      rcases (step b other).mp there with listed | ⟨-, rfl⟩
      · exact absurd ((h.mem b).mpr ⟨other, listed⟩) unlisted
      · exact before a place old

end InOrderOfFirst

/-! ## One more edit -/

section Snoc

variable {edits : List Edit} {edit : Edit} {name : String} {place : Nat}

theorem MentionedAt.lt (h : MentionedAt edits name place) : place < edits.length := by
  obtain ⟨edit, here, -⟩ := h
  exact (List.getElem?_eq_some_iff.mp here).1

theorem ReopenedAt.lt (h : ReopenedAt edits name place) : place < edits.length :=
  (List.getElem?_eq_some_iff.mp h.1).1

theorem getElem?_snoc_eq_some_iff {other : Edit} :
    (edits ++ [edit])[place]? = some other ↔
      edits[place]? = some other ∨ (edit = other ∧ place = edits.length) := by
  rcases Nat.lt_trichotomy place edits.length with before | rfl | beyond
  · rw [List.getElem?_append_left before]
    constructor
    · exact .inl
    · rintro (old | ⟨-, rfl⟩)
      · exact old
      · exact absurd before (Nat.lt_irrefl _)
  · simp
  · rw [List.getElem?_eq_none (by simp; omega), List.getElem?_eq_none (by omega)]
    simp
    omega

theorem mentionedAt_snoc :
    MentionedAt (edits ++ [edit]) name place ↔
      MentionedAt edits name place ∨ (edit.context? = some name ∧ place = edits.length) := by
  unfold MentionedAt
  simp only [getElem?_snoc_eq_some_iff]
  constructor
  · rintro ⟨other, old | ⟨rfl, last⟩, mentions⟩
    · exact .inl ⟨other, old, mentions⟩
    · exact .inr ⟨mentions, last⟩
  · rintro (⟨other, old, mentions⟩ | ⟨mentions, last⟩)
    · exact ⟨other, .inl old, mentions⟩
    · exact ⟨edit, .inr ⟨rfl, last⟩, mentions⟩

theorem reopenedAt_snoc :
    ReopenedAt (edits ++ [edit]) name place ↔
      ReopenedAt edits name place ∨
        (edit = .openContext name ∧ (∃ earlier, MentionedAt edits name earlier) ∧
          place = edits.length) := by
  unfold ReopenedAt
  simp only [getElem?_snoc_eq_some_iff, mentionedAt_snoc]
  constructor
  · rintro ⟨old | ⟨rfl, rfl⟩, earlier, before, mentioned⟩
    · have bound := (List.getElem?_eq_some_iff.mp old).1
      rcases mentioned with mentioned | ⟨-, rfl⟩
      · exact .inl ⟨old, earlier, before, mentioned⟩
      · omega
    · rcases mentioned with mentioned | ⟨-, rfl⟩
      · exact .inr ⟨rfl, ⟨earlier, mentioned⟩, rfl⟩
      · omega
  · rintro (⟨old, earlier, before, mentioned⟩ | ⟨rfl, ⟨earlier, mentioned⟩, rfl⟩)
    · exact ⟨.inl old, earlier, before, .inl mentioned⟩
    · exact ⟨.inr ⟨rfl, rfl⟩, earlier, mentioned.lt, .inl mentioned⟩

end Snoc

/-! ## The invariant -/

namespace Draft

/-- Indexing an entry touches none of the lists of contexts. -/
theorem indexEntry_keeps_contexts (d : Draft) (e : Entry) :
    (d.indexEntry e).seenContexts = d.seenContexts ∧ (d.indexEntry e).contexts = d.contexts ∧
      (d.indexEntry e).mergedContexts = d.mergedContexts := by
  rcases indexEntry_cases d e with ⟨-, same⟩ | ⟨-, -, same⟩ | ⟨-, -, same⟩
  · rw [same]
    exact ⟨rfl, rfl, rfl⟩
  · rw [same]
    exact ⟨rfl, rfl, rfl⟩
  · rw [same]
    exact ⟨rfl, rfl, rfl⟩

/-- The contexts listed are those that a history mentions, and the merged ones those that it opens
again. -/
structure Lists (d : Draft) (edits : List Edit) : Prop where
  seen : ∀ name, d.seenContexts.contains name = true ↔ name ∈ d.contexts.toList
  contexts : InOrderOfFirst (MentionedAt edits) d.contexts.toList
  merged : InOrderOfFirst (ReopenedAt edits) d.mergedContexts.toList

theorem lists_start (language : Tag) : (start language).Lists [] where
  seen name := by simp [start]
  contexts :=
    { mem := fun name => by simp [start, MentionedAt]
      order := .nil }
  merged :=
    { mem := fun name => by simp [start, ReopenedAt]
      order := .nil }

variable {d : Draft} {edits : List Edit}

/-- A context that is mentioned is listed unless it was mentioned before. -/
theorem Lists.noteContext (h : d.Lists edits) (edit : Edit) {name : String}
    (mentions : edit.context? = some name) :
    (∀ other, (d.noteContext name).seenContexts.contains other = true ↔
      other ∈ (d.noteContext name).contexts.toList) ∧
    InOrderOfFirst (MentionedAt (edits ++ [edit])) (d.noteContext name).contexts.toList := by
  have listed : (d.noteContext name).contexts.toList
      = if name ∈ d.contexts.toList then d.contexts.toList else d.contexts.toList ++ [name] := by
    unfold Draft.noteContext
    dsimp only
    simp only [← h.seen name]
    split
    · rfl
    · exact Array.toList_push
  rw [listed]
  constructor
  · intro other
    show (d.seenContexts.insert name).contains other = true ↔ _
    rw [Std.HashSet.contains_insert, Bool.or_eq_true, h.seen, beq_iff_eq]
    split
    · constructor
      · rintro (rfl | old)
        · assumption
        · exact old
      · exact .inr
    · rw [List.mem_append, List.mem_singleton, or_comm, eq_comm]
  · refine h.contexts.snoc (fun _ _ here => here.lt) fun other place => ?_
    rw [mentionedAt_snoc, mentions, Option.some_inj, eq_comm (a := name)]

/-- A context that is opened is merged if it was mentioned before, unless it was merged already. -/
theorem Lists.openContext (h : d.Lists edits) (name : String) :
    InOrderOfFirst (ReopenedAt (edits ++ [.openContext name]))
      (d.openContext name).mergedContexts.toList := by
  have step (other : String) (place : Nat) :
      ReopenedAt (edits ++ [.openContext name]) other place ↔
        ReopenedAt edits other place ∨
          (other = name ∧ name ∈ d.contexts.toList ∧ place = edits.length) := by
    rw [reopenedAt_snoc, Edit.openContext.injEq, ← h.contexts.mem]
    exact or_congr_right ⟨fun ⟨same, rest⟩ => ⟨same.symm, same ▸ rest⟩,
      fun ⟨same, rest⟩ => ⟨same.symm, same ▸ rest⟩⟩
  by_cases known : name ∈ d.contexts.toList
  · have listed : (d.openContext name).mergedContexts.toList
        = if name ∈ d.mergedContexts.toList then d.mergedContexts.toList
          else d.mergedContexts.toList ++ [name] := by
      unfold Draft.openContext
      dsimp only
      rw [(h.seen name).mpr known, Bool.true_and]
      by_cases merged : name ∈ d.mergedContexts <;> simp [merged]
    rw [listed]
    refine h.merged.snoc (fun _ _ here => here.lt) fun other place => ?_
    simp [step, known]
  · have listed : (d.openContext name).mergedContexts = d.mergedContexts := by
      unfold Draft.openContext
      dsimp only
      rw [Bool.eq_false_iff.mpr (fun seen => known ((h.seen name).mp seen)), Bool.false_and]
      rfl
    rw [listed]
    exact h.merged.congr fun other place => by simp [step, known]

/-- An edit that mentions no context leaves the lists as they are. -/
theorem Lists.keep (h : d.Lists edits) {after : Draft} {edit : Edit}
    (silent : edit.context? = none) (seen : after.seenContexts = d.seenContexts)
    (contexts : after.contexts = d.contexts) (merged : after.mergedContexts = d.mergedContexts) :
    after.Lists (edits ++ [edit]) := by
  have opensNothing (name : String) : edit ≠ .openContext name := by
    rintro rfl
    cases silent
  refine { seen := ?_, contexts := ?_, merged := ?_ }
  · rw [seen, contexts]
    exact h.seen
  · rw [contexts]
    exact h.contexts.congr fun name place => by simp [mentionedAt_snoc, silent]
  · rw [merged]
    exact h.merged.congr fun name place => by simp [reopenedAt_snoc, opensNothing]

/-- **One more edit** keeps the lists. -/
theorem Lists.apply (h : d.Lists edits) (edit : Edit) : (d.apply edit).Lists (edits ++ [edit]) := by
  cases edit with
  | openContext name =>
    obtain ⟨seen, contexts⟩ := h.noteContext (.openContext name) rfl
    exact { seen := seen, contexts := contexts, merged := h.openContext name }
  | push e =>
    obtain ⟨seen, contexts⟩ := h.noteContext (.push e) rfl
    obtain ⟨keptSeen, keptContexts, keptMerged⟩ :=
      indexEntry_keeps_contexts (d.noteContext e.context) e
    refine { seen := ?_, contexts := ?_, merged := ?_ }
    · show ∀ name, ((d.noteContext e.context).indexEntry e).seenContexts.contains name = true ↔
        name ∈ ((d.noteContext e.context).indexEntry e).contexts.toList
      rw [keptSeen, keptContexts]
      exact seen
    · show InOrderOfFirst _ ((d.noteContext e.context).indexEntry e).contexts.toList
      rw [keptContexts]
      exact contexts
    · show InOrderOfFirst _ ((d.noteContext e.context).indexEntry e).mergedContexts.toList
      rw [keptMerged]
      exact h.merged.congr fun name place => by simp [reopenedAt_snoc]
  | sourceLanguage tag => exact h.keep rfl rfl rfl rfl
  | formatVersion version => exact h.keep rfl rfl rfl rfl

end Draft

/-- Every history keeps the lists. -/
theorem lists_ofEdits (language : Tag) (edits : List Edit) :
    (edits.foldl Draft.apply (Draft.start language)).Lists edits := by
  induction edits using List.reverseRecOn with
  | nil => exact Draft.lists_start language
  | append_singleton edits edit ih =>
    rw [List.foldl_append]
    exact ih.apply edit

/-! ## Entries in use -/

/-- The keys of the entries in use. -/
def liveKeys (es : List Entry) : Finset Key :=
  ((es.filter Entry.isLive).map Entry.key).toFinset

theorem mem_liveKeys {es : List Entry} {key : Key} :
    key ∈ liveKeys es ↔ es.any (Entry.isLiveFor key) = true := by
  simp [liveKeys, Entry.isLiveFor_eq, and_assoc]

/-- **An entry in use** brings a new key, or it is a duplicate. -/
theorem countP_isLive (es : List Entry) :
    es.countP Entry.isLive = (liveKeys es).card + (hiddenAfter [] es).length := by
  induction es using List.reverseRecOn with
  | nil => rfl
  | append_singleton es e ih =>
    have keys : liveKeys (es ++ [e])
        = if e.isLive then insert e.key (liveKeys es) else liveKeys es := by
      unfold liveKeys
      rw [List.filter_append, List.map_append, List.toFinset_append]
      cases live : e.isLive <;> simp [live]
    rw [List.countP_append, ih, hiddenAfter_append, List.length_append, keys, List.nil_append]
    unfold hiddenAfter isHiddenBehind
    cases live : e.isLive with
    | false => simp [hiddenAfter, live]
    | true =>
      cases known : es.any (Entry.isLiveFor e.key) with
      | true =>
        rw [if_pos rfl, Finset.insert_eq_of_mem (mem_liveKeys.mpr known)]
        simp [hiddenAfter, live]
        omega
      | false =>
        have new : e.key ∉ liveKeys es := by
          rw [mem_liveKeys, known]
          exact Bool.false_ne_true
        rw [if_pos rfl, Finset.card_insert_of_notMem new]
        simp [hiddenAfter, live]
        omega

/-- **What a history leaves listed.** The contexts are the names that it mentions, each once, by
their first mention. The merged ones are those that it opens after a mention, each once, by the
first time that it does. The duplicates are the keys of the entries in use that an earlier one
hides, one for each of them, in order. So there are as many entries in use as there are keys that
a lookup finds and duplicates together. -/
theorem listings_exact (language : Tag) (edits : List Edit) :
    let c := ofEdits language edits
    (InOrderOfFirst (MentionedAt edits) c.contexts.toList ∧ c.contexts.toList.Nodup) ∧
    (InOrderOfFirst (ReopenedAt edits) c.mergedContexts.toList ∧ c.mergedContexts.toList.Nodup) ∧
    c.duplicateKeys.toList = (hiddenAfter [] (pushed edits)).map Entry.key ∧
    ∃ found : Finset Key,
      (∀ key, key ∈ found ↔ (c.lookup? key.context key.source).isSome = true) ∧
      c.entries.countP Entry.isLive = found.card + c.duplicateKeys.size := by
  intro c
  have lists := lists_ofEdits language edits
  refine ⟨⟨lists.contexts, lists.contexts.nodup⟩, ⟨lists.merged, lists.merged.nodup⟩,
    duplicateKeys_ofEdits language edits, liveKeys (pushed edits), fun key => ?_, ?_⟩
  · rw [mem_liveKeys, lookup?_ofEdits, firstLive?, List.find?_isSome, List.any_eq_true]
  · have hidden : c.duplicateKeys.size = (hiddenAfter [] (pushed edits)).length := by
      rw [← Array.length_toList, duplicateKeys_ofEdits, List.length_map]
    rw [hidden, ← Array.countP_toList, entries_ofEdits, countP_isLive]

end Phrasebook.Catalog
