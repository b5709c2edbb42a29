import Phrasebook.Proofs.Catalog.Lookup

/-!
# Duplicates

Of several entries in use with one key the first is found, and the key of each other one is set
down as a duplicate when it is added. This module says which entries these are in terms of the
entries alone.

- `hiddenAfter`: the entries in use that an earlier one with their key hides.
- `Draft.NotesDuplicates`: the invariant. The keys set down are those of the hidden entries so
  far. Every edit keeps it, hence every history (`duplicateKeys_ofEdits`).
- `hiddenAfter_eq_nil_iff`: nothing is hidden when every entry in use is found for its own key.
- `count_hiddenAfter`: a key is set down once less than there are entries in use that have it.
-/

namespace Phrasebook

open Phrasebook.Locale

theorem Entry.isLiveFor_own_key (e : Entry) : e.isLiveFor e.key = e.isLive := by
  rw [isLiveFor_eq, decide_eq_true rfl, Bool.and_true]

namespace Catalog

/-- The entry is in use, and one of the entries before it that is in use has its key. -/
def isHiddenBehind (earlier : List Entry) (e : Entry) : Bool :=
  e.isLive && earlier.any (Entry.isLiveFor e.key)

/-- The hidden ones among some entries, in order, where others stand before them. -/
def hiddenAfter : List Entry → List Entry → List Entry
  | _, [] => []
  | earlier, e :: es =>
    (if isHiddenBehind earlier e then [e] else []) ++ hiddenAfter (earlier ++ [e]) es

theorem hiddenAfter_append (earlier es later : List Entry) :
    hiddenAfter earlier (es ++ later)
      = hiddenAfter earlier es ++ hiddenAfter (earlier ++ es) later := by
  induction es generalizing earlier with
  | nil => rw [List.nil_append, List.append_nil]; rfl
  | cons e es ih =>
    rw [List.cons_append, hiddenAfter, hiddenAfter, ih, List.append_assoc, List.append_assoc]
    rfl

/-! ## The invariant -/

namespace Draft

/-- The draft holds the entries `es`, and the keys it has set down as duplicates are those of
the hidden ones among them. -/
structure NotesDuplicates (d : Draft) (es : List Entry) : Prop where
  keys : d.Indexes es
  noted : d.duplicateKeys.toList = (hiddenAfter [] es).map Entry.key

/-- The key of an entry is set down when it has a position already. -/
theorem duplicateKeys_push (d : Draft) (e : Entry) :
    (d.push e).duplicateKeys.toList
      = d.duplicateKeys.toList ++
          if e.isLive = true ∧ (d.index.find? e.key).isSome = true then [e.key] else [] := by
  show ((d.noteContext e.context).indexEntry e).duplicateKeys.toList = _
  rcases indexEntry_cases (d.noteContext e.context) e with
    ⟨dead, same⟩ | ⟨live, ⟨position, known⟩, same⟩ | ⟨live, unknown, same⟩
  · rw [same, if_neg (by simp [dead]), List.append_nil]
    rfl
  · have known : d.index.find? e.key = some position := known
    rw [same, if_pos ⟨live, by simp [known]⟩]
    exact Array.toList_push
  · have unknown : d.index.find? e.key = none := unknown
    rw [same, if_neg (by simp [unknown]), List.append_nil]
    rfl

theorem NotesDuplicates.push {d : Draft} {es : List Entry} (h : d.NotesDuplicates es)
    (e : Entry) : (d.push e).NotesDuplicates (es ++ [e]) := by
  refine { keys := h.keys.push e, noted := ?_ }
  have known : (d.index.find? e.key).isSome = es.any (Entry.isLiveFor e.key) := by
    rw [h.keys.position, List.findIdx?_isSome]
  rw [duplicateKeys_push, h.noted, known, hiddenAfter_append, List.map_append, List.nil_append]
  -- what is set down and what is hidden now depend on the same two facts
  unfold hiddenAfter isHiddenBehind
  cases e.isLive <;> cases es.any (Entry.isLiveFor e.key) <;> rfl

/-- Every edit keeps the invariant. -/
theorem NotesDuplicates.apply {d : Draft} {es : List Entry} (h : d.NotesDuplicates es)
    (edit : Edit) : (d.apply edit).NotesDuplicates (es ++ edit.added?.toList) := by
  have keys := h.keys.apply edit
  rcases apply_cases d edit with ⟨e, rfl⟩ | ⟨nothing, -, -, -, duplicates⟩
  · exact h.push e
  · rw [nothing, List.append_nil] at keys ⊢
    exact { keys := keys, noted := duplicates ▸ h.noted }

end Draft

/-- **The keys set down as duplicates** are those of the entries that are hidden, in order. -/
theorem duplicateKeys_ofEdits (language : Tag) (edits : List Edit) :
    (ofEdits language edits).duplicateKeys.toList
      = (hiddenAfter [] (pushed edits)).map Entry.key := by
  have start : (Draft.start language).NotesDuplicates [] :=
    { keys := Draft.indexes_start language, noted := rfl }
  exact (Draft.foldl_keeps (fun _ _ edit kept => kept.apply edit) start edits).noted

/-! ## Hidden entries and lookups -/

/-- An entry in use is found in its own place when it is not hidden. -/
theorem findIdx?_own_key_iff (earlier es : List Entry) {e : Entry} (live : e.isLive = true) :
    (earlier ++ e :: es).findIdx? (Entry.isLiveFor e.key) = some earlier.length ↔
      isHiddenBehind earlier e = false := by
  unfold isHiddenBehind
  rw [List.findIdx?_append, List.findIdx?_cons, Entry.isLiveFor_own_key, live, if_pos rfl,
    Bool.true_and, ← List.findIdx?_isSome]
  cases found : earlier.findIdx? (Entry.isLiveFor e.key) with
  | none => simp
  | some q =>
    -- it is found in front, and no position there is its own
    have before := (List.findIdx?_eq_some_iff_getElem.mp found).1
    simp
    omega

/-- **Nothing is hidden** when each entry in use is the first one that has its key. -/
theorem hiddenAfter_eq_nil_iff (earlier es : List Entry) :
    hiddenAfter earlier es = [] ↔
      ∀ (position : Nat) (e : Entry), es[position]? = some e → e.isLive = true →
        (earlier ++ es).findIdx? (Entry.isLiveFor e.key) = some (earlier.length + position) := by
  -- the scan runs over both lists at every step, and entries only move from one to the other
  induction es generalizing earlier with
  | nil => simp [hiddenAfter]
  | cons e es ih =>
    have first : ¬ isHiddenBehind earlier e = true ↔ (e.isLive = true →
        (earlier ++ e :: es).findIdx? (Entry.isLiveFor e.key) = some (earlier.length + 0)) := by
      cases live : e.isLive with
      | false => simp [isHiddenBehind, live]
      | true =>
        rw [Nat.add_zero, findIdx?_own_key_iff earlier es live]
        simp
    rw [hiddenAfter, List.append_eq_nil_iff, ih, ite_eq_right_iff]
    constructor
    · rintro ⟨head, tail⟩ position x here live
      cases position with
      | zero =>
        cases here
        exact first.mp (fun hidden => absurd (head hidden) (List.cons_ne_nil e [])) live
      | succ position =>
        have found := tail position x here live
        rw [List.append_assoc, List.length_append, List.length_singleton] at found
        rw [Nat.add_comm position, ← Nat.add_assoc]
        exact found
    · intro all
      refine ⟨fun hidden => absurd hidden (first.mpr (all 0 e rfl)), ?_⟩
      intro position x here live
      have found := all (position + 1) x here live
      rw [List.append_assoc, List.length_append, List.length_singleton, Nat.add_assoc,
        Nat.add_comm 1]
      exact found

/-- Of the entries in use that have a key all but the first are hidden. -/
theorem count_hiddenAfter (key : Key) (earlier es : List Entry) :
    ((hiddenAfter earlier es).map Entry.key).count key
      = es.countP (Entry.isLiveFor key) -
          if earlier.any (Entry.isLiveFor key) then 0 else 1 := by
  induction es generalizing earlier with
  | nil => simp [hiddenAfter]
  | cons e es ih =>
    rw [hiddenAfter, List.map_append, List.count_append, ih, List.countP_cons, List.any_append]
    unfold isHiddenBehind
    -- only an entry with the key changes either side, and the first one in use changes neither
    by_cases here : e.key = key
    · subst here
      rw [Entry.isLiveFor_own_key]
      cases live : e.isLive with
      | false => simp [Entry.isLiveFor_own_key, live]
      | true =>
        cases known : earlier.any (Entry.isLiveFor e.key) with
        | false => simp [Entry.isLiveFor_own_key, live]
        | true => simp [Nat.add_comm]
    · have other : e.isLiveFor key = false := by simp [Entry.isLiveFor_eq, here]
      split <;> simp [other, here]

end Catalog

end Phrasebook
