import Phrasebook.Proofs.Chain
import Phrasebook.Storage.Tree

/-!
# What requests leave alone

A path is looked up through directories, so it leads to the same place as long as the directories
on the way stay directories. What a request does not touch can be found as before.

- `Keeps`: a later tree has all items of some kind that an earlier one has.
- `Keeps.place`, `Keeps.read`: a path leads to the same place, and a file is read as before.
- `read_of_write`: a file that was written is read.
- `keeps_createDirectories`: directories are created beside all that there is.
-/

namespace Phrasebook.Storage.Tree

/-! ## Items -/

theorem lookup_filter_ne (items : List (Place × Item)) {place other : Place}
    (apart : other ≠ place) :
    (items.filter fun entry => entry.1 != place).lookup other = items.lookup other := by
  induction items with
  | nil => rfl
  | cons entry items ih =>
    obtain ⟨p, item⟩ := entry
    by_cases same : p = place
    · have skipped : (other == p) = false := beq_eq_false_iff_ne.mpr (same ▸ apart)
      rw [List.filter_cons_of_neg (by simp [same]), ih, List.lookup_cons, skipped]
    · rw [List.filter_cons_of_pos (by simpa using same), List.lookup_cons, List.lookup_cons, ih]

theorem item?_put_self (t : Tree) {place : Place} (below : place ≠ []) (item : Item) :
    (t.put place item).item? place = some item := by
  rw [item?, if_neg (by simpa using below)]
  exact List.lookup_cons_self

theorem item?_put_of_ne (t : Tree) {place other : Place} (apart : other ≠ place) (item : Item) :
    (t.put place item).item? other = t.item? other := by
  have skipped : (other == place) = false := beq_eq_false_iff_ne.mpr apart
  unfold item?
  split
  · rfl
  · rw [put, List.lookup_cons, skipped]
    exact lookup_filter_ne t.items apart

theorem ne_nil_of_item? {t : Tree} {place : Place} (other : t.item? place ≠ some .directory) :
    place ≠ [] := by
  rintro rfl
  exact other rfl

theorem checkDirectory_eq_ok_iff {t : Tree} {place : Place} :
    t.checkDirectory place = .ok () ↔ t.item? place = some .directory := by
  unfold checkDirectory
  split
  · next found => simp [found]
  · next found => simp [found]
  · next missing => simp [missing]

/-! ## Later trees -/

/-- A later tree has all items of some kind that an earlier one has. -/
structure Keeps (kind : Item → Prop) (t t' : Tree) : Prop where
  workingDirectory : t'.workingDirectory = t.workingDirectory
  item : ∀ place item, kind item → t.item? place = some item → t'.item? place = some item

variable {kind : Item → Prop} {t t' : Tree}

theorem Keeps.refl (kind : Item → Prop) (t : Tree) : Keeps kind t t :=
  ⟨rfl, fun _ _ _ found => found⟩

theorem Keeps.trans {t'' : Tree} (first : Keeps kind t t') (second : Keeps kind t' t'') :
    Keeps kind t t'' where
  workingDirectory := second.workingDirectory.trans first.workingDirectory
  item place item is found := second.item place item is (first.item place item is found)

/-- Where there is no item of the kind, another item can be put. -/
theorem keeps_put {place : Place} (free : ∀ item, t.item? place = some item → ¬ kind item)
    (new : Item) : Keeps kind t (t.put place new) where
  workingDirectory := rfl
  item q item is found := by
    have apart : q ≠ place := by
      rintro rfl
      exact free item found is
    rw [item?_put_of_ne t apart]
    exact found

/-- A walk depends on directories only. -/
theorem Keeps.walk (kept : Keeps (· = .directory) t t') {place found : Place}
    {names : List (List Char)} (walked : t.walk place names = .ok found) :
    t'.walk place names = .ok found := by
  induction names generalizing place with
  | nil => exact walked
  | cons name names ih =>
    obtain ⟨⟨⟩, directory, walked⟩ := bind_eq_ok_iff.mp walked
    obtain ⟨⟨⟩, short, walked⟩ := bind_eq_ok_iff.mp walked
    have directory' := checkDirectory_eq_ok_iff.mpr
      (kept.item place _ rfl (checkDirectory_eq_ok_iff.mp directory))
    show (t'.checkDirectory place).bind (fun _ => (checkName name).bind fun _ =>
      t'.walk (step place name) names) = _
    rw [directory', short]
    exact ih walked

theorem Keeps.place (kept : Keeps (· = .directory) t t') {p : Pathname} {found : Place}
    (placed : t.place p = .ok found) : t'.place p = .ok found := by
  unfold Tree.place at placed ⊢
  split at placed
  · cases placed
  · split at placed
    · have start : t'.startOf p = t.startOf p := by rw [startOf, startOf, kept.workingDirectory]
      rw [if_neg ‹_›, if_pos ‹_›, start]
      exact kept.walk placed
    · cases placed

theorem read_eq_ok_iff {p : Pathname} {bytes : Bytes} :
    t.read p = .ok bytes ↔ ∃ place, t.place p = .ok place ∧ t.item? place = some (.file bytes) := by
  constructor
  · intro read
    obtain ⟨place, placed, read⟩ := bind_eq_ok_iff.mp read
    refine ⟨place, placed, ?_⟩
    split at read
    · next found =>
      cases read
      exact found
    · cases read
    · cases read
  · rintro ⟨place, placed, found⟩
    apply bind_eq_ok_iff.mpr
    refine ⟨place, placed, ?_⟩
    rw [found]
    rfl

theorem Keeps.read (kept : Keeps (fun _ => True) t t') {p : Pathname} {bytes : Bytes}
    (read : t.read p = .ok bytes) : t'.read p = .ok bytes := by
  obtain ⟨place, placed, found⟩ := read_eq_ok_iff.mp read
  have directories : Keeps (· = .directory) t t' :=
    ⟨kept.workingDirectory, fun place item _ => kept.item place item trivial⟩
  exact read_eq_ok_iff.mpr ⟨place, directories.place placed, kept.item place _ trivial found⟩

/-! ## Requests -/

/-- **A file that was written is read**, whatever path it was written to. -/
theorem read_of_write {p : Pathname} {bytes : Bytes}
    (written : t.write p bytes = (.ok (), t')) : t'.read p = .ok bytes := by
  unfold write at written
  split at written
  · cases written
  · next place placed =>
    split at written
    · cases written
    · next other =>
      obtain rfl : t.put place (.file bytes) = t' := (Prod.mk.inj written).2
      have kept : Keeps (· = .directory) t (t.put place (.file bytes)) :=
        keeps_put (fun _ found same => other (found.trans (congrArg some same))) _
      exact read_eq_ok_iff.mpr
        ⟨place, kept.place placed, item?_put_self t (ne_nil_of_item? other) _⟩

/-- A file that cannot be written is left alone. -/
theorem eq_of_write_error {p : Pathname} {bytes : Bytes} {fault : AccessError}
    (written : t.write p bytes = (.error fault, t')) : t' = t := by
  unfold write at written
  split at written
  · exact (Prod.mk.inj written).2.symm
  · split at written
    · exact (Prod.mk.inj written).2.symm
    · cases written

/-- Directories are created where there is nothing. -/
theorem keeps_makeWay (t : Tree) (place : Place) (names : List (List Char)) :
    Keeps (fun _ => True) t (t.makeWay place names).2 := by
  induction names generalizing t place with
  | nil => exact .refl _ t
  | cons name names ih =>
    unfold makeWay
    split
    · exact .refl _ t
    · dsimp only
      split
      · exact ih t _
      · exact .refl _ t
      · next missing =>
        refine (keeps_put (fun item found => ?_) .directory).trans (ih _ _)
        rw [missing] at found
        cases found

/-- **Whatever there is stays as it is** when directories are created, also if not all of them
are. -/
theorem keeps_createDirectories (t : Tree) (p : Pathname) :
    Keeps (fun _ => True) t (t.createDirectories p).2 := by
  unfold createDirectories
  split
  · exact keeps_makeWay t _ _
  · exact .refl _ t

end Phrasebook.Storage.Tree
