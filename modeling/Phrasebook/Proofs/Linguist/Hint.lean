import Phrasebook.Linguist.Hint
import Phrasebook.Proofs.Markup.Text

/-!
# When hints can be followed

Where a hint leads depends on the hints before it, so hints are followed one after the other.
This module splits such a walk into its parts and says at which hint it can end early.

- `followAll_append_eq_ok_iff`: a walk over two stretches of hints.
- `Resolves`: a hint can be followed after those before it.
- `followAll_ok_iff`: a walk reaches its end when every hint on it can be followed.
-/

namespace Phrasebook.Linguist

open Markup

namespace Trail

theorem followAll_nil (t : Trail) : t.followAll [] = .ok ([], t) := rfl

theorem followAll_cons_eq_ok_iff (t after : Trail) (hint : Element) (rest : List Element)
    (locations : List Location) :
    t.followAll (hint :: rest) = .ok (locations, after) ↔
      ∃ location mid later, t.follow hint = .ok (location, mid) ∧
        mid.followAll rest = .ok (later, after) ∧ locations = location :: later := by
  constructor
  · intro walk
    obtain ⟨⟨location, mid⟩, first, walk⟩ := bind_eq_ok_iff.mp walk
    obtain ⟨⟨later, after'⟩, others, walk⟩ := bind_eq_ok_iff.mp walk
    cases walk
    exact ⟨location, mid, later, first, others, rfl⟩
  · rintro ⟨location, mid, later, first, others, rfl⟩
    exact bind_eq_ok_iff.mpr ⟨(location, mid), first,
      bind_eq_ok_iff.mpr ⟨(later, after), others, rfl⟩⟩

theorem followAll_append_eq_ok_iff (t after : Trail) (hints rest : List Element)
    (locations : List Location) :
    t.followAll (hints ++ rest) = .ok (locations, after) ↔
      ∃ earlier mid later, t.followAll hints = .ok (earlier, mid) ∧
        mid.followAll rest = .ok (later, after) ∧ locations = earlier ++ later := by
  induction hints generalizing t locations with
  | nil =>
    constructor
    · intro walk
      exact ⟨[], t, locations, rfl, walk, rfl⟩
    · rintro ⟨earlier, mid, later, none_yet, others, rfl⟩
      cases none_yet
      exact others
  | cons hint hints ih =>
    rw [List.cons_append, followAll_cons_eq_ok_iff]
    constructor
    · rintro ⟨location, next, later, first, walk, rfl⟩
      obtain ⟨earlier, mid, later', upto, others, rfl⟩ := (ih next later).mp walk
      exact ⟨location :: earlier, mid, later',
        (followAll_cons_eq_ok_iff _ _ _ _ _).mpr ⟨location, next, earlier, first, upto, rfl⟩,
        others, rfl⟩
    · rintro ⟨earlier, mid, later, start, others, rfl⟩
      obtain ⟨location, next, earlier', first, upto, rfl⟩ :=
        (followAll_cons_eq_ok_iff _ _ _ _ _).mp start
      exact ⟨location, next, earlier' ++ later, first,
        (ih next _).mpr ⟨earlier', mid, later, upto, others, rfl⟩, rfl⟩

/-- One more hint at the end of a walk. -/
theorem followAll_snoc {t mid after : Trail} {hints : List Element} {hint : Element}
    {locations : List Location} {location : Location}
    (walk : t.followAll hints = .ok (locations, mid))
    (step : mid.follow hint = .ok (location, after)) :
    t.followAll (hints ++ [hint]) = .ok (locations ++ [location], after) := by
  refine (followAll_append_eq_ok_iff _ _ _ _ _).mpr ⟨locations, mid, [location], walk, ?_, rfl⟩
  exact (followAll_cons_eq_ok_iff _ _ _ _ _).mpr ⟨location, after, [], step, rfl, rfl⟩

theorem follow_ok_iff (t : Trail) (hint : Element) :
    (∃ step, t.follow hint = .ok step) ↔
      ∀ written, hint.attribute? "line" = some written →
        ∃ n, lineNumber? (t.nameFile hint).lastLine written = some n := by
  unfold follow
  dsimp only
  cases hint.attribute? "line" with
  | none => simp
  | some written =>
    cases number : lineNumber? (t.nameFile hint).lastLine written with
    | none => simp [number]
    | some n => simp [number]

end Trail

/-- The line that a hint gives is a line number, counted from where the hints before it led if
it is a relative one. A hint need not give a line. -/
def Resolves (before : List Element) (hint : Element) : Prop :=
  ∀ locations trail, Trail.start.followAll before = .ok (locations, trail) →
    ∀ written, hint.attribute? "line" = some written →
      ∃ n, lineNumber? (trail.nameFile hint).lastLine written = some n

/-- A walk that got as far as `t` reaches its end when no hint ahead is in its way. -/
theorem Trail.followAll_ok_iff_of_followed {before : List Element} {locations : List Location}
    {t : Trail} (followed : start.followAll before = .ok (locations, t)) (ahead : List Element) :
    (∃ walk, t.followAll ahead = .ok walk) ↔
      ∀ first hint rest, ahead = first ++ hint :: rest → Resolves (before ++ first) hint := by
  induction ahead generalizing before locations t with
  | nil =>
    constructor
    · intro _ first hint rest split
      exact absurd split.symm (by simp)
    · intro _
      exact ⟨([], t), rfl⟩
  | cons next ahead ih =>
    constructor
    · rintro ⟨⟨later, after⟩, whole⟩ first hint rest split
      obtain ⟨location, mid, later', step, walk, rfl⟩ :=
        (followAll_cons_eq_ok_iff _ _ _ _ _).mp whole
      cases first with
      | nil =>
        -- the hint is the next one, and it has been followed
        cases split
        intro locations' t' followed'
        rw [List.append_nil] at followed'
        cases followed.symm.trans followed'
        exact (t.follow_ok_iff next).mp ⟨_, step⟩
      | cons passed first =>
        -- the hint lies behind the next one, on the walk that goes on from there
        cases split
        have resolves := (ih (followAll_snoc followed step)).mp ⟨_, walk⟩ first hint rest rfl
        rwa [List.append_assoc] at resolves
    · intro resolves
      have step : ∃ step, t.follow next = .ok step := by
        have here := resolves [] next ahead rfl
        rw [List.append_nil] at here
        exact (t.follow_ok_iff next).mpr (here locations t followed)
      obtain ⟨⟨location, mid⟩, step⟩ := step
      have walk : ∃ walk, mid.followAll ahead = .ok walk := by
        refine (ih (followAll_snoc followed step)).mpr ?_
        rintro first hint rest rfl
        rw [List.append_assoc]
        exact resolves (next :: first) hint rest rfl
      obtain ⟨⟨later, after⟩, walk⟩ := walk
      exact ⟨(location :: later, after),
        (followAll_cons_eq_ok_iff _ _ _ _ _).mpr ⟨location, mid, later, step, walk, rfl⟩⟩

/-- **A walk over hints reaches its end** when every hint resolves after those before it. -/
theorem Trail.followAll_ok_iff (hints : List Element) :
    (∃ walk, start.followAll hints = .ok walk) ↔
      ∀ before hint rest, hints = before ++ hint :: rest → Resolves before hint :=
  followAll_ok_iff_of_followed start.followAll_nil hints

end Phrasebook.Linguist
