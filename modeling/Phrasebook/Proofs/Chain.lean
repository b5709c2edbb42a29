/-!
# Chains that can fail

What the outcome of a chain says about its two parts, each of which can fail.

- `bind_eq_ok_iff`, `map_eq_ok_iff`: success of a chain, taken apart.
- `bind_eq_error_iff`, `map_eq_error_iff`: its failure.
- `ask_bind`: a chain of requests to something that has a state.
-/

namespace Phrasebook

/-- A chain of two parts succeeds when the second does on what the first one gave. -/
theorem bind_eq_ok_iff {ε α β : Type} {x : Except ε α} {f : α → Except ε β} {b : β} :
    x >>= f = .ok b ↔ ∃ a, x = .ok a ∧ f a = .ok b := by
  cases x with
  | error fault => simp [bind, Except.bind]
  | ok a => simp [bind, Except.bind]

theorem map_eq_ok_iff {ε α β : Type} {x : Except ε α} {f : α → β} {b : β} :
    x.map f = .ok b ↔ ∃ a, x = .ok a ∧ f a = b := by
  cases x with
  | error fault => simp [Except.map]
  | ok a => simp [Except.map]

/-- A chain of two parts fails when the first one does, or the second on what it gave. -/
theorem bind_eq_error_iff {ε α β : Type} {x : Except ε α} {f : α → Except ε β} {fault : ε} :
    x >>= f = .error fault ↔ x = .error fault ∨ ∃ a, x = .ok a ∧ f a = .error fault := by
  cases x with
  | error fault => simp [bind, Except.bind]
  | ok a => simp [bind, Except.bind]

theorem map_eq_error_iff {ε α β : Type} {x : Except ε α} {f : α → β} {fault : ε} :
    x.map f = .error fault ↔ x = .error fault := by
  cases x with
  | error fault => simp [Except.map]
  | ok a => simp [Except.map]

/-- Requests in sequence: a fault ends the sequence, and otherwise the second request meets the
state that the first one left. -/
theorem ask_bind {ε σ α β : Type} (x : ExceptT ε (StateM σ) α) (f : α → ExceptT ε (StateM σ) β)
    (w : σ) :
    (x >>= f).run.run w
      = match x.run.run w with
        | (.error fault, w₁) => (.error fault, w₁)
        | (.ok a, w₁) => (f a).run.run w₁ := by
  rw [ExceptT.run_bind, StateT.run_bind]
  show (match x.run.run w with | (a, w₁) => _) = _
  rcases x.run.run w with ⟨fault | a, w₁⟩ <;> rfl

end Phrasebook
