import Mathlib.Tactic.Common

namespace Loops

/-! Loops that need not end, run for a number of turns. -/

/-- A loop has a result, or goes on from a state. -/
inductive Status (σ ρ : Type) where
  | done (result : ρ)
  | again (state : σ)

variable {σ ρ : Type} {turn : σ → Status σ ρ}

def run (turn : σ → Status σ ρ) : (fuel : Nat) → σ → Status σ ρ
  | 0, state => .again state
  | fuel + 1, state =>
      match turn state with
      | .done result => .done result
      | .again next => run turn fuel next

/-- The loop ends, whatever fuel above some number it gets. -/
def Returns (turn : σ → Status σ ρ) (state : σ) (result : ρ) : Prop :=
  ∃ count, ∀ fuel, count ≤ fuel → run turn fuel state = .done result

/-- A property of the states between the turns, and one of the results. -/
def Status.Satisfies (Holds : σ → Prop) (Ends : ρ → Prop) : Status σ ρ → Prop
  | .done result => Ends result
  | .again state => Holds state

theorem run_add {first second : Nat} {state middle : σ} (ran : run turn first state = .again middle) :
    run turn (first + second) state = run turn second middle := by
  induction first generalizing state with
  | zero =>
      cases ran
      rw [Nat.zero_add]
  | succ first induction_hypothesis =>
      rw [Nat.succ_add]
      rw [run] at ran ⊢
      cases turned : turn state with
      | done result =>
          rw [turned] at ran
          cases ran
      | again next =>
          rw [turned] at ran
          exact induction_hypothesis ran

theorem run_done {fuel : Nat} {state : σ} {result : ρ} (ran : run turn fuel state = .done result) :
    Returns turn state result := by
  refine ⟨fuel, ?_⟩
  intro more enough
  induction fuel generalizing state more with
  | zero => cases ran
  | succ fuel induction_hypothesis =>
      obtain ⟨more, rfl⟩ := Nat.exists_eq_succ_of_ne_zero (by omega : more ≠ 0)
      rw [run] at ran ⊢
      cases turned : turn state with
      | done other =>
          rw [turned] at ran
          exact ran
      | again next =>
          rw [turned] at ran
          exact induction_hypothesis ran more (by omega)

theorem Returns.result_eq {fuel : Nat} {state : σ} {first second : ρ} (returns : Returns turn state first)
    (ran : run turn fuel state = .done second) : second = first := by
  obtain ⟨count, done⟩ := returns
  obtain ⟨other, again⟩ := run_done ran
  have same := (again (max count other) (Nat.le_max_right _ _)).symm.trans
    (done (max count other) (Nat.le_max_left _ _))
  cases same
  rfl

theorem returns_of_run {fuel : Nat} {state middle : σ} {result : ρ}
    (ran : run turn fuel state = .again middle) (returns : Returns turn middle result) :
    Returns turn state result := by
  obtain ⟨count, enough⟩ := returns
  have ended := enough count (Nat.le_refl _)
  rw [← run_add ran] at ended
  exact run_done ended

/-- What every turn keeps holds between all turns. -/
theorem run_satisfies {Holds : σ → Prop} {Ends : ρ → Prop} {state : σ}
    (step : ∀ before, Holds before → (turn before).Satisfies Holds Ends) (holds : Holds state)
    (fuel : Nat) : (run turn fuel state).Satisfies Holds Ends := by
  induction fuel generalizing state with
  | zero => exact holds
  | succ fuel induction_hypothesis =>
      have next := step state holds
      rw [run]
      cases turned : turn state with
      | done result =>
          rw [turned] at next
          exact next
      | again after =>
          rw [turned] at next
          exact induction_hypothesis next

theorem Returns.satisfies {Holds : σ → Prop} {Ends : ρ → Prop} {state : σ} {result : ρ}
    (returns : Returns turn state result)
    (step : ∀ before, Holds before → (turn before).Satisfies Holds Ends) (holds : Holds state) :
    Ends result := by
  obtain ⟨count, ended⟩ := returns
  have satisfied := run_satisfies step holds count
  rw [ended count (Nat.le_refl _)] at satisfied
  exact satisfied

/-- A loop ends when every turn that does not end it decreases a measure. -/
theorem returns_of_measure {Holds : σ → Prop} {state : σ} (measure : σ → Nat)
    (step : ∀ before after, Holds before → turn before = .again after →
      Holds after ∧ measure after < measure before)
    (holds : Holds state) : ∃ result, Returns turn state result := by
  generalize size : measure state = count
  induction count using Nat.strongRecOn generalizing state with
  | ind count induction_hypothesis =>
      cases turned : turn state with
      | done result =>
          refine ⟨result, run_done (?_ : run turn 1 state = _)⟩
          rw [run, turned]
      | again after =>
          obtain ⟨next, smaller⟩ := step state after holds turned
          obtain ⟨result, returns⟩ := induction_hypothesis _ (size ▸ smaller) next rfl
          refine ⟨result, returns_of_run (?_ : run turn 1 state = .again after) returns⟩
          rw [run, turned]
          rfl

end Loops
