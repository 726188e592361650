import Mackerel.Loops.Tasks

namespace Loops.Task

/-! What a program returns, and loops whose turns are known one by one. -/

variable {σ α β : Type}

/-- The program returns with a value in a state, whatever fuel above some number it gets. -/
def Computes (task : Task σ α) (state : σ) (outcome : α × σ) : Prop :=
  ∃ count, ∀ fuel, count ≤ fuel → task state fuel = .done outcome

/-- A program without a loop. -/
instance : MonadLift (StateM σ) (Task σ) where
  monadLift program := fun state _ => .done (program state)

variable {task : Task σ α} {state : σ}

theorem computes_pure (value : α) : Computes (pure value : Task σ α) state (value, state) :=
  ⟨0, fun _ _ => rfl⟩

theorem computes_lift (program : StateM σ α) :
    Computes (monadLift program : Task σ α) state (program state) :=
  ⟨0, fun _ _ => rfl⟩

theorem Computes.bind {next : α → Task σ β} {value : α} {middle : σ} {outcome : β × σ}
    (first : task.Computes state (value, middle)) (rest : (next value).Computes middle outcome) :
    (task >>= next).Computes state outcome := by
  obtain ⟨early, ended⟩ := first
  obtain ⟨late, returned⟩ := rest
  refine ⟨max early late, fun fuel enough => ?_⟩
  rw [bind_eq, ended fuel (Nat.le_trans (Nat.le_max_left _ _) enough)]
  exact returned fuel (Nat.le_trans (Nat.le_max_right _ _) enough)

section Counted

variable {body : α → StateM σ (α ⊕ β)} {place : Nat → α} {states : Nat → σ} {count : Nat} {result : β}

theorem run_counted
    (turns : ∀ k, k < count → body (place k) (states k) = (.inl (place (k + 1)), states (k + 1)))
    {k : Nat} (within : k ≤ count) :
    run (turn body) k (place 0, states 0) = .again (place k, states k) := by
  induction k with
  | zero => rfl
  | succ k ih =>
      rw [run_add (ih (Nat.le_of_succ_le within)), run, turn, turns k within]
      rfl

/-- A loop that makes `count` turns, by what each of them does. -/
theorem computes_counted
    (turns : ∀ k, k < count → body (place k) (states k) = (.inl (place (k + 1)), states (k + 1)))
    (ends : body (place count) (states count) = (.inr result, states count)) :
    Computes (loop body (place 0)) (states 0) (result, states count) := by
  have last : run (turn body) (count + 1) (place 0, states 0) = .done (result, states count) := by
    rw [run_add (run_counted turns (Nat.le_refl count)), run, turn, ends]
  obtain ⟨enough, ended⟩ := run_done last
  refine ⟨enough, fun fuel more => ?_⟩
  rw [loop, ended fuel more]

/-- The same for a loop with a condition in front of its body, by what the body makes of its variables and of
    the state. -/
theorem computes_while {more : α → Prop} [DecidablePred more] {next : α → α} {effect : σ → α → σ}
    {last : α → β}
    (shape : ∀ vars state, body vars state =
      if more vars then (.inl (next vars), effect state vars) else (.inr (last vars), state))
    (place : Nat → α) (states : Nat → σ)
    (goes : ∀ k, k < count → more (place k) ∧ next (place k) = place (k + 1))
    (makes : ∀ k, k < count → effect (states k) (place k) = states (k + 1)) (ends : ¬more (place count)) :
    Computes (loop body (place 0)) (states 0) (last (place count), states count) := by
  apply computes_counted
  case turns =>
    intro k within
    obtain ⟨condition, advance⟩ := goes k within
    rw [shape, if_pos condition, advance, makes k within]
  case ends => rw [shape, if_neg ends]

end Counted

end Loops.Task
