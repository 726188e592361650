import Mackerel.Device.Keeps
import Mackerel.Loops.Turns

namespace Loops

open Device

/-! Programs with loops, on a state. Each of their loops gets the same fuel. -/

/-- A program returns with a value, or is at some state in one of its loops. -/
def Task (σ α : Type) := σ → (fuel : Nat) → Status σ (α × σ)

namespace Task

variable {σ α β : Type}

instance : Monad (Task σ) where
  pure value := fun state _ => .done (value, state)
  bind first next := fun state fuel =>
    match first state fuel with
    | .again middle => .again middle
    | .done (value, middle) => next value middle fuel

def turn (body : α → StateM σ (α ⊕ β)) : α × σ → Status (α × σ) (β × σ)
  | (vars, state) =>
      match body vars state with
      | (.inl next, after) => .again (next, after)
      | (.inr result, after) => .done (result, after)

/-- A loop with its variables. The body gives their next values, or the result. -/
def loop (body : α → StateM σ (α ⊕ β)) (vars : α) : Task σ β := fun state fuel =>
  match run (turn body) fuel (vars, state) with
  | .again (_, middle) => .again middle
  | .done result => .done result

theorem bind_eq (first : Task σ α) (next : α → Task σ β) (state : σ) (fuel : Nat) :
    (first >>= next) state fuel =
      match first state fuel with
      | .again middle => .again middle
      | .done (value, middle) => next value middle fuel := rfl

variable {Holds : σ → Prop} {Post : α → Prop} {Last : β → Prop}

/-- The program keeps a property of the state at every moment, and returns with another of its
    value. -/
structure Total (Holds : σ → Prop) (Post : α → Prop) (task : Task σ α) : Prop where
  keeps : ∀ state, Holds state → ∀ fuel,
    (task state fuel).Satisfies Holds fun outcome => Post outcome.1 ∧ Holds outcome.2
  returns : ∀ state, Holds state → ∃ outcome count, ∀ fuel, count ≤ fuel → task state fuel = .done outcome

theorem Total.pure {value : α} (post : Post value) : Total Holds Post (Pure.pure value) where
  keeps _ holds _ := ⟨post, holds⟩
  returns state _ := ⟨(value, state), 0, fun _ _ => rfl⟩

theorem Total.bind {first : Task σ α} {next : α → Task σ β} (firstTotal : Total Holds Post first)
    (nextTotal : ∀ value, Post value → Total Holds Last (next value)) : Total Holds Last (first >>= next) where
  keeps state holds fuel := by
    have early := firstTotal.keeps state holds fuel
    rw [bind_eq]
    cases ran : first state fuel with
    | again middle =>
        rw [ran] at early
        exact early
    | done outcome =>
        rw [ran] at early
        exact (nextTotal _ early.1).keeps _ early.2 fuel
  returns state holds := by
    obtain ⟨middle, early, ended⟩ := firstTotal.returns state holds
    have kept := firstTotal.keeps state holds early
    rw [ended early (Nat.le_refl _)] at kept
    obtain ⟨outcome, late, returned⟩ := (nextTotal _ kept.1).returns _ kept.2
    refine ⟨outcome, max early late, fun fuel enough => ?_⟩
    rw [bind_eq, ended fuel (Nat.le_trans (Nat.le_max_left _ _) enough)]
    exact returned fuel (Nat.le_trans (Nat.le_max_right _ _) enough)

/-- What a turn leads to: further on by the measure, or out of the loop. -/
def Onward (Invariant : α → Prop) (measure : α → Nat) (Last : β → Prop) (vars : α) : α ⊕ β → Prop
  | .inl next => Invariant next ∧ measure next < measure vars
  | .inr result => Last result

section Loop

variable {Invariant : α → Prop} {body : α → StateM σ (α ⊕ β)} {measure : α → Nat}

theorem turn_satisfies (keeps : ∀ vars, Invariant vars → Keeps Holds (body vars))
    (onward : ∀ vars state, Invariant vars → Onward Invariant measure Last vars (body vars state).1)
    (before : α × σ) (holds : Invariant before.1 ∧ Holds before.2) :
    (turn body before).Satisfies
      (fun after => (Invariant after.1 ∧ Holds after.2) ∧ measure after.1 < measure before.1)
      fun outcome => Last outcome.1 ∧ Holds outcome.2 := by
  obtain ⟨vars, state⟩ := before
  have kept := keeps vars holds.1 state holds.2
  have leads := onward vars state holds.1
  rw [turn]
  cases result : body vars state with
  | mk choice after =>
      rw [result] at kept leads
      cases choice with
      | inl next => exact ⟨⟨leads.1, kept⟩, leads.2⟩
      | inr value => exact ⟨leads, kept⟩

theorem turn_keeps (keeps : ∀ vars, Invariant vars → Keeps Holds (body vars))
    (onward : ∀ vars state, Invariant vars → Onward Invariant measure Last vars (body vars state).1)
    (before : α × σ) (holds : Invariant before.1 ∧ Holds before.2) :
    (turn body before).Satisfies (fun after => Invariant after.1 ∧ Holds after.2)
      fun outcome => Last outcome.1 ∧ Holds outcome.2 := by
  have turned := turn_satisfies keeps onward before holds
  cases result : turn body before with
  | again after =>
      rw [result] at turned
      exact turned.1
  | done outcome =>
      rw [result] at turned
      exact turned

/-- A loop with a measure, by what one turn does. -/
theorem Total.loop (keeps : ∀ vars, Invariant vars → Keeps Holds (body vars))
    (onward : ∀ vars state, Invariant vars → Onward Invariant measure Last vars (body vars state).1)
    {vars : α} (begins : Invariant vars) : Total Holds Last (Task.loop body vars) where
  keeps state holds fuel := by
    have start : Invariant (vars, state).1 ∧ Holds (vars, state).2 := ⟨begins, holds⟩
    have ran := run_satisfies (turn_keeps keeps onward) start fuel
    rw [Task.loop]
    cases result : run (turn body) fuel (vars, state) with
    | again middle =>
        rw [result] at ran
        exact ran.2
    | done outcome =>
        rw [result] at ran
        exact ran
  returns state holds := by
    have start : Invariant (vars, state).1 ∧ Holds (vars, state).2 := ⟨begins, holds⟩
    have decreasing : ∀ before after : α × σ, Invariant before.1 ∧ Holds before.2 →
        turn body before = .again after →
        (Invariant after.1 ∧ Holds after.2) ∧ measure after.1 < measure before.1 := by
      intro before after holds turned
      have leads := turn_satisfies keeps onward before holds
      rw [turned] at leads
      exact leads
    obtain ⟨outcome, count, ended⟩ :=
      returns_of_measure (fun before : α × σ => measure before.1) decreasing start
    refine ⟨outcome, count, fun fuel enough => ?_⟩
    rw [Task.loop, ended fuel enough]

variable (Invariant measure) in
/-- A loop with a condition in front of its body, by what the body does under it. -/
theorem whileLoop_total {more : α → Prop} [DecidablePred more] (access : α → StateM σ Unit) (next : α → α)
    (result : α → β)
    (shape : ∀ vars, body vars = if more vars then do
        access vars
        pure (.inl (next vars))
      else pure (.inr (result vars)))
    (keeps : ∀ vars, Invariant vars → more vars → Keeps Holds (access vars))
    (advance : ∀ vars, Invariant vars → more vars → Invariant (next vars) ∧ measure (next vars) < measure vars)
    (ends : ∀ vars, Invariant vars → ¬more vars → Last (result vars)) {vars : α} (begins : Invariant vars) :
    Total Holds Last (Task.loop body vars) := by
  have bodyKeeps : ∀ vars, Invariant vars → Keeps Holds (body vars) := by
    intro vars invariant
    rw [shape]
    by_cases goes : more vars
    · rw [if_pos goes]
      exact .bind (keeps vars invariant goes) fun _ => .pure _
    · rw [if_neg goes]
      exact .pure _
  have onward : ∀ vars state, Invariant vars → Onward Invariant measure Last vars (body vars state).1 := by
    intro vars state invariant
    rw [shape]
    by_cases goes : more vars
    · rw [if_pos goes]
      exact advance vars invariant goes
    · rw [if_neg goes]
      exact ends vars invariant goes
  exact .loop bodyKeeps onward begins

end Loop

end Task

end Loops
