import Mathlib.Order.WellFounded
import Mathlib.Data.Prod.Lex

/-! Infinite behaviours of a clocked system, one state for each clock, with the
rules that carry invariants and progress arguments along them. -/

namespace Clocked

universe u v

variable {σ : Type u} {Step : σ → σ → Prop}

/-- One behaviour of a step relation: the state at every clock. -/
structure Execution (Step : σ → σ → Prop) where
  state : Nat → σ
  step : ∀ n, Step (state n) (state (n + 1))

namespace Execution

variable {run : Execution Step} {P Q R : σ → Prop} {n m : Nat}

theorem invariant (initial : P (run.state 0))
    (preserved : ∀ {before after}, P before → Step before after → P after) (n : Nat) :
    P (run.state n) := by
  induction n with
  | zero => exact initial
  | succ n ih => exact preserved ih (run.step n)

/-- `Q` holds at some clock from `n` on, and `P` at every clock before it. -/
def Until (run : Execution Step) (P Q : σ → Prop) (n : Nat) : Prop :=
  ∃ m, n ≤ m ∧ Q (run.state m) ∧ ∀ k, n ≤ k → k < m → P (run.state k)

theorem Until.now (reached : Q (run.state n)) : run.Until P Q n :=
  ⟨n, Nat.le_refl n, reached, fun _ lower upper => absurd upper (Nat.not_lt.mpr lower)⟩

theorem Until.later (here : P (run.state n)) (rest : run.Until P Q (n + 1)) :
    run.Until P Q n := by
  obtain ⟨m, after, reached, before⟩ := rest
  refine ⟨m, by omega, reached, fun k lower upper => ?_⟩
  rcases Nat.eq_or_lt_of_le lower with same | above
  · exact same ▸ here
  · exact before k above upper

theorem Until.imp (weaker : ∀ {s}, P s → R s) (rest : run.Until P Q n) : run.Until R Q n := by
  obtain ⟨m, after, reached, before⟩ := rest
  exact ⟨m, after, reached, fun k lower upper => weaker (before k lower upper)⟩

theorem Until.trans (first : run.Until P Q n)
    (second : ∀ m, n ≤ m → Q (run.state m) → run.Until P R m) : run.Until P R n := by
  obtain ⟨m, after, reached, before⟩ := first
  obtain ⟨l, later, goal, between⟩ := second m after reached
  refine ⟨l, by omega, goal, fun k lower upper => ?_⟩
  by_cases early : k < m
  · exact before k lower early
  · exact between k (by omega) upper

/-- A phase that either ends or lowers a well-founded rank at every clock ends. -/
theorem until_of_rank {α : Type v} [Preorder α] [WellFoundedLT α] (rank : σ → α)
    (advance : ∀ {before after}, P before → Step before after →
      Q after ∨ (P after ∧ rank after < rank before))
    (here : P (run.state n)) : run.Until P Q n := by
  generalize value : rank (run.state n) = r
  induction r using WellFoundedLT.induction generalizing n with
  | ind r ih =>
      rcases advance here (run.step n) with done | ⟨next, lower⟩
      · exact Until.later here (Until.now done)
      · exact Until.later here (ih _ (value ▸ lower) next rfl)

/-- A phase that only `Q` can end, in a behaviour where `Q` cannot be delayed for ever. -/
theorem until_of_persistent
    (persist : ∀ {before after}, P before → ¬ Q before → Step before after → P after)
    (here : P (run.state n)) (eventually : ∃ m, n ≤ m ∧ (P (run.state m) → Q (run.state m))) :
    run.Until P Q n := by
  obtain ⟨m, after, ends⟩ := eventually
  induction gap : m - n generalizing n with
  | zero =>
      have same : m = n := by omega
      subst same
      exact Until.now (ends here)
  | succ gap ih =>
      by_cases reached : Q (run.state n)
      · exact Until.now reached
      · exact Until.later here (ih (persist here reached (run.step n)) (by omega) (by omega))

end Execution

end Clocked
