import Mathlib.Tactic.Common

/-! A deterministic machine, clocked with the inputs of each clock. -/

namespace Clocked

universe u

variable {σ : Type u}

/-- The state at every clock; `step n` is the machine under the inputs of clock `n`. -/
def driven (step : Nat → σ → σ) (start : σ) : Nat → σ
  | 0 => start
  | n + 1 => step n (driven step start n)

variable {step : Nat → σ → σ} {start : σ} {P : σ → Prop}

@[simp]
theorem driven_zero : driven step start 0 = start := rfl

theorem driven_succ (n : Nat) : driven step start (n + 1) = step n (driven step start n) := rfl

theorem driven_add (m n : Nat) : driven step start (m + n) =
    driven (fun k => step (m + k)) (driven step start m) n := by
  induction n with
  | zero => rfl
  | succ n ih => simp only [← Nat.add_assoc, driven_succ, ih]

theorem driven_invariant (initial : P start) (preserved : ∀ n s, P s → P (step n s)) (n : Nat) :
    P (driven step start n) := by
  induction n with
  | zero => exact initial
  | succ n ih => exact preserved n _ ih

end Clocked
