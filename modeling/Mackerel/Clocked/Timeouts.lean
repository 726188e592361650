import Mathlib.Tactic.Common

/-! A condition that holds for a number of clocks without a break, as a saturating counter
measures it. -/

namespace Clocked

/-- `P` held at each of the `count` clocks before clock `n`. -/
def HeldFor (P : Nat → Prop) (count n : Nat) : Prop :=
  count ≤ n ∧ ∀ k, n - count ≤ k → k < n → P k

variable {P : Nat → Prop} {count n : Nat}

@[simp]
theorem heldFor_zero : HeldFor P 0 n :=
  ⟨Nat.zero_le n, fun _ lower upper => absurd upper (Nat.not_lt.mpr lower)⟩

theorem not_heldFor_start : ¬HeldFor P (count + 1) 0 := fun held => absurd held.1 (Nat.not_succ_le_zero count)

theorem heldFor_succ : HeldFor P (count + 1) (n + 1) ↔ P n ∧ HeldFor P count n := by
  constructor
  · intro ⟨enough, holds⟩
    exact ⟨holds n (by omega) (Nat.lt_succ_self n), by omega,
      fun k lower upper => holds k (by omega) (by omega)⟩
  · intro ⟨now, enough, holds⟩
    refine ⟨by omega, fun k lower upper => ?_⟩
    rcases Nat.lt_succ_iff_lt_or_eq.mp upper with earlier | rfl
    · exact holds k (by omega) earlier
    · exact now

theorem HeldFor.mono {fewer : Nat} (held : HeldFor P count n) (less : fewer ≤ count) :
    HeldFor P fewer n :=
  ⟨Nat.le_trans less held.1, fun k lower upper => held.2 k (by omega) upper⟩

section Saturating

variable {limit : Nat}

/-- A counter that starts over when `P` fails and stops at its limit tells for how long `P` has
    held, up to the limit. -/
theorem le_counter_iff (counter : Nat → Nat) (initial : counter 0 = 0)
    (step : ∀ n, (P n → counter (n + 1) = if counter n = limit then limit else counter n + 1) ∧
      (¬P n → counter (n + 1) = 0))
    (n : Nat) : counter n ≤ limit ∧ ∀ count ≤ limit, count ≤ counter n ↔ HeldFor P count n := by
  induction n with
  | zero =>
      rw [initial]
      refine ⟨Nat.zero_le limit, fun count _ => ?_⟩
      cases count with
      | zero => simp
      | succ count => simp [not_heldFor_start]
  | succ n ih =>
      obtain ⟨below, counts⟩ := ih
      by_cases now : P n
      · have next := (step n).1 now
        refine ⟨by grind, fun count within => ?_⟩
        cases count with
        | zero => simp
        | succ count =>
            rw [heldFor_succ, ← counts count (by omega)]
            grind
      · have next := (step n).2 now
        refine ⟨by omega, fun count _ => ?_⟩
        cases count with
        | zero => simp
        | succ count => simp [heldFor_succ, now, next]

/-- The flag that goes up when the counter is found full is up after a clock when `P` held at that
    clock and at as many clocks before it as the counter counts. -/
theorem flag_iff (counter : Nat → Nat) (flag : Nat → Prop) (initial : counter 0 = 0) (down : ¬flag 0)
    (step : ∀ n, (P n → counter (n + 1) = if counter n = limit then limit else counter n + 1) ∧
      (¬P n → counter (n + 1) = 0))
    (raises : ∀ n, flag (n + 1) ↔ P n ∧ (counter n = limit ∨ flag n))
    (n : Nat) : flag n ↔ HeldFor P (limit + 1) n := by
  have full (n : Nat) : counter n = limit ↔ HeldFor P limit n := by
    obtain ⟨below, counts⟩ := le_counter_iff counter initial step n
    rw [← counts limit (Nat.le_refl limit)]
    omega
  induction n with
  | zero => simp [down, not_heldFor_start]
  | succ n ih =>
      rw [raises, heldFor_succ, full]
      refine and_congr_right fun _ => ⟨?_, Or.inl⟩
      rintro (enough | up)
      · exact enough
      · exact (ih.mp up).mono (Nat.le_succ limit)

end Saturating

end Clocked
