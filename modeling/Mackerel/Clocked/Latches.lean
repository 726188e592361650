import Mathlib.Data.Nat.Count
import Mathlib.Data.Nat.Init
import Mathlib.Tactic.Common

/-! Flags that one clock sets and another one clears, and counters that start over. -/

namespace Clocked

/-- Clock `n` is the first one from `a` on with `P`. -/
def First (P : Nat → Prop) (a n : Nat) : Prop := P n ∧ ∀ k, a ≤ k → k < n → ¬P k

variable {P Q : Nat → Prop} {b n : Nat}

/-- Two conditions that agree as long as the first one has not held have the same first clock. -/
theorem first_congr (after : b < n)
    (agree : ∀ k, b < k → k ≤ n → (∀ j, b < j → j < k → ¬P j) → (P k ↔ Q k)) :
    First P (b + 1) n ↔ First Q (b + 1) n := by
  constructor
  · rintro ⟨now, none⟩
    refine ⟨(agree n after (Nat.le_refl n) none).mp now, fun k lower upper early => ?_⟩
    have earlier (j : Nat) (first : b < j) (before : j < k) := none j first (by omega)
    exact none k lower upper ((agree k lower (by omega) earlier).mpr early)
  · intro ⟨now, early⟩
    have none (k : Nat) : b < k → k < n → ¬P k := by
      induction k using Nat.strong_induction_on with
      | _ k ih =>
          intro lower upper holds
          have earlier (j : Nat) (first : b < j) (before : j < k) := ih j before first (by omega)
          exact early k lower upper ((agree k lower (by omega) earlier).mp holds)
    exact ⟨(agree n after (Nat.le_refl n) none).mpr now, none⟩

/-- The clock since which `P` has held without `Q`: the last one with `Q`, or the one before `P`
    began to hold. -/
theorem exists_since (initial : ¬P 0) (now : P n) :
    ∃ b < n, (Q b ∨ ¬P b ∧ P (b + 1)) ∧ (∀ k, b < k → k ≤ n → P k) ∧
      ∀ k, b < k → k < n → ¬Q k := by
  induction n with
  | zero => exact absurd now initial
  | succ n ih =>
      have here (starts : Q n ∨ ¬P n ∧ P (n + 1)) : ∃ b < n + 1, (Q b ∨ ¬P b ∧ P (b + 1)) ∧
          (∀ k, b < k → k ≤ n + 1 → P k) ∧ ∀ k, b < k → k < n + 1 → ¬Q k :=
        ⟨n, Nat.lt_succ_self n, starts, fun k lower upper => (show k = n + 1 by omega) ▸ now,
          fun k lower upper => by omega⟩
      by_cases again : Q n
      · exact here (.inl again)
      · by_cases before : P n
        · obtain ⟨b, lower, starts, still, none⟩ := ih before
          refine ⟨b, by omega, starts, fun k first last => ?_, fun k first last => ?_⟩
          · rcases Nat.le_succ_iff.mp last with earlier | rfl
            · exact still k first earlier
            · exact now
          · rcases Nat.lt_succ_iff_lt_or_eq.mp last with earlier | rfl
            · exact none k first earlier
            · exact again
        · exact here (.inr ⟨before, now⟩)

/-- A counter tells the clocks since it was zero. -/
theorem counted_since (count : Nat → Nat) (zero : count (b + 1) = 0) (after : b < n)
    (counts : ∀ k, b < k → k < n → count (k + 1) = count k + 1) : count n + 1 = n - b := by
  induction n, after using Nat.le_induction with
  | base =>
      rw [zero]
      omega
  | succ n after ih =>
      have before := ih fun k lower upper => counts k lower (by omega)
      rw [counts n after (Nat.lt_succ_self n)]
      omega

/-- A flag is up when it has been set and not cleared since; `clears` wins over `sets`, and `sets` over
    `drops`. -/
theorem latched_iff (flag sets clears drops : Nat → Bool) (initial : flag 0 = false)
    (step : ∀ n, flag (n + 1) = (!clears n && (sets n || !drops n && flag n))) :
    flag n = true ↔ ∃ r < n, sets r = true ∧ (∀ k, r ≤ k → k < n → clears k = false) ∧
      ∀ k, r < k → k < n → drops k = false := by
  induction n with
  | zero => simp [initial]
  | succ n ih =>
      simp only [step, Bool.and_eq_true, Bool.not_eq_true', Bool.or_eq_true, ih]
      constructor
      · rintro ⟨kept, here | ⟨unopposed, r, before, was, since, also⟩⟩
        · exact ⟨n, Nat.lt_succ_self n, here, fun k lower upper => (show k = n by omega) ▸ kept,
            fun k lower upper => by omega⟩
        · refine ⟨r, by omega, was, fun k lower upper => ?_, fun k lower upper => ?_⟩
          · rcases Nat.lt_succ_iff_lt_or_eq.mp upper with earlier | rfl
            · exact since k lower earlier
            · exact kept
          · rcases Nat.lt_succ_iff_lt_or_eq.mp upper with earlier | rfl
            · exact also k lower earlier
            · exact unopposed
      · intro ⟨r, before, was, since, also⟩
        refine ⟨since n (by omega) (Nat.lt_succ_self n), ?_⟩
        rcases Nat.lt_succ_iff_lt_or_eq.mp before with earlier | rfl
        · exact .inr ⟨also n earlier (Nat.lt_succ_self n), r, earlier, was,
            fun k lower upper => since k lower (by omega),
            fun k lower upper => also k lower (by omega)⟩
        · exact .inl was

/-- Clock `w` is the last one before `n` with `P`. -/
def Last (P : Nat → Prop) (w n : Nat) : Prop := w < n ∧ P w ∧ ∀ k, w < k → k < n → ¬P k

section Registers

variable {α : Type*} (register value : Nat → α) {loads : Nat → Bool} {w : Nat}
  (step : ∀ n, register (n + 1) = if loads n then value n else register n)

include step

/-- A register holds what it was loaded with last. -/
theorem held_of_last (last : Last (fun k => loads k = true) w n) : register n = value w := by
  obtain ⟨earlier, loaded, none⟩ := last
  induction n, earlier using Nat.le_induction with
  | base => rw [step, if_pos loaded]
  | succ n later ih =>
      rw [step, if_neg (none n later (Nat.lt_succ_self n))]
      exact ih fun k lower upper => none k lower (Nat.lt_succ_of_lt upper)

theorem held_of_none (none : ∀ k < n, loads k = false) : register n = register 0 := by
  induction n with
  | zero => rfl
  | succ n ih =>
      rw [step, if_neg (Bool.eq_false_iff.mp (none n (Nat.lt_succ_self n)))]
      exact ih fun k upper => none k (Nat.lt_succ_of_lt upper)

end Registers

/-- What is set once and cleared once at a time has been cleared as often as it has been set, up to
    the one that is up. -/
theorem count_balance {flag sets clears : Nat → Prop} [DecidablePred flag] [DecidablePred sets]
    [DecidablePred clears] (step : ∀ n, flag (n + 1) ↔ ¬clears n ∧ (sets n ∨ flag n))
    (apart : ∀ n, sets n → ¬flag n) (only : ∀ n, clears n → flag n) (n : Nat) :
    Nat.count clears n + (if flag n then 1 else 0) =
      Nat.count sets n + if flag 0 then 1 else 0 := by
  induction n with
  | zero => rw [Nat.count_zero, Nat.count_zero]
  | succ n ih =>
      rw [Nat.count_succ, Nat.count_succ]
      by_cases cleared : clears n
      · have up := only n cleared
        have down : ¬flag (n + 1) := fun again => ((step n).mp again).1 cleared
        have unset : ¬sets n := fun set_ => apart n set_ up
        rw [if_pos up] at ih
        rw [if_pos cleared, if_neg down, if_neg unset]
        omega
      · by_cases up : flag n
        · have still : flag (n + 1) := (step n).mpr ⟨cleared, .inr up⟩
          have unset : ¬sets n := fun set_ => apart n set_ up
          rw [if_pos up] at ih
          rw [if_neg cleared, if_pos still, if_neg unset]
          omega
        · rw [if_neg up] at ih
          have next : flag (n + 1) ↔ sets n := by simp [step, cleared, up]
          simp only [next, if_neg cleared]
          omega

end Clocked
