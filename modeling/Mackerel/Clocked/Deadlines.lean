import Mathlib.Tactic.Common

namespace Clocked

variable {P Q : Nat → Prop} {n : Nat}

/-- `Q` holds within `limit` clocks behind clock `n`, and `P` from `n` until then. -/
def Within (limit : Nat) (P Q : Nat → Prop) (n : Nat) : Prop :=
  ∃ m, n < m ∧ m ≤ n + limit ∧ Q m ∧ ∀ k, n ≤ k → k < m → P k

theorem Within.mono {limit wider : Nat} (within : Within limit P Q n) (le : limit ≤ wider) :
    Within wider P Q n := by
  obtain ⟨m, after, before, reached, until_⟩ := within
  exact ⟨m, after, by omega, reached, until_⟩

/-- A phase that either ends or lowers its rank at every clock ends before the rank is used up. -/
theorem within_of_rank (rank : Nat → Nat)
    (advance : ∀ n, P n → Q (n + 1) ∨ (P (n + 1) ∧ rank (n + 1) < rank n)) (here : P n) :
    Within (rank n + 1) P Q n := by
  generalize value : rank n = r
  induction r using Nat.strongRecOn generalizing n with
  | ind r ih =>
      rcases advance n here with done | ⟨next, lower⟩
      · refine ⟨n + 1, Nat.lt_succ_self n, by omega, done, fun k above below => ?_⟩
        obtain rfl : k = n := by omega
        exact here
      · obtain ⟨m, after, before, reached, holds⟩ := ih _ (value ▸ lower) next rfl
        refine ⟨m, by omega, by omega, reached, fun k above below => ?_⟩
        rcases Nat.eq_or_lt_of_le above with same | later
        · exact same ▸ here
        · exact holds k later below

end Clocked
