import Mathlib.Data.Nat.Count
import Mackerel.Dram.Bank

namespace Dram

/-! How long the rows of a bank go without a refresh. A bank that sees its column strobes fall
before its row strobe refreshes the row that its own counter names and counts on. -/

variable {α ι β : Type}

namespace Pins

/-- A CAS before RAS cycle begins, with the write enable high. -/
def Refreshes (before after : Pins α ι) : Prop :=
  before.rasN = true ∧ after.rasN = false ∧
    (∀ lane, before.casN lane = false) ∧ (∀ lane, after.casN lane = false) ∧ after.wrN = true

instance [Fintype ι] (before after : Pins α ι) : Decidable (before.Refreshes after) :=
  inferInstanceAs (Decidable (_ ∧ _))

end Pins

theorem exists_of_count {p : Nat → Prop} [DecidablePred p] {n width target : Nat}
    (lower : Nat.count p n ≤ target) (upper : target < Nat.count p (n + width)) :
    ∃ k, n ≤ k ∧ k < n + width ∧ p k ∧ Nat.count p k = target := by
  induction width with
  | zero => exact absurd upper (Nat.not_lt.mpr lower)
  | succ width ih =>
      by_cases earlier : target < Nat.count p (n + width)
      · obtain ⟨k, after, before, holds, count⟩ := ih earlier
        exact ⟨k, after, by omega, holds, count⟩
      · have step := Nat.count_succ p (n + width)
        rw [← Nat.add_assoc, step] at upper
        split at upper
        · rename_i holds
          exact ⟨n + width, by omega, by omega, holds, by omega⟩
        · omega

/-- A counter comes to every one of its values within a turn. -/
theorem exists_mod_eq {rows row : Nat} (within : row < rows) (start : Nat) :
    ∃ target, start ≤ target ∧ target < start + rows ∧ target % rows = row := by
  have whole := Nat.div_add_mod start rows
  have part : start % rows < rows := Nat.mod_lt _ (by omega)
  by_cases ahead : start % rows ≤ row
  · refine ⟨rows * (start / rows) + row, by omega, by omega, ?_⟩
    rw [Nat.mul_add_mod, Nat.mod_eq_of_lt within]
  · refine ⟨rows * (start / rows + 1) + row, ?_, ?_, ?_⟩
    · rw [Nat.mul_add]
      omega
    · rw [Nat.mul_add]
      omega
    · rw [Nat.mul_add_mod, Nat.mod_eq_of_lt within]

section Counter

variable [Fintype ι] (rows first : Nat) (pins : Nat → Pins α ι)

/-- The refreshes of a bank before clock `n`. -/
def refreshes (n : Nat) : Nat := Nat.count (fun k => (pins k).Refreshes (pins (k + 1))) n

/-- The row counter of a bank of so many rows, which starts anywhere. -/
def rowCounter (n : Nat) : Nat := (first + refreshes pins n) % rows

def RowRefreshed (row k : Nat) : Prop :=
  (pins k).Refreshes (pins (k + 1)) ∧ rowCounter rows first pins k = row

/-- From clock `since` on every row is refreshed in every window of so many clocks. -/
def Retains (window since : Nat) : Prop :=
  ∀ n, since ≤ n → ∀ row < rows, ∃ k, n ≤ k ∧ k < n + window ∧ RowRefreshed rows first pins row k

variable {rows first pins} {window since : Nat}

theorem retains_of_refreshes
    (enough : ∀ n, since ≤ n → refreshes pins n + rows ≤ refreshes pins (n + window)) :
    Retains rows first pins window since := by
  intro n after row within
  obtain ⟨target, lower, upper, residue⟩ := exists_mod_eq within (first + refreshes pins n)
  have counted := enough n after
  obtain ⟨k, behind, before, refreshed, count⟩ :=
    @exists_of_count (fun k => (pins k).Refreshes (pins (k + 1))) _ n window (target - first)
      (show refreshes pins n ≤ target - first by omega)
      (show target - first < refreshes pins (n + window) by omega)
  have exact : first + refreshes pins k = target := by
    have same : refreshes pins k = target - first := count
    omega
  exact ⟨k, behind, before, refreshed, by rw [rowCounter, exact, residue]⟩

end Counter

section Decay

variable {ρ γ : Type}

/-- Nothing has refreshed the row in the last `window` clocks. -/
def Stale (Refreshed : ρ → Nat → Prop) (window : Nat) (row : ρ) (n : Nat) : Prop :=
  window ≤ n ∧ ∀ k, n ≤ k + window → k < n → ¬ Refreshed row k

/-- A memory of rows that does as it is told, but may hold anything in a stale row. -/
def Leaky (Refreshed : ρ → Nat → Prop) (window : Nat) (update : Nat → (ρ → γ) → ρ → γ)
    (content : Nat → ρ → γ) : Prop :=
  ∀ n row, ¬ Stale Refreshed window row n → content (n + 1) row = update n (content n) row

variable {Refreshed : ρ → Nat → Prop} {window : Nat} {update : Nat → (ρ → γ) → ρ → γ}
  {content : Nat → ρ → γ}

/-- A memory that is refreshed in every window does not leak. -/
theorem Leaky.exact (leaky : Leaky Refreshed window update content)
    (retains : ∀ n row, ∃ k, n ≤ k ∧ k < n + window ∧ Refreshed row k) (n : Nat) :
    content (n + 1) = update n (content n) := by
  funext row
  refine leaky n row ?_
  rintro ⟨old, unrefreshed⟩
  obtain ⟨k, after, before, refreshed⟩ := retains (n - window) row
  exact unrefreshed k (by omega) (by omega) refreshed

end Decay

end Dram
