import Mackerel.Dram.RefreshController
import Mackerel.Dram.Retention

namespace Mackerel.Refresh

open Clocked Dram

variable {α ι : Type} [Fintype ι]

/-- The pins of a bank among the strobes of a controller. -/
structure Drives (v : View) (pins : Pins α ι) : Prop where
  rasHigh : AllHigh v.ras → pins.rasN = true
  rasLow : AllLow v.ras → pins.rasN = false
  casLow : AllLow v.cas → ∀ lane, pins.casN lane = false
  wrHigh : AllHigh v.wr → pins.wrN = true

variable {view : Nat → View} {pins : Nat → Pins α ι} {n m : Nat}

omit [Fintype ι] in
theorem Sequence.refreshes_bank (sequence : Sequence view m) (drives : ∀ n, Drives (view n) (pins n)) :
    (pins (m + 1)).Refreshes (pins (m + 2)) := by
  obtain ⟨rasHigh, casLow, _⟩ := sequence.casFall
  obtain ⟨rasLow, stillLow, wrHigh⟩ := sequence.rasFall
  exact ⟨(drives _).rasHigh rasHigh, (drives _).rasLow rasLow, (drives _).casLow casLow,
    (drives _).casLow stillLow, (drives _).wrHigh wrHigh⟩

theorem Answered.counted (answered : Answered view n) (drives : ∀ n, Drives (view n) (pins n)) :
    refreshes pins n + 1 ≤ refreshes pins (n + 782) := by
  obtain ⟨m, after, soon, sequence, _⟩ := answered.sequence
  have here : refreshes pins (m + 2) = refreshes pins (m + 1) + 1 := by
    rw [refreshes, Nat.count_succ, if_pos (sequence.refreshes_bank drives), refreshes]
  have earlier : refreshes pins n ≤ refreshes pins (m + 1) := Nat.count_monotone _ (by omega)
  have later : refreshes pins (m + 2) ≤ refreshes pins (n + 782) := Nat.count_monotone _ (by omega)
  omega

/-- One refresh for each period. -/
theorem Complete.counted (complete : Complete view) (drives : ∀ n, Drives (view n) (pins n))
    (expires : (view n).Expires) (periods : Nat) : (view (n + 782 * periods)).Expires ∧
      refreshes pins n + periods ≤ refreshes pins (n + 782 * periods) := by
  induction periods with
  | zero => exact ⟨expires, Nat.le_refl _⟩
  | succ periods ih =>
      have answered := complete.answered _ ih.1
      have more := answered.counted drives
      rw [show n + 782 * (periods + 1) = n + 782 * periods + 782 by omega]
      exact ⟨answered.next.1, by omega⟩

/-- The clocks in which every row is refreshed: one period for each row, and one to begin in. -/
def retention (rows : Nat) : Nat := 782 * (rows + 1)

theorem Complete.retains (complete : Complete view) (drives : ∀ n, Drives (view n) (pins n))
    {since : Nat} (begins : (view (since + 781)).Expires) (rows first : Nat) :
    Retains rows first pins (retention rows) since := by
  refine retains_of_refreshes fun n after => ?_
  -- the first expiry from `n` on
  have next := (complete.counted drives begins ((n - since) / 782)).1
  have whole := Nat.div_add_mod (n - since) 782
  have part : (n - since) % 782 < 782 := Nat.mod_lt _ (by omega)
  have counted := (complete.counted drives next rows).2
  have lower : refreshes pins n ≤ refreshes pins (since + 781 + 782 * ((n - since) / 782)) :=
    Nat.count_monotone _ (by omega)
  have upper : refreshes pins (since + 781 + 782 * ((n - since) / 782) + 782 * rows) ≤
      refreshes pins (n + retention rows) :=
    Nat.count_monotone _ (by rw [retention]; omega)
  omega

namespace Controller

variable {σ β : Type} {c : Controller σ β} {s : σ} (input : Nat → β)

/-- The first expiry after a release. -/
theorem expires_of_released (released : Released (c.view s)) :
    (c.views s (fun _ => true) input 781).Expires := by
  have counts (k : Nat) (within : k ≤ 781) :
      (c.views s (fun _ => true) input k).count = k := by
    induction k with
    | zero => exact released.count
    | succ k ih =>
        have before := ih (by omega)
        have next := ((c.execution s input).step k).count (by simp only [execution, before]; omega)
        simpa [execution, before, show k ≠ 781 by omega] using next
  exact (View.expires_iff _).mpr (counts 781 (Nat.le_refl _))

variable {input} (row : σ → Pins α ι) (drives : ∀ s, Drives (c.view s) (row s)) (rows first : Nat)

include drives

theorem retains_of_released (released : Released (c.view s)) (powerUp : PowerUp (c.view s))
    (bounded : Bounded (c.views s (fun _ => true) input)) :
    Retains rows first (fun n => row (c.run s (fun _ => true) input n)) (retention rows) 0 := by
  have begins := expires_of_released input released
  rw [← Nat.zero_add 781] at begins
  exact (complete_of_released released powerUp bounded).retains (fun _ => drives _) begins rows first

end Controller

end Mackerel.Refresh
