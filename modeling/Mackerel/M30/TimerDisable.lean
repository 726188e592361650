import Mackerel.Clocked.Latches
import Mackerel.M30.Timer

namespace Mackerel.M30.SystemController.Timer

open Clocked

section Property

variable (event : Nat → Event)

/-- The start of an interval: a rollover, or the clock that enables the disabled timer. -/
def Starts (b : Nat) : Prop :=
  (run event b).Rollover ∨ ¬(run event b).timerEnable = true ∧ (run event (b + 1)).timerEnable = true

/-- The timer stays enabled after clock `b` up to clock `n`. -/
def Enabled (b n : Nat) : Prop := ∀ k, b < k → k ≤ n → (run event k).timerEnable = true

/-- No write enables the timer between clocks `n` and `m`. -/
def Unenabled (n m : Nat) : Prop := ∀ k, n < k → k < m → (event k).enables = false

/-- The last clock of a write to the disable register. -/
def DisableEnds (n : Nat) : Prop := (event n).disables = true ∧ (event (n + 1)).disables = false

/-- From clock `n` on the timer is silent until it is enabled, and then it counts from zero. -/
structure Silenced (n : Nat) : Prop where
  irq : ∀ m, n < m → Unenabled event n m → (run event m).irqTimer = false
  count : ∀ m, n < m → Unenabled event n m → (run event (m + 1)).timerCnt = 0

/-- The timer runs between the writes of its two registers, and ticks as it runs. -/
structure Ticks : Prop where
  enabled : ∀ n, (run event n).timerEnable = true ↔ ∃ w < n, (event w).enables = true ∧
    ∀ k, w < k → k < n → (event k).disables = false ∧ (event k).resets = false
  next : ∀ b n, Starts event b → b < n → Enabled event b n →
    (First (fun k => (run event k).Rollover) (b + 1) n ↔ n = b + TIMER_DIVIDER)
  started : ∀ n, (run event n).Rollover →
    ∃ b, b + TIMER_DIVIDER = n ∧ Starts event b ∧ Enabled event b n
  irq : ∀ n, (run event n).irqTimer = true ↔ ∃ r < n, (run event r).Rollover ∧
    (∀ k, r ≤ k → k < n → (event k).acknowledges = false ∧ (event k).resets = false) ∧
    ∀ k, r < k → k < n → (event k).disables = false

/-- The timer ticks, and a write to the disable register is authoritative. -/
structure Obeys : Prop where
  ticks : Ticks event
  disable : ∀ n, DisableEnds event n → Silenced event n

end Property

theorem Event.of_disables {event : Event} (disables : event.disables = true) :
    event.acknowledges = false ∧ event.enables = false ∧ event.resets = false := by
  cases event with
  | reset => cases disables
  | clock boot bus =>
      exact ⟨Bus.iackLvl6_of_timerDisWrite disables, Bus.timerEnWrite_of_timerDisWrite disables, rfl⟩

section Runs

variable {event : Nat → Event} {b n m : Nat}

theorem run_succ (n : Nat) : run event (n + 1) = (run event n).step (event n) := rfl

theorem timerCnt_of_starts (starts : Starts event b) : (run event (b + 1)).timerCnt = 0 := by
  rw [run_succ, State.timerCnt_step, if_neg]
  rintro ⟨_, enabled, none⟩
  rcases starts with rollover | ⟨disabled, _⟩
  · exact none rollover
  · exact disabled enabled

theorem not_reset (enabled : (run event (n + 1)).timerEnable = true) : (event n).resets = false := by
  rw [run_succ] at enabled
  cases here : event n with
  | reset =>
      rw [here] at enabled
      cases enabled
  | clock boot bus => rfl

/-- An interval counts its clocks. -/
theorem count_since (starts : Starts event b) (after : b < n) (enabled : Enabled event b n)
    (none : ∀ k, b < k → k < n → ¬(run event k).Rollover) :
    (run event n).timerCnt.toNat + 1 = n - b := by
  have zero : (run event (b + 1)).timerCnt.toNat = 0 := by rw [timerCnt_of_starts starts]; rfl
  have counts (k : Nat) (lower : b < k) (upper : k < n) :
      (run event (k + 1)).timerCnt.toNat = (run event k).timerCnt.toNat + 1 :=
    (State.toNat_timerCnt_step (timerCnt_lt event k) (not_reset (enabled _ (by omega) upper))
      (enabled k lower (by omega)) (none k lower upper)).1
  exact counted_since (fun k => (run event k).timerCnt.toNat) zero after counts

theorem first_rollover_iff (starts : Starts event b) (after : b < n) (enabled : Enabled event b n) :
    First (fun k => (run event k).Rollover) (b + 1) n ↔ n = b + TIMER_DIVIDER := by
  have divider : TIMER_DIVIDER = 240000 := rfl
  have agree : First (fun k => (run event k).Rollover) (b + 1) n ↔
      First (fun k => k - b = TIMER_DIVIDER) (b + 1) n := by
    refine first_congr after fun k lower upper none => ?_
    have still : Enabled event b k := fun j first last => enabled j first (by omega)
    have count := count_since starts lower still none
    have here := enabled k lower upper
    simp only [State.Rollover, here, true_and]
    omega
  rw [agree]
  constructor
  · rintro ⟨elapsed, -⟩
    omega
  · rintro rfl
    exact ⟨by omega, fun k lower upper => by omega⟩

theorem rollover_started (rollover : (run event n).Rollover) :
    ∃ b, b + TIMER_DIVIDER = n ∧ Starts event b ∧ Enabled event b n := by
  have initial : ¬(run event 0).timerEnable = true := Bool.false_ne_true
  obtain ⟨b, before, starts, enabled, none⟩ := exists_since (P := fun k => (run event k).timerEnable = true)
    (Q := fun k => (run event k).Rollover) initial rollover.1
  exact ⟨b, ((first_rollover_iff starts before enabled).mp ⟨rollover, none⟩).symm, starts, enabled⟩

theorem irqTimer_iff : (run event n).irqTimer = true ↔ ∃ r < n, (run event r).Rollover ∧
    (∀ k, r ≤ k → k < n → (event k).acknowledges = false ∧ (event k).resets = false) ∧
    ∀ k, r < k → k < n → (event k).disables = false := by
  have step (k : Nat) : (run event (k + 1)).irqTimer =
      (!((event k).acknowledges || (event k).resets) &&
        (decide (run event k).Rollover || !(event k).disables && (run event k).irqTimer)) := by
    rw [run_succ, State.irqTimer_step, Bool.not_or]
  have latched := latched_iff (n := n) (fun k => (run event k).irqTimer)
    (fun k => decide (run event k).Rollover)
    (fun k => (event k).acknowledges || (event k).resets) (fun k => (event k).disables) rfl step
  simpa only [decide_eq_true_eq, Bool.or_eq_false_iff] using latched

theorem timerEnable_iff : (run event n).timerEnable = true ↔ ∃ w < n, (event w).enables = true ∧
    ∀ k, w < k → k < n → (event k).disables = false ∧ (event k).resets = false := by
  have step (k : Nat) : (run event (k + 1)).timerEnable =
      (!false && ((event k).enables || !((event k).disables || (event k).resets) &&
        (run event k).timerEnable)) := by
    rw [run_succ, State.timerEnable_step, Bool.not_or, Bool.not_false, Bool.true_and]
  have latched := latched_iff (n := n) (fun k => (run event k).timerEnable) (fun k => (event k).enables)
    (fun _ => false) (fun k => (event k).disables || (event k).resets) rfl step
  simpa only [Bool.or_eq_false_iff, implies_true, true_and] using latched

theorem disabled_step (disables : (event n).disables = true) : (run event (n + 1)).timerEnable = false := by
  obtain ⟨-, enables, -⟩ := Event.of_disables disables
  rw [run_succ, State.timerEnable_step, disables, enables]
  rfl

/-- A disabled timer stays disabled, and raises no interrupt. -/
theorem stays_disabled (disabled : (run event n).timerEnable = false)
    (quiet : (event n).enables = false) :
    (run event (n + 1)).timerEnable = false ∧
      ((run event n).irqTimer = false → (run event (n + 1)).irqTimer = false) := by
  have none : ¬(run event n).Rollover := fun rollover => ne_true_of_eq_false disabled rollover.1
  rw [run_succ, State.timerEnable_step, State.irqTimer_step, quiet, disabled, decide_eq_false none]
  refine ⟨by simp, fun low => ?_⟩
  simp [low]

theorem unenabled_disabled (disables : (event n).disables = true) (later : n < m)
    (quiet : Unenabled event n m) : (run event m).timerEnable = false := by
  induction m, later using Nat.le_induction with
  | base => exact disabled_step disables
  | succ m later ih =>
      have before := ih fun k lower upper => quiet k lower (by omega)
      exact (stays_disabled before (quiet m later (Nat.lt_succ_self m))).1

theorem unenabled_low (disables : (event n).disables = true) (none : ¬(run event n).Rollover)
    (later : n < m) (quiet : Unenabled event n m) : (run event m).irqTimer = false := by
  induction m, later using Nat.le_induction with
  | base =>
      rw [Nat.succ_eq_add_one, run_succ, State.irqTimer_step, disables, decide_eq_false none]
      simp
  | succ m later ih =>
      have sooner : Unenabled event n m := fun k lower upper => quiet k lower (by omega)
      have disabled := unenabled_disabled disables later sooner
      exact (stays_disabled disabled (quiet m later (Nat.lt_succ_self m))).2 (ih sooner)

/-- Only a rollover gets past a write to the disable register. -/
theorem silenced_iff (disables : (event n).disables = true) :
    Silenced event n ↔ ¬(run event n).Rollover := by
  constructor
  · intro silenced rollover
    obtain ⟨acknowledges, -, resets⟩ := Event.of_disables disables
    have raised : (run event (n + 1)).irqTimer = true := by
      rw [run_succ, State.irqTimer_step, acknowledges, resets, decide_eq_true rollover]
      rfl
    have low := silenced.irq (n + 1) (Nat.lt_succ_self n) fun k lower upper => by omega
    exact ne_true_of_eq_false low raised
  · intro none
    refine ⟨fun m later quiet => unenabled_low disables none later quiet, fun m later quiet => ?_⟩
    have disabled := unenabled_disabled disables later quiet
    rw [run_succ, State.timerCnt_step, if_neg]
    exact fun counts => ne_true_of_eq_false disabled counts.2.1

/-- A write that takes two clocks is silent from its second one on. -/
theorem not_rollover_of_disables (first : (event n).disables = true) : ¬(run event (n + 1)).Rollover :=
  fun rollover => ne_true_of_eq_false (disabled_step first) rollover.1

end Runs

theorem ticks (event : Nat → Event) : Ticks event where
  enabled _ := timerEnable_iff
  next _ _ starts after enabled := first_rollover_iff starts after enabled
  started _ rollover := rollover_started rollover
  irq _ := irqTimer_iff

/-- A run obeys just when no write to the disable register ends in the clock of a rollover. -/
theorem timer_obeys_iff (event : Nat → Event) :
    Obeys event ↔ ∀ n, DisableEnds event n → ¬(run event n).Rollover := by
  constructor
  · intro obeys n ends
    exact (silenced_iff ends.1).mp (obeys.disable n ends)
  · intro none
    exact ⟨ticks event, fun n ends => (silenced_iff ends.1).mpr (none n ends)⟩

section Collision

/-- A write of the register at `0xF003000x`, with `BOOT` high. -/
def registerWrite (al : BitVec 4) : Event :=
  .clock true { asN := false, dsN := false, rw := false, fc := 5, ah := 0b1111, am := 0b0011, al,
                dsack0DramN := true, dsack1DramN := true, dsack0FpuN := true, dsack1FpuN := true }

def idleClock : Event :=
  .clock true { asN := true, dsN := true, rw := true, fc := 5, ah := 0, am := 0, al := 0,
                dsack0DramN := true, dsack1DramN := true, dsack0FpuN := true, dsack1FpuN := true }

/-- The timer is enabled at clock 0 and disabled one interval later. -/
def collision (n : Nat) : Event :=
  if n = 0 then registerWrite 0 else if n = TIMER_DIVIDER then registerWrite 1 else idleClock

theorem collision_idle {n : Nat} (later : 0 < n) (other : n ≠ TIMER_DIVIDER) :
    collision n = idleClock := by
  rw [collision, if_neg (Nat.ne_of_gt later), if_neg other]

theorem collision_enabled {n : Nat} (first : 0 < n) (last : n ≤ TIMER_DIVIDER) :
    (run collision n).timerEnable = true := by
  induction n, first using Nat.le_induction with
  | base => rfl
  | succ n first ih =>
      rw [run_succ, State.timerEnable_step, collision_idle first (by omega), ih (by omega)]
      rfl

/-- The write leaves the interrupt pending, with the timer off, for ever. -/
theorem collision_not_obeyed :
    DisableEnds collision TIMER_DIVIDER ∧ ¬Obeys collision ∧
      ∀ n, TIMER_DIVIDER < n →
        (run collision n).timerEnable = false ∧ (run collision n).irqTimer = true := by
  have starts : Starts collision 0 := .inr ⟨Bool.false_ne_true, rfl⟩
  have rollover : (run collision TIMER_DIVIDER).Rollover :=
    ((first_rollover_iff starts (by decide) fun k => collision_enabled).mpr (Nat.zero_add _).symm).1
  have disables : (collision TIMER_DIVIDER).disables = true := by rfl
  have next : collision (TIMER_DIVIDER + 1) = idleClock := collision_idle (by decide) (by decide)
  have ends : DisableEnds collision TIMER_DIVIDER := ⟨disables, next ▸ rfl⟩
  refine ⟨ends, fun obeys => (timer_obeys_iff collision).mp obeys _ ends rollover, fun n later => ?_⟩
  have idle (k : Nat) (lower : TIMER_DIVIDER < k) : collision k = idleClock :=
    collision_idle (by omega) (by omega)
  constructor
  · refine unenabled_disabled disables later fun k lower upper => ?_
    rw [idle k lower]
    rfl
  · refine irqTimer_iff.mpr ⟨TIMER_DIVIDER, later, rollover, fun k lower upper => ?_, fun k lower upper => ?_⟩
    · rcases Nat.eq_or_lt_of_le lower with rfl | lower
      · exact ⟨rfl, rfl⟩
      · rw [idle k lower]
        exact ⟨rfl, rfl⟩
    · rw [idle k lower]
      rfl

end Collision

end Mackerel.M30.SystemController.Timer
