import Mackerel.Clocked.Driven
import Mackerel.Clocked.Latches
import Mackerel.Timer.Timer
import Mathlib.Algebra.Group.Nat.Defs

namespace Mackerel.Timer

open Clocked

variable {clkHz : Nat}

def run (clkHz : Nat) (bus : Nat → Bus) : Nat → State clkHz :=
  driven (fun n s => s.posedge (bus n)) .reset

def Bus.clears (bus : Bus) : Bool := bus.wrAck || bus.wrCtrl && !bus.enable

theorem div_le (clkHz : Nat) {rate : Nat} (slow : 10 ≤ rate) :
    div clkHz rate ≤ div clkHz 10 ∧ div clkHz rate < 2 ^ cw clkHz := by
  have fewer : clkHz / rate ≤ clkHz / 10 := Nat.div_le_div_left slow (by decide)
  have fits : div clkHz 10 + 1 ≤ 2 ^ cw clkHz := Nat.le_pow_clog (by decide) _
  simp only [div] at fits ⊢
  omega

def rate (freq : BitVec 2) : Nat :=
  match freq with
  | 0 => 10
  | 1 => 25
  | 2 => 50
  | _ => 100

theorem rate_ge (freq : BitVec 2) : 10 ≤ rate freq := by
  unfold rate
  split <;> decide

namespace State

def Rollover (s : State clkHz) : Prop := s.enable = true ∧ s.reload ≤ s.count

instance (s : State clkHz) : Decidable s.Rollover := inferInstanceAs (Decidable (_ ∧ _))

/-- No reload value is cut off by the width of the counter. -/
theorem toNat_reload (s : State clkHz) : s.reload.toNat = div clkHz (rate s.freq) := by
  have fits {rate : Nat} (slow : 10 ≤ rate) := Nat.mod_eq_of_lt (div_le clkHz slow).2
  unfold reload
  generalize s.freq = freq
  split <;> simp [rate, fits]

theorem toNat_reload_le (s : State clkHz) : s.reload.toNat ≤ div clkHz 10 := by
  rw [toNat_reload]
  exact (div_le clkHz (rate_ge s.freq)).1

theorem divide_eq (s : State clkHz) : s.divide =
    { s with
      count := if s.enable = true ∧ ¬ s.Rollover then s.count + 1 else 0
      pending := decide s.Rollover || s.pending } := by
  cases enabled : s.enable <;> by_cases full : s.reload ≤ s.count <;>
    simp [divide, Rollover, enabled, full]

theorem enable_posedge (s : State clkHz) (bus : Bus) :
    (s.posedge bus).enable = if bus.wrCtrl then bus.enable else s.enable := by
  cases ack : bus.wrAck <;> cases ctrl : bus.wrCtrl <;> cases enable : bus.enable <;>
    simp [posedge, divide_eq, ack, ctrl, enable]

theorem freq_posedge (s : State clkHz) (bus : Bus) :
    (s.posedge bus).freq = if bus.wrCtrl then bus.freq else s.freq := by
  cases ack : bus.wrAck <;> cases ctrl : bus.wrCtrl <;> cases enable : bus.enable <;>
    simp [posedge, divide_eq, ack, ctrl, enable]

theorem pending_posedge (s : State clkHz) (bus : Bus) :
    (s.posedge bus).pending = (!bus.clears && (decide s.Rollover || s.pending)) := by
  cases ack : bus.wrAck <;> cases ctrl : bus.wrCtrl <;> cases enable : bus.enable <;>
    simp [posedge, divide_eq, Bus.clears, ack, ctrl, enable]

theorem count_posedge (s : State clkHz) (bus : Bus) : (s.posedge bus).count =
    if s.enable = true ∧ ¬ s.Rollover ∧ ¬ (bus.wrCtrl = true ∧ bus.enable = false) then s.count + 1
    else 0 := by
  cases ack : bus.wrAck <;> cases ctrl : bus.wrCtrl <;> cases enable : bus.enable <;>
    simp [posedge, divide_eq, ack, ctrl, enable]

theorem toNat_count_succ {s : State clkHz} (enabled : s.enable = true) (none : ¬ s.Rollover) :
    s.count.toNat < s.reload.toNat ∧ (s.count + 1).toNat = s.count.toNat + 1 := by
  have below : s.count.toNat < s.reload.toNat := by
    simpa [Rollover, enabled, BitVec.le_def] using none
  have fits : s.count.toNat + 1 < 2 ^ cw clkHz := Nat.lt_of_le_of_lt below s.reload.isLt
  exact ⟨below, by simpa [BitVec.toNat_add] using Nat.mod_eq_of_lt fits⟩

end State

section Runs

variable (bus : Nat → Bus)

theorem run_succ (n : Nat) : run clkHz bus (n + 1) = (run clkHz bus n).posedge (bus n) := rfl

theorem count_le (n : Nat) : (run clkHz bus n).count.toNat ≤ div clkHz 10 := by
  induction n with
  | zero => exact Nat.zero_le _
  | succ n ih =>
      rw [run_succ, State.count_posedge]
      split
      · rename_i counts
        obtain ⟨below, next⟩ := State.toNat_count_succ counts.1 counts.2.1
        have reload := (run clkHz bus n).toNat_reload_le
        omega
      · exact Nat.zero_le _

/-- The start of an interval: a rollover, or the clock that enables the disabled timer. -/
def Starts (run : Nat → State clkHz) (b : Nat) : Prop :=
  (run b).Rollover ∨ ((run b).enable = false ∧ (run (b + 1)).enable = true)

/-- The timer stays enabled after clock `b` up to clock `n`. -/
def Enabled (run : Nat → State clkHz) (b n : Nat) : Prop :=
  ∀ k, b < k → k ≤ n → (run k).enable = true

theorem Enabled.earlier {run : Nat → State clkHz} {b k n : Nat} (enabled : Enabled run b n)
    (before : k ≤ n) : Enabled run b k :=
  fun j lower upper => enabled j lower (by omega)

variable {bus} {b n : Nat}

theorem not_disabled (enabled : (run clkHz bus (n + 1)).enable = true) :
    ¬ ((bus n).wrCtrl = true ∧ (bus n).enable = false) := by
  intro ⟨ctrl, off⟩
  rw [run_succ, State.enable_posedge, if_pos ctrl, off] at enabled
  exact absurd enabled (by decide)

theorem count_of_starts (starts : Starts (run clkHz bus) b) :
    (run clkHz bus (b + 1)).count = 0 := by
  rw [run_succ, State.count_posedge, if_neg]
  rintro ⟨enabled, none, _⟩
  rcases starts with rollover | ⟨disabled, _⟩
  · exact none rollover
  · exact absurd disabled (ne_false_of_eq_true enabled)

theorem count_since (starts : Starts (run clkHz bus) b) (after : b < n)
    (enabled : Enabled (run clkHz bus) b n)
    (none : ∀ k, b < k → k < n → ¬ (run clkHz bus k).Rollover) :
    (run clkHz bus n).count.toNat + 1 = n - b := by
  have zero : (run clkHz bus (b + 1)).count.toNat = 0 := by simp [count_of_starts starts]
  refine counted_since (fun k => (run clkHz bus k).count.toNat) zero after fun k lower upper => ?_
  have still := enabled k lower (by omega)
  have quiet := none k lower upper
  have undisturbed := not_disabled (enabled (k + 1) (by omega) upper)
  change (run clkHz bus (k + 1)).count.toNat = (run clkHz bus k).count.toNat + 1
  rw [run_succ, State.count_posedge, if_pos ⟨still, quiet, undisturbed⟩,
    (State.toNat_count_succ still quiet).2]

/-- At least `reload + 1` clocks have passed since clock `b`. -/
def Elapsed (run : Nat → State clkHz) (b n : Nat) : Prop := (run n).reload.toNat + 1 ≤ n - b

theorem rollover_iff_elapsed (starts : Starts (run clkHz bus) b) (after : b < n)
    (enabled : Enabled (run clkHz bus) b n)
    (none : ∀ k, b < k → k < n → ¬ (run clkHz bus k).Rollover) :
    (run clkHz bus n).Rollover ↔ Elapsed (run clkHz bus) b n := by
  have count := count_since starts after enabled none
  have still := enabled n after (Nat.le_refl n)
  simp only [State.Rollover, still, true_and, BitVec.le_def, Elapsed]
  omega

theorem first_rollover_iff (starts : Starts (run clkHz bus) b) (after : b < n)
    (enabled : Enabled (run clkHz bus) b n) :
    First (fun k => (run clkHz bus k).Rollover) (b + 1) n ↔ First (Elapsed (run clkHz bus) b) (b + 1) n :=
  first_congr after fun _ lower upper none =>
    rollover_iff_elapsed starts lower (enabled.earlier upper) none

theorem exists_start (enabled : (run clkHz bus n).enable = true) :
    ∃ b < n, Starts (run clkHz bus) b ∧ Enabled (run clkHz bus) b n ∧
      ∀ k, b < k → k < n → ¬ (run clkHz bus k).Rollover := by
  have initial : ¬(run clkHz bus 0).enable = true := Bool.false_ne_true
  obtain ⟨b, before, starts, still, none⟩ := exists_since (P := fun k => (run clkHz bus k).enable = true)
    (Q := fun k => (run clkHz bus k).Rollover) initial enabled
  refine ⟨b, before, starts.imp_right fun off => ?_, still, none⟩
  exact ⟨Bool.eq_false_iff.mpr off.1, off.2⟩

theorem pending_iff : (run clkHz bus n).pending = true ↔
    ∃ r < n, (run clkHz bus r).Rollover ∧ ∀ k, r ≤ k → k < n → (bus k).clears = false := by
  have step (k : Nat) : (run clkHz bus (k + 1)).pending = (!(bus k).clears &&
      (decide (run clkHz bus k).Rollover || !false && (run clkHz bus k).pending)) := by
    rw [run_succ, State.pending_posedge, Bool.not_false, Bool.true_and]
  have latched := latched_iff (n := n) (fun k => (run clkHz bus k).pending)
    (fun k => decide (run clkHz bus k).Rollover) (fun k => (bus k).clears) (fun _ => false) rfl step
  simpa only [decide_eq_true_eq, implies_true, and_true] using latched

theorem written (last : Last (fun k => (bus k).wrCtrl = true) b n) :
    (run clkHz bus n).enable = (bus b).enable ∧ (run clkHz bus n).freq = (bus b).freq := by
  constructor
  · exact held_of_last (fun k => (run clkHz bus k).enable) (fun k => (bus k).enable)
      (fun k => State.enable_posedge _ _) last
  · exact held_of_last (fun k => (run clkHz bus k).freq) (fun k => (bus k).freq)
      (fun k => State.freq_posedge _ _) last

theorem unwritten (none : ∀ k < n, (bus k).wrCtrl = false) :
    (run clkHz bus n).enable = false ∧ (run clkHz bus n).freq = 3 := by
  constructor
  · exact held_of_none (fun k => (run clkHz bus k).enable) (fun k => (bus k).enable)
      (fun k => State.enable_posedge _ _) none
  · exact held_of_none (fun k => (run clkHz bus k).freq) (fun k => (bus k).freq)
      (fun k => State.freq_posedge _ _) none

theorem dataOut_ctrl (last : Last (fun k => (bus k).wrCtrl = true) b n) :
    (run clkHz bus n).dataOut REG_CTRL = (bus b).dataIn &&& 0x31 := by
  obtain ⟨enable, freq⟩ := @written clkHz bus b n last
  simp only [State.dataOut, enable, freq, if_pos, Bus.enable, Bus.freq]
  generalize (bus b).dataIn = written
  revert written
  decide

theorem dataOut_status (s : State clkHz) : s.dataOut REG_STATUS = if s.irq then 1 else 0 := by
  have other : REG_STATUS ≠ REG_CTRL := by decide
  cases pending : s.pending <;> simp [State.dataOut, State.irq, other, pending]

/-- The tick of a timer clocked with `bus`. The last CTRL write has set `ENABLE` and `FREQ`. -/
structure ExactTick (run : Nat → State clkHz) (bus : Nat → Bus) : Prop where
  written : ∀ w n, Last (fun k => (bus k).wrCtrl = true) w n →
    (run n).enable = (bus w).enable ∧ (run n).freq = (bus w).freq ∧
      (run n).dataOut REG_CTRL = (bus w).dataIn &&& 0x31
  unwritten : ∀ n, (∀ k < n, (bus k).wrCtrl = false) → (run n).enable = false ∧ (run n).freq = 3
  count : ∀ n, (run n).count.toNat ≤ clkHz / 10 - 1
  reload : ∀ n, (run n).reload.toNat = clkHz / rate (run n).freq - 1
  next : ∀ b n, Starts run b → b < n → Enabled run b n →
    (First (fun k => (run k).Rollover) (b + 1) n ↔ First (Elapsed run b) (b + 1) n)
  started : ∀ n, (run n).Rollover →
    ∃ b < n, Starts run b ∧ Enabled run b n ∧ First (fun k => (run k).Rollover) (b + 1) n
  irq : ∀ n, (run n).irq = true ↔
    ∃ r < n, (run r).Rollover ∧ ∀ k, r ≤ k → k < n → (bus k).clears = false
  status : ∀ n, (run n).dataOut REG_STATUS = if (run n).irq then 1 else 0

theorem tick_exact (clkHz : Nat) (bus : Nat → Bus) : ExactTick (run clkHz bus) bus where
  written _ _ last :=
    have ⟨enable, freq⟩ := written last
    ⟨enable, freq, dataOut_ctrl last⟩
  unwritten _ := unwritten
  count := count_le bus
  reload n := (run clkHz bus n).toNat_reload
  next _ _ := first_rollover_iff
  started n rollover := by
    obtain ⟨b, before, starts, enabled, none⟩ := exists_start rollover.1
    exact ⟨b, before, starts, enabled, rollover, none⟩
  irq _ := pending_iff
  status n := dataOut_status _

end Runs

end Mackerel.Timer
