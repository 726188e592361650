import Mackerel.Clocked.Driven
import Mackerel.Clocked.Timeouts
import Mathlib.Algebra.Group.Nat.Defs
import Mathlib.Data.Nat.Log
import Mathlib.Tactic.Common

namespace Mackerel.F

namespace BusWatchdog

open Clocked

/-- The width of the counter. -/
abbrev CW (TIMEOUT : Nat) : Nat := Nat.clog 2 (TIMEOUT + 1)

/-- The inputs as one clock samples them, as levels of the pins. -/
structure Inputs where
  rstN : Bool
  asN : Bool
  dtackN : Bool
  vpaN : Bool

namespace Inputs

def done (inputs : Inputs) : Bool := inputs.asN || !inputs.dtackN || !inputs.vpaN

/-- A clock out of reset that sees an open cycle, and neither DTACK nor VPA. -/
structure Unanswered (inputs : Inputs) : Prop where
  running : inputs.rstN = true
  asN : inputs.asN = false
  dtackN : inputs.dtackN = true
  vpaN : inputs.vpaN = true

theorem unanswered_iff {inputs : Inputs} :
    inputs.Unanswered ↔ inputs.rstN = true ∧ inputs.done = false := by
  constructor
  · intro ⟨running, asN, dtackN, vpaN⟩
    exact ⟨running, by simp [done, asN, dtackN, vpaN]⟩
  · intro ⟨running, open_⟩
    simp only [done, Bool.or_eq_false_iff, Bool.not_eq_false'] at open_
    exact ⟨running, open_.1.1, open_.1.2, open_.2⟩

end Inputs

structure State (TIMEOUT : Nat) where
  count : BitVec (CW TIMEOUT)
  berr : Bool

variable {TIMEOUT : Nat}

namespace State

def reset : State TIMEOUT := { count := 0, berr := false }

def berrN (s : State TIMEOUT) : Bool := !s.berr

def posedge (s : State TIMEOUT) (inputs : Inputs) : State TIMEOUT :=
  if !inputs.rstN then reset
  else if inputs.done then { count := 0, berr := false }
  else if s.count = BitVec.ofNat (CW TIMEOUT) TIMEOUT then { s with berr := true }
  else { s with count := s.count + 1 }

/-- The counter is wide enough for the timeout. -/
theorem TIMEOUT_lt : TIMEOUT < 2 ^ CW TIMEOUT :=
  Nat.lt_of_succ_le (Nat.le_pow_clog (by decide) (TIMEOUT + 1))

theorem count_eq_iff {s : State TIMEOUT} :
    s.count = BitVec.ofNat (CW TIMEOUT) TIMEOUT ↔ s.count.toNat = TIMEOUT := by
  rw [← BitVec.toNat_inj, BitVec.toNat_ofNat, Nat.mod_eq_of_lt TIMEOUT_lt]

theorem toNat_count_add_one {s : State TIMEOUT} (below : s.count.toNat < TIMEOUT) :
    (s.count + 1).toNat = s.count.toNat + 1 := by
  have wide : TIMEOUT < 2 ^ CW TIMEOUT := TIMEOUT_lt
  have added : (s.count + 1).toNat = (s.count.toNat + 1 % 2 ^ CW TIMEOUT) % 2 ^ CW TIMEOUT :=
    BitVec.toNat_add s.count 1
  rw [added, Nat.mod_eq_of_lt (by omega : 1 < 2 ^ CW TIMEOUT), Nat.mod_eq_of_lt (by omega)]

end State

/-- The registers after `n` clocks from reset. -/
def after (TIMEOUT : Nat) (inputs : Nat → Inputs) : Nat → State TIMEOUT :=
  driven (fun n s => s.posedge (inputs n)) .reset

section Runs

variable (inputs : Nat → Inputs)

theorem after_succ (n : Nat) :
    after TIMEOUT inputs (n + 1) = (after TIMEOUT inputs n).posedge (inputs n) := rfl

/-- The counter never passes the timeout. -/
theorem count_le (n : Nat) : (after TIMEOUT inputs n).count.toNat ≤ TIMEOUT := by
  induction n with
  | zero => simp [after, State.reset]
  | succ n ih =>
      rw [after_succ, State.posedge]
      split
      · simp [State.reset]
      · split
        · simp
        · split
          · exact ih
          · rename_i below
            rw [State.count_eq_iff] at below
            have less : (after TIMEOUT inputs n).count.toNat < TIMEOUT := by omega
            exact (State.toNat_count_add_one less).trans_le less

/-- A clock either counts an unanswered cycle, up to the timeout, or starts over. -/
theorem count_succ (n : Nat) :
    ((inputs n).Unanswered → (after TIMEOUT inputs (n + 1)).count.toNat =
      if (after TIMEOUT inputs n).count.toNat = TIMEOUT then TIMEOUT
      else (after TIMEOUT inputs n).count.toNat + 1) ∧
    (¬(inputs n).Unanswered → (after TIMEOUT inputs (n + 1)).count.toNat = 0) := by
  have below : (after TIMEOUT inputs n).count.toNat ≤ TIMEOUT := count_le inputs n
  rw [Inputs.unanswered_iff, after_succ, State.posedge]
  constructor
  · intro ⟨running, open_⟩
    simp only [running, open_, Bool.not_true, Bool.false_eq_true, if_false, State.count_eq_iff]
    split
    · assumption
    · exact State.toNat_count_add_one (by omega)
  · intro answered
    split
    · simp [State.reset]
    · rename_i running
      have done : (inputs n).done = true := by
        by_contra open_
        exact answered ⟨by simpa using running, by simpa using open_⟩
      rw [if_pos done]
      simp

theorem berr_succ (n : Nat) : (after TIMEOUT inputs (n + 1)).berr = true ↔ (inputs n).Unanswered ∧
    ((after TIMEOUT inputs n).count.toNat = TIMEOUT ∨ (after TIMEOUT inputs n).berr = true) := by
  rw [Inputs.unanswered_iff, after_succ, State.posedge]
  cases running : (inputs n).rstN with
  | false => simp [State.reset]
  | true =>
      cases open_ : (inputs n).done with
      | true => simp
      | false =>
          simp only [Bool.not_true, Bool.false_eq_true, if_false, State.count_eq_iff, and_self,
            true_and]
          split
          · rename_i full
            simp [full]
          · rename_i below
            simp [below]

/-- BERR tells that the cycle has been open without an answer for more clocks than the timeout. -/
theorem berr_iff_heldFor (n : Nat) : (after TIMEOUT inputs n).berr = true ↔
    HeldFor (fun k => (inputs k).Unanswered) (TIMEOUT + 1) n :=
  flag_iff (fun k => (after TIMEOUT inputs k).count.toNat) (fun k => (after TIMEOUT inputs k).berr = true)
    (by simp [after, State.reset]) (by simp [after, State.reset]) (count_succ inputs)
    (berr_succ inputs) n

end Runs

end BusWatchdog

end Mackerel.F
