import Mackerel.Clocked.Driven
import Mackerel.M30.SystemController

namespace Mackerel.M30.SystemController

namespace Bus

variable (boot : Bool) (bus : Bus)

def timerWrite : Bool := !bus.csTimerN boot && !bus.rw

def timerEnWrite : Bool := bus.timerWrite boot && bus.al = 0x0

def timerDisWrite : Bool := bus.timerWrite boot && bus.al = 0x1

def iackLvl6 : Bool := !bus.iackN && !bus.asN && bus.al.extractLsb' 1 3 = 6

/-- An acknowledge is in CPU space and a register write is not. -/
theorem iackLvl6_of_timerDisWrite {boot : Bool} {bus : Bus} (disables : bus.timerDisWrite boot = true) :
    bus.iackLvl6 = false := by
  cases space : bus.cpuSpace with
  | false => simp [iackLvl6, iackN, space]
  | true => simp [timerDisWrite, timerWrite, csTimerN, space] at disables

theorem timerEnWrite_of_timerDisWrite {boot : Bool} {bus : Bus}
    (disables : bus.timerDisWrite boot = true) : bus.timerEnWrite boot = false := by
  have register : bus.al = 0x1 := by
    simp only [timerDisWrite, Bool.and_eq_true, decide_eq_true_eq] at disables
    exact disables.2
  simp [timerEnWrite, register]

end Bus

namespace Timer

def CPU_CLK_HZ : Nat := 24000000

/-- 100 Hz. -/
def TIMER_DIVIDER : Nat := CPU_CLK_HZ / 100

/-- `timer_cnt` has `$clog2(TIMER_DIVIDER)` bits. -/
structure State where
  timerCnt : BitVec 18
  timerEnable : Bool
  irqTimer : Bool
deriving DecidableEq

example : 2 ^ 17 < TIMER_DIVIDER ∧ TIMER_DIVIDER ≤ 2 ^ 18 := by decide

inductive Event where
  /-- `RST_n` is low. -/
  | reset
  /-- A rising edge of `CLK` with `RST_n` high. -/
  | clock (boot : Bool) (bus : Bus)

namespace Event

def enables : Event → Bool
  | reset => false
  | clock boot bus => bus.timerEnWrite boot

def disables : Event → Bool
  | reset => false
  | clock boot bus => bus.timerDisWrite boot

def acknowledges : Event → Bool
  | reset => false
  | clock _ bus => bus.iackLvl6

def resets : Event → Bool
  | reset => true
  | clock _ _ => false

end Event

namespace State

def clear : State := { timerCnt := 0, timerEnable := false, irqTimer := false }

def write (s : State) (boot : Bool) (bus : Bus) : State :=
  if bus.timerEnWrite boot then { s with timerEnable := true }
  else if bus.timerDisWrite boot then { timerEnable := false, irqTimer := false, timerCnt := 0 }
  else s

/-- A later assignment wins, and all of them read the registers from before the clock. -/
def posedge (s : State) (boot : Bool) (bus : Bus) : State :=
  let next := s.write boot bus
  let next :=
    if s.timerEnable then
      if s.timerCnt.toNat = TIMER_DIVIDER - 1 then { next with timerCnt := 0, irqTimer := true }
      else { next with timerCnt := s.timerCnt + 1 }
    else { next with timerCnt := 0 }
  if bus.iackLvl6 then { next with irqTimer := false } else next

def step (event : Event) (s : State) : State :=
  match event with
  | .reset => clear
  | .clock boot bus => s.posedge boot bus

/-- The counter is about to start over. -/
def Rollover (s : State) : Prop := s.timerEnable = true ∧ s.timerCnt.toNat = TIMER_DIVIDER - 1

instance (s : State) : Decidable s.Rollover := inferInstanceAs (Decidable (_ ∧ _))

variable (s : State) (event : Event)

theorem timerEnable_step : (s.step event).timerEnable =
    (event.enables || !event.disables && !event.resets && s.timerEnable) := by
  cases event with
  | reset => rfl
  | clock boot bus =>
      cases on : bus.timerEnWrite boot <;> cases off : bus.timerDisWrite boot <;>
        cases ack : bus.iackLvl6 <;> cases enabled : s.timerEnable <;>
          by_cases full : s.timerCnt.toNat = TIMER_DIVIDER - 1 <;>
            simp [step, posedge, write, Event.enables, Event.disables, Event.resets, on, off, ack,
              enabled, full]

theorem irqTimer_step : (s.step event).irqTimer =
    (!event.acknowledges && !event.resets &&
      (decide s.Rollover || !event.disables && s.irqTimer)) := by
  cases event with
  | reset => simp [step, clear, Event.resets]
  | clock boot bus =>
      cases off : bus.timerDisWrite boot with
      | true =>
          have on := Bus.timerEnWrite_of_timerDisWrite off
          cases ack : bus.iackLvl6 <;> cases enabled : s.timerEnable <;>
            by_cases full : s.timerCnt.toNat = TIMER_DIVIDER - 1 <;>
              simp [step, posedge, write, Rollover, Event.acknowledges, Event.disables, Event.resets,
                on, off, ack, enabled, full]
      | false =>
          cases on : bus.timerEnWrite boot <;> cases ack : bus.iackLvl6 <;>
            cases enabled : s.timerEnable <;>
              by_cases full : s.timerCnt.toNat = TIMER_DIVIDER - 1 <;>
                simp [step, posedge, write, Rollover, Event.acknowledges, Event.disables,
                  Event.resets, on, off, ack, enabled, full]

/-- The write to `timer_cnt` never takes effect. -/
theorem timerCnt_step : (s.step event).timerCnt =
    if event.resets = false ∧ s.timerEnable = true ∧ ¬s.Rollover then s.timerCnt + 1 else 0 := by
  cases event with
  | reset => rfl
  | clock boot bus =>
      cases ack : bus.iackLvl6 <;> cases enabled : s.timerEnable <;>
        by_cases full : s.timerCnt.toNat = TIMER_DIVIDER - 1 <;>
          simp [step, posedge, write, Rollover, Event.resets, ack, enabled, full]

variable {s event}

theorem toNat_timerCnt_step (small : s.timerCnt.toNat < TIMER_DIVIDER) (kept : event.resets = false)
    (enabled : s.timerEnable = true) (none : ¬s.Rollover) :
    (s.step event).timerCnt.toNat = s.timerCnt.toNat + 1 ∧ s.timerCnt.toNat + 1 < TIMER_DIVIDER := by
  have other : s.timerCnt.toNat ≠ TIMER_DIVIDER - 1 := fun last => none ⟨enabled, last⟩
  have divider : TIMER_DIVIDER = 240000 := rfl
  have added : (s.timerCnt + 1).toNat = (s.timerCnt.toNat + 1) % 2 ^ 18 := BitVec.toNat_add _ _
  rw [timerCnt_step, if_pos ⟨kept, enabled, none⟩, added, Nat.mod_eq_of_lt (by omega)]
  exact ⟨rfl, by omega⟩

theorem timerCnt_lt_step (small : s.timerCnt.toNat < TIMER_DIVIDER) :
    (s.step event).timerCnt.toNat < TIMER_DIVIDER := by
  by_cases counts : event.resets = false ∧ s.timerEnable = true ∧ ¬s.Rollover
  · obtain ⟨next, below⟩ := toNat_timerCnt_step small counts.1 counts.2.1 counts.2.2
    exact next ▸ below
  · rw [timerCnt_step, if_neg counts]
    decide

end State

/-- The registers at every event, from their initial values on. -/
def run (event : Nat → Event) : Nat → State := Clocked.driven (fun n s => s.step (event n)) .clear

theorem timerCnt_lt (event : Nat → Event) (n : Nat) : (run event n).timerCnt.toNat < TIMER_DIVIDER := by
  induction n with
  | zero =>
      change State.clear.timerCnt.toNat < TIMER_DIVIDER
      decide
  | succ n ih => exact State.timerCnt_lt_step ih

end Timer

end Mackerel.M30.SystemController
