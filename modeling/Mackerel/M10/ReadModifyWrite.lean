import Mackerel.Clocked.Driven
import Mackerel.Clocked.Execution
import Mackerel.M10.DramCycles
import Mackerel.M10.SystemController

namespace Mackerel.M10.DramController

open Clocked

/-! The read-modify-write cycle of the 68000 (`TAS`) on the DRAM: `AS` stays low from the read
half to the end of the write half. -/

structure Link where
  bus : Bus
  ctrl : State

theorem State.posedge_state (s : State) (bus : Bus) : (s.posedge true bus).state =
    match s.state with
    | .IDLE =>
        if s.refresh.refreshRequest then .REFRESH1
        else if !s.cs2 && !s.as2 then .RW1
        else .IDLE
    | .RW1 => .RW2
    | .RW2 => .RW3
    | .RW3 => .RW4
    | .RW4 => .RW5
    | .RW5 => if bus.as then .PRECHARGE else .RW5
    | .REFRESH1 => .REFRESH2
    | .REFRESH2 => .REFRESH3
    | .REFRESH3 => .REFRESH4
    | .REFRESH4 => .PRECHARGE
    | .PRECHARGE => .IDLE := by
  cases state : s.state <;>
    simp only [posedge, state, Bool.not_true, Bool.false_eq_true, if_false] <;>
    (repeat' split) <;> first | rfl | exact state

theorem State.posedge_dtackDram (s : State) (bus : Bus) : (s.posedge true bus).dtackDram =
    match s.state with
    | .RW5 => false
    | .PRECHARGE => true
    | _ => s.dtackDram := by
  cases state : s.state <;>
    simp only [posedge, state, Bool.not_true, Bool.false_eq_true, if_false] <;>
    (repeat' split) <;> rfl

namespace Link

/-- A master at two consecutive clocks. `AS` is high for two clocks between cycles, and
    `as1` tells its level of the clock before; the other pins are free. -/
structure Step (before after : Link) : Prop where
  ctrl : after.ctrl = before.ctrl.posedge true before.bus
  stable : before.bus.as = false → after.bus.as = false →
    after.bus.cs = before.bus.cs ∧ after.bus.addrIn = before.bus.addrIn
  gap : before.ctrl.as1 = false → before.bus.as = true → after.bus.as = true
  held : before.bus.as = false → before.bus.cs = false → before.ctrl.dtackDram = true →
    after.ctrl.dtackDram = true → after.bus.as = false

/-- A cycle on the DRAM in the flip-flops is still on the bus, and there is no acknowledge. -/
structure Fresh (s : Link) : Prop where
  dtack : s.ctrl.dtackDram = true
  first : s.ctrl.as1 = false → s.ctrl.cs1 = false → s.bus.as = false ∧ s.bus.cs = false
  second : s.ctrl.as2 = false → s.ctrl.cs2 = false → s.ctrl.as1 = false ∧ s.ctrl.cs1 = false

structure Open (s : Link) : Prop where
  dtack : s.ctrl.dtackDram = true
  as : s.bus.as = false
  cs : s.bus.cs = false

structure Waits (s : Link) : Prop where
  ended : s.bus.as = true → s.ctrl.as1 = false
  selected : s.bus.as = false → s.bus.cs = false

def PhaseInvariant (s : Link) : Prop :=
  match s.ctrl.state with
  | .IDLE | .REFRESH1 | .REFRESH2 | .REFRESH3 | .REFRESH4 => s.Fresh
  | .RW1 | .RW2 | .RW3 | .RW4 => s.Open
  | .RW5 => s.Waits
  | .PRECHARGE => s.Fresh ∨ (s.bus.as = true ∧ s.ctrl.as1 = true)

variable {before after : Link}

theorem Fresh.step (fresh : before.Fresh) (step : Step before after)
    (dtack : after.ctrl.dtackDram = true) : after.Fresh := by
  obtain ⟨as1, as2, cs1, cs2⟩ := before.ctrl.posedge_sampled before.bus
  rw [← step.ctrl] at as1 as2 cs1 cs2
  refine ⟨dtack, fun low selected => ?_, fun low selected => ?_⟩
  · have as : before.bus.as = false := as1 ▸ low
    have cs : before.bus.cs = false := cs1 ▸ selected
    have still := step.held as cs fresh.dtack dtack
    exact ⟨still, (step.stable as still).1.trans cs⟩
  · rw [as1, cs1]
    exact fresh.first (as2 ▸ low) (cs2 ▸ selected)

theorem Open.step (opened : before.Open) (step : Step before after)
    (dtack : after.ctrl.dtackDram = true) : after.Open := by
  have still := step.held opened.as opened.cs opened.dtack dtack
  exact ⟨dtack, still, (step.stable opened.as still).1.trans opened.cs⟩

theorem Open.waits (opened : before.Open) : before.Waits :=
  ⟨fun high => absurd opened.as (ne_false_of_eq_true high), fun _ => opened.cs⟩

theorem PhaseInvariant.step (invariant : before.PhaseInvariant) (step : Step before after) :
    after.PhaseInvariant := by
  have next := before.ctrl.posedge_state before.bus
  have dtack := before.ctrl.posedge_dtackDram before.bus
  obtain ⟨as1, as2, _⟩ := before.ctrl.posedge_sampled before.bus
  rw [← step.ctrl] at next dtack as1 as2
  unfold PhaseInvariant at invariant
  cases state : before.ctrl.state <;> rw [state] at invariant next dtack
  case IDLE =>
    have fresh := invariant.step step (dtack.trans invariant.dtack)
    dsimp only at next
    split at next
    · rw [PhaseInvariant, next]
      exact fresh
    · split at next
      · rename_i selected
        simp only [Bool.and_eq_true, Bool.not_eq_true'] at selected
        obtain ⟨was, wasSelected⟩ := invariant.second selected.2 selected.1
        obtain ⟨as, cs⟩ := invariant.first was wasSelected
        rw [PhaseInvariant, next]
        exact Open.step ⟨invariant.dtack, as, cs⟩ step (dtack.trans invariant.dtack)
      · rw [PhaseInvariant, next]
        exact fresh
  case RW1 | RW2 | RW3 =>
    rw [PhaseInvariant, next]
    exact invariant.step step (dtack.trans invariant.dtack)
  case RW4 =>
    rw [PhaseInvariant, next]
    exact (invariant.step step (dtack.trans invariant.dtack)).waits
  case RW5 =>
    cases as : before.bus.as with
    | true =>
        rw [as] at as1
        rw [PhaseInvariant, next, as]
        exact .inr ⟨step.gap (invariant.ended as) as, as1⟩
    | false =>
        rw [as] at as1
        rw [PhaseInvariant, next, as]
        exact ⟨fun _ => as1, fun low => (step.stable as low).1.trans (invariant.selected as)⟩
  case REFRESH1 | REFRESH2 | REFRESH3 =>
    rw [PhaseInvariant, next]
    exact invariant.step step (dtack.trans invariant.dtack)
  case REFRESH4 =>
    rw [PhaseInvariant, next]
    exact .inl (invariant.step step (dtack.trans invariant.dtack))
  case PRECHARGE =>
    rw [PhaseInvariant, next]
    rcases invariant with fresh | ⟨as, was⟩
    · exact fresh.step step dtack
    · exact ⟨dtack, fun low => absurd low (ne_false_of_eq_true (as1.trans as)),
        fun low => absurd low (ne_false_of_eq_true (as2.trans was))⟩

/-- DTACK with `AS` low belongs to the state that waits for the end of the cycle. -/
theorem PhaseInvariant.acknowledged {s : Link} (invariant : s.PhaseInvariant)
    (as : s.bus.as = false) (low : s.ctrl.dtackDram = false) :
    s.ctrl.state = .RW5 ∧ s.bus.cs = false := by
  have unasserted {P : Prop} (high : s.ctrl.dtackDram = true) : P :=
    absurd low (ne_false_of_eq_true high)
  unfold PhaseInvariant at invariant
  cases state : s.ctrl.state <;> rw [state] at invariant
  case RW5 => exact ⟨rfl, invariant.selected as⟩
  case PRECHARGE =>
    rcases invariant with fresh | ⟨ended, _⟩
    · exact unasserted fresh.dtack
    · exact absurd as (ne_false_of_eq_true ended)
  all_goals exact unasserted invariant.dtack

end Link

namespace State

variable {s : State} {bus : Bus}

theorem posedge_waiting (waits : s.state = .RW5) (as : bus.as = false) :
    (s.posedge true bus).state = .RW5 ∧ (s.posedge true bus).dtackDram = false ∧
    (∀ bank lane, (s.posedge true bus).cas bank lane = s.cas bank lane) ∧
    ∀ bank, (s.posedge true bus).wr bank = s.wr bank := by
  have state := s.posedge_state bus
  have dtack := s.posedge_dtackDram bus
  rw [waits] at state dtack
  refine ⟨by simpa [as] using state, dtack, fun bank lane => ?_, fun bank => ?_⟩ <;>
    simp only [posedge, waits, as, Bool.not_true, Bool.false_eq_true, if_false]
  · cases bank <;> cases lane <;> rfl
  · cases bank <;> rfl

end State

/-- A behaviour of the controller and its master from a reset while no bus cycle is open. -/
structure LinkRun where
  exec : Execution Link.Step
  reset : ∃ powerUp : State, ∃ idle : Bus, (exec.state 0).ctrl = powerUp.posedge false idle ∧
    powerUp.as1 = true ∧ idle.as = true
  idle : (exec.state 0).bus.as = true

namespace LinkRun

variable (run : LinkRun)

def bus (n : Nat) : Bus := (run.exec.state n).bus
def ctrl (n : Nat) : State := (run.exec.state n).ctrl

/-- A read-modify-write cycle on the DRAM up to clock `last`. The read half is acknowledged
    at clock `acked`; `lane` is the one that the write half strobes. -/
structure ReadModifyWrite where
  acked : Nat
  released : Nat
  write : Nat
  last : Nat
  lane : Bool
  acknowledged : (run.ctrl acked).dtackDram = false
  read : (run.bus acked).rw = true
  open_ : ∀ n, acked ≤ n → n ≤ last → (run.bus n).as = false
  later : acked < released
  negated : ∀ lane, (run.bus released).ds lane = true
  again : released < write
  strobe : (run.bus write).ds lane = false
  direction : (run.bus write).rw = false
  within : write ≤ last

namespace ReadModifyWrite

variable {run} (cycle : run.ReadModifyWrite)

/-- The column strobe of the write half has fallen by clock `n`, with the write enable of the
    bank low. -/
def Strobed (n : Nat) : Prop := ∃ k, cycle.released ≤ k ∧ k < n ∧
  (run.ctrl k).cas (run.bus cycle.write).bank cycle.lane = true ∧
  (run.ctrl (k + 1)).cas (run.bus cycle.write).bank cycle.lane = false ∧
  (run.ctrl (k + 1)).wr (run.bus cycle.write).bank = false

/-- The write half is acknowledged only after its access. -/
def Performed : Prop := ∀ n, cycle.write ≤ n → n ≤ cycle.last →
  (run.ctrl n).dtackDram = false → cycle.Strobed n

/-- The cycle ends as its read half left it. -/
structure Lost : Prop where
  acknowledged : ∀ n, cycle.acked ≤ n → n ≤ cycle.last → (run.ctrl n).dtackDram = false
  dtackN : ∀ n, cycle.acked ≤ n → n ≤ cycle.last → ∀ boot (pins : SystemController.Bus),
    pins.csDramN boot = false → pins.vpaN = true → pins.dtackDramN = (run.ctrl n).dtackDram →
    pins.dtackN boot = false
  unstrobed : ∀ n, cycle.acked ≤ n → n ≤ cycle.last → ∀ bank lane,
    (run.ctrl (n + 1)).cas bank lane = (run.ctrl n).cas bank lane
  direction : ∀ n, cycle.acked ≤ n → n ≤ cycle.last → ∀ bank,
    (run.ctrl (n + 1)).wr bank = (run.ctrl n).wr bank

end ReadModifyWrite

variable {run}

theorem phase (n : Nat) : (run.exec.state n).PhaseInvariant := by
  refine run.exec.invariant ?_ (fun before step => before.step step) n
  obtain ⟨powerUp, idle, ctrl, as1, as⟩ := run.reset
  have state : (run.exec.state 0).ctrl.state = .IDLE := by
    rw [ctrl]
    rfl
  rw [Link.PhaseInvariant, state]
  refine ⟨by rw [ctrl]; rfl, fun low => ?_, fun low => ?_⟩ <;> rw [ctrl] at low
  · exact absurd low (ne_false_of_eq_true as)
  · exact absurd low (ne_false_of_eq_true as1)

namespace ReadModifyWrite

variable (cycle : run.ReadModifyWrite) {n : Nat}

theorem waits (after : cycle.acked ≤ n) (before : n ≤ cycle.last) :
    (run.ctrl n).state = .RW5 ∧ (run.ctrl n).dtackDram = false := by
  induction n, after using Nat.le_induction with
  | base =>
      have as := cycle.open_ cycle.acked (Nat.le_refl _) before
      exact ⟨((phase cycle.acked).acknowledged as cycle.acknowledged).1, cycle.acknowledged⟩
  | succ n after ih =>
      have as := cycle.open_ n after (by omega)
      obtain ⟨state, dtack, _⟩ := State.posedge_waiting (ih (by omega)).1 as
      rw [ctrl, (run.exec.step n).ctrl]
      exact ⟨state, dtack⟩

theorem unmoved (after : cycle.acked ≤ n) (before : n ≤ cycle.last) :
    (∀ bank lane, (run.ctrl (n + 1)).cas bank lane = (run.ctrl n).cas bank lane) ∧
    ∀ bank, (run.ctrl (n + 1)).wr bank = (run.ctrl n).wr bank := by
  obtain ⟨_, _, cas, wr⟩ :=
    State.posedge_waiting (cycle.waits after before).1 (cycle.open_ n after before)
  rw [ctrl, (run.exec.step n).ctrl]
  exact ⟨cas, wr⟩

theorem lost : cycle.Lost where
  acknowledged _ after before := (cycle.waits after before).2
  dtackN _ after before _ _ selected vpaN wired :=
    SystemController.Bus.dtackN_of_dram selected vpaN
      (wired.trans (cycle.waits after before).2)
  unstrobed _ after before := (cycle.unmoved after before).1
  direction _ after before := (cycle.unmoved after before).2

end ReadModifyWrite

end LinkRun

/-- On the DRAM of Mackerel-10 no read-modify-write cycle performs its write half. -/
theorem tas_write_half_unstrobed (run : LinkRun) (cycle : run.ReadModifyWrite) :
    ¬ cycle.Performed ∧ cycle.Lost := by
  refine ⟨fun performed => ?_, cycle.lost⟩
  have early : cycle.acked ≤ cycle.write := by
    have later := cycle.later
    have again := cycle.again
    omega
  obtain ⟨k, after, before, high, low, _⟩ :=
    performed cycle.write (Nat.le_refl _) cycle.within (cycle.waits early cycle.within).2
  have same := (cycle.unmoved (n := k) (by have := cycle.later; omega)
    (by have := cycle.within; omega)).1 (run.bus cycle.write).bank cycle.lane
  exact absurd (same.symm.trans low) (ne_false_of_eq_true high)

/-- A cycle at address 0 on the lane of `LDS`, after a reset. -/
def tasBus (n : Nat) : Bus where
  as := n < 2 || 15 ≤ n
  lds := !((2 ≤ n && n < 11) || (13 ≤ n && n < 15))
  uds := true
  rw := n < 12
  cs := false
  addrIn := 0

def tasPowerUp : State where
  addrOut := 0
  rasA := true
  rasB := true
  casA0 := true
  casA1 := true
  casB0 := true
  casB1 := true
  wrA := true
  wrB := true
  dtackDram := true
  state := .IDLE
  refresh := { cycleCount := 0, refreshRequest := false }
  refreshAck := false
  as1 := true
  as2 := true
  cs1 := true
  cs2 := true

def tasLink : Nat → Link :=
  driven (fun n s => { bus := tasBus (n + 1), ctrl := s.ctrl.posedge true s.bus })
    { bus := tasBus 0, ctrl := tasPowerUp.posedge false (tasBus 0) }

theorem tasLink_bus (n : Nat) : (tasLink n).bus = tasBus n := by
  cases n <;> rfl

theorem tasLink_step (n : Nat) : Link.Step (tasLink n) (tasLink (n + 1)) where
  ctrl := rfl
  stable _ _ := by
    rw [tasLink_bus, tasLink_bus]
    exact ⟨rfl, rfl⟩
  gap was high := by
    rw [tasLink_bus] at high ⊢
    simp only [tasBus, Bool.or_eq_true, decide_eq_true_eq] at high ⊢
    by_cases first : n = 1
    · subst first
      exact absurd was (by decide)
    · omega
  held low _ _ unanswered := by
    rw [tasLink_bus] at low ⊢
    simp only [tasBus, Bool.or_eq_false_iff, decide_eq_false_iff_not] at low ⊢
    by_cases last : n = 14
    · subst last
      exact absurd unanswered (by decide)
    · omega

def tasLinkRun : LinkRun where
  exec := { state := tasLink, step := tasLink_step }
  reset := ⟨tasPowerUp, tasBus 0, rfl, rfl, rfl⟩
  idle := rfl

theorem tasLink_open {n : Nat} (after : 10 ≤ n) (before : n ≤ 14) : (tasLink n).bus.as = false := by
  rw [tasLink_bus]
  simp only [tasBus, Bool.or_eq_false_iff, decide_eq_false_iff_not]
  omega

def tasCycle : tasLinkRun.ReadModifyWrite where
  acked := 10
  released := 11
  write := 13
  last := 14
  lane := false
  acknowledged := by decide
  read := rfl
  open_ _ after before := tasLink_open after before
  later := by decide
  negated := by decide
  again := by decide
  strobe := rfl
  direction := rfl
  within := by decide

theorem tas_acknowledged_unstrobed : ¬ tasCycle.Performed := by
  intro performed
  obtain ⟨k, after, before, high, _⟩ := performed 13 (by decide) (by decide) (by decide)
  have between : k = 11 ∨ k = 12 := by
    have after : 11 ≤ k := after
    omega
  rcases between with rfl | rfl <;> exact absurd high (by decide)

end Mackerel.M10.DramController
