import Mackerel.Dram.RefreshController
import Mackerel.M10.DramController

namespace Mackerel.M10.DramController

open Refresh

namespace State

def phase (s : State) : Phase :=
  match s.state with
  | .IDLE => .idle
  | .RW1 | .RW2 | .RW3 | .RW4 | .RW5 => .access
  | .REFRESH1 => .refresh1
  | .REFRESH2 => .refresh2
  | .REFRESH3 => .refresh3
  | .REFRESH4 => .refresh4
  | .PRECHARGE => .precharge

def view (s : State) : View where
  phase := s.phase
  refreshAck := s.refreshAck
  generator := s.refresh
  ras := [s.rasA, s.rasB]
  cas := [s.casA0, s.casA1, s.casB0, s.casB1]
  wr := [s.wrA, s.wrB]

/-- An access in the second pair of input flip-flops. -/
def active (s : State) : Bool := !s.cs2 && !s.as2

/-- An access in the first pair of input flip-flops. -/
def arriving (s : State) : Bool := !s.cs1 && !s.as1

theorem posedge_refresh (s : State) (rst : Bool) (bus : Bus) :
    (s.posedge rst bus).refresh = s.refresh.clock rst s.refreshAck := by
  cases rst with
  | false => rfl
  | true =>
      simp only [posedge, Bool.not_true, Bool.false_eq_true, if_false]
      cases s.state <;> dsimp only <;> (repeat' split) <;> rfl

theorem posedge_refreshAck (s : State) (bus : Bus) : (s.posedge true bus).refreshAck =
    if s.phase = .refresh1 then true else if s.phase = .precharge then false else s.refreshAck := by
  cases state : s.state <;>
    simp only [posedge, phase, state, Bool.not_true, Bool.false_eq_true, if_false] <;>
    (repeat' split) <;> first | rfl | contradiction

theorem idle_posedge {s : State} (bus : Bus) (idle : s.phase = .idle)
    (request : s.refresh.refreshRequest = false) :
    (s.posedge true bus).phase = if s.active then .access else .idle := by
  cases state : s.state <;> simp only [phase, state, reduceCtorEq] at idle
  cases active : s.active <;> simp only [State.active] at active <;>
    simp [posedge, phase, state, request, active, clockInputs]

theorem posedge_phase (s : State) (bus : Bus) :
    s.view.Next s.phase (s.posedge true bus).phase := by
  cases state : s.state with
  | IDLE =>
      have idle : s.phase = .idle := by simp [phase, state]
      cases request : s.refresh.refreshRequest with
      | true => simpa [posedge, phase, state, request] using .refresh request
      | false =>
          rw [idle_posedge bus idle request, idle]
          split
          · exact .start request
          · exact .wait request
  | RW1 => simpa [posedge, phase, state] using .continues
  | RW2 | RW3 | RW4 =>
      cases bank : bus.bankA <;> simpa [posedge, phase, state, bank] using .continues
  | RW5 =>
      cases as : bus.as with
      | true => simpa [posedge, phase, state, as] using .ends
      | false => simpa [posedge, phase, state, as, clockInputs] using .continues
  | REFRESH1 => simpa [posedge, phase, state] using .cas
  | REFRESH2 => simpa [posedge, phase, state] using .ras
  | REFRESH3 => simpa [posedge, phase, state] using .casOff
  | REFRESH4 => simpa [posedge, phase, state] using .rasOff
  | PRECHARGE => simpa [posedge, phase, state] using .precharged

theorem posedge_strobes (s : State) (bus : Bus) : s.view.Strobes (s.posedge true bus).view := by
  cases state : s.state with
  | IDLE =>
      have still : (s.posedge true bus).view.ras = s.view.ras ∧
          (s.posedge true bus).view.cas = s.view.cas := by
        simp only [posedge, state, Bool.not_true, Bool.false_eq_true, if_false]
        repeat' split
        all_goals exact ⟨rfl, rfl⟩
      simpa [View.Strobes, view, phase, state] using still
  | REFRESH1 | REFRESH2 | REFRESH3 | REFRESH4 | PRECHARGE =>
      simp [View.Strobes, view, phase, posedge, state, AllLow, AllHigh, setRas, setCas,
        clockInputs]
  | _ => simp [View.Strobes, view, phase, state]

theorem view_step (s : State) (bus : Bus) : View.Step s.view (s.posedge true bus).view where
  generator := s.posedge_refresh true bus
  phase := s.posedge_phase bus
  refreshAck := s.posedge_refreshAck bus
  strobes := s.posedge_strobes bus

theorem flops_posedge (s : State) (rst : Bool) (bus : Bus) :
    (s.posedge rst bus).as1 = bus.as ∧ (s.posedge rst bus).as2 = s.as1 ∧
    (s.posedge rst bus).cs1 = bus.cs ∧ (s.posedge rst bus).cs2 = s.cs1 := by
  cases rst with
  | false => exact ⟨rfl, rfl, rfl, rfl⟩
  | true => exact s.posedge_sampled bus

end State

def quietBus : Bus :=
  { as := true, lds := true, uds := true, rw := true, cs := true, addrIn := 0 }

def refreshController : Controller State Bus where
  posedge := State.posedge
  view := State.view
  active := State.active
  arriving := State.arriving
  quiet := quietBus
  step := State.view_step
  reset s bus := by
    constructor
    · rfl
    · rfl
    · simp [AllHigh, State.view, State.posedge, State.setRas, State.setCas]
  reset_refreshAck _ _ := rfl
  reset_request _ _ := rfl
  active_posedge s rst bus := by
    simp [State.active, State.arriving, s.flops_posedge rst bus]
  arriving_quiet s rst := by
    obtain ⟨as1, _⟩ := s.flops_posedge rst quietBus
    simp [State.arriving, as1, show quietBus.as = true from rfl]
  idle_posedge _ bus idle request := State.idle_posedge bus idle request

/-- The initial values of the registers that have one. -/
structure PowerUp (s : State) : Prop where
  state : s.state = .IDLE
  refresh : s.refresh = { refreshRequest := false, cycleCount := 0 }
  refreshAck : s.refreshAck = false
  addrOut : s.addrOut = 0
  ras : s.rasA = true ∧ s.rasB = true
  cas : s.casA0 = true ∧ s.casA1 = true ∧ s.casB0 = true ∧ s.casB1 = true
  dtackDram : s.dtackDram = true
  flops : s.as1 = true ∧ s.as2 = true ∧ s.cs1 = true ∧ s.cs2 = true

/-- The write enables have no initial value. -/
def powerUp (wrA wrB : Bool) : State where
  addrOut := 0
  rasA := true
  rasB := true
  casA0 := true
  casA1 := true
  casB0 := true
  casB1 := true
  wrA := wrA
  wrB := wrB
  dtackDram := true
  state := .IDLE
  refresh := { refreshRequest := false, cycleCount := 0 }
  refreshAck := false
  as1 := true
  as2 := true
  cs1 := true
  cs2 := true

theorem powerUp_spec (wrA wrB : Bool) : PowerUp (powerUp wrA wrB) :=
  ⟨rfl, rfl, rfl, rfl, ⟨rfl, rfl⟩, ⟨rfl, rfl, rfl, rfl⟩, rfl, ⟨rfl, rfl, rfl, rfl⟩⟩

theorem PowerUp.view {s : State} (powerUp : PowerUp s) : Controller.PowerUp s.view where
  phase := by simp [State.view, State.phase, powerUp.state]
  refreshAck := powerUp.refreshAck
  request := by simp [View.request, State.view, powerUp.refresh]
  count := by simp [View.count, State.view, powerUp.refresh]

/-- This controller needs no reset at power-up. -/
theorem PowerUp.released {s : State} (powerUp : PowerUp s) : Released s.view where
  phase := powerUp.view.phase
  count := powerUp.view.count
  strobes := by simp [State.view, AllHigh, powerUp.ras, powerUp.cas]

theorem PowerUp.unused {s : State} (powerUp : PowerUp s) : s.arriving = false := by
  simp [State.arriving, powerUp.flops]

end Mackerel.M10.DramController
