import Mackerel.Dram.RefreshController
import Mackerel.M30.DramController

namespace Mackerel.M30.DramController

open Refresh

namespace State

def phase (s : State) : Phase :=
  match s.state with
  | .IDLE => if s.trpWait then .settle else .idle
  | .RW1 | .RW2 | .RW2A | .RW3 | .RW4 | .RW4A | .RW5 => .access
  | .REFRESH1 => .refresh1
  | .REFRESH2 => .refresh2
  | .REFRESH3 => .refresh3
  | .REFRESH4 => .refresh4
  | .PRECHARGE => .precharge

def view (s : State) : View where
  phase := s.phase
  refreshAck := s.refreshAck
  generator := s.refresh
  ras := [s.ras0N, s.ras1N, s.ras2N, s.ras3N]
  cas := [s.cas0N, s.cas1N, s.cas2N, s.cas3N]
  wr := [s.dramWrN]

theorem posedge_refresh (s : State) (rstN : Bool) (bus : Bus) :
    (s.posedge rstN bus).refresh = s.refresh.clock rstN s.refreshAck := by
  cases rstN with
  | false => rfl
  | true =>
      simp only [posedge, Bool.not_true, Bool.false_eq_true, if_false]
      cases s.state <;> dsimp only <;> (repeat' split) <;> rfl

theorem posedge_refreshAck (s : State) (bus : Bus) : (s.posedge true bus).refreshAck =
    if s.phase = .refresh1 then true else if s.phase = .precharge then false else s.refreshAck := by
  cases state : s.state <;>
    simp only [posedge, phase, state, Bool.not_true, Bool.false_eq_true, if_false] <;>
    (repeat' split) <;> first | rfl | contradiction

theorem posedge_phase (s : State) (bus : Bus) :
    s.view.Next s.phase (s.posedge true bus).phase := by
  cases state : s.state with
  | IDLE =>
      cases settling : s.trpWait with
      | true =>
          simp [posedge, phase, state, settling, clockInputs]
          exact .settled
      | false =>
          cases request : s.refresh.refreshRequest with
          | true => simpa [posedge, phase, state, settling, request] using .refresh request
          | false =>
              cases active : s.activeN with
              | false =>
                  simpa [posedge, phase, state, settling, request, active] using .start request
              | true =>
                  simpa [posedge, phase, state, settling, request, active, clockInputs]
                    using .wait request
  | REFRESH1 => simpa [posedge, phase, state] using .cas
  | REFRESH2 => simpa [posedge, phase, state] using .ras
  | REFRESH3 => simpa [posedge, phase, state] using .casOff
  | REFRESH4 => simpa [posedge, phase, state] using .rasOff
  | PRECHARGE => simpa [posedge, phase, state] using .settles
  | RW1 | RW2 | RW2A | RW3 | RW4A => simpa [posedge, phase, state] using .continues
  | RW4 | RW5 =>
      have next : (s.posedge true bus).state = s.state ∨ (s.posedge true bus).state = .RW4A ∨
          (s.posedge true bus).state = .PRECHARGE := by
        simp only [posedge, state, Bool.not_true, Bool.false_eq_true, if_false]
        (repeat' split) <;> simp [state, setDsack, clockInputs]
      rcases next with next | next | next
      · simpa [phase, next, state] using .continues
      · simpa [phase, next, state] using .continues
      · simpa [phase, next, state] using .ends

theorem posedge_strobes (s : State) (bus : Bus) : s.view.Strobes (s.posedge true bus).view := by
  cases state : s.state with
  | IDLE =>
      have still : (s.posedge true bus).view.ras = s.view.ras ∧
          (s.posedge true bus).view.cas = s.view.cas := by
        simp only [posedge, state, Bool.not_true, Bool.false_eq_true, if_false]
        repeat' split
        all_goals exact ⟨rfl, rfl⟩
      cases settling : s.trpWait <;>
        simpa [View.Strobes, view, phase, state, settling] using still
  | REFRESH1 | REFRESH2 | REFRESH3 | REFRESH4 | PRECHARGE =>
      simp [View.Strobes, view, phase, posedge, state, AllLow, AllHigh, setRas, setCas, setDsack,
        clockInputs]
  | _ => simp [View.Strobes, view, phase, state]

theorem view_step (s : State) (bus : Bus) : View.Step s.view (s.posedge true bus).view where
  generator := s.posedge_refresh true bus
  phase := s.posedge_phase bus
  refreshAck := s.posedge_refreshAck bus
  strobes := s.posedge_strobes bus

def active (s : State) : Bool := !s.activeN

def arriving (s : State) : Bool := !(s.as1N || s.cs1N)

theorem idle_posedge {s : State} (bus : Bus) (idle : s.phase = .idle)
    (request : s.refresh.refreshRequest = false) :
    (s.posedge true bus).phase = if s.active then .access else .idle := by
  cases state : s.state <;> simp only [phase, state, reduceCtorEq] at idle
  have ready : s.trpWait = false := by
    by_contra settling
    simp [settling] at idle
  cases active : s.activeN <;>
    simp [posedge, phase, state, ready, request, State.active, active, clockInputs]

theorem flops_posedge (s : State) (rstN : Bool) (bus : Bus) :
    (s.posedge rstN bus).as1N = bus.asN ∧ (s.posedge rstN bus).as2N = s.as1N ∧
    (s.posedge rstN bus).cs1N = bus.csN ∧ (s.posedge rstN bus).cs2N = s.cs1N := by
  cases rstN with
  | false => exact ⟨rfl, rfl, rfl, rfl⟩
  | true =>
      simp only [posedge, Bool.not_true, Bool.false_eq_true, if_false]
      cases s.state <;> dsimp only <;> (repeat' split) <;> exact ⟨rfl, rfl, rfl, rfl⟩

end State

def quietBus : Bus :=
  { asN := true, dsN := true, csN := true, rw := true, siz := 0, addr := 0 }

def refreshController : Controller State Bus where
  posedge := State.posedge
  view := State.view
  active := State.active
  arriving := State.arriving
  quiet := quietBus
  step := State.view_step
  reset s bus := by
    constructor
    · rfl
    · rfl
    · simp [AllHigh, State.view, State.posedge, State.setRas, State.setCas, State.setDsack]
  reset_refreshAck _ _ := rfl
  reset_request _ _ := rfl
  active_posedge s rstN bus := by
    simp [State.active, State.activeN, State.arriving, s.flops_posedge rstN bus]
  arriving_quiet s rstN := by
    obtain ⟨as1N, _⟩ := s.flops_posedge rstN quietBus
    simp [State.arriving, as1N, show quietBus.asN = true from rfl]
  idle_posedge _ bus idle request := State.idle_posedge bus idle request

/-- The initial values of the registers that have one. -/
structure PowerUp (s : State) : Prop where
  state : s.state = .IDLE
  trpWait : s.trpWait = false
  refresh : s.refresh = { refreshRequest := false, cycleCount := 0 }
  refreshAck : s.refreshAck = false
  addrDram : s.addrDram = 0
  flops : s.as1N = true ∧ s.as2N = true ∧ s.ds1N = true ∧ s.ds2N = true ∧
    s.cs1N = true ∧ s.cs2N = true

/-- The strobes have no initial value. -/
def powerUp (strobes : Bool) (cas : BitVec 4) : State where
  dramWrN := strobes
  addrDram := 0
  ras0N := strobes
  ras1N := strobes
  ras2N := strobes
  ras3N := strobes
  cas0N := strobes
  cas1N := strobes
  cas2N := strobes
  cas3N := strobes
  dsack0N := strobes
  dsack1N := strobes
  state := .IDLE
  trpWait := false
  refresh := { refreshRequest := false, cycleCount := 0 }
  refreshAck := false
  as1N := true
  as2N := true
  ds1N := true
  ds2N := true
  cs1N := true
  cs2N := true
  cas := cas

theorem powerUp_spec (strobes : Bool) (cas : BitVec 4) : PowerUp (powerUp strobes cas) :=
  ⟨rfl, rfl, rfl, rfl, rfl, rfl, rfl, rfl, rfl, rfl, rfl⟩

theorem PowerUp.view {s : State} (powerUp : PowerUp s) : Controller.PowerUp s.view where
  phase := by simp [State.view, State.phase, powerUp.state, powerUp.trpWait]
  refreshAck := powerUp.refreshAck
  request := by simp [View.request, State.view, powerUp.refresh]
  count := by simp [View.count, State.view, powerUp.refresh]

theorem PowerUp.unused {s : State} (powerUp : PowerUp s) : s.arriving = false := by
  simp [State.arriving, powerUp.flops]

end Mackerel.M30.DramController
