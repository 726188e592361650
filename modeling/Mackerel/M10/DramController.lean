import Mackerel.Dram.Bank
import Mackerel.Dram.RefreshGenerator

namespace Mackerel.M10

/-! `dram_controller.v` of Mackerel-10. Bit 0 of `addrIn` is the address bit 1. -/

/-- The 68000 side as one clock samples it; the strobes and `cs` are low active. -/
structure Bus where
  as : Bool
  lds : Bool
  uds : Bool
  rw : Bool
  cs : Bool
  addrIn : BitVec 23

namespace Bus

/-- `ADDR_IN[11:1]`. -/
def row (bus : Bus) : BitVec 11 := bus.addrIn.extractLsb' 0 11

/-- `ADDR_IN[22:12]`. -/
def column (bus : Bus) : BitVec 11 := bus.addrIn.extractLsb' 11 11

/-- `BANK_A`; bank A is the bottom half, by `ADDR_IN[23]`. -/
def bankA (bus : Bus) : Bool := !bus.addrIn.getLsbD 22

/-- The selected bank, `false` for bank A. -/
def bank (bus : Bus) : Bool := !bus.bankA

/-- The data strobe of a lane, `false` for `LDS`. -/
def ds (bus : Bus) (lane : Bool) : Bool := if lane then bus.uds else bus.lds

end Bus

namespace DramController

inductive FsmState where
  | IDLE | RW1 | RW2 | RW3 | RW4 | RW5
  | REFRESH1 | REFRESH2 | REFRESH3 | REFRESH4 | PRECHARGE
deriving DecidableEq

structure State where
  addrOut : BitVec 11
  rasA : Bool
  rasB : Bool
  casA0 : Bool
  casA1 : Bool
  casB0 : Bool
  casB1 : Bool
  wrA : Bool
  wrB : Bool
  dtackDram : Bool
  state : FsmState
  refresh : RefreshGenerator
  refreshAck : Bool
  as1 : Bool
  as2 : Bool
  cs1 : Bool
  cs2 : Bool

namespace State

def setRas (s : State) (level : Bool) : State := { s with rasA := level, rasB := level }

def setCas (s : State) (level : Bool) : State :=
  { s with casA0 := level, casA1 := level, casB0 := level, casB1 := level }

/-- The refresh generator and the input flip-flops, which run in every state. -/
def clockInputs (s : State) (rst : Bool) (bus : Bus) : State :=
  { s with
    refresh := s.refresh.clock rst s.refreshAck
    as1 := bus.as
    cs1 := bus.cs
    as2 := s.as1
    cs2 := s.cs1 }

/-- One rising edge of `CLK_ALT`. -/
def posedge (s : State) (rst : Bool) (bus : Bus) : State :=
  let next := s.clockInputs rst bus
  if !rst then
    { (next.setRas true).setCas true with
      state := .IDLE, wrA := true, wrB := true, dtackDram := true }
  else
    match s.state with
    | .IDLE =>
        if s.refresh.refreshRequest then { next with state := .REFRESH1 }
        else if !s.cs2 && !s.as2 then { next with state := .RW1 }
        else next
    | .RW1 => { next with addrOut := bus.row, state := .RW2 }
    | .RW2 =>
        if bus.bankA then { next with rasA := false, state := .RW3 }
        else { next with rasB := false, state := .RW3 }
    | .RW3 =>
        if bus.bankA then { next with addrOut := bus.column, wrA := bus.rw, state := .RW4 }
        else { next with addrOut := bus.column, wrB := bus.rw, state := .RW4 }
    | .RW4 =>
        if bus.bankA then { next with casA0 := bus.lds, casA1 := bus.uds, state := .RW5 }
        else { next with casB0 := bus.lds, casB1 := bus.uds, state := .RW5 }
    | .RW5 =>
        if bus.as then { next with dtackDram := false, state := .PRECHARGE }
        else { next with dtackDram := false }
    | .REFRESH1 =>
        { next.setCas false with
          refreshAck := true, wrA := true, wrB := true, state := .REFRESH2 }
    | .REFRESH2 => { next.setRas false with state := .REFRESH3 }
    | .REFRESH3 => { next.setCas true with state := .REFRESH4 }
    | .REFRESH4 => { next.setRas true with state := .PRECHARGE }
    | .PRECHARGE =>
        { (next.setRas true).setCas true with
          refreshAck := false, dtackDram := true, addrOut := 0, state := .IDLE }

/-- What the input flip-flops hold after an edge. -/
theorem posedge_sampled (s : State) (bus : Bus) :
    (s.posedge true bus).as1 = bus.as ∧ (s.posedge true bus).as2 = s.as1 ∧
    (s.posedge true bus).cs1 = bus.cs ∧ (s.posedge true bus).cs2 = s.cs1 := by
  unfold posedge
  cases s.state <;> dsimp only <;> repeat' split
  all_goals exact ⟨rfl, rfl, rfl, rfl⟩

end State

end DramController

end Mackerel.M10
