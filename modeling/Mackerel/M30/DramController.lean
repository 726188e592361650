import Mackerel.Dram.Bank
import Mackerel.Dram.RefreshGenerator

namespace Mackerel.M30

/-- The 68030 side as one clock samples it. -/
structure Bus where
  asN : Bool
  dsN : Bool
  csN : Bool
  rw : Bool
  siz : BitVec 2
  addr : BitVec 28

namespace Bus

/-- `CYCLE_TYPE`: `SIZ1`, `SIZ0`, `A1`, `A0`. -/
def cycleType (bus : Bus) : BitVec 4 := bus.siz ++ bus.addr.extractLsb' 0 2

def row (bus : Bus) : BitVec 12 := bus.addr.extractLsb' 2 12

def column (bus : Bus) : BitVec 12 := bus.addr.extractLsb' 14 12

/-- `ADDR[26]`: the side of the SIMM. -/
def side (bus : Bus) : Bool := bus.addr.getLsbD 26

end Bus

namespace DramController

inductive FsmState where
  | IDLE | RW1 | RW2 | RW2A | RW3 | RW4 | RW4A | RW5
  | REFRESH1 | REFRESH2 | REFRESH3 | REFRESH4 | PRECHARGE
deriving DecidableEq

structure State where
  dramWrN : Bool
  addrDram : BitVec 12
  ras0N : Bool
  ras1N : Bool
  ras2N : Bool
  ras3N : Bool
  cas0N : Bool
  cas1N : Bool
  cas2N : Bool
  cas3N : Bool
  dsack0N : Bool
  dsack1N : Bool
  state : FsmState
  trpWait : Bool
  refresh : RefreshGenerator
  refreshAck : Bool
  as1N : Bool
  as2N : Bool
  ds1N : Bool
  ds2N : Bool
  cs1N : Bool
  cs2N : Bool
  cas : BitVec 4

/-- The lane decode of Table 7-4, active high; bit 3 is the lane of offset 0. -/
def decodeCas (cycleType : BitVec 4) : BitVec 4 :=
  match cycleType with
  -- byte
  | 0b0100#4 => 0b1000#4
  | 0b0101#4 => 0b0100#4
  | 0b0110#4 => 0b0010#4
  | 0b0111#4 => 0b0001#4
  -- word
  | 0b1000#4 => 0b1100#4
  | 0b1001#4 => 0b0110#4
  | 0b1010#4 => 0b0011#4
  | 0b1011#4 => 0b0001#4
  -- 3-byte
  | 0b1100#4 => 0b1110#4
  | 0b1101#4 => 0b0111#4
  | 0b1110#4 => 0b0011#4
  | 0b1111#4 => 0b0001#4
  -- long word
  | 0b0000#4 => 0b1111#4
  | 0b0001#4 => 0b0111#4
  | 0b0010#4 => 0b0011#4
  | 0b0011#4 => 0b0001#4
  | _ => 0b1111#4

namespace State

def activeN (s : State) : Bool := s.as2N || s.cs2N

/-- DSACK is asserted when either of its lines is. -/
def dsackN (s : State) : Bool := s.dsack0N && s.dsack1N

def setRas (s : State) (level : Bool) : State :=
  { s with ras0N := level, ras1N := level, ras2N := level, ras3N := level }

def setCas (s : State) (level : Bool) : State :=
  { s with cas0N := level, cas1N := level, cas2N := level, cas3N := level }

def setDsack (s : State) (level : Bool) : State :=
  { s with dsack0N := level, dsack1N := level }

/-- The refresh generator, the input flip-flops and the lane decode, which run in every
    state. -/
def clockInputs (s : State) (rstN : Bool) (bus : Bus) : State :=
  { s with
    refresh := s.refresh.clock rstN s.refreshAck
    as1N := bus.asN
    as2N := s.as1N
    ds1N := bus.dsN
    ds2N := s.ds1N
    cs1N := bus.csN
    cs2N := s.cs1N
    cas := decodeCas bus.cycleType }

def posedge (s : State) (rstN : Bool) (bus : Bus) : State :=
  let next := s.clockInputs rstN bus
  if !rstN then
    { ((next.setRas true).setCas true).setDsack true with
      state := .IDLE, trpWait := false, dramWrN := true }
  else
    match s.state with
    | .IDLE =>
        if s.trpWait then { next with trpWait := false }
        else if s.refresh.refreshRequest then { next with state := .REFRESH1 }
        else if !s.activeN then { next with state := .RW1 }
        else next
    | .RW1 => { next with addrDram := bus.row, state := .RW2 }
    | .RW2 =>
        { next with
          ras0N := bus.side
          ras1N := !bus.side
          ras2N := bus.side
          ras3N := !bus.side
          state := .RW2A }
    | .RW2A => { next with state := .RW3 }
    | .RW3 => { next with addrDram := bus.column, dramWrN := bus.rw, state := .RW4 }
    | .RW4 =>
        if s.activeN then { next with state := .PRECHARGE }
        else if !s.ds2N then
          if s.dramWrN then { next.setCas false with state := .RW4A }
          else
            { next with
              cas0N := !s.cas.getLsbD 0
              cas1N := !s.cas.getLsbD 1
              cas2N := !s.cas.getLsbD 2
              cas3N := !s.cas.getLsbD 3
              state := .RW4A }
        else next
    | .RW4A => { next with state := .RW5 }
    | .RW5 =>
        if s.dramWrN then
          if s.activeN || s.ds1N then
            { (next.setCas true).setDsack true with state := .PRECHARGE }
          else next.setDsack false
        else if s.activeN || s.ds2N then { next.setDsack true with state := .PRECHARGE }
        else next.setDsack false
    | .REFRESH1 => { next.setCas false with refreshAck := true, dramWrN := true, state := .REFRESH2 }
    | .REFRESH2 => { next.setRas false with state := .REFRESH3 }
    | .REFRESH3 => { next.setCas true with state := .REFRESH4 }
    | .REFRESH4 => { next.setRas true with state := .PRECHARGE }
    | .PRECHARGE =>
        { ((next.setDsack true).setRas true).setCas true with
          refreshAck := false, addrDram := 0, trpWait := true, state := .IDLE }

end State

end DramController

end Mackerel.M30
