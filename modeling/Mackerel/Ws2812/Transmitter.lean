import Mackerel.Timer.Timer

namespace Mackerel.Ws2812

/-! `ws2812.v` of Mackerel-F, for a clock of `CLK_HZ`. The register slots of the board have one
bus, the timer's. -/

open Timer (Bus)

def REG_G : BitVec 3 := 0

def REG_R : BitVec 3 := 1

def REG_B : BitVec 3 := 2

section Ticks

/-! The arithmetic of the `integer` parameters, of 32 bits with a sign. -/

variable (CLK_HZ : BitVec 32)

def T0H_TICKS : BitVec 32 := (CLK_HZ.sdiv 1000 * 400).sdiv 1000000

def T1H_TICKS : BitVec 32 := (CLK_HZ.sdiv 1000 * 800).sdiv 1000000

def BIT_TICKS : BitVec 32 := (CLK_HZ.sdiv 1000 * 1250).sdiv 1000000

def RST_TICKS : BitVec 32 := (CLK_HZ.sdiv 1000 * 80).sdiv 1000

def CW : Nat := Nat.clog 2 (RST_TICKS CLK_HZ).toNat

/-- The clock leaves ticks for each part of the signal. -/
structure Ordered : Prop where
  zero : 0 < (T0H_TICKS CLK_HZ).toInt
  one : (T0H_TICKS CLK_HZ).toInt < (T1H_TICKS CLK_HZ).toInt
  bit : (T1H_TICKS CLK_HZ).toInt < (BIT_TICKS CLK_HZ).toInt
  rst : (BIT_TICKS CLK_HZ).toInt < (RST_TICKS CLK_HZ).toInt

example : (T0H_TICKS 75600000, T1H_TICKS 75600000, BIT_TICKS 75600000, RST_TICKS 75600000) =
    (30, 60, 94, 6048) := by decide

end Ticks

inductive FsmState where
  | IDLE | SEND | RST
deriving DecidableEq

structure State (CLK_HZ : BitVec 32) where
  ledOut : Bool
  gHold : BitVec 8
  rHold : BitVec 8
  bHold : BitVec 8
  state : FsmState
  shift : BitVec 24
  bitIdx : BitVec 5
  cnt : BitVec (CW CLK_HZ)

/-- A write strobe for one of the registers. -/
def writes (bus : Bus) (reg : BitVec 3) : Bool := bus.wr && bus.regAddr = reg

def dtackN (bus : Bus) : Bool := bus.csN

variable {CLK_HZ : BitVec 32}

namespace State

def reset : State CLK_HZ where
  ledOut := false
  gHold := 0
  rHold := 0
  bHold := 0
  state := .IDLE
  shift := 0
  bitIdx := 0
  cnt := 0

def busy (s : State CLK_HZ) : Bool := s.state != .IDLE

def dataOut (s : State CLK_HZ) (regAddr : BitVec 3) : BitVec 8 :=
  if regAddr = REG_G then 0#7 ++ BitVec.ofBool s.busy
  else if regAddr = REG_R then s.rHold
  else if regAddr = REG_B then s.bHold
  else 0

/-- The `case` of the state machine. -/
def transmit (s : State CLK_HZ) : State CLK_HZ :=
  match s.state with
  | .IDLE => { s with ledOut := false }
  | .SEND =>
      let high := if s.shift.getLsbD 23 then T1H_TICKS CLK_HZ else T0H_TICKS CLK_HZ
      let next := { s with ledOut := s.cnt.toNat < high.toNat }
      if s.cnt.toNat = (BIT_TICKS CLK_HZ - 1).toNat then
        let next := { next with cnt := 0, shift := s.shift.extractLsb' 0 23 ++ 0#1 }
        if s.bitIdx = 23 then { next with bitIdx := 0, state := .RST }
        else { next with bitIdx := s.bitIdx + 1 }
      else { next with cnt := s.cnt + 1 }
  | .RST =>
      let next := { s with ledOut := false }
      if s.cnt.toNat = (RST_TICKS CLK_HZ - 1).toNat then { next with cnt := 0, state := .IDLE }
      else { next with cnt := s.cnt + 1 }

/-- One rising clock edge with `rst_n` high; a later assignment wins. -/
def posedge (s : State CLK_HZ) (bus : Bus) : State CLK_HZ :=
  let next := s.transmit
  let next := if writes bus REG_G then { next with gHold := bus.dataIn } else next
  let next := if writes bus REG_R then { next with rHold := bus.dataIn } else next
  if writes bus REG_B then
    let next := { next with bHold := bus.dataIn }
    if s.state = .IDLE then
      { next with shift := s.gHold ++ s.rHold ++ bus.dataIn, bitIdx := 0, cnt := 0, state := .SEND }
    else next
  else next

/-- What the write port leaves to the state machine. -/
structure Transmits (s next : State CLK_HZ) : Prop where
  ledOut : next.ledOut = s.transmit.ledOut
  state : next.state = s.transmit.state
  shift : next.shift = s.transmit.shift
  bitIdx : next.bitIdx = s.transmit.bitIdx
  cnt : next.cnt = s.transmit.cnt

variable {s : State CLK_HZ} {bus : Bus}

theorem posedge_ledOut (s : State CLK_HZ) (bus : Bus) :
    (s.posedge bus).ledOut = s.transmit.ledOut := by
  unfold posedge
  grind

/-- A transmission under way takes no notice of the bus. -/
theorem transmits_of_busy (bus : Bus) (busy : s.state ≠ .IDLE) : s.Transmits (s.posedge bus) := by
  constructor <;> unfold posedge <;> grind

theorem transmits_of_no_write (none : writes bus REG_B = false) : s.Transmits (s.posedge bus) := by
  constructor <;> unfold posedge <;> grind

/-- The holding registers take what is written to them. -/
theorem posedge_holds (s : State CLK_HZ) (bus : Bus) :
    (s.posedge bus).gHold = (if writes bus REG_G then bus.dataIn else s.gHold) ∧
    (s.posedge bus).rHold = (if writes bus REG_R then bus.dataIn else s.rHold) ∧
    (s.posedge bus).bHold = (if writes bus REG_B then bus.dataIn else s.bHold) := by
  have kept : s.transmit.gHold = s.gHold ∧ s.transmit.rHold = s.rHold ∧ s.transmit.bHold = s.bHold := by
    unfold transmit
    grind
  unfold posedge
  grind

end State

end Mackerel.Ws2812
