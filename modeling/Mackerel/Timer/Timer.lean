import Mathlib.Data.Nat.Log

namespace Mackerel.Timer

/-! `timer.v` of Mackerel-F, for a clock of `clkHz`. -/

/-- The 68000 side as one clock samples it. -/
structure Bus where
  csN : Bool
  regAddr : BitVec 3
  rwn : Bool
  dsN : Bool
  dataIn : BitVec 8

def REG_CTRL : BitVec 3 := 0

def REG_STATUS : BitVec 3 := 1

namespace Bus

def wr (bus : Bus) : Bool := !bus.csN && !bus.rwn && !bus.dsN

def wrCtrl (bus : Bus) : Bool := bus.wr && bus.regAddr = REG_CTRL

def wrAck (bus : Bus) : Bool := bus.wr && bus.regAddr = REG_STATUS

/-- `data_in[0]`. -/
def enable (bus : Bus) : Bool := bus.dataIn.getLsbD 0

/-- `data_in[5:4]`. -/
def freq (bus : Bus) : BitVec 2 := bus.dataIn.extractLsb' 4 2

end Bus

/-- `DIV_10`, `DIV_25`, `DIV_50` and `DIV_100`; `clkHz` is not below 100, so that none is
    negative. -/
def div (clkHz rate : Nat) : Nat := clkHz / rate - 1

/-- `CW`, the width of the counter. -/
def cw (clkHz : Nat) : Nat := Nat.clog 2 (div clkHz 10 + 1)

structure State (clkHz : Nat) where
  enable : Bool
  freq : BitVec 2
  count : BitVec (cw clkHz)
  pending : Bool

namespace State

variable {clkHz : Nat}

def reset : State clkHz := { enable := false, freq := 3, count := 0, pending := false }

def reload (s : State clkHz) : BitVec (cw clkHz) :=
  match s.freq with
  | 0 => .ofNat _ (div clkHz 10)
  | 1 => .ofNat _ (div clkHz 25)
  | 2 => .ofNat _ (div clkHz 50)
  | _ => .ofNat _ (div clkHz 100)

def divide (s : State clkHz) : State clkHz :=
  if s.enable then
    if s.count ≥ s.reload then { s with count := 0, pending := true }
    else { s with count := s.count + 1 }
  else { s with count := 0 }

/-- One rising clock edge with `rst_n` high; a later assignment wins. -/
def posedge (s : State clkHz) (bus : Bus) : State clkHz :=
  let next := s.divide
  let next := if bus.wrAck then { next with pending := false } else next
  if bus.wrCtrl then
    let next := { next with enable := bus.enable, freq := bus.freq }
    if !bus.enable then { next with count := 0, pending := false } else next
  else next

def irq (s : State clkHz) : Bool := s.pending

def dtackN (bus : Bus) : Bool := bus.csN

def dataOut (s : State clkHz) (regAddr : BitVec 3) : BitVec 8 :=
  if regAddr = REG_CTRL then 0#2 ++ s.freq ++ 0#3 ++ BitVec.ofBool s.enable
  else if regAddr = REG_STATUS then 0#7 ++ BitVec.ofBool s.pending
  else 0

end State

end Mackerel.Timer
