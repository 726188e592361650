import Mathlib.Tactic.Common

namespace Mackerel

/-! `boot_signal.v`. The boards differ in the width of the counter and in
`BOOT_CYCLE_MAX`. -/

structure BootSignal (width : Nat) where
  busCycles : BitVec width
  boot : Bool

namespace BootSignal

variable {width : Nat}

/-- The initial values of the registers. -/
def powerUp : BootSignal width := { busCycles := 0, boot := false }

/-- One rising edge of `AS_n`. -/
def posedge (s : BootSignal width) (bootCycleMax : Nat) (resetN : Bool) : BootSignal width :=
  if !resetN then { busCycles := 0, boot := false }
  else if !s.boot then
    let next := { s with busCycles := s.busCycles + 1 }
    if s.busCycles.toNat = bootCycleMax then { next with boot := true } else next
  else s

end BootSignal

/-- `BOOT_CYCLE_MAX` of Mackerel-10. -/
def M10.BOOT_CYCLE_MAX : Nat := 4

/-- `BOOT_CYCLE_MAX` of Mackerel-30. -/
def M30.BOOT_CYCLE_MAX : Nat := 8

end Mackerel
