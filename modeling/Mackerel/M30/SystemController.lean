import Mackerel.SystemController.BootSignal

namespace Mackerel.M30.SystemController

/-! `system_controller.v` of Mackerel-30: the address decoding, the wait-state generator and
the DSACK generation. All selects are low active. -/

/-- The 68030 pins, and the acknowledges of the DRAM controller and of the FPU. -/
structure Bus where
  asN : Bool
  dsN : Bool
  rw : Bool
  fc : BitVec 3
  ah : BitVec 4
  am : BitVec 4
  al : BitVec 4
  dsack0DramN : Bool
  dsack1DramN : Bool
  dsack0FpuN : Bool
  dsack1FpuN : Bool
deriving DecidableEq

namespace Bus

def cpuSpace (bus : Bus) : Bool := bus.fc = 0b111

def iackN (bus : Bus) : Bool := !(bus.cpuSpace && !bus.asN && bus.am = 0b1111)

def copCycle (bus : Bus) : Bool := bus.cpuSpace && !bus.asN && bus.am = 0b0010

def ioSpace (bus : Bus) : Bool := bus.ah = 0b1111

def iackDuartN (bus : Bus) : Bool := !(!bus.iackN && bus.al.extractLsb' 1 3 = 5)

/-! The decoder; `boot` is the `BOOT` signal. -/

variable (boot : Bool) (bus : Bus)

def romEn : Bool := !boot || bus.ah = 0b1110

def csRomN : Bool := !(!bus.cpuSpace && !bus.asN && bus.romEn boot)

def csSramN : Bool := !(boot && !bus.cpuSpace && !bus.asN && !bus.dsN && bus.ah = 0b1100)

def csDramN : Bool := !(boot && !bus.cpuSpace && bus.ah = 0b0000)

def csDuartN : Bool :=
  !(boot && !bus.cpuSpace && !bus.asN && !bus.dsN && bus.ioSpace && bus.am = 0b0000)

def ideCs0N : Bool := !(boot && !bus.cpuSpace && bus.ioSpace && bus.am = 0b0001)

def ideCs1N : Bool := !(boot && !bus.cpuSpace && bus.ioSpace && bus.am = 0b0010)

def csTimerN : Bool :=
  !(boot && !bus.cpuSpace && !bus.asN && !bus.dsN && bus.ioSpace && bus.am = 0b0011)

def csIdeN : Bool := !(!bus.asN && (!bus.ideCs0N boot || !bus.ideCs1N boot))

def csFpuN : Bool := !bus.copCycle

end Bus

def IDE_WAIT : Nat := 14

def DUART_WAIT : Nat := 0

/-- The registers of the wait-state generator. -/
structure WaitStates where
  ideWaitCnt : BitVec 4
  duartWaitCnt : BitVec 4
  ideWaiting : Bool
  duartWaiting : Bool

namespace WaitStates

def clear : WaitStates :=
  { ideWaitCnt := 0, duartWaitCnt := 0, ideWaiting := false, duartWaiting := false }

def clockIde (waits : WaitStates) (csIdeN : Bool) : WaitStates :=
  if !csIdeN && !waits.ideWaiting then { waits with ideWaitCnt := 0, ideWaiting := true }
  else if waits.ideWaiting && waits.ideWaitCnt.toNat < IDE_WAIT then
    { waits with ideWaitCnt := waits.ideWaitCnt + 1 }
  else if waits.ideWaiting && waits.ideWaitCnt.toNat ≥ IDE_WAIT then
    { waits with ideWaiting := false }
  else waits

def clockDuart (waits : WaitStates) (csDuartN : Bool) : WaitStates :=
  if !csDuartN && !waits.duartWaiting then { waits with duartWaitCnt := 0, duartWaiting := true }
  else if waits.duartWaiting && waits.duartWaitCnt.toNat < DUART_WAIT then
    { waits with duartWaitCnt := waits.duartWaitCnt + 1 }
  else if waits.duartWaiting && waits.duartWaitCnt.toNat ≥ DUART_WAIT then
    { waits with duartWaiting := false }
  else waits

theorem toNat_succ {waits : WaitStates} (short : waits.ideWaitCnt.toNat < IDE_WAIT) :
    (waits.ideWaitCnt + 1).toNat = waits.ideWaitCnt.toNat + 1 := by
  have room : waits.ideWaitCnt.toNat < 14 := short
  simp [BitVec.toNat_add]
  omega

/-- One rising edge of `CLK` with `RST_n` high. -/
def clock (waits : WaitStates) (csIdeN csDuartN : Bool) : WaitStates :=
  (waits.clockIde csIdeN).clockDuart csDuartN

end WaitStates

/-- `DSACK0_n` and `DSACK1_n`. -/
def dsack (boot : Bool) (bus : Bus) (waits : WaitStates) : Bool × Bool :=
  if !bus.iackN then
    if !bus.iackDuartN then (false, true)
    -- autovector
    else (false, true)
  else if !bus.csDramN boot then
    if !bus.asN then (bus.dsack0DramN, bus.dsack1DramN) else (true, true)
  else if !bus.csIdeN boot then
    if waits.ideWaiting then (true, true) else (true, false)
  else if !bus.csDuartN boot then
    if waits.duartWaiting then (true, true) else (false, true)
  else if !bus.csTimerN boot then (false, true)
  else if !bus.csRomN boot || !bus.csSramN boot then (false, true)
  else if !bus.csFpuN then (bus.dsack0FpuN, bus.dsack1FpuN)
  else (true, true)

/-- The DSACK lines of an IDE access come from the wait flag alone. -/
theorem dsack_of_ide {boot : Bool} {bus : Bus} (selected : bus.csIdeN boot = false)
    (waits : WaitStates) : dsack boot bus waits = (true, waits.ideWaiting) := by
  have decoded := selected
  simp only [Bus.csIdeN, Bus.ideCs0N, Bus.ideCs1N, Bus.ioSpace, Bool.not_eq_false',
    Bool.and_eq_true, Bool.or_eq_true, Bool.not_eq_true', Bool.not_not, decide_eq_true_eq] at decoded
  obtain ⟨asN, ide⟩ := decoded
  have cpuSpace : bus.cpuSpace = false := by
    rcases ide with ide | ide <;> exact ide.1.1.2
  have ah : bus.ah = 0b1111 := by
    rcases ide with ide | ide <;> exact ide.1.2
  have iackN : bus.iackN = true := by simp [Bus.iackN, cpuSpace]
  have csDramN : bus.csDramN boot = true := by simp [Bus.csDramN, ah]
  cases waiting : waits.ideWaiting <;> simp [dsack, iackN, csDramN, selected, waiting]

end Mackerel.M30.SystemController
