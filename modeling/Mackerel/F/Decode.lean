import Mackerel.Sdram.Bus
import Mackerel.SystemController.BootSignal

namespace Mackerel

/-- `BOOT_CYCLE_MAX` of Mackerel-F. -/
def F.BOOT_CYCLE_MAX : Nat := 4

namespace F

/-- The outputs of the 68000 as one clock samples them. -/
structure Pins where
  asN : Bool
  addrBus : BitVec 23
  fc : BitVec 3
  rwN : Bool
  udsN : Bool
  ldsN : Bool
  dataOut : BitVec 16

/-- The acknowledges of the devices that have one of their own. -/
structure Acknowledges where
  sdramN : Bool
  uartN : Bool
  timerN : Bool
  spiN : Bool
  spi2N : Bool
  ws2812N : Bool

namespace Pins

variable (boot : Bool) (pins : Pins)

def address : BitVec 24 := pins.addrBus ++ 0#1

def inTop : Bool := pins.address.extractLsb' 16 8 = 0xFF

def inPeriph : Bool := pins.address.extractLsb' 11 13 = 0x1FFF

def inRom : Bool := pins.inTop && pins.address.extractLsb' 14 2 != 0b11

def inBsram : Bool := pins.inTop && pins.address.extractLsb' 14 2 = 0b11 && !pins.inPeriph

def inSdram : Bool := !pins.address.getLsbD 23

def periphSel : BitVec 3 := pins.address.extractLsb' 8 3

def cpuSpace : Bool := pins.fc = 0b111

def iack : Bool := pins.cpuSpace && !pins.asN

def vpaN : Bool := !pins.iack

/-! The decoder; `boot` is the `BOOT` signal. -/

def csRomN : Bool := !(!pins.asN && (!boot || pins.inRom))

def csSdramN : Bool := !(!pins.asN && boot && pins.inSdram)

def csBsramN : Bool := !(!pins.asN && boot && pins.inBsram)

def csPeriphN : Bool := !(!pins.asN && boot && pins.inPeriph && !pins.cpuSpace)

/-- The select of one of the eight peripheral slots. -/
def csSlotN (slot : BitVec 3) : Bool := !(!pins.csPeriphN boot && pins.periphSel = slot)

def csGpioN : Bool := pins.csSlotN boot 0

def csUartN : Bool := pins.csSlotN boot 1

def csTimerN : Bool := pins.csSlotN boot 2

def csSpiN : Bool := pins.csSlotN boot 3

def csSpi2N : Bool := pins.csSlotN boot 4

def csIntcN : Bool := pins.csSlotN boot 5

def csWs2812N : Bool := pins.csSlotN boot 6

/-- `DTACKn` to the CPU and to the watchdog. -/
def dtackN (acks : Acknowledges) : Bool :=
  if pins.iack then true
  else if !pins.csRomN boot then false
  else if !pins.csBsramN boot then false
  else if !pins.csGpioN boot then false
  else if !pins.csSdramN boot then acks.sdramN
  else if !pins.csUartN boot then acks.uartN
  else if !pins.csTimerN boot then acks.timerN
  else if !pins.csSpiN boot then acks.spiN
  else if !pins.csSpi2N boot then acks.spi2N
  else if !pins.csIntcN boot then false
  else if !pins.csWs2812N boot then acks.ws2812N
  else true

/-- What `sdram_cache` and `sdram_controller` see of the bus. -/
def sdramBus : Sdram.Bus where
  csN := pins.csSdramN boot
  addr := pins.addrBus.extractLsb' 0 22
  rwn := pins.rwN
  udsn := pins.udsN
  ldsn := pins.ldsN
  wdata := pins.dataOut

def strobed : Bool := !pins.udsN || !pins.ldsN

variable {boot pins} {acks : Acknowledges}

theorem csSdramN_eq_false : pins.csSdramN boot = false ↔
    pins.asN = false ∧ boot = true ∧ pins.inSdram = true := by
  simp [csSdramN, and_assoc]

theorem not_inTop (sdram : pins.inSdram = true) : pins.inTop = false := by
  simp only [inSdram, Bool.not_eq_true'] at sdram
  simp only [inTop, decide_eq_false_iff_not]
  intro top
  have high := congrArg (fun page => page.getLsbD 7) top
  simp only [BitVec.getLsbD_extractLsb'] at high
  exact absurd (sdram.symm.trans (by simpa using high)) Bool.false_ne_true

theorem not_inPeriph (sdram : pins.inSdram = true) : pins.inPeriph = false := by
  simp only [inSdram, Bool.not_eq_true'] at sdram
  simp only [inPeriph, decide_eq_false_iff_not]
  intro top
  have high := congrArg (fun page => page.getLsbD 12) top
  simp only [BitVec.getLsbD_extractLsb'] at high
  exact absurd (sdram.symm.trans (by simpa using high)) Bool.false_ne_true

/-- An access to the SDRAM is acknowledged by the cache, and by nothing else. -/
theorem dtackN_of_sdram (selected : pins.csSdramN boot = false) :
    pins.dtackN boot acks = (pins.iack || acks.sdramN) := by
  obtain ⟨_, booted, sdram⟩ := csSdramN_eq_false.mp selected
  have rom : pins.csRomN boot = true := by simp [csRomN, inRom, booted, not_inTop sdram]
  have bsram : pins.csBsramN boot = true := by simp [csBsramN, inBsram, not_inTop sdram]
  have gpio : pins.csGpioN boot = true := by simp [csGpioN, csSlotN, csPeriphN, not_inPeriph sdram]
  cases acknowledge : pins.iack with
  | true => simp [dtackN, acknowledge]
  | false => simp [dtackN, acknowledge, rom, bsram, gpio, selected]

end Pins

end F

end Mackerel
