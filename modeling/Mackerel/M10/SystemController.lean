import Mackerel.SystemController.BootSignal

namespace Mackerel.M10.SystemController

/-! `system-controller.v` of Mackerel-10: the address decoding and the DTACK generation. All
selects are low active. -/

/-- The 68000 pins, and the acknowledges of the DRAM controller and of the SPI master. -/
structure Bus where
  asN : Bool
  udsN : Bool
  ldsN : Bool
  rw : Bool
  fc : BitVec 3
  addrH : BitVec 10
  addrL : BitVec 3
  vpaN : Bool
  dtackDramN : Bool
  dtackSpiN : Bool

namespace Bus

variable (boot : Bool) (bus : Bus)

def iackN : Bool := !(bus.fc = 0b111)

/-- `ADDR_H[23:20]` is F. -/
def high1M : Bool := bus.addrH.extractLsb' 6 4 = 0xF

def sramSel : Bool := bus.addrH.extractLsb' 6 4 = 0xE

def top64K : Bool := bus.high1M && bus.addrH.extractLsb' 2 4 = 0xF

/-- `sub`, `ADDR_H[15:14]`. -/
def sub : BitVec 2 := bus.addrH.extractLsb' 0 2

/-! The decoder; `boot` is the `BOOT` signal. -/

def decode : Bool := boot && bus.iackN

def romEn : Bool := !boot || (bus.iackN && bus.high1M && !bus.top64K)

def csRom0N : Bool := !(!bus.asN && !bus.ldsN && bus.romEn boot)

def csRom1N : Bool := !(!bus.asN && !bus.udsN && bus.romEn boot)

def csSpiN : Bool := !(bus.decode boot && !bus.ldsN && bus.top64K && bus.sub = 0b00)

def ramEn : Bool := bus.decode boot && bus.sramSel

def csSram0N : Bool := !(!bus.asN && !bus.ldsN && bus.ramEn boot)

def csSram1N : Bool := !(!bus.asN && !bus.udsN && bus.ramEn boot)

def csDramN : Bool := !(bus.decode boot && !bus.high1M && !bus.sramSel)

def csDuartN : Bool := !(bus.decode boot && !bus.ldsN && bus.top64K && bus.sub = 0b10)

def csIde0N : Bool := !(bus.decode boot && bus.top64K && bus.sub = 0b11)

def csIde1N : Bool := !(bus.decode boot && bus.top64K && bus.sub = 0b01)

/-- `DTACK_n` to the CPU; DUART and IDE never hold it up. -/
def dtackN : Bool :=
  (!bus.csDramN boot && bus.dtackDramN) || (!bus.csSpiN boot && bus.dtackSpiN) || !bus.vpaN

variable {boot bus}

/-- In an access to the DRAM its controller gives DTACK. -/
theorem dtackN_of_dram (selected : bus.csDramN boot = false) (vpaN : bus.vpaN = true)
    (acknowledged : bus.dtackDramN = false) : bus.dtackN boot = false := by
  have spi : bus.csSpiN boot = true := by
    simp only [csDramN, Bool.not_eq_false', Bool.and_eq_true, Bool.not_eq_true'] at selected
    simp [csSpiN, top64K, selected.1.2]
  simp [dtackN, spi, vpaN, acknowledged]

end Bus

end Mackerel.M10.SystemController
