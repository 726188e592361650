import Mathlib.Algebra.Group.Nat.Defs
import Mackerel.F.Decode

namespace Mackerel.F

inductive Region where
  | sdram | unmapped | rom | bsram | gpio | uart | timer | spi | spi2 | intc | ws2812
deriving DecidableEq

/-- The slots of 256 bytes behind 0xFFF800. -/
def slotRegion : Nat → Region
  | 0 => .gpio
  | 1 => .uart
  | 2 => .timer
  | 3 => .spi
  | 4 => .spi2
  | 5 => .intc
  | 6 => .ws2812
  | _ => .unmapped

/-- The map, as the comment of `mackerel_f.v` has it. -/
def regionOf (address : Nat) : Region :=
  if address < 0x800000 then .sdram
  else if address < 0xFF0000 then .unmapped
  else if address < 0xFFC000 then .rom
  else if address < 0xFFF800 then .bsram
  else slotRegion ((address - 0xFFF800) / 256)

/-- The slot of a device. -/
def Region.slot? : Region → Option (BitVec 3)
  | .gpio => some 0
  | .uart => some 1
  | .timer => some 2
  | .spi => some 3
  | .spi2 => some 4
  | .intc => some 5
  | .ws2812 => some 6
  | _ => none

namespace Pins

/-- Until `BOOT` the ROM is everywhere. -/
def region (boot : Bool) (pins : Pins) : Region := if boot then regionOf pins.address.toNat else .rom

variable {boot : Bool} {pins : Pins} {acks : Acknowledges}

theorem extract_iff {width start length : Nat} (value : BitVec width) (field : BitVec length) :
    value.extractLsb' start length = field ↔ value.toNat / 2 ^ start % 2 ^ length = field.toNat := by
  rw [← BitVec.toNat_inj, BitVec.extractLsb'_toNat, Nat.shiftRight_eq_div_pow]

theorem inSdram_iff : pins.inSdram = true ↔ pins.address.toNat < 0x800000 := by
  have bound := pins.address.isLt
  simp only [inSdram, BitVec.getLsbD, Nat.testBit_eq_decide_div_mod_eq, Bool.not_eq_true', decide_eq_false_iff_not]
  omega

theorem inTop_iff : pins.inTop = true ↔ 0xFF0000 ≤ pins.address.toNat := by
  have bound := pins.address.isLt
  simp only [inTop, decide_eq_true_eq, extract_iff, BitVec.reduceToNat]
  omega

theorem inPeriph_iff : pins.inPeriph = true ↔ 0xFFF800 ≤ pins.address.toNat := by
  have bound := pins.address.isLt
  simp only [inPeriph, decide_eq_true_eq, extract_iff, BitVec.reduceToNat]
  omega

theorem inRom_iff : pins.inRom = true ↔ 0xFF0000 ≤ pins.address.toNat ∧ pins.address.toNat < 0xFFC000 := by
  have bound := pins.address.isLt
  simp only [inRom, Bool.and_eq_true, inTop_iff, bne_iff_ne, ne_eq, extract_iff, BitVec.reduceToNat]
  omega

theorem inBsram_iff :
    pins.inBsram = true ↔ 0xFFC000 ≤ pins.address.toNat ∧ pins.address.toNat < 0xFFF800 := by
  have bound := pins.address.isLt
  simp only [inBsram, Bool.and_eq_true, inTop_iff, decide_eq_true_eq, extract_iff, BitVec.reduceToNat,
    Bool.not_eq_true', Bool.eq_false_iff, ne_eq, inPeriph_iff]
  omega

theorem periphSel_iff (slot : BitVec 3) :
    pins.periphSel = slot ↔ pins.address.toNat / 256 % 8 = slot.toNat := extract_iff _ _

/-- The selects of the decoder in an open cycle that is no acknowledge of an interrupt. -/
structure Selected (boot : Bool) (pins : Pins) : Prop where
  rom : pins.csRomN boot = false ↔ pins.region boot = .rom
  sdram : pins.csSdramN boot = false ↔ pins.region boot = .sdram
  bsram : pins.csBsramN boot = false ↔ pins.region boot = .bsram
  slot : ∀ slot, slot ≠ 7 → (pins.csSlotN boot slot = false ↔ (pins.region boot).slot? = some slot)

theorem slotRegion_slot : ∀ slot < 8, ∀ wanted : BitVec 3,
    (slotRegion slot).slot? = some wanted ↔ slot = wanted.toNat ∧ wanted ≠ 7 := by decide

theorem slotRegion_cases (slot : Nat) : slotRegion slot = .unmapped ∨ (slotRegion slot).slot? ≠ none := by
  rcases slot with _ | _ | _ | _ | _ | _ | _ | slot <;> simp [slotRegion, Region.slot?]

theorem regionOf_high {address : Nat} (high : 0xFFF800 ≤ address) :
    regionOf address = slotRegion ((address - 0xFFF800) / 256) := by
  rw [regionOf, if_neg (by omega), if_neg (by omega), if_neg (by omega), if_neg (by omega)]

/-- The memories are below the slots. -/
theorem regionOf_memory {address : Nat} {region : Region} (memory : region.slot? = none)
    (mapped : region ≠ .unmapped) : regionOf address = region ↔ address < 0xFFF800 ∧
      (if address < 0x800000 then .sdram else if address < 0xFF0000 then .unmapped
        else if address < 0xFFC000 then .rom else .bsram) = region := by
  by_cases low : address < 0xFFF800
  · simp [regionOf, low]
  · rw [regionOf_high (by omega)]
    have other : slotRegion ((address - 0xFFF800) / 256) ≠ region := by
      rintro rfl
      exact (slotRegion_cases _).elim mapped fun slot => slot memory
    simp [other, low]

theorem regionOf_rom : regionOf pins.address.toNat = .rom ↔ pins.inRom = true := by
  rw [inRom_iff, regionOf_memory rfl (by decide)]
  grind

theorem regionOf_sdram : regionOf pins.address.toNat = .sdram ↔ pins.inSdram = true := by
  rw [inSdram_iff, regionOf_memory rfl (by decide)]
  grind

theorem regionOf_bsram : regionOf pins.address.toNat = .bsram ↔ pins.inBsram = true := by
  rw [inBsram_iff, regionOf_memory rfl (by decide)]
  grind

theorem regionOf_slot (slot : BitVec 3) : (regionOf pins.address.toNat).slot? = some slot ↔
    pins.inPeriph = true ∧ pins.periphSel = slot ∧ slot ≠ 7 := by
  have bound := pins.address.isLt
  rw [inPeriph_iff, periphSel_iff]
  by_cases high : 0xFFF800 ≤ pins.address.toNat
  · have sel : pins.address.toNat / 256 % 8 = (pins.address.toNat - 0xFFF800) / 256 := by omega
    rw [regionOf_high high, slotRegion_slot _ (by omega), sel]
    simp [high]
  · have none : (regionOf pins.address.toNat).slot? = none := by
      unfold regionOf
      grind [Region.slot?]
    simp [none, high]

theorem selected (open_ : pins.asN = false) (program : pins.cpuSpace = false) : pins.Selected boot := by
  cases boot with
  | false =>
      constructor <;> simp [region, csRomN, csSdramN, csBsramN, csSlotN, csPeriphN, Region.slot?, open_]
  | true =>
      constructor
      · simp [region, csRomN, open_, regionOf_rom]
      · simp [region, csSdramN, open_, regionOf_sdram]
      · simp [region, csBsramN, open_, regionOf_bsram]
      · intro slot used
        simpa [region, csSlotN, csPeriphN, open_, program, regionOf_slot] using fun _ _ => used

/-- The device of its region answers a cycle, and nothing else does. -/
theorem dtackN_of_region (open_ : pins.asN = false) (program : pins.cpuSpace = false) :
    pins.dtackN boot acks =
      match pins.region boot with
      | .rom | .bsram | .gpio | .intc => false
      | .sdram => acks.sdramN
      | .uart => acks.uartN
      | .timer => acks.timerN
      | .spi => acks.spiN
      | .spi2 => acks.spi2N
      | .ws2812 => acks.ws2812N
      | .unmapped => true := by
  obtain ⟨rom, sdram, bsram, slot⟩ : pins.Selected boot := selected open_ program
  have iack : pins.iack = false := by simp [Pins.iack, program]
  have gpio := slot 0 (by decide)
  have uart := slot 1 (by decide)
  have timer := slot 2 (by decide)
  have spi := slot 3 (by decide)
  have spi2 := slot 4 (by decide)
  have intc := slot 5 (by decide)
  have ws2812 := slot 6 (by decide)
  simp only [dtackN, csGpioN, csUartN, csTimerN, csSpiN, csSpi2N, csIntcN, csWs2812N, iack, Bool.not_eq_true', rom, sdram,
    bsram, gpio, uart, timer, spi, spi2, intc, ws2812]
  cases pins.region boot <;> simp [Region.slot?]

end Pins

end Mackerel.F
