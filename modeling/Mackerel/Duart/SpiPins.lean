import Mackerel.Duart.RecvAssembly
import Mackerel.M08.SdDriver

namespace Mackerel.Duart

open Bytes Device M08

/-- The device: the whole bytes and chip select edges that it has seen, the bits since then, and
    the level that it puts on MISO. -/
structure Slave where
  events : List Event
  shift : Byte
  count : Nat
  miso : Bool

namespace Slave

variable (card : Card)

/-- The next bit of its answer, the highest one first. -/
def present (s : Slave) : Slave := { s with miso := (card s.events).getLsbD (7 - s.count) }

/-- A rising edge of the clock takes a bit in. -/
def rise (mosi : Bool) (s : Slave) : Slave :=
  let shift := (s.shift <<< 1) ||| (if mosi then 1 else 0)
  if s.count = 7 then { s with events := s.events ++ [.byte shift], shift := 0, count := 0 }
  else { s with shift := shift, count := s.count + 1 }

/-- A clock pulse, which ends with the falling edge. -/
def clock (mosi : Bool) (s : Slave) : Slave := (s.rise mosi).present card

/-- An edge of the chip select ends a byte that is not whole. -/
def select (low : Bool) (s : Slave) : Slave :=
  ({ s with events := s.events ++ [.cs low], shift := 0, count := 0 } : Slave).present card

/-- What the device makes of two settings of the pins, one after the other. -/
def edge (before after : Byte) (s : Slave) : Slave :=
  if before.getLsbD CS2 ≠ after.getLsbD CS2 then s.select card (!after.getLsbD CS2)
  else if !before.getLsbD SCLK && after.getLsbD SCLK then s.rise (after.getLsbD MOSI)
  else if before.getLsbD SCLK && !after.getLsbD SCLK then s.present card
  else s

end Slave

/-- The levels of `OP0` to `OP7`, the device, and how often the input port has been read. -/
structure World where
  pins : Byte
  slave : Slave
  reads : Nat

variable (card : Card) (inputs : Nat → Byte)

def World.drive (w : World) (pins : Byte) : World :=
  { w with pins := pins, slave := w.slave.edge card w.pins pins }

/-- The DUART. A pin is the complement of its bit in the output port register. The other inputs
    may be anything at each read. -/
def duart : Handler Access Access.Result World
  | .oprReset value, w => ((), w.drive card (w.pins ||| value))
  | .opr value, w => ((), w.drive card (w.pins &&& ~~~value))
  | .ip, w => ((inputs w.reads &&& ~~~pinMask MISO) ||| (if w.slave.miso then pinMask MISO else 0),
      { w with reads := w.reads + 1 })

variable {card inputs} {w : World}

theorem MISO_GET_run : ∃ value : Byte, (value ≠ 0 ↔ w.slave.miso = true) ∧
    MISO_GET.run (duart card inputs) w = (value, { w with reads := w.reads + 1 }) := by
  refine ⟨_, ?_, rfl⟩
  have mask : pinMask MISO = 0x10#8 := rfl
  rw [mask]
  cases w.slave.miso <;> generalize inputs w.reads = other <;> revert other <;> decide +kernel

/-- The level of one pin. -/
def setPin (pin : Nat) (level : Bool) (pins : Byte) : Byte :=
  if level then pins ||| pinMask pin else pins &&& ~~~pinMask pin

theorem getLsbD_pinMask {pin other : Nat} (inside : other < 8) :
    (pinMask pin).getLsbD other = decide (other = pin) := by
  have one : (1 : Byte) = 1#8 := rfl
  rw [pinMask, one, BitVec.getLsbD_shiftLeft, BitVec.getLsbD_one]
  simp only [inside]
  by_cases same : other = pin
  · simp [same]
  · by_cases below : other < pin
    · simp [below, same]
    · have above : other - pin ≠ 0 := by omega
      simp [below, same, above]

theorem getLsbD_setPin {pin other : Nat} (level : Bool) (pins : Byte) (inside : other < 8) :
    (setPin pin level pins).getLsbD other = if other = pin then level else pins.getLsbD other := by
  cases level <;>
    simp only [setPin, if_true, if_false, Bool.false_eq_true, BitVec.getLsbD_or, BitVec.getLsbD_and,
      BitVec.getLsbD_not, getLsbD_pinMask inside, inside] <;>
    by_cases same : other = pin <;> simp [same]

theorem setPin_of_level {pin : Nat} {level : Bool} {pins : Byte} (same : pins.getLsbD pin = level) :
    setPin pin level pins = pins := by
  apply BitVec.eq_of_getLsbD_eq
  intro other inside
  rw [getLsbD_setPin level pins inside]
  split
  · rename_i here
    rw [here, same]
  · rfl

theorem setPin_setPin {pin : Nat} (level later : Bool) (pins : Byte) :
    setPin pin later (setPin pin level pins) = setPin pin later pins := by
  apply BitVec.eq_of_getLsbD_eq
  intro other inside
  simp only [getLsbD_setPin _ _ inside]
  split <;> rfl

theorem setPin_cs {pin : Nat} (level : Bool) (pins : Byte) (other : pin ≠ CS2) :
    (setPin pin level pins).getLsbD CS2 = pins.getLsbD CS2 :=
  (getLsbD_setPin level pins (by decide)).trans (if_neg (Ne.symm other))

theorem setPin_sclk {pin : Nat} (level : Bool) (pins : Byte) (other : pin ≠ SCLK) :
    (setPin pin level pins).getLsbD SCLK = pins.getLsbD SCLK :=
  (getLsbD_setPin level pins (by decide)).trans (if_neg (Ne.symm other))

theorem setPin_mosi {pin : Nat} (level : Bool) (pins : Byte) (other : pin ≠ MOSI) :
    (setPin pin level pins).getLsbD MOSI = pins.getLsbD MOSI :=
  (getLsbD_setPin level pins (by decide)).trans (if_neg (Ne.symm other))

def World.set (card : Card) (pin : Nat) (level : Bool) (w : World) : World :=
  w.drive card (setPin pin level w.pins)

theorem GPIO_ON_run (pin : Nat) :
    (GPIO_ON pin).run (duart card inputs) w = ((), w.set card pin true) := rfl

theorem GPIO_OFF_run (pin : Nat) :
    (GPIO_OFF pin).run (duart card inputs) w = ((), w.set card pin false) := rfl

theorem set_sclk_high (low : w.pins.getLsbD SCLK = false) : w.set card SCLK true =
    { w with pins := setPin SCLK true w.pins, slave := w.slave.rise (w.pins.getLsbD MOSI) } := by
  have up : (setPin SCLK true w.pins).getLsbD SCLK = true :=
    (getLsbD_setPin true w.pins (by decide)).trans (if_pos rfl)
  simp only [World.set, World.drive, Slave.edge, setPin_cs true w.pins (show SCLK ≠ CS2 by decide),
    setPin_mosi true w.pins (show SCLK ≠ MOSI by decide), low, up]
  simp

theorem set_sclk_low (high : w.pins.getLsbD SCLK = true) : w.set card SCLK false =
    { w with pins := setPin SCLK false w.pins, slave := w.slave.present card } := by
  have down : (setPin SCLK false w.pins).getLsbD SCLK = false :=
    (getLsbD_setPin false w.pins (by decide)).trans (if_pos rfl)
  simp only [World.set, World.drive, Slave.edge, setPin_cs false w.pins (show SCLK ≠ CS2 by decide),
    high, down]
  simp

theorem set_same {pin : Nat} {level : Bool} (same : w.pins.getLsbD pin = level) :
    w.set card pin level = w := by
  simp [World.set, setPin_of_level same, World.drive, Slave.edge]

theorem set_other {pin : Nat} (level : Bool) (cs : pin ≠ CS2) (sclk : pin ≠ SCLK) :
    w.set card pin level = { w with pins := setPin pin level w.pins } := by
  simp [World.set, World.drive, Slave.edge, setPin_cs level w.pins cs, setPin_sclk level w.pins sclk]

theorem set_cs {low : Bool} (other : w.pins.getLsbD CS2 = low) : w.set card CS2 (!low) =
    { w with pins := setPin CS2 (!low) w.pins, slave := w.slave.select card low } := by
  have next : (setPin CS2 (!low) w.pins).getLsbD CS2 = !low :=
    (getLsbD_setPin _ w.pins (by decide)).trans (if_pos rfl)
  have changes : w.pins.getLsbD CS2 ≠ (setPin CS2 (!low) w.pins).getLsbD CS2 := by
    rw [other, next]
    cases low <;> decide
  rw [World.set, World.drive, Slave.edge, if_pos changes, next, Bool.not_not]

def World.pulse (card : Card) (w : World) : World :=
  { w with slave := w.slave.clock card (w.pins.getLsbD MOSI) }

theorem miso_rise (mosi : Bool) (s : Slave) : (s.rise mosi).miso = s.miso := by
  simp only [Slave.rise]
  split <;> rfl

theorem set_pulse {reads : Nat} (low : w.pins.getLsbD SCLK = false) :
    ({ w.set card SCLK true with reads := reads } : World).set card SCLK false =
      { w.pulse card with reads := reads } := by
  let high : World := { pins := setPin SCLK true w.pins, slave := w.slave.rise (w.pins.getLsbD MOSI), reads := reads }
  have up : high.pins.getLsbD SCLK = true := (getLsbD_setPin true w.pins (by decide)).trans (if_pos rfl)
  have down := @set_sclk_low card high up
  rw [set_sclk_high low]
  refine down.trans ?_
  simp only [high, setPin_setPin, setPin_of_level low, World.pulse, Slave.clock]

/-- A pulse with a sample of MISO while the clock is high. -/
theorem sample_run (low : w.pins.getLsbD SCLK = false) {α : Type} (next : Bool → Code α) :
    ((do GPIO_ON SCLK; let miso ← MISO_GET; GPIO_OFF SCLK; next (decide (miso ≠ 0))) : Code α).run
      (duart card inputs) w = (next w.slave.miso).run (duart card inputs)
        { w.pulse card with reads := w.reads + 1 } := by
  obtain ⟨value, nonzero, ran⟩ := @MISO_GET_run card inputs (w.set card SCLK true)
  have level : decide (value ≠ 0) = w.slave.miso := by
    have same : (w.set card SCLK true).slave.miso = w.slave.miso := by
      rw [set_sclk_high low]
      exact miso_rise _ _
    rw [same] at nonzero
    by_cases zero : value ≠ 0
    · rw [decide_eq_true zero, nonzero.mp zero]
    · rw [decide_eq_false zero]
      exact (Bool.eq_false_iff.mpr (mt nonzero.mpr zero)).symm
  simp only [Program.run_bind, bind_run, GPIO_ON_run, ran, GPIO_OFF_run, level]
  exact congrArg ((next w.slave.miso).run (duart card inputs)) (@set_pulse card w (w.reads + 1) low)

end Mackerel.Duart
