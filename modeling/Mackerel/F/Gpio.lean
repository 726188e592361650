import Mackerel.Device.Keeps
import Mackerel.F.Port
import Mackerel.Text.CStrings

namespace Mackerel.F

open Bytes Device

/-- From the first history to the second the register changes in the bits of the mask only. -/
def Within (mask : Byte) (before after : List Event) : Prop :=
  before <+: after ∧ ∀ events, before <+: events → events <+: after →
    gpioOf events &&& ~~~mask = gpioOf before &&& ~~~mask

variable {mask : Byte} {before middle after : List Event}

theorem within_refl (events : List Event) : Within mask events events := by
  refine ⟨List.prefix_rfl, fun between lower upper => ?_⟩
  rw [List.IsPrefix.eq_of_length_le upper lower.length_le]

theorem Within.trans (first : Within mask before middle) (second : Within mask middle after) :
    Within mask before after := by
  refine ⟨first.1.trans second.1, fun events lower upper => ?_⟩
  rcases List.prefix_or_prefix_of_prefix upper second.1 with early | late
  · exact first.2 events lower early
  · exact (second.2 events late upper).trans (first.2 middle first.1 List.prefix_rfl)

instance : IsPreorder (List Event) (Within mask) where
  refl := within_refl
  trans _ _ _ := Within.trans

/-- One more event. -/
theorem within_append {event : Event} (same : gpioOf (before ++ [event]) &&& ~~~mask = gpioOf before &&& ~~~mask) :
    Within mask before (before ++ [event]) := by
  refine ⟨List.prefix_append before [event], fun events lower upper => ?_⟩
  rcases List.prefix_concat_iff.mp upper with rfl | inside
  · exact same
  · rw [List.IsPrefix.eq_of_length_le inside lower.length_le]

theorem readGpio_follows {Related : List Event → List Event → Prop} [IsPreorder (List Event) Related] :
    Follows Related readGpio := fun events => refl events

/-- A read-modify-write that leaves the bits outside the mask. -/
theorem update_within {change : Byte → Byte}
    (leaves : ∀ gpio, change gpio &&& ~~~mask = gpio &&& ~~~mask) :
    Follows (Within mask) (do let gpio ← readGpio; writeGpio (change gpio)) := by
  intro events
  refine within_append ?_
  rw [gpioOf_gpio]
  exact leaves (gpioOf events)

theorem spiTransfer_within (devices : Devices) (tx : Byte) :
    Follows (Within mask) (spiTransfer devices tx) := fun events => within_append (by rw [gpioOf_sd])

theorem spi2_within (devices : Devices) (tx : Byte) : Follows (Within mask) (spi2 devices tx) :=
  fun events => within_append (by rw [gpioOf_nic])

section Bits

variable {bits : Byte} (inside : bits &&& ~~~mask = 0)

include inside

theorem bit_outside {i : Nat} (bound : i < 8) : (bits.getLsbD i && !mask.getLsbD i) = false := by
  have bit := congrArg (fun byte => byte.getLsbD i) inside
  simpa [bound] using bit

theorem set_leaves (gpio : Byte) : (gpio ||| bits) &&& ~~~mask = gpio &&& ~~~mask := by
  apply BitVec.eq_of_getLsbD_eq
  intro i bound
  have outside := bit_outside inside bound
  simp only [BitVec.getLsbD_and, BitVec.getLsbD_or, BitVec.getLsbD_not, bound, decide_true, Bool.true_and]
  rw [Bool.and_or_distrib_right, outside, Bool.or_false]

theorem clear_leaves (gpio : Byte) : (gpio &&& ~~~bits) &&& ~~~mask = gpio &&& ~~~mask := by
  apply BitVec.eq_of_getLsbD_eq
  intro i bound
  have outside := bit_outside inside bound
  simp only [BitVec.getLsbD_and, BitVec.getLsbD_not, bound, decide_true, Bool.true_and]
  cases bit : bits.getLsbD i with
  | false => rw [Bool.not_false, Bool.and_true]
  | true =>
      rw [bit, Bool.true_and] at outside
      rw [outside, Bool.and_false, Bool.and_false]

end Bits

theorem self_inside (mask : Byte) : mask &&& ~~~mask = 0 := by
  simp

namespace Nic

def NIC_CS_MASK : Byte := 0x80

def csLow : Firmware Unit := do
  let gpio ← readGpio
  writeGpio (gpio ||| NIC_CS_MASK)

def csHigh : Firmware Unit := do
  let gpio ← readGpio
  writeGpio (gpio &&& ~~~NIC_CS_MASK)

variable (devices : Devices)

/-- The bytes of a frame, in the order in which they are sent. -/
def spi2Bytes : List Byte → Firmware (List Byte)
  | [] => pure []
  | tx :: rest => do
      let byte ← spi2 devices tx
      let bytes ← spi2Bytes rest
      pure (byte :: bytes)

/-- What `w5_write` and `w5_read` do with the bytes of a frame. -/
def exchange (mosi : List Byte) : Firmware (List Byte) := do
  csLow
  let miso ← spi2Bytes devices mosi
  csHigh
  pure miso

end Nic

def ledsShow (mask : Byte) : Firmware Unit := do
  let gpio ← readGpio
  writeGpio (gpio &&& 0xC0 ||| mask &&& 0x3F)

/-- The result is the value that is shown, if one is. -/
def handlerGpio (numStr valStr : Option (List Byte)) : Firmware (Option Byte) := do
  match numStr with
  | none => do
      let gpio ← readGpio
      pure (some gpio)
  | some num =>
      match valStr with
      | none => pure none
      | some val => do
          let led : Byte := (CString.strtoul 10 num).setWidth 8
          if 5 < led then pure none
          else do
            let reg ← readGpio
            let bit : Byte := 1 <<< led.toNat
            let reg := if val.head? = some 0x31 then reg ||| bit else reg &&& ~~~bit
            writeGpio reg
            pure (some reg)

end Mackerel.F
