import Mackerel.F.Gpio
import Mackerel.SdSpi.Driver
import Mackerel.W5500.Transport

namespace Mackerel.F

open Bytes Device Loops

def Released (select : Byte) (events : List Event) : Prop := gpioOf events &&& select = 0

/-- A call of the device may turn its select on, and turns it off again. -/
structure Uses (select : Byte) (before after : List Event) : Prop where
  within : Within select before after
  released : Released select before → Released select after

/-- The end of such a call: the select is off, whatever it was. -/
structure Closes (select : Byte) (before after : List Event) : Prop where
  within : Within select before after
  released : Released select after

variable {α β : Type} {select : Byte} {before middle after : List Event}

instance : IsPreorder (List Event) (Uses select) where
  refl events := ⟨within_refl events, id⟩
  trans _ _ _ first second := ⟨first.within.trans second.within, second.released ∘ first.released⟩

theorem Closes.uses (closes : Closes select before after) : Uses select before after :=
  ⟨closes.within, fun _ => closes.released⟩

theorem closes_behind {first : Firmware α} {next : α → Firmware β} (opens : Follows (Within select) first)
    (closes : ∀ value, Follows (Closes select) (next value)) : Follows (Closes select) (first >>= next) := by
  intro events
  have early := opens events
  have late := closes (first events).1 (first events).2
  exact ⟨early.trans late.within, late.released⟩

theorem closes_then {first : Firmware α} {next : α → Firmware β} (closes : Follows (Closes select) first)
    (uses : ∀ value, Follows (Uses select) (next value)) : Follows (Closes select) (first >>= next) := by
  intro events
  have early := closes events
  have late := uses (first events).1 (first events).2
  exact ⟨early.within.trans late.within, late.released early.released⟩

theorem uses_of_closes {program : Firmware α} (closes : Follows (Closes select) program) :
    Follows (Uses select) program :=
  closes.mono fun _ _ => Closes.uses

/-- `cs_high` of a device. -/
theorem clear_closes : Follows (Closes select)
    (do let gpio ← readGpio; writeGpio (gpio &&& ~~~select)) := by
  intro events
  have off : gpioOf (events ++ [.gpio (gpioOf events &&& ~~~select)]) &&& select = 0 := by
    rw [gpioOf_gpio, BitVec.and_assoc]
    simp
  exact ⟨update_within (clear_leaves (self_inside select)) events, off⟩

variable (devices : Devices)

theorem spiTransfer_uses (tx : Byte) : Follows (Uses select) (spiTransfer devices tx) := by
  intro events
  have same : gpioOf (spiTransfer devices tx events).2 = gpioOf events := gpioOf_sd tx
  exact ⟨spiTransfer_within devices tx events, fun released => by rwa [Released, same]⟩

namespace Nic

theorem spi2Bytes_within (mosi : List Byte) : Follows (Within NIC_CS_MASK) (spi2Bytes devices mosi) := by
  induction mosi with
  | nil => exact .pure []
  | cons tx rest ih => exact (spi2_within devices tx).bind fun byte => ih.bind fun bytes => .pure _

theorem exchange_closes (mosi : List Byte) : Follows (Closes NIC_CS_MASK) (exchange devices mosi) := by
  have opens : Follows (Within NIC_CS_MASK) csLow := update_within (set_leaves (self_inside NIC_CS_MASK))
  have closes : Follows (Closes NIC_CS_MASK) csHigh := clear_closes
  exact closes_behind opens fun _ => closes_behind (spi2Bytes_within devices mosi) fun miso =>
    closes_then closes fun _ => .pure miso

theorem exchange_uses (mosi : List Byte) : Follows (Uses NIC_CS_MASK) (exchange devices mosi) :=
  uses_of_closes (exchange_closes devices mosi)

/-- The SPI baud register is not a part of the state. -/
def w5500Init (mac ip gw sub : List Byte) : Firmware Bool := do
  csHigh
  W5500.w5500Init (exchange devices) mac ip gw sub

theorem w5500Init_uses (mac ip gw sub : List Byte) :
    Follows (Uses NIC_CS_MASK) (w5500Init devices mac ip gw sub) :=
  uses_of_closes (closes_then clear_closes fun _ =>
    W5500.w5500Init_follows (exchange_uses devices) mac ip gw sub)

end Nic

namespace SdSpi

variable {card : Devices}

section Bytes

variable {Related : List Event → List Event → Prop} [IsPreorder (List Event) Related]
  (transfers : ∀ tx, Follows Related (spiTransfer card tx))

include transfers

theorem rxWhile_follows (again : Byte → Bool) (count : Nat) (value : Byte) :
    Follows Related (rxWhile card again count value) := by
  induction count generalizing value with
  | zero => exact .pure value
  | succ count ih => exact .ite ((transfers 0xFF).bind ih) (.pure value)

theorem rxBytes_follows (count : Nat) : Follows Related (rxBytes card count) := by
  induction count with
  | zero => exact .pure []
  | succ count ih => exact (transfers 0xFF).bind fun byte => ih.bind fun rest => .pure _

theorem sendBytes_follows (bytes : List Byte) : Follows Related (sendBytes card bytes) := by
  induction bytes with
  | nil => exact .pure ()
  | cons byte rest ih => exact (transfers byte).bind fun _ => ih

theorem sdCmd_follows (cmd : Byte) (arg : BitVec 32) (crc : Byte) :
    Follows Related (sdCmd card cmd arg crc) :=
  (transfers 0xFF).bind fun _ => (sendBytes_follows transfers _).bind fun _ =>
    rxWhile_follows transfers _ 10 0xFF

theorem readData_follows (len : Nat) : Follows Related (readData card len) := by
  refine (rxWhile_follows transfers _ 8192 0xFF).bind fun t => .ite (.pure none) ?_
  exact (rxBytes_follows transfers len).bind fun data => (transfers 0xFF).bind fun _ =>
    (transfers 0xFF).bind fun _ => .pure _

end Bytes

theorem csLow_within : Follows (Within SD_CS) csLow := update_within (set_leaves (self_inside SD_CS))

theorem csHigh_closes : Follows (Closes SD_CS) csHigh := clear_closes

/-- The end of a window, and what follows it. -/
theorem csHigh_rx_closes {next : Firmware α} (uses : Follows (Uses SD_CS) next) :
    Follows (Closes SD_CS) (do csHigh; let _ ← rx card; next) :=
  closes_then csHigh_closes fun _ => (spiTransfer_uses card 0xFF).bind fun _ => uses

/-- A command, the bytes behind it and the end of its window. -/
theorem window_uses {next : Byte → Firmware α} (cmd : Byte) (arg : BitVec 32) (crc : Byte)
    (closes : ∀ r1, Follows (Closes SD_CS) (next r1)) :
    Follows (Uses SD_CS) (do csLow; let r1 ← sdCmd card cmd arg crc; next r1) :=
  uses_of_closes (closes_behind csLow_within fun _ =>
    closes_behind (sdCmd_follows (spiTransfer_within card) cmd arg crc) closes)

theorem readCommand_uses (cmd : Byte) (arg : BitVec 32) (len : Nat) :
    Follows (Uses SD_CS) (readCommand card cmd arg len) := by
  have ends (data : Option (List Byte)) :
      Follows (Closes SD_CS) (do csHigh; let _ ← rx card; pure data) := csHigh_rx_closes (.pure data)
  refine window_uses cmd arg 0x01 fun r1 => ?_
  dsimp only
  split
  · exact closes_behind (readData_follows (spiTransfer_within card) len) ends
  · exact closes_behind (.pure none) ends

theorem resetCard_uses (count : Nat) (r1 : Byte) : Follows (Uses SD_CS) (resetCard card count r1) := by
  induction count generalizing r1 with
  | zero => exact .pure r1
  | succ count ih => exact .ite (window_uses 0 0 0x95 fun r1 => csHigh_rx_closes (ih r1)) (.pure r1)

theorem initCard_uses (hcs : BitVec 32) (count : Nat) (r1 : Byte) :
    Follows (Uses SD_CS) (initCard card hcs count r1) := by
  induction count generalizing r1 with
  | zero => exact .pure r1
  | succ count ih =>
      refine .ite (window_uses 55 0 0x01 fun _ => ?_) (.pure r1)
      exact closes_behind (sdCmd_follows (spiTransfer_within card) 41 hcs 0x01) fun r1 =>
        csHigh_rx_closes (ih r1)

theorem sdSpiInit_uses : Follows (Uses SD_CS) (sdSpiInit card) := by
  have four : Follows (Within SD_CS) (rxBytes card 4) := rxBytes_follows (spiTransfer_within card) 4
  have idle : Follows (Uses SD_CS) (rxBytes card 10) := rxBytes_follows (spiTransfer_uses card) 10
  refine uses_of_closes (closes_then csHigh_closes fun _ => idle.bind fun _ => ?_)
  refine (resetCard_uses 10 0xFF).bind fun r1 => .ite (.pure none) ?_
  -- CMD8, the loop of ACMD41, and CMD58
  refine window_uses 8 0x1AA 0x87 fun r1 => closes_behind four fun r7 => csHigh_rx_closes ?_
  refine (initCard_uses _ 1000 0xFF).bind fun r1 => .ite (.pure none) ?_
  exact window_uses 58 0 0x01 fun _ => closes_behind four fun ocr => csHigh_rx_closes (.pure _)

theorem readBlocks_uses (sdhc : Bool) (lba buf : BitVec 32) (blocks b : Nat) (memory : Memory 32) :
    Follows (Uses SD_CS) (readBlocks card sdhc lba buf blocks b memory) := by
  induction blocks generalizing b memory with
  | zero => exact .pure _
  | succ blocks ih =>
      refine (readCommand_uses 17 _ 512).bind fun data => ?_
      cases data with
      | none => exact .pure _
      | some bytes => exact ih _ _

theorem sdSpiPrintInfo_uses : Follows (Uses SD_CS) (sdSpiPrintInfo card) :=
  (readCommand_uses 10 0 16).bind fun _ => (readCommand_uses 9 0 16).bind fun _ => .pure _

end SdSpi

end Mackerel.F
