import Mackerel.Bytes.Memory
import Mathlib.Data.List.Induction

namespace Mackerel.F

open Bytes

/-! The GPIO register and the two SPI masters of Mackerel-F, as the firmware uses them. -/

/-- A write to the GPIO register, or a byte through one of the masters. -/
inductive Event where
  | gpio (value : Byte)
  | sd (mosi : Byte)
  | nic (mosi : Byte)
deriving DecidableEq

/-- What the devices put on the MISO line during the next byte, after everything that has happened. -/
abbrev Devices := List Event → Byte

/-- The register holds what was last written to it; it is 0 at power-up. -/
def gpioOf (events : List Event) : Byte :=
  events.foldl (fun held event => match event with | .gpio value => value | _ => held) 0

/-- Code that runs on the board; its state is what it has done so far. -/
abbrev Firmware := StateM (List Event)

def readGpio : Firmware Byte := fun events => (gpioOf events, events)

def writeGpio (value : Byte) : Firmware Unit := fun events => ((), events ++ [.gpio value])

variable (devices : Devices)

/-- `spi_transfer` of `spi_tiny.c`. -/
def spiTransfer (tx : Byte) : Firmware Byte := fun events => (devices events, events ++ [.sd tx])

/-- `spi2` of `w5500.c`. -/
def spi2 (tx : Byte) : Firmware Byte := fun events => (devices events, events ++ [.nic tx])

variable {events : List Event}

@[simp]
theorem gpioOf_gpio (value : Byte) : gpioOf (events ++ [.gpio value]) = value := by
  simp [gpioOf]

@[simp]
theorem gpioOf_sd (mosi : Byte) : gpioOf (events ++ [.sd mosi]) = gpioOf events := by
  simp [gpioOf]

@[simp]
theorem gpioOf_nic (mosi : Byte) : gpioOf (events ++ [.nic mosi]) = gpioOf events := by
  simp [gpioOf]

end Mackerel.F
