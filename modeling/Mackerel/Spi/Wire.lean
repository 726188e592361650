import Mackerel.Bytes.Memory

namespace Spi

/-! A device at the end of a byte-wide serial port. What it answers to the next byte is a function of
everything the master has done, as a list of events. -/

open Bytes

variable {ε : Type}

/-- The bytes that the device gives for the next repetitions of one event, the idle byte. -/
def Gives (device : List ε → Byte) (idle : ε) : List ε → List Byte → Prop
  | _, [] => True
  | events, byte :: rest => device events = byte ∧ Gives device idle (events ++ [idle]) rest

variable {device : List ε → Byte} {idle : ε} {events : List ε} {byte : Byte} {first second : List Byte}

end Spi
