import Mackerel.M08.SdDriver
import Mackerel.Spi.Wire
import Mathlib.Data.List.Induction

namespace Mackerel.M08

open Bytes Device Spi

def idles (count : Nat) : List Event := List.replicate count (.byte 0xFF)

section Anything

variable (card : Card) {events : List Event}

variable {again : Byte → Bool}

variable (buf : BitVec 32)

/-- Nothing behind the buffer changes. -/
def Behind (buf : BitVec 32) (blocks : Nat) (memory after : Memory 32) : Prop :=
  ∀ addr, 512 * blocks ≤ Memory.offset buf addr → after addr = memory addr

theorem Behind.store {buf : BitVec 32} {block blocks : Nat} {memory after : Memory 32} {bytes : List Byte}
    (size : bytes.length = 512) (behind : Behind buf (block + 1 + blocks)
      (memory.storeBytes (buf + BitVec.ofNat 32 (512 * block)) bytes) after) :
    Behind buf (block + (blocks + 1)) memory after := by
  intro addr outside
  have top : Memory.offset buf addr < 2 ^ 32 := Memory.offset_lt
  rw [behind addr (by omega), Memory.storeBytes, size, Memory.store_at memory buf addr _ (by omega),
    if_neg (by omega)]

/-- The select edge and the command. -/
def asked (before : List Event) (cmd : Byte) (arg : BitVec 32) : List Event :=
  before ++ .cs true :: (command cmd arg).map .byte

end Anything

section Serving

/-- The delay before a data token, and the CRC behind the block. -/
structure Timing where
  tokenDelay : Nat
  quick : tokenDelay < 8192
  crc : Byte × Byte

/-- How the card answers each command, by everything before the end of it. -/
structure Script where
  r1Delay : List Event → Nat
  quick : ∀ events, r1Delay events < SPI_RETRY_LIMIT
  timing : List Event → Nat → Timing

abbrev Contents := BitVec 32 → Vector Byte 512

def Timing.stream (timing : Timing) (block : Vector Byte 512) : List Byte :=
  List.replicate timing.tokenDelay 0xFF ++ 0xFE :: (block.toList ++ [timing.crc.1, timing.crc.2])

/-- The blocks behind R1, from one of them on. -/
def blockStream (contents : Contents) (timing : Nat → Timing) (start : BitVec 32) :
    (blocks block : Nat) → List Byte
  | 0, _ => []
  | blocks + 1, block =>
      (timing block).stream (contents (start + BitVec.ofNat 32 block)) ++
        blockStream contents timing start blocks (block + 1)

def Script.stream (script : Script) (contents : Contents) (asked : List Event) (start : BitVec 32)
    (blocks : Nat) : List Byte :=
  List.replicate (script.r1Delay asked) 0xFF ++
    0x00 :: blockStream contents (script.timing asked) start blocks 0

variable {card : Card} {script : Script} {contents : Contents} {events before : List Event}

variable (contents) (start buf : BitVec 32)

/-- The blocks one after the other in the buffer. -/
def placed : (blocks block : Nat) → Memory 32 → Memory 32
  | 0, _, memory => memory
  | blocks + 1, block, memory =>
      placed blocks (block + 1) (memory.storeBytes (buf + BitVec.ofNat 32 (512 * block))
        (contents (start + BitVec.ofNat 32 block)).toList)

variable {contents start}

end Serving

/-- How many bytes there have been since the last change of the chip select. -/
def bytesSince (events : List Event) : Nat :=
  events.foldl (fun count event => match event with | .cs _ => 0 | .byte _ => count + 1) 0

/-- A card of zeros that answers without any delay. -/
def zeroCard : Card := fun events =>
  if (bytesSince events - 6) % 515 = 1 then 0xFE else 0x00

end Mackerel.M08
