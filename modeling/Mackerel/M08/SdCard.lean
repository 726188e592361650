import Mackerel.M08.SdPins

namespace Mackerel.M08

open Bytes Device Duart

/-! An SD card in SPI mode as a state machine over the bytes that it receives while it is selected.
It takes commands of six bytes at any distance, whatever its chip select does in between. -/

/-- What cards differ in: whether they know CMD8, whether they count blocks or bytes, how many ACMD41
    they take until they are ready, their registers, how long each answer takes, and what is in the
    blocks. -/
structure SdCard where
  version2 : Bool
  highCapacity : Bool
  known : highCapacity = true → version2 = true
  busy : Nat
  ocr : Vector Byte 4
  ccs : ocr[0].getLsbD 6 = highCapacity
  cid : Vector Byte 16
  csd : Vector Byte 16
  r1Delay : Nat → Nat
  quick : ∀ command, r1Delay command ≤ 8
  timing : Nat → Nat → Timing
  contents : Contents

/-- `stream` is the block of CMD18 that comes next, with the number of the command. -/
structure SdState where
  selected : Bool
  frame : List Byte
  out : List Byte
  stream : Option (Nat × BitVec 32 × Nat)
  ready : Bool
  app : Bool
  polls : Nat
  commands : Nat

namespace SdCard

/-- A card at power-up. -/
def powerUp : SdState where
  selected := false
  frame := []
  out := []
  stream := none
  ready := false
  app := false
  polls := 0
  commands := 0

variable (c : SdCard)

def respond (s : SdState) (response : List Byte) : SdState :=
  { s with
    frame := []
    out := List.replicate (c.r1Delay s.commands) 0xFF ++ response
    stream := none
    app := false
    commands := s.commands + 1 }

def blockBytes (command : Nat) (start : BitVec 32) (block : Nat) : List Byte :=
  (c.timing command block).stream (c.contents (start + BitVec.ofNat 32 block))

/-- A register comes as data. -/
def registerBytes (command : Nat) (register : Vector Byte 16) : List Byte :=
  List.replicate (c.timing command 0).tokenDelay 0xFF ++
    0xFE :: (register.toList ++ [(c.timing command 0).crc.1, (c.timing command 0).crc.2])

/-- R1 in the idle state and in the ready state. -/
def r1 (s : SdState) : Byte := if s.ready then 0x00 else 0x01

def illegal (s : SdState) : SdState := c.respond s [r1 s ||| 0x04]

def addressError (s : SdState) : SdState := c.respond s [r1 s ||| 0x20]

/-- The block at the address of a read. -/
def block? (arg : BitVec 32) : Option (BitVec 32) :=
  if c.highCapacity then some arg else if arg.toNat % 512 = 0 then some (BitVec.ofNat 32 (arg.toNat / 512)) else none

/-- A host that can count blocks says so in ACMD41. -/
def hostAgrees (arg : BitVec 32) : Bool := !c.highCapacity || arg.getLsbD 30

theorem hostAgrees_hcs : c.hostAgrees 0x40000000 = true := by
  have hcs : (0x40000000 : BitVec 32).getLsbD 30 = true := rfl
  rw [hostAgrees, hcs, Bool.or_true]

def execute (s : SdState) (index : Nat) (arg : BitVec 32) : SdState :=
  match index with
  | 0 => { c.respond s [0x01] with ready := false, polls := 0 }
  | 8 => if c.version2 then c.respond s [r1 s, 0x00, 0x00, arg.extractLsb' 8 8, arg.extractLsb' 0 8]
      else c.illegal s
  | 9 => if s.ready then c.respond s (0x00 :: c.registerBytes s.commands c.csd) else c.illegal s
  | 10 => if s.ready then c.respond s (0x00 :: c.registerBytes s.commands c.cid) else c.illegal s
  | 12 => c.respond s [0xFF, r1 s]
  | 17 =>
      if s.ready then
        match c.block? arg with
        | some block => c.respond s (0x00 :: c.blockBytes s.commands block 0)
        | none => c.addressError s
      else c.illegal s
  | 18 =>
      if s.ready then
        match c.block? arg with
        | some block => { c.respond s (0x00 :: c.blockBytes s.commands block 0) with stream := some (s.commands, block, 1) }
        | none => c.addressError s
      else c.illegal s
  | 41 =>
      if !s.app then c.illegal s
      else if s.ready then c.respond s [0x00]
      else if c.busy ≤ s.polls && c.hostAgrees arg then { c.respond s [0x00] with ready := true }
      else { c.respond s [0x01] with polls := s.polls + 1 }
  | 55 => { c.respond s [r1 s] with app := true }
  | 58 => c.respond s (r1 s :: c.ocr.toList)
  | _ => c.illegal s

/-- The byte on MISO is gone. Behind a block of CMD18 the next one follows. -/
def shiftOut (s : SdState) : SdState :=
  match s.out.tail, s.stream with
  | [], some (command, start, block) =>
      { s with out := c.blockBytes command start block, stream := some (command, start, block + 1) }
  | rest, _ => { s with out := rest }

/-- A command begins with the bits 01. -/
def receive (s : SdState) (b : Byte) : SdState :=
  if !s.selected then s
  else
    let s := c.shiftOut s
    match s.frame with
    | [] => if b &&& 0xC0 = 0x40 then { s with frame := [b] } else s
    | [b0, b1, b2, b3, b4] => c.execute s (b0 &&& 0x3F).toNat (b1 ++ b2 ++ b3 ++ b4)
    | frame => { s with frame := frame ++ [b] }

def step (s : SdState) : Event → SdState
  | .cs low => { s with selected := low }
  | .byte b => c.receive s b

def run (events : List Event) : SdState := events.foldl c.step powerUp

def answer (s : SdState) : Byte := if s.selected then s.out.headD 0xFF else 0xFF

def card : Card := fun events => answer (c.run events)

end SdCard

end Mackerel.M08
