import Mackerel.Bytes.Memory
import Mackerel.Bytes.Words

namespace Mackerel.W5500

open Bytes

/-! The W5500 at its SPI frames: the common registers and socket 0, with what the network does
between two accesses. -/

def bsbCommon : Byte := 0x00
def bsbS0Reg : Byte := 0x01
def bsbS0Rx : Byte := 0x03
def rwWrite : Byte := 0x04

def w5Mr : BitVec 16 := 0x0000
def w5Gar : BitVec 16 := 0x0001
def w5Subr : BitVec 16 := 0x0005
def w5Shar : BitVec 16 := 0x0009
def w5Sipr : BitVec 16 := 0x000F
def w5Versionr : BitVec 16 := 0x0039

def s0Mr : BitVec 16 := 0x0000
def s0Cr : BitVec 16 := 0x0001
def s0Sr : BitVec 16 := 0x0003
def s0Port : BitVec 16 := 0x0004
def s0Dipr : BitVec 16 := 0x000C
def s0Dport : BitVec 16 := 0x0010
def s0RxRsr : BitVec 16 := 0x0026
def s0RxRd : BitVec 16 := 0x0028

def crOpen : Byte := 0x01
def crConnect : Byte := 0x04
def crDiscon : Byte := 0x08
def crClose : Byte := 0x10
def crRecv : Byte := 0x40
def srClosed : Byte := 0x00
def srInit : Byte := 0x13
def srSynSent : Byte := 0x15
def srEstablished : Byte := 0x17
def srFinWait : Byte := 0x18
def srCloseWait : Byte := 0x1C
def mrTcp : Byte := 0x01
def mrReset : Byte := 0x80

/-- What the chip has begun and not finished. -/
inductive Work where
  | none
  | reset
  | opening
  | connecting

/-- The chip; `start` is the address of the first buffered byte, `register` has the registers
    without a function here and the stale bytes of the receive buffer. -/
structure Chip where
  register : Byte → BitVec 16 → Byte
  work : Work
  status : Byte
  buffered : List Byte
  start : BitVec 16
  rxRd : BitVec 16

def high (word : BitVec 16) : Byte := word.extractLsb' 8 8
def low (word : BitVec 16) : Byte := word.extractLsb' 0 8

namespace Chip

def rxRsr (chip : Chip) : BitVec 16 := BitVec.ofNat 16 chip.buffered.length

def modeByte (chip : Chip) : Byte :=
  match chip.work with
  | .reset => mrReset
  | _ => 0

/-- The byte at a distance from the first buffered one. -/
def received (chip : Chip) (addr : BitVec 16) : Byte :=
  chip.buffered.getD (addr - chip.start).toNat (chip.register bsbS0Rx addr)

def read (chip : Chip) (bsb : Byte) (addr : BitVec 16) : Byte :=
  if bsb = bsbS0Rx then chip.received addr
  else if bsb = bsbCommon ∧ addr = w5Mr then chip.modeByte
  else if bsb = bsbS0Reg ∧ addr = s0Sr then chip.status
  else if bsb = bsbS0Reg ∧ addr = s0RxRsr then high chip.rxRsr
  else if bsb = bsbS0Reg ∧ addr = s0RxRsr + 1 then low chip.rxRsr
  else if bsb = bsbS0Reg ∧ addr = s0RxRd then high chip.rxRd
  else if bsb = bsbS0Reg ∧ addr = s0RxRd + 1 then low chip.rxRd
  else chip.register bsb addr

def reset (chip : Chip) : Chip :=
  { chip with work := .reset, status := srClosed, buffered := [] }

/-- A command that is written to `S0_CR`; RECV frees the bytes up to `S0_RX_RD`. -/
def command (chip : Chip) (cr : Byte) : Chip :=
  if cr = crOpen then { chip with work := .opening, status := srClosed }
  else if cr = crConnect then { chip with work := .connecting, status := srSynSent }
  else if cr = crRecv then
    { chip with
      buffered := chip.buffered.drop (chip.rxRd - chip.start).toNat
      start := chip.rxRd }
  else if cr = crDiscon then { chip with work := .none, status := srFinWait }
  else if cr = crClose then { chip with work := .none, status := srClosed }
  else chip

def write (chip : Chip) (bsb : Byte) (addr : BitVec 16) (byte : Byte) : Chip :=
  if bsb = bsbCommon ∧ addr = w5Mr ∧ byte &&& mrReset ≠ 0 then chip.reset
  else if bsb = bsbS0Reg ∧ addr = s0Cr then chip.command byte
  else if bsb = bsbS0Reg ∧ addr = s0RxRd then { chip with rxRd := byte ++ low chip.rxRd }
  else if bsb = bsbS0Reg ∧ addr = s0RxRd + 1 then { chip with rxRd := high chip.rxRd ++ byte }
  else
    { chip with
      register := fun block place =>
        if block = bsb ∧ place = addr then byte else chip.register block place }

/-- Consecutive registers in one frame. -/
def reads (chip : Chip) (bsb : Byte) (addr : BitVec 16) : (len : Nat) → List Byte
  | 0 => []
  | len + 1 => chip.read bsb addr :: chip.reads bsb (addr + 1) len

def writes (chip : Chip) (bsb : Byte) (addr : BitVec 16) : List Byte → Chip
  | [] => chip
  | byte :: rest => (chip.write bsb addr byte).writes bsb (addr + 1) rest

/-- One frame, from chip select to deselect: what comes back for the bytes that are sent. -/
def frame (chip : Chip) : List Byte → List Byte × Chip
  | first :: second :: control :: data =>
      let addr := first ++ second
      let bsb := control >>> 3
      if control &&& rwWrite ≠ 0 then
        (List.replicate (3 + data.length) 0, chip.writes bsb addr data)
      else (0 :: 0 :: 0 :: chip.reads bsb addr data.length, chip)
  | short => (List.replicate short.length 0, chip)

end Chip

/-- What happens before one access: whether the work of the chip is done or a connection refused,
    the length of the next segments, and whether the end of the stream comes behind them. -/
structure Arrival where
  done : Bool
  refused : Bool
  pointer : BitVec 16
  segment : Nat
  fin : Bool

/-- A peer that sends `peer` and closes, over a network with any timing. -/
structure Network where
  peer : List Byte
  arrivals : Nat → Arrival
  capacity : Nat
  bound : capacity < 2 ^ 16

/-- The chip, the bytes of the peer that have not arrived, whether its FIN has, and the number of
    accesses so far. -/
structure Nic where
  chip : Chip
  inFlight : List Byte
  ended : Bool
  accesses : Nat

namespace Nic

/-- The work of the chip; a new connection starts at any address. -/
def finish (network : Network) (arrival : Arrival) (nic : Nic) : Nic :=
  match nic.chip.work with
  | .none => nic
  | .reset => if arrival.done then { nic with chip.work := .none } else nic
  | .opening => if arrival.done then { nic with chip.work := .none, chip.status := srInit } else nic
  | .connecting =>
      if arrival.refused then { nic with chip.work := .none, chip.status := srClosed }
      else if arrival.done then
        { nic with
          chip.work := .none
          chip.status := srEstablished
          chip.buffered := []
          chip.start := arrival.pointer
          chip.rxRd := arrival.pointer
          inFlight := network.peer
          ended := false }
      else nic

/-- Bytes arrive as far as there is room. -/
def deliver (network : Network) (arrival : Arrival) (nic : Nic) : Nic :=
  let count := min arrival.segment (network.capacity - nic.chip.buffered.length)
  { nic with
    chip.buffered := nic.chip.buffered ++ nic.inFlight.take count
    inFlight := nic.inFlight.drop count }

/-- The FIN comes behind the last byte. -/
def close (arrival : Arrival) (nic : Nic) : Nic :=
  if arrival.fin ∧ nic.inFlight = [] then { nic with chip.status := srCloseWait, ended := true }
  else nic

def arrive (network : Network) (arrival : Arrival) (nic : Nic) : Nic :=
  let nic := nic.finish network arrival
  if nic.chip.status = srEstablished then (nic.deliver network arrival).close arrival else nic

def later (network : Network) (nic : Nic) : Nic :=
  { nic.arrive network (network.arrivals nic.accesses) with accesses := nic.accesses + 1 }

end Nic

end Mackerel.W5500
