import Mackerel.Bytes.Memory
import Mackerel.Bytes.Words
import Mackerel.Serial.Line

namespace Mackerel.Ymodem

open Bytes Serial

/-! `ymodem_recv`. Every poll of the serial line with a time limit (`rx_ms`) is a poll of the
line; the bytes that the receiver sends are kept in order. -/

abbrev rxMs : Poll Byte (Option Byte) := poll

def soh : Byte := 0x01
def stx : Byte := 0x02
def eot : Byte := 0x04
def ack : Byte := 0x06
def nak : Byte := 0x15
def can : Byte := 0x18
def crcC : Byte := 0x43
def maxIdle : Nat := 10
def errTimeout : Int := -1
def errCancel : Int := -2

def crcShift (crc : BitVec 16) : BitVec 16 :=
  if crc &&& 0x8000 ≠ 0 then (crc <<< 1) ^^^ 0x1021 else crc <<< 1

def crcByte (crc : BitVec 16) (byte : Byte) : BitVec 16 :=
  (List.range 8).foldl (fun crc _ => crcShift crc) (crc ^^^ (byte.setWidth 16 <<< 8))

def crc16 (p : Block) (n : Nat) : BitVec 16 :=
  (List.range n).foldl (fun crc i => crcByte crc (p i)) 0

/-- The destination: `buf` and `bufsz`. The static `blk` is another object of the same address
    space. -/
structure Buffer where
  buf : BitVec 32
  bufsz : Nat
  room : bufsz + 1024 ≤ 2 ^ 32

/-- The variables of the function; `size` is `*size`. -/
structure Receiver where
  memory : Memory 32
  blk : Block
  name : Block
  size : Nat
  total : Nat
  fsize : Nat
  expect : Byte
  haveHeader : Bool
  trailer : Bool
  idle : Nat
  sent : List Byte

namespace Receiver

def putc (r : Receiver) (byte : Byte) : Receiver := { r with sent := r.sent ++ [byte] }

def start (memory : Memory 32) (blk name : Block) : Receiver :=
  putc
    { memory, blk
      name := fun i => if i = 0 then 0 else name i
      size := 0, total := 0, fsize := 0, expect := 0
      haveHeader := false, trailer := false, idle := 0, sent := [] }
    crcC

end Receiver

/-- The loop that fills `blk` from index `i`; the result is whether no byte was missing. -/
def fill : (left i : Nat) → Block → Poll Byte (Bool × Block)
  | 0, _, blk => pure (true, blk)
  | left + 1, i, blk => do
      match ← rxMs with
      | none => pure (false, blk)
      | some d => fill left (i + 1) fun j => if j = i then d else blk j

/-- The loop that drains the rest of a bad block. -/
def drain : Poll Byte Unit
  | [] => none
  | none :: rest => some ((), rest)
  | some _ :: rest => drain rest

/-- The checks of a block: its number, if its two number bytes, its length and its checksum are
    right. -/
def checked (filled : Bool) (crc : BitVec 16) : (bn bnc ch cl : Option Byte) → Option Byte
  | some bn, some bnc, some ch, some cl =>
      if bn + bnc = 0xFF ∧ filled = true ∧ crc = ch ++ cl then some bn else none
  | _, _, _, _ => none

/-- The end of a block; a bad one is drained. -/
def settle (blk : Block) : Option Byte → Poll Byte (Option Byte × Block)
  | some bn => pure (some bn, blk)
  | none => do
      drain
      pure (none, blk)

/-- A block after its start byte: its number, unless it is bad, and the new `blk`. -/
def receiveBlock (len : Nat) (blk : Block) : Poll Byte (Option Byte × Block) := do
  let bn ← rxMs
  let bnc ← rxMs
  let (filled, blk) ← fill len 0 blk
  let ch ← rxMs
  let cl ← rxMs
  settle blk (checked filled (crc16 blk len) bn bnc ch cl)

/-- The first index from `i` on with a zero byte, at most 100. -/
def nameEnd (blk : Block) : (left i : Nat) → Nat
  | 0, i => i
  | left + 1, i => if blk i = 0 then i else nameEnd blk left (i + 1)

/-- The two loops over the size field, from index `j`; `left` bytes of `blk` remain. -/
def skipSpaces (blk : Block) : (left j : Nat) → Option Nat
  | 0, _ => none
  | left + 1, j => if blk j = 0x20 then skipSpaces blk left (j + 1) else some j

def readSize (blk : Block) : (left j fsize : Nat) → Option Nat
  | 0, _, _ => none
  | left + 1, j, fsize =>
      if 0x30 ≤ blk j ∧ blk j ≤ 0x39 then
        readSize blk left (j + 1) (u32 (fsize * 10 + ((blk j).toNat - 0x30)))
      else some fsize

/-- What a turn of the loop leads to; `outOfBounds` is a read behind the end of `blk`. -/
inductive Verdict where
  | next (r : Receiver)
  | returned (result : Int) (r : Receiver)
  | outOfBounds

/-- A header block: `filename\0size ...`. -/
def acceptHeader (r : Receiver) : Verdict :=
  if r.blk 0 = 0 then .returned 0 (r.putc ack)
  else
    let i := nameEnd r.blk 100 0
    let name : Block := fun k => if k < i then r.blk k else if k = i then 0 else r.name k
    match skipSpaces r.blk (1024 - (i + 1)) (i + 1) with
    | none => .outOfBounds
    | some j =>
        match readSize r.blk (1024 - j) j r.fsize with
        | none => .outOfBounds
        | some fsize =>
            .next (({ r with name, fsize, haveHeader := true, expect := 1 }.putc ack).putc crcC)

/-- The bytes that a data block adds: without the padding, and never past the buffer. -/
def copied (dest : Buffer) (r : Receiver) (len : Nat) : Nat :=
  let copy := if r.fsize ≠ 0 ∧ u32 (r.total + len) > r.fsize then u32 (r.fsize - r.total) else len
  if u32 (r.total + copy) > dest.bufsz then
    if r.total < dest.bufsz then dest.bufsz - r.total else 0
  else copy

def storeBlock (dest : Buffer) (len : Nat) (r : Receiver) : Receiver :=
  let copy := copied dest r len
  { r with
    memory := r.memory.store (dest.buf + BitVec.ofNat 32 r.total) copy r.blk
    total := u32 (r.total + copy)
    expect := r.expect + 1 }.putc ack

def acceptBlock (dest : Buffer) (bn : Byte) (len : Nat) (r : Receiver) : Verdict :=
  if bn = r.expect then
    if r.trailer then .returned (int32 r.total) { r.putc ack with size := r.fsize }
    else if !r.haveHeader then acceptHeader r
    else .next (storeBlock dest len r)
  else if bn = r.expect - 1 then .next (r.putc ack)
  else .next (r.putc nak)

def onTimeout (r : Receiver) : Verdict :=
  let r := { r with idle := r.idle + 1 }
  if maxIdle < r.idle then .returned errTimeout r
  else .next (r.putc (if !r.haveHeader || r.trailer then crcC else nak))

def onEot (r : Receiver) : Receiver :=
  { r.putc ack with trailer := true, expect := 0 }.putc crcC

def blockLength (hdr : Byte) : Nat := if hdr = soh then 128 else 1024

def onBlock (dest : Buffer) (len : Nat) (r : Receiver) : Poll Byte Verdict := do
  let (number, blk) ← receiveBlock len r.blk
  match number with
  | none => pure (.next ({ r with blk }.putc nak))
  | some bn => pure (acceptBlock dest bn len { r with blk })

def onByte (dest : Buffer) (r : Receiver) (hdr : Byte) : Poll Byte Verdict :=
  if hdr = eot then pure (.next (onEot r))
  else if hdr = can then do
    let second ← rxMs
    pure (if second = some can then .returned errCancel r else .next r)
  else if hdr ≠ soh ∧ hdr ≠ stx then pure (.next r)
  else onBlock dest (blockLength hdr) r

def turn (dest : Buffer) (r : Receiver) : Poll Byte Verdict := do
  match ← rxMs with
  | none => pure (onTimeout r)
  | some hdr => onByte dest { r with idle := 0 } hdr

/-- Where the function is when the line ends: still polling, since the loop reached `r` last, or
    returned. -/
inductive Progress where
  | waiting (r : Receiver)
  | returned (result : Int) (r : Receiver)
  | outOfBounds

def loop (dest : Buffer) : (fuel : Nat) → Receiver → Line Byte → Progress
  | 0, r, _ => .waiting r
  | fuel + 1, r, line =>
      match turn dest r line with
      | none => .waiting r
      | some (.next r, rest) => loop dest fuel r rest
      | some (.returned result r, _) => .returned result r
      | some (.outOfBounds, _) => .outOfBounds

/-- Every turn polls, so the length of the line is fuel enough. -/
def recv (dest : Buffer) (r : Receiver) (line : Line Byte) : Progress :=
  loop dest (line.length + 1) r line

def ymodemRecv (dest : Buffer) (memory : Memory 32) (blk name : Block) (line : Line Byte) : Progress :=
  recv dest (.start memory blk name) line

end Mackerel.Ymodem
