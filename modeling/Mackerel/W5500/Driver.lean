import Mackerel.Loops.Turns
import Mackerel.W5500.Chip

namespace Mackerel.W5500

open Bytes Loops

/-! The driver, on any means of exchanging a frame: every SPI frame, from `cs_low` to `cs_high`, is one
access. -/

section Driver

variable {σ : Type} (exchange : List Byte → StateM σ (List Byte))

def w5Write (addr : BitVec 16) (bsb : Byte) (data : List Byte) : StateM σ Unit := do
  let _ ← exchange ([high addr, low addr, bsb <<< 3 ||| rwWrite] ++ data)

/-- The result is what the function stores in `data`. -/
def w5Read (addr : BitVec 16) (bsb : Byte) (len : Nat) : StateM σ (List Byte) := do
  let miso ← exchange ([high addr, low addr, bsb <<< 3] ++ List.replicate len 0xFF)
  pure (miso.drop 3)

def w5Rb (addr : BitVec 16) (bsb : Byte) : StateM σ Byte := do
  let v ← w5Read exchange addr bsb 1
  pure (v.getD 0 0)

def w5Wb (addr : BitVec 16) (bsb v : Byte) : StateM σ Unit := w5Write exchange addr bsb [v]

def w5Rw (addr : BitVec 16) (bsb : Byte) : StateM σ (BitVec 16) := do
  let t ← w5Read exchange addr bsb 2
  pure (t.getD 0 0 ++ t.getD 1 0)

def w5Ww (addr : BitVec 16) (bsb : Byte) (v : BitVec 16) : StateM σ Unit :=
  w5Write exchange addr bsb [high v, low v]

/-- The loop `for (i = 0; i < count && again(register); i++) {}`. -/
def pollWhile (reading : StateM σ Byte) (again : Byte → Bool) : (count : Nat) → StateM σ Unit
  | 0 => pure ()
  | count + 1 => do
      let value ← reading
      if again value then pollWhile reading again count else pure ()

def w5500Init (mac ip gw sub : List Byte) : StateM σ Bool := do
  w5Wb exchange w5Mr bsbCommon mrReset
  pollWhile (w5Rb exchange w5Mr bsbCommon) (fun mr => mr &&& mrReset ≠ 0) 100000
  let version ← w5Rb exchange w5Versionr bsbCommon
  if version ≠ 0x04 then pure false
  else do
    w5Write exchange w5Shar bsbCommon mac
    w5Write exchange w5Sipr bsbCommon ip
    w5Write exchange w5Gar bsbCommon gw
    w5Write exchange w5Subr bsbCommon sub
    pure true

/-- The loop that waits for the handshake. -/
def awaitConnect : (count : Nat) → StateM σ Bool
  | 0 => pure false
  | count + 1 => do
      let sr ← w5Rb exchange s0Sr bsbS0Reg
      if sr = srEstablished then pure true
      else if sr = srClosed then pure false
      else awaitConnect count

def w5500TcpConnect (dip : List Byte) (dport sport : BitVec 16) : StateM σ Bool := do
  w5Wb exchange s0Mr bsbS0Reg mrTcp
  w5Ww exchange s0Port bsbS0Reg sport
  w5Wb exchange s0Cr bsbS0Reg crOpen
  pollWhile (w5Rb exchange s0Sr bsbS0Reg) (fun sr => sr ≠ srInit) 100000
  let sr ← w5Rb exchange s0Sr bsbS0Reg
  if sr ≠ srInit then pure false
  else do
    w5Write exchange s0Dipr bsbS0Reg dip
    w5Ww exchange s0Dport bsbS0Reg dport
    w5Wb exchange s0Cr bsbS0Reg crConnect
    awaitConnect exchange 30000000

/-- With nothing buffered: whether the peer has closed and everything is drained. -/
def closedAndDrained : StateM σ Bool := do
  let sr ← w5Rb exchange s0Sr bsbS0Reg
  if sr = srCloseWait ∨ sr = srClosed then do
    let rsr ← w5Rw exchange s0RxRsr bsbS0Reg
    pure (rsr = 0)
  else pure false

def receiveChunk (chunk : BitVec 16) : StateM σ (List Byte) := do
  let rd ← w5Rw exchange s0RxRd bsbS0Reg
  let data ← w5Read exchange rd bsbS0Rx chunk.toNat
  w5Ww exchange s0RxRd bsbS0Reg (rd + chunk)
  w5Wb exchange s0Cr bsbS0Reg crRecv
  pure data

/-- One turn of the receive loop: the bytes of a chunk, which may be none, or a short read. -/
def receiveTurn (want : Nat) : StateM σ (Option (List Byte)) := do
  let rsr ← w5Rw exchange s0RxRsr bsbS0Reg
  if rsr = 0 then do
    let short ← closedAndDrained exchange
    pure (if short then none else some [])
  else do
    let data ← receiveChunk exchange (if rsr.toNat < want then rsr else BitVec.ofNat 16 want)
    pure (some data)

/-- The object that `dst` points into, the bytes that have been stored there, and the chip. -/
structure Receiving (σ : Type) where
  object : Memory 32
  got : Nat
  nic : σ

structure Returned (σ : Type) where
  ok : Bool
  object : Memory 32
  nic : σ

def recvTurn (dst : BitVec 32) (len : Nat) (r : Receiving σ) : Status (Receiving σ) (Returned σ) :=
  if r.got < len then
    match receiveTurn exchange (len - r.got) r.nic with
    | (none, nic) => .done ⟨false, r.object, nic⟩
    | (some data, nic) =>
        .again
          { object := r.object.storeBytes (dst + BitVec.ofNat 32 r.got) data
            got := u32 (r.got + data.length)
            nic }
  else .done ⟨true, r.object, r.nic⟩

def w5500TcpRecv (dst : BitVec 32) (len fuel : Nat) (object : Memory 32) (nic : σ) :
    Status (Receiving σ) (Returned σ) :=
  run (recvTurn exchange dst len) fuel { object, got := 0, nic }

def w5500TcpClose : StateM σ Unit := do
  w5Wb exchange s0Cr bsbS0Reg crDiscon
  w5Wb exchange s0Cr bsbS0Reg crClose

end Driver

abbrev Driver := StateM Nic

def exchange (network : Network) (mosi : List Byte) : Driver (List Byte) := fun nic =>
  let nic := nic.later network
  let (miso, chip) := nic.chip.frame mosi
  (miso, { nic with chip })

end Mackerel.W5500
