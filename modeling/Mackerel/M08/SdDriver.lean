import Mackerel.Bytes.Memory
import Mackerel.Device.Programs

namespace Mackerel.M08

open Bytes Device

/-! The block reads of `sd.c`, as programs over the byte functions of `spi.c`, which run on the card's own
bytes as they run on the port pins. -/

def SPI_EMPTY : Byte := 0xFF
def SPI_RETRY_LIMIT : Nat := 10

/-- The functions of `spi.c` that move bytes, with `CS_SD` for the chip select. -/
inductive ByteOp where
  | csLow
  | csHigh
  | byte (b : Byte)
  | recv

abbrev ByteOp.Result : ByteOp → Type
  | .csLow | .csHigh => Unit
  | .byte _ | .recv => Byte

/-- The chip select of the card, or a byte. -/
inductive Event where
  | cs (low : Bool)
  | byte (mosi : Byte)
deriving DecidableEq

/-- What the card puts on MISO during the next byte, after everything that has happened. -/
abbrev Card := List Event → Byte

abbrev Firmware := StateM (List Event)

def Selected (events : List Event) : Prop :=
  events.foldl (fun selected event => match event with | .cs low => low | _ => selected) false = true

/-- The level of the MOSI pin is that of the last bit sent. -/
def mosiHigh (events : List Event) : Bool :=
  events.foldl (fun level event => match event with | .byte mosi => mosi.getLsbD 0 | _ => level) true

def spiCsLow : Firmware Unit := fun events => ((), events ++ [.cs true])

def spiCsHigh : Firmware Unit := fun events => ((), events ++ [.cs false])

variable (card : Card)

def spiByte (b : Byte) : Firmware Byte := fun events => (card events, events ++ [.byte b])

/-- Only the clock moves. -/
def spiRecv : Firmware Byte := fun events =>
  (card events, events ++ [.byte (if mosiHigh events then 0xFF else 0x00)])

def onCard : Handler ByteOp ByteOp.Result (List Event)
  | .csLow => spiCsLow
  | .csHigh => spiCsHigh
  | .byte b => spiByte card b
  | .recv => spiRecv card

/-- `CMD12`, `CMD17` or `CMD18` with an argument. -/
def command (cmd : Byte) (arg : BitVec 32) : List Byte :=
  [0x40 + cmd, arg.extractLsb' 24 8, arg.extractLsb' 16 8, arg.extractLsb' 8 8, arg.extractLsb' 0 8, 0x01]

structure ReadResult where
  ok : Bool
  memory : Memory 32

abbrev ByteCode := Program ByteOp ByteOp.Result

namespace Code

def csLow : ByteCode Unit := Program.perform ByteOp.csLow

def csHigh : ByteCode Unit := Program.perform ByteOp.csHigh

def byte (b : Byte) : ByteCode Byte := Program.perform (ByteOp.byte b)

def recv : ByteCode Byte := Program.perform ByteOp.recv

def recvs : (count : Nat) → ByteCode (List Byte)
  | 0 => pure []
  | count + 1 => do
      let byte ← recv
      let rest ← recvs count
      pure (byte :: rest)

def sendBytes : List Byte → ByteCode Unit
  | [] => pure ()
  | b :: rest => do
      let _ ← byte b
      sendBytes rest

/-- The loop `do result = spi_byte(SPI_EMPTY); while (again(result) && more turns are left);`. -/
def poll (again : Byte → Bool) : (more : Nat) → ByteCode Byte
  | 0 => byte SPI_EMPTY
  | more + 1 => do
      let result ← byte SPI_EMPTY
      if again result then poll again more else pure result

def sdSendCommand (bytes : List Byte) : ByteCode Byte := do
  sendBytes bytes
  poll (fun r => r = 0xFF) (SPI_RETRY_LIMIT - 1)

/-- The wait for a data token. -/
def awaitToken : ByteCode Byte := poll (fun result => result ≠ 0xFE) 8191

/-- A block and its CRC. -/
def receiveBlock : ByteCode (List Byte) := do
  let bytes ← recvs 512
  let _ ← recv
  let _ ← recv
  pure bytes

def sdRead (blockNum block : BitVec 32) (memory : Memory 32) : ByteCode (Memory 32) :=
  if block = 0 then pure memory
  else do
    csLow
    let result ← sdSendCommand (command 17 blockNum)
    if result ≠ 0x00 then do
      csHigh
      pure memory
    else do
      let result ← awaitToken
      if result ≠ 0xFE then do
        csHigh
        pure memory
      else do
        let bytes ← receiveBlock
        csHigh
        pure (memory.storeBytes block bytes)

variable (buf : BitVec 32)

/-- The turns of the loop of `sd_read_blocks` from `block` on, and what is behind the loop. -/
def receiveBlocks : (blocks block : Nat) → Memory 32 → ByteCode ReadResult
  | 0, _, memory => do
      sendBytes (command 12 0)
      let _ ← byte SPI_EMPTY
      let _ ← poll (fun result => result = 0xFF) (SPI_RETRY_LIMIT - 1)
      csHigh
      pure ⟨true, memory⟩
  | blocks + 1, block, memory => do
      let result ← awaitToken
      if result ≠ 0xFE then do
        sendBytes (command 12 0)
        csHigh
        pure ⟨false, memory⟩
      else do
        let bytes ← receiveBlock
        receiveBlocks blocks (block + 1) (memory.storeBytes (buf + BitVec.ofNat 32 (512 * block)) bytes)

def sdReadBlocks (startBlock numBlocks : BitVec 32) (memory : Memory 32) : ByteCode ReadResult := do
  csLow
  let result ← sdSendCommand (command 18 startBlock)
  if result ≠ 0x00 then do
    csHigh
    pure ⟨false, memory⟩
  else receiveBlocks buf numBlocks.toNat 0 memory

end Code

def sendBytes (bytes : List Byte) : Firmware Unit := (Code.sendBytes bytes).run (onCard card)

def poll (again : Byte → Bool) (more : Nat) : Firmware Byte := (Code.poll again more).run (onCard card)

def sdSendCommand (bytes : List Byte) : Firmware Byte := (Code.sdSendCommand bytes).run (onCard card)

def awaitToken : Firmware Byte := Code.awaitToken.run (onCard card)

def receiveBlock : Firmware (List Byte) := Code.receiveBlock.run (onCard card)

def sdRead (blockNum block : BitVec 32) (memory : Memory 32) : Firmware (Memory 32) :=
  (Code.sdRead blockNum block memory).run (onCard card)

variable (buf : BitVec 32)

def receiveBlocks (blocks block : Nat) (memory : Memory 32) : Firmware ReadResult :=
  (Code.receiveBlocks buf blocks block memory).run (onCard card)

def sdReadBlocks (startBlock numBlocks : BitVec 32) (memory : Memory 32) : Firmware ReadResult :=
  (Code.sdReadBlocks buf startBlock numBlocks memory).run (onCard card)

end Mackerel.M08
