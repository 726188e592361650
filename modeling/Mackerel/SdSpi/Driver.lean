import Mackerel.F.Port

namespace Mackerel.F.SdSpi

open Bytes

def SD_CS : Byte := 0x40

variable (card : Devices)

def csLow : Firmware Unit := do
  let gpio ← readGpio
  writeGpio (gpio ||| SD_CS)

def csHigh : Firmware Unit := do
  let gpio ← readGpio
  writeGpio (gpio &&& ~~~SD_CS)

def rx : Firmware Byte := spiTransfer card 0xFF

/-- The loop `for (i = 0; i < count && again(value); i++) value = rx();`. -/
def rxWhile (again : Byte → Bool) : (count : Nat) → Byte → Firmware Byte
  | 0, value => pure value
  | count + 1, value =>
      if again value then do
        let value ← rx card
        rxWhile again count value
      else pure value

def rxBytes : (count : Nat) → Firmware (List Byte)
  | 0 => pure []
  | count + 1 => do
      let byte ← rx card
      let rest ← rxBytes count
      pure (byte :: rest)

/-- The six bytes of a command. -/
def frame (cmd : Byte) (arg : BitVec 32) (crc : Byte) : List Byte :=
  [0x40 ||| cmd, arg.extractLsb' 24 8, arg.extractLsb' 16 8, arg.extractLsb' 8 8, arg.extractLsb' 0 8, crc]

def sendBytes : List Byte → Firmware Unit
  | [] => pure ()
  | byte :: rest => do
      let _ ← spiTransfer card byte
      sendBytes rest

def sdCmd (cmd : Byte) (arg : BitVec 32) (crc : Byte) : Firmware Byte := do
  let _ ← rx card
  sendBytes card (frame cmd arg crc)
  rxWhile card (fun r1 => r1 &&& 0x80 ≠ 0) 10 0xFF

/-- The result is what the function stores in `buf`, or `none` for `-1`. -/
def readData (len : Nat) : Firmware (Option (List Byte)) := do
  let t ← rxWhile card (fun t => t = 0xFF) 8192 0xFF
  if t ≠ 0xFE then pure none
  else do
    let data ← rxBytes card len
    let _ ← rx card
    let _ ← rx card
    pure (some data)

/-- A command and the data behind it, in one chip-select window. -/
def readCommand (cmd : Byte) (arg : BitVec 32) (len : Nat) : Firmware (Option (List Byte)) := do
  csLow
  let r1 ← sdCmd card cmd arg 0x01
  let data ← if r1 = 0x00 then readData card len else pure none
  csHigh
  let _ ← rx card
  pure data

/-- The loop of CMD0. -/
def resetCard : (count : Nat) → Byte → Firmware Byte
  | 0, r1 => pure r1
  | count + 1, r1 =>
      if r1 ≠ 0x01 then do
        csLow
        let r1 ← sdCmd card 0 0 0x95
        csHigh
        let _ ← rx card
        resetCard count r1
      else pure r1

/-- The loop of ACMD41. -/
def initCard (hcs : BitVec 32) : (count : Nat) → Byte → Firmware Byte
  | 0, r1 => pure r1
  | count + 1, r1 =>
      if r1 ≠ 0x00 then do
        csLow
        let _ ← sdCmd card 55 0 0x01
        let r1 ← sdCmd card 41 hcs 0x01
        csHigh
        let _ ← rx card
        initCard hcs count r1
      else pure r1

/-- The result is what is stored in `sdhc`, or `none` for `false`. The baud register is not a part of
    the state. -/
def sdSpiInit : Firmware (Option Bool) := do
  csHigh
  let _ ← rxBytes card 10
  let r1 ← resetCard card 10 0xFF
  if r1 ≠ 0x01 then pure none
  else do
    csLow
    let r1 ← sdCmd card 8 0x1AA 0x87
    let r7 ← rxBytes card 4
    csHigh
    let _ ← rx card
    let v2 := r1 = 0x01 ∧ r7.getD 2 0 = 0x01 ∧ r7.getD 3 0 = 0xAA
    let r1 ← initCard card (if v2 then 0x40000000 else 0) 1000 0xFF
    if r1 ≠ 0x00 then pure none
    else do
      csLow
      let _ ← sdCmd card 58 0 0x01
      let ocr ← rxBytes card 4
      csHigh
      let _ ← rx card
      pure (some (ocr.getD 0 0 &&& 0x40 ≠ 0))

/-- `addr`: `sdhc` cards count blocks, the others bytes. -/
def blockAddress (sdhc : Bool) (lba : BitVec 32) (b : Nat) : BitVec 32 :=
  if sdhc then lba + BitVec.ofNat 32 b else (lba + BitVec.ofNat 32 b) * 512

structure ReadResult where
  result : Int
  memory : Memory 32

/-- The turns of the loop of `sd_spi_read` from block `b` on. -/
def readBlocks (sdhc : Bool) (lba buf : BitVec 32) :
    (blocks b : Nat) → Memory 32 → Firmware ReadResult
  | 0, _, memory => pure ⟨0, memory⟩
  | blocks + 1, b, memory => do
      let data ← readCommand card 17 (blockAddress sdhc lba b) 512
      match data with
      | none => pure ⟨-1, memory⟩
      | some bytes =>
          readBlocks sdhc lba buf blocks (b + 1)
            (memory.storeBytes (buf + BitVec.ofNat 32 (b * 512)) bytes)

def sdSpiRead (sdhc : Bool) (lba buf : BitVec 32) (count : Nat) (memory : Memory 32) :
    Firmware ReadResult :=
  readBlocks card sdhc lba buf count 0 memory

/-- What is printed of the CID and of the CSD. -/
def sdSpiPrintInfo : Firmware (Option (List Byte) × Option (List Byte)) := do
  let cid ← readCommand card 10 0 16
  let csd ← readCommand card 9 0 16
  pure (cid, csd)

end Mackerel.F.SdSpi
