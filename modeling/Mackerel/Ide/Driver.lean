import Mackerel.Bytes.Memory
import Mackerel.Device.Keeps

namespace Mackerel.Ide

open Bytes Device

/-! `IDE_read_sectors` of `ide.c`, on a drive that presents any values in its registers. -/

abbrev Word := BitVec 16

def IDE_SR_BSY : Byte := 0x80
def IDE_SR_DRDY : Byte := 0x40
def IDE_SR_DF : Byte := 0x20
def IDE_SR_DRQ : Byte := 0x08
def IDE_SR_ERR : Byte := 0x01

def IDE_TIMEOUT_READY : Nat := 2000000
def IDE_TIMEOUT_DRQ : Nat := 500000

/-- The registers that a read command is written to. -/
inductive Register where
  | driveSel | sectorCount | sectorStart | lbaMid | lbaHigh | command
deriving DecidableEq

inductive Access where
  | status (value : Byte)
  | data (word : Word)
  | error (value : Byte)
  | write (register : Register) (value : Byte)
deriving DecidableEq

/-- The values of the registers, in the order in which they are read. -/
structure Drive where
  status : Nat → Byte
  data : Nat → Word
  error : Byte

/-- The accesses of a call so far, and how many of them were reads of the two sequences. -/
structure Bus where
  accesses : List Access
  statuses : Nat
  words : Nat

def Bus.start : Bus := ⟨[], 0, 0⟩

variable (drive : Drive)

def readStatus : StateM Bus Byte := fun bus =>
  (drive.status bus.statuses,
    { bus with
      accesses := bus.accesses ++ [.status (drive.status bus.statuses)]
      statuses := bus.statuses + 1 })

def readData : StateM Bus Word := fun bus =>
  (drive.data bus.words,
    { bus with
      accesses := bus.accesses ++ [.data (drive.data bus.words)]
      words := bus.words + 1 })

def readError : StateM Bus Byte := fun bus =>
  (drive.error, { bus with accesses := bus.accesses ++ [.error drive.error] })

def write (register : Register) (value : Byte) : StateM Bus Unit := fun bus =>
  ((), { bus with accesses := bus.accesses ++ [.write register value] })

/-- The polling loops: a status decides, or is read again. -/
def pollStatus (verdict : Byte → Option Bool) : (count : Nat) → StateM Bus Bool
  | 0 => pure false
  | count + 1 => do
      let status ← readStatus drive
      match verdict status with
      | some result => pure result
      | none => pollStatus verdict count

def readyVerdict (status : Byte) : Option Bool :=
  if status &&& (IDE_SR_BSY ||| IDE_SR_DRDY) = IDE_SR_DRDY then some true else none

def ideWaitForDeviceReady : StateM Bus Bool := pollStatus drive readyVerdict IDE_TIMEOUT_READY

def dataVerdict (status : Byte) : Option Bool :=
  if status &&& IDE_SR_DRQ ≠ 0 then some true
  else if status &&& (IDE_SR_ERR ||| IDE_SR_DF) ≠ 0 then some false
  else none

def ideWaitForDataReady : StateM Bus Bool := pollStatus drive dataVerdict IDE_TIMEOUT_DRQ

def readWords : (count : Nat) → StateM Bus (List Word)
  | 0 => pure []
  | count + 1 => do
      let word ← readData drive
      let rest ← readWords count
      pure (word :: rest)

/-- An entry of `bit_reverse_table` is its index with the bits in the other order. -/
def bitReverse (value : Byte) : Byte := value.reverse

/-- What is stored of a word: Mackerel-30 has the low byte of the bus the other way round. -/
def stored (MACKEREL_30 : Bool) (word : Word) : List Byte :=
  let low := word.extractLsb' 0 8
  [word.extractLsb' 8 8, if MACKEREL_30 then bitReverse low else low]

/-- The result is what is read for `buf`. -/
def readSectorInternal : StateM Bus (List Word) := readWords drive 256

structure ReadResult where
  result : Int
  memory : Memory 32

variable (MACKEREL_30 : Bool) (buf : BitVec 32)

/-- The turns of the loop of `IDE_read_sectors` from sector `s` on. -/
def readFrom : (sectors s : Nat) → Memory 32 → StateM Bus ReadResult
  | 0, _, memory => pure ⟨0, memory⟩
  | sectors + 1, s, memory => do
      let ready ← ideWaitForDataReady drive
      if ready = false then pure ⟨-1, memory⟩
      else do
        let words ← readSectorInternal drive
        let memory := memory.storeBytes (buf + BitVec.ofNat 32 (s * 512)) (words.flatMap (stored MACKEREL_30))
        let status ← readStatus drive
        if status &&& (IDE_SR_ERR ||| IDE_SR_DF) ≠ 0 then do
          let _ ← readError drive
          pure ⟨-1, memory⟩
        else readFrom sectors (s + 1) memory

def ideReadSectors (lba : BitVec 32) (count : Byte) (memory : Memory 32) : StateM Bus ReadResult := do
  let ready ← ideWaitForDeviceReady drive
  if ready = false then pure ⟨-1, memory⟩
  else do
    write .driveSel 0xE0
    write .sectorCount count
    write .sectorStart (lba.extractLsb' 0 8)
    write .lbaMid (lba.extractLsb' 8 8)
    write .lbaHigh (lba.extractLsb' 16 8)
    write .command 0x20
    readFrom drive MACKEREL_30 buf count.toNat 0 memory

end Mackerel.Ide
