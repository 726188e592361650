import Mackerel.Bootloader.BootComplete
import Mackerel.Fat16.Bounded
import Mackerel.Netboot.Load
import Mackerel.Ymodem.Bounds

namespace Mackerel.Loading

open Bytes Bytes.Memory Fat16

/-! The three loaders of the bootloader, and the memory that it keeps for itself. -/

/-- The boards whose bootloader has its data and its stack in the memory that it loads into. -/
inductive Target where
  | mackerel08 | mackerel10 | mackerelF
deriving DecidableEq

structure Region where
  origin : Nat
  length : Nat

def Region.Holds (region : Region) (addr : BitVec 32) : Prop :=
  region.origin ≤ addr.toNat ∧ addr.toNat < region.origin + region.length

namespace Target

/-- `PROGRAM_START` is the same on the three boards. -/
def programStart (_ : Target) : BitVec 32 := 0x400

/-- `RAM` of the linker script, with the data of the bootloader. -/
def ram : Target → Region
  | mackerel08 => ⟨0x380000 - 0x4000, 0x4000 - 0x1000⟩
  | mackerel10 => ⟨0xF00000 - 0x4000, 0x4000 - 0x1000⟩
  | mackerelF => ⟨0xFFC000, 0x3800⟩

/-- The first of the vectors. -/
def initialStackPointer : Target → Nat
  | mackerel08 => 0x380000
  | mackerel10 => 0xF00000
  | mackerelF => 0x800000

def stack (target : Target) : Region := ⟨target.initialStackPointer - 0x1000, 0x1000⟩

/-- `HAS_NETBOOT`. -/
def hasNetboot : Target → Bool
  | mackerel08 => false
  | mackerel10 | mackerelF => true

/-- `bufsz` of `handler_ymodem`. -/
def bufsz : Target → Nat
  | mackerel08 => 0x300000
  | mackerel10 | mackerelF => 0x800000

/-- The destination of `handler_ymodem` without an address. -/
def buffer (target : Target) : Ymodem.Buffer where
  buf := target.programStart
  bufsz := target.bufsz
  room := by cases target <;> decide

def Reserves (target : Target) (addr : BitVec 32) : Prop :=
  target.ram.Holds addr ∨ target.stack.Holds addr

/-- Where the reserved memory begins. -/
def limit (target : Target) : Nat := min target.ram.origin target.stack.origin

end Target

/-- A loader with the size that it gets from outside: the `file_size` of the directory entry, the
    length word of the server, or the size in the YMODEM header, which is 0 if it has none. -/
inductive Load where
  | boot (fileSize : BitVec 32)
  | netboot (length : BitVec 32)
  | ymodem (announced : BitVec 32)

/-- The length word in front of what the server sends. -/
def lengthWord : List Byte → Option (BitVec 32)
  | first :: second :: third :: fourth :: _ => some (first ++ second ++ third ++ fourth)
  | _ => none

def netbootMemory : Loops.Status Netboot.Machine Netboot.Loaded → Memory 32
  | .again machine => machine.memory
  | .done loaded => loaded.memory

/-- The heads of the loop of `ymodem_recv`. A size field that goes on behind `blk` gives any size. -/
inductive Receives (dest : Ymodem.Buffer) (start : Ymodem.Receiver) : Ymodem.Receiver → Prop where
  | start : Receives dest start start
  | next {r after : Ymodem.Receiver} {line rest : Serial.Line Byte} (receives : Receives dest start r)
      (turned : Ymodem.turn dest r line = some (.next after, rest)) : Receives dest start after
  | beyond {r : Ymodem.Receiver} {bn : Byte} {payload : List Byte} {fsize : Nat}
      (receives : Receives dest start r) (sized : Ymodem.BlockSized payload)
      (read : Ymodem.acceptBlock dest bn payload.length (r.holding payload) = .outOfBounds)
      (word : fsize < 2 ^ 32) : Receives dest start (Ymodem.headerTaken (r.holding payload) fsize)

/-- The memory before a load and at some moment of it, whatever the card, the server or the sender
    does. The volume on the card has sectors of 512 bytes. -/
inductive Moment (target : Target) : Load → Memory 32 → Memory 32 → Prop where
  | booting {medium : Medium} {volume : Volume} {file : DirEntry} {before at_ : State}
      {visits bufferIndex : Nat} {cluster : BitVec 16}
      (mounted : Bootloader.bootSectorRead medium before = volume.bootSector)
      (found : (Bootloader.directory (Bootloader.directoryRead medium before)).find?
        Bootloader.isImage = some file)
      (reached : AtCluster medium volume target.programStart file.fileSize.toNat file.firstClusterLow
        (Bootloader.afterDirectory medium before) visits cluster bufferIndex at_) :
      Moment target (.boot file.fileSize) before.memory at_.memory
  | booted {medium : Medium} {volume : Volume} {file : DirEntry} {before after : State}
      {storageReady : Bool} {fuel : Nat} {exit : Bootloader.BootExit}
      (mounted : Bootloader.bootSectorRead medium before = volume.bootSector)
      (found : (Bootloader.directory (Bootloader.directoryRead medium before)).find?
        Bootloader.isImage = some file)
      (returned : Bootloader.handlerBoot ⟨target.programStart, storageReady⟩ medium fuel before =
        .ok (exit, after)) :
      Moment target (.boot file.fileSize) before.memory after.memory
  | netboot {network : W5500.Network} {length : BitVec 32} {lb memory : Memory 32} {nic : W5500.Nic}
      {fuel : Nat} (available : target.hasNetboot = true)
      (announced : lengthWord network.peer = some length) :
      Moment target (.netboot length) memory
        (netbootMemory (Netboot.netbootLoad network lb fuel memory nic))
  | receiving {announced : BitVec 32} {memory : Memory 32} {blk name : Block} {r : Ymodem.Receiver}
      (receives : Receives target.buffer (.start memory blk name) r) (size : r.fsize = announced.toNat) :
      Moment target (.ymodem announced) memory r.memory
  | received {announced : BitVec 32} {memory : Memory 32} {blk name : Block} {r after : Ymodem.Receiver}
      {line rest : Serial.Line Byte} {result : Int}
      (receives : Receives target.buffer (.start memory blk name) r)
      (turned : Ymodem.turn target.buffer r line = some (.returned result after, rest))
      (size : after.fsize = announced.toNat) :
      Moment target (.ymodem announced) memory after.memory

/-- The load never changes a byte of the bootloader. -/
def Spares (target : Target) (load : Load) : Prop :=
  ∀ before after, Moment target load before after →
    ∀ addr, target.Reserves addr → after addr = before addr

/-- The most that a load may write. -/
def Target.extent (target : Target) : Load → Nat
  | .boot fileSize => fileSize.toNat
  | .netboot length => if target.hasNetboot then length.toNat else 0
  | .ymodem announced => if announced = 0 then target.bufsz else min announced.toNat target.bufsz

/-- What the load may write ends below the reserved memory. -/
def Fits (target : Target) (load : Load) : Prop :=
  target.programStart.toNat + target.extent load ≤ target.limit

instance (target : Target) (load : Load) : Decidable (Fits target load) :=
  inferInstanceAs (Decidable (_ ≤ _))

variable {target : Target} {load : Load} {addr : BitVec 32}

theorem Target.limit_le (reserved : target.Reserves addr) : target.limit ≤ addr.toNat := by
  rcases reserved with data | stack
  · exact Nat.le_trans (Nat.min_le_left _ _) data.1
  · exact Nat.le_trans (Nat.min_le_right _ _) stack.1

theorem offset_programStart (above : target.programStart.toNat ≤ addr.toNat) :
    offset target.programStart addr = addr.toNat - target.programStart.toNat :=
  BitVec.toNat_sub_of_le (BitVec.le_def.mpr above)

theorem programStart_le (target : Target) : target.programStart.toNat ≤ target.limit := by
  cases target <;> decide

/-- The reserved memory is behind a load that fits. -/
theorem Fits.behind (fits : Fits target load) (reserved : target.Reserves addr) :
    target.extent load ≤ offset target.programStart addr := by
  have low := Target.limit_le reserved
  have above := Nat.le_trans (programStart_le target) low
  rw [offset_programStart above]
  unfold Fits at fits
  omega

/-- The first reserved byte. -/
def Target.first (target : Target) : BitVec 32 := BitVec.ofNat 32 target.limit

theorem first_toNat (target : Target) : target.first.toNat = target.limit := by
  cases target <;> decide

theorem first_reserved (target : Target) : target.Reserves target.first := by
  unfold Target.Reserves Region.Holds
  rw [first_toNat]
  cases target <;> decide

/-- The first reserved byte is inside a load that does not fit. -/
theorem first_inside (large : ¬Fits target load) :
    offset target.programStart target.first < target.extent load := by
  have above := programStart_le target
  rw [offset_programStart (by rw [first_toNat]; exact above), first_toNat]
  unfold Fits at large
  omega

end Mackerel.Loading
