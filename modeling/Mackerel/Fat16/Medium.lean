import Mackerel.Bytes.Memory
import Mackerel.Bytes.Words

namespace Mackerel.Fat16

open Bytes

/-! The block device behind `read_sector`, with reads that may fail. -/

/-- 512-byte blocks by their number. -/
abbrev Disk := Nat → Block

/-- What a failed read has left in its destination: the bytes it overwrote, by offset. -/
abbrev Garbage := Nat → Option Byte

inductive Purpose where
  | bootSector | rootDirectory | fat | data
deriving DecidableEq

structure ReadCall where
  purpose : Purpose
  lba : Nat
  count : Nat
  ok : Bool
deriving DecidableEq

/-- A disk, the outcomes of the calls of `read_sector` in the order in which they are made, and
    what an uninitialised destination on the stack holds before each. -/
structure Medium where
  disk : Disk
  faults : Nat → Option Garbage
  stale : Nat → Block

/-- The contents of a destination of `count` blocks after a read into it. -/
def Disk.transfer (disk : Disk) (fault : Option Garbage) (lba count : Nat) (old : Block) : Block :=
  fun i =>
    if i < 512 * count then
      match fault with
      | none => disk (lba + i / 512) (i % 512)
      | some garbage => (garbage i).getD (old i)
    else old i

theorem Disk.transfer_ok {disk : Disk} {lba count i : Nat} {old : Block} (inside : i < 512 * count) :
    disk.transfer none lba count old i = disk (lba + i / 512) (i % 512) :=
  if_pos inside

end Mackerel.Fat16
