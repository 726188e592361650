import Mackerel.Fat16.Structures

namespace Mackerel.Fat16

open Bytes

/-! `get_fat_entry` and its one-sector cache, the two static variables of the function. -/

/-- Why a function of the library does not return. -/
inductive Stop where
  | divideByZero | outOfBounds | outOfFuel
deriving DecidableEq

structure FatCache where
  cachedSector : Nat
  fatBuffer : Block

/-- The static variables at power-up. -/
def FatCache.empty : FatCache where
  cachedSector := u32 (-1)
  fatBuffer := fun _ => 0

def fatSector (bootSector : BootSector) (partLba : BitVec 32) (cluster : BitVec 16) : Nat :=
  u32 (partLba.toNat + bootSector.reservedSectors.toNat +
    (cluster.toNat * 2 / bootSector.bytesPerSector.toNat : Nat))

def fatEntryOffset (bootSector : BootSector) (cluster : BitVec 16) : Nat :=
  cluster.toNat * 2 % bootSector.bytesPerSector.toNat

/-- What a call of `get_fat_entry` gives back; `call` is the read it made, if it made one. -/
structure FatEntry where
  nextCluster : BitVec 16
  cache : FatCache
  call : Option ReadCall

/-- `get_fat_entry`; `fault` is the outcome of the read it makes if the sector is not cached. -/
def getFatEntry (disk : Disk) (fault : Option Garbage) (bootSector : BootSector)
    (partLba : BitVec 32) (cluster : BitVec 16) (cache : FatCache) : Except Stop FatEntry :=
  if bootSector.bytesPerSector = 0 then .error .divideByZero
  else
    let sector := fatSector bootSector partLba cluster
    let offset := fatEntryOffset bootSector cluster
    let entry (cache : FatCache) (call : Option ReadCall) : Except Stop FatEntry :=
      if offset + 1 < 1024 then
        .ok {
          nextCluster := cache.fatBuffer (offset + 1) ++ cache.fatBuffer offset
          cache, call }
      else .error .outOfBounds
    if sector ≠ cache.cachedSector then
      let fatBuffer := disk.transfer fault sector 1 cache.fatBuffer
      let call : ReadCall := { purpose := .fat, lba := sector, count := 1, ok := fault.isNone }
      -- a failed read leaves the tag as it was
      if fault.isSome then
        .ok { nextCluster := 0xFFFF, cache := { cache with fatBuffer }, call := some call }
      else entry { cachedSector := sector, fatBuffer } (some call)
    else entry cache none

end Mackerel.Fat16
