import Mackerel.Fat16.FatCache

namespace Mackerel.Fat16

open Bytes

/-! `fat16_read_file`, without the progress bar and the cursor. -/

/-- The memory that the library writes through pointers, its static variables, and the calls of
    `read_sector` so far. -/
structure State where
  memory : Memory 32
  cache : FatCache
  partLba : BitVec 32
  reads : List ReadCall

namespace State

/-- `read_sector` into memory; the result is whether it returned 0. -/
def readSector (medium : Medium) (purpose : Purpose) (lba : Nat) (destination : BitVec 32)
    (count : Nat) (s : State) : Bool × State :=
  let fault := medium.faults s.reads.length
  let bytes := medium.disk.transfer fault lba count (s.memory.load destination)
  (fault.isNone,
    { s with
      memory := s.memory.store destination (512 * count) bytes
      reads := s.reads ++ [{ purpose, lba, count, ok := fault.isNone }] })

/-- `read_sector` of one sector into a local buffer, with the contents of the buffer after it. -/
def readLocal (medium : Medium) (purpose : Purpose) (lba : Nat) (s : State) :
    Bool × Block × State :=
  let call := s.reads.length
  let fault := medium.faults call
  (fault.isNone, medium.disk.transfer fault lba 1 (medium.stale call),
    { s with reads := s.reads ++ [{ purpose, lba, count := 1, ok := fault.isNone }] })

def getFatEntry (medium : Medium) (bootSector : BootSector) (cluster : BitVec 16) (s : State) :
    Except Stop (BitVec 16 × State) :=
  match Fat16.getFatEntry medium.disk (medium.faults s.reads.length) bootSector s.partLba cluster
    s.cache with
  | .ok entry =>
      .ok (entry.nextCluster,
        { s with cache := entry.cache, reads := s.reads ++ entry.call.toList })
  | .error stop => .error stop

end State

/-- The sectors of the root directory; the caller checks `bytes_per_sector`. -/
def rootDirSectors (bootSector : BootSector) : Nat :=
  u32 (bootSector.rootEntries.toNat * 32 + bootSector.bytesPerSector.toNat - 1) /
    bootSector.bytesPerSector.toNat

def firstSectorOfCluster (bootSector : BootSector) (partLba : BitVec 32) (cluster : BitVec 16) :
    Nat :=
  u32 (rootDirSectors bootSector + partLba.toNat +
    ((cluster.toNat : Int) - 2) * bootSector.sectorsPerCluster.toNat +
    bootSector.reservedSectors.toNat + bootSector.numFats.toNat * bootSector.fatSize16.toNat)

def clusterBytes (bootSector : BootSector) : Nat :=
  u32 (bootSector.sectorsPerCluster.toNat * bootSector.bytesPerSector.toNat)

section

variable (medium : Medium) (bootSector : BootSector) (buffer : BitVec 32) (bufferSize : Nat)

/-- The rest of the sector-by-sector loop from sector `i` of the cluster, with `left` sectors to
    go. The result is the new `buffer_index`, or `none` after a failed read. -/
def readSectors (firstSector : Nat) :
    (left i bufferIndex : Nat) → State → Except Stop (Option Nat × State)
  | 0, _, bufferIndex, s => .ok (some bufferIndex, s)
  | left + 1, i, bufferIndex, s =>
      if bufferIndex < bufferSize then
        let rem := bufferSize - bufferIndex
        let sectorSize := bootSector.bytesPerSector.toNat
        let sector := u32 (firstSector + i)
        if sectorSize ≤ rem then
          let (ok, s) := s.readSector medium .data sector (buffer + BitVec.ofNat 32 bufferIndex) 1
          if ok then readSectors firstSector left (i + 1) (bufferIndex + sectorSize) s
          else .ok (none, s)
        -- `sector_buffer` has the size of a sector of the volume
        else if sectorSize < 512 then .error .outOfBounds
        else
          let (ok, sectorBuffer, s) := s.readLocal medium .data sector
          if ok then
            let memory := s.memory.store (buffer + BitVec.ofNat 32 bufferIndex) rem sectorBuffer
            readSectors firstSector left (i + 1) (bufferIndex + rem) { s with memory }
          else .ok (none, s)
      else .ok (some bufferIndex, s)

def readCluster (cluster : BitVec 16) (bufferIndex : Nat) (s : State) :
    Except Stop (Option Nat × State) :=
  let firstSector := firstSectorOfCluster bootSector s.partLba cluster
  let sectorsPerCluster := bootSector.sectorsPerCluster.toNat
  if clusterBytes bootSector ≤ bufferSize - bufferIndex then
    let (ok, s) := s.readSector medium .data firstSector (buffer + BitVec.ofNat 32 bufferIndex)
      sectorsPerCluster
    if ok then .ok (some (bufferIndex + clusterBytes bootSector), s) else .ok (none, s)
  else readSectors medium bootSector buffer bufferSize firstSector sectorsPerCluster 0 bufferIndex s

/-- The loop of `fat16_read_file`. -/
def readClusters :
    (fuel : Nat) → (currentCluster : BitVec 16) → (bufferIndex : Nat) → State →
      Except Stop (Int × State)
  | 0, _, _, _ => .error .outOfFuel
  | fuel + 1, currentCluster, bufferIndex, s =>
      if currentCluster ≠ 0xFFFF ∧ bufferIndex < bufferSize then
        match readCluster medium bootSector buffer bufferSize currentCluster bufferIndex s with
        | .error stop => .error stop
        | .ok (none, s) => .ok (-1, s)
        | .ok (some bufferIndex, s) =>
            match s.getFatEntry medium bootSector currentCluster with
            | .error stop => .error stop
            | .ok (nextCluster, s) => readClusters fuel nextCluster bufferIndex s
      else .ok (int32 bufferIndex, s)

def fat16ReadFile (fuel : Nat) (startingCluster : BitVec 16) (s : State) :
    Except Stop (Int × State) :=
  if bootSector.bytesPerSector = 0 then .error .divideByZero
  else readClusters medium bootSector buffer bufferSize fuel startingCluster 0 s

end

end Mackerel.Fat16
