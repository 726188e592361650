import Mackerel.Fat16.Medium

namespace Mackerel.Fat16

open Bytes

/-! The packed structures of `fat16.h` on the big-endian target, and the swaps that make
their little-endian fields readable. Text and code fields are left out. -/

def bswap16 (value : BitVec 16) : BitVec 16 := (value >>> 8) ||| (value <<< 8)

def bswap32 (value : BitVec 32) : BitVec 32 :=
  ((value >>> 24) &&& 0xFF) ||| ((value >>> 8) &&& 0xFF00) ||| ((value <<< 8) &&& 0xFF0000) |||
    ((value <<< 24) &&& 0xFF000000)

theorem bswap16_bytes (first second : Byte) : bswap16 (first ++ second) = second ++ first := by
  apply BitVec.eq_of_getLsbD_eq
  intro i bound
  simp only [bswap16, BitVec.getLsbD_or, BitVec.getLsbD_ushiftRight, BitVec.getLsbD_shiftLeft,
    BitVec.getLsbD_append]
  grind

theorem bswap32_bytes (first second third fourth : Byte) :
    bswap32 (first ++ second ++ third ++ fourth) = fourth ++ third ++ second ++ first := by
  apply BitVec.eq_of_getLsbD_eq
  intro i bound
  have masks : ∀ i < 32, (0xFF : BitVec 32).getLsbD i = decide (i < 8) ∧
      (0xFF00 : BitVec 32).getLsbD i = decide (8 ≤ i ∧ i < 16) ∧
      (0xFF0000 : BitVec 32).getLsbD i = decide (16 ≤ i ∧ i < 24) ∧
      (0xFF000000 : BitVec 32).getLsbD i = decide (24 ≤ i) := by decide
  have here := masks i bound
  simp only [bswap32, BitVec.getLsbD_or, BitVec.getLsbD_and, BitVec.getLsbD_ushiftRight,
    BitVec.getLsbD_shiftLeft, BitVec.getLsbD_append]
  grind

/-- A big-endian load of a field, as the target makes it. -/
def halfAt (bytes : Block) (at_ : Nat) : BitVec 16 := bytes at_ ++ bytes (at_ + 1)

def wordAt (bytes : Block) (at_ : Nat) : BitVec 32 :=
  bytes at_ ++ bytes (at_ + 1) ++ bytes (at_ + 2) ++ bytes (at_ + 3)

section Congruence

variable {first second : Block} {limit : Nat}

theorem halfAt_congr (same : ∀ i, i < limit → first i = second i) {i : Nat} (inside : i + 1 < limit) :
    halfAt first i = halfAt second i := by
  unfold halfAt
  rw [same i (by omega), same (i + 1) inside]

theorem wordAt_congr (same : ∀ i, i < limit → first i = second i) {i : Nat} (inside : i + 3 < limit) :
    wordAt first i = wordAt second i := by
  unfold wordAt
  rw [same i (by omega), same (i + 1) (by omega), same (i + 2) (by omega), same (i + 3) inside]

end Congruence

/-- `fat16_boot_sector_t`. -/
structure BootSector where
  bytesPerSector : BitVec 16
  sectorsPerCluster : BitVec 8
  reservedSectors : BitVec 16
  numFats : BitVec 8
  rootEntries : BitVec 16
  totalSectors16 : BitVec 16
  mediaDescriptor : BitVec 8
  fatSize16 : BitVec 16
  sectorsPerTrack : BitVec 16
  heads : BitVec 16
  hiddenSectors : BitVec 32
  totalSectors32 : BitVec 32
  driveNumber : BitVec 8
  bootSignature : BitVec 8
  volumeId : BitVec 32
  bootSectorSignature : BitVec 16
deriving DecidableEq

/-- The bytes of a sector seen as the structure. -/
def BootSector.overlay (bytes : Block) : BootSector where
  bytesPerSector := halfAt bytes 11
  sectorsPerCluster := bytes 13
  reservedSectors := halfAt bytes 14
  numFats := bytes 16
  rootEntries := halfAt bytes 17
  totalSectors16 := halfAt bytes 19
  mediaDescriptor := bytes 21
  fatSize16 := halfAt bytes 22
  sectorsPerTrack := halfAt bytes 24
  heads := halfAt bytes 26
  hiddenSectors := wordAt bytes 28
  totalSectors32 := wordAt bytes 32
  driveNumber := bytes 36
  bootSignature := bytes 38
  volumeId := wordAt bytes 39
  bootSectorSignature := halfAt bytes 510

theorem BootSector.overlay_congr {first second : Block}
    (same : ∀ i, i < 512 → first i = second i) : overlay first = overlay second := by
  have half (i : Nat) (inside : i + 1 < 512) := halfAt_congr same inside
  have word (i : Nat) (inside : i + 3 < 512) := wordAt_congr same inside
  unfold overlay
  rw [half 11 (by omega), same 13 (by omega), half 14 (by omega), same 16 (by omega),
    half 17 (by omega), half 19 (by omega), same 21 (by omega), half 22 (by omega),
    half 24 (by omega), half 26 (by omega), word 28 (by omega), word 32 (by omega),
    same 36 (by omega), same 38 (by omega), word 39 (by omega), half 510 (by omega)]

def bswapBootSector (b : BootSector) : BootSector :=
  { b with
    bytesPerSector := bswap16 b.bytesPerSector
    reservedSectors := bswap16 b.reservedSectors
    rootEntries := bswap16 b.rootEntries
    totalSectors16 := bswap16 b.totalSectors16
    fatSize16 := bswap16 b.fatSize16
    sectorsPerTrack := bswap16 b.sectorsPerTrack
    heads := bswap16 b.heads
    hiddenSectors := bswap32 b.hiddenSectors
    totalSectors32 := bswap32 b.totalSectors32
    volumeId := bswap32 b.volumeId
    bootSectorSignature := bswap16 b.bootSectorSignature }

/-- `fat16_dir_entry_t`; `name` are the eight bytes of `filename` and the three of `extension`. -/
structure DirEntry where
  name : List Byte
  attributes : BitVec 8
  creationTime : BitVec 16
  creationDate : BitVec 16
  lastAccessDate : BitVec 16
  firstClusterHigh : BitVec 16
  modificationTime : BitVec 16
  modificationDate : BitVec 16
  firstClusterLow : BitVec 16
  fileSize : BitVec 32
deriving DecidableEq

def DirEntry.overlay (bytes : Block) : DirEntry where
  name := (List.range 11).map bytes
  attributes := bytes 11
  creationTime := halfAt bytes 14
  creationDate := halfAt bytes 16
  lastAccessDate := halfAt bytes 18
  firstClusterHigh := halfAt bytes 20
  modificationTime := halfAt bytes 22
  modificationDate := halfAt bytes 24
  firstClusterLow := halfAt bytes 26
  fileSize := wordAt bytes 28

theorem DirEntry.overlay_congr {first second : Block} (same : ∀ i, i < 32 → first i = second i) :
    overlay first = overlay second := by
  have half (i : Nat) (inside : i + 1 < 32) := halfAt_congr same inside
  have name : (List.range 11).map first = (List.range 11).map second := by
    apply List.map_congr_left
    intro i member
    have bound := List.mem_range.mp member
    exact same i (by omega)
  unfold overlay
  rw [name, same 11 (by omega), half 14 (by omega), half 16 (by omega), half 18 (by omega),
    half 20 (by omega), half 22 (by omega), half 24 (by omega), half 26 (by omega),
    wordAt_congr same (by omega : 28 + 3 < 32)]

def bswapDirEntry (d : DirEntry) : DirEntry :=
  { d with
    creationTime := bswap16 d.creationTime
    creationDate := bswap16 d.creationDate
    lastAccessDate := bswap16 d.lastAccessDate
    firstClusterHigh := bswap16 d.firstClusterHigh
    modificationTime := bswap16 d.modificationTime
    modificationDate := bswap16 d.modificationDate
    firstClusterLow := bswap16 d.firstClusterLow
    fileSize := bswap32 d.fileSize }

end Mackerel.Fat16
