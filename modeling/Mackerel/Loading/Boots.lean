import Mackerel.Bootloader.Safety
import Mackerel.Loading.Loads

namespace Mackerel.Loading

open Bytes Bytes.Memory Fat16 Bootloader

section Kept

variable {target : Target} {medium : Medium} {volume : Volume} {file : DirEntry} {before after : State}
  {fuel : Nat}

theorem handlerBoot_kept {board : Board} {exit : BootExit}
    (mounted : bootSectorRead medium before = volume.bootSector)
    (found : (directory (directoryRead medium before)).find? isImage = some file)
    (returned : handlerBoot board medium fuel before = .ok (exit, after)) :
    Kept board.programStart 0 file.fileSize.toNat before.memory after.memory := by
  have nonzero : volume.bootSector.bytesPerSector ≠ 0 := by simp [volume.sectorSize]
  cases up : board.storageReady with
  | false =>
      rw [handlerBoot, up] at returned
      cases returned
      exact .refl _ _ _ _
  | true =>
      rw [handlerBoot_eq medium before up, found, mounted] at returned
      dsimp only at returned
      rw [fat16ReadFile, if_neg nonzero] at returned
      cases read : readClusters medium volume.bootSector board.programStart file.fileSize.toNat fuel
          file.firstClusterLow 0 (afterDirectory medium before) with
      | error stop =>
          rw [read] at returned
          cases returned
      | ok outcome =>
          have kept := readClusters_kept file.fileSize.isLt fuel _ _ (Nat.zero_le _) read
          rw [read, finish] at returned
          split at returned
          · cases returned
            exact kept
          · cases returned
            exact kept

/-- A boot writes only the bytes of the file. -/
theorem boot_kept {size : BitVec 32} {memory changed : Memory 32}
    (moment : Moment target (.boot size) memory changed) :
    Kept target.programStart 0 size.toNat memory changed := by
  cases moment with
  | booting mounted found reached =>
      have kept := reached.kept (BitVec.isLt _)
      exact kept
  | booted mounted found returned =>
      have kept := handlerBoot_kept mounted found returned
      exact kept

end Kept

namespace EndlessChain

def bootBlock : Block := fun i => if i = 11 then 0 else if i = 12 then 2 else 1

/-- The cluster of which the chain consists. -/
def cluster : BitVec 16 := 0x0101

def entryBytes (size : BitVec 32) : List Byte :=
  cString "IMAGE   BIN" ++ 0 :: List.replicate 16 1 ++
    [size.extractLsb' 0 8, size.extractLsb' 8 8, size.extractLsb' 16 8, size.extractLsb' 24 8]

def disk (size : BitVec 32) : Disk := fun sector i =>
  if sector = 2048 then bootBlock i
  else if sector = 2562 then (entryBytes size).getD i 1
  else 1

def volume : Volume where
  bootSector := bswapBootSector (.overlay bootBlock)
  partLba := 2048
  sectorSize := by decide

def medium (size : BitVec 32) : Medium := (disk size).reliable fun _ _ => 0

def start : State := { memory := fun _ => 0, cache := .empty, partLba := 2048, reads := [] }

theorem mounted (size : BitVec 32) : bootSectorRead (medium size) start = volume.bootSector :=
  bootSectorRead_eq rfl

theorem fileSize_eq (size : BitVec 32) : (directoryEntry (disk size 2562) 0).fileSize = size := by
  change bswap32 (size.extractLsb' 0 8 ++ size.extractLsb' 8 8 ++ size.extractLsb' 16 8 ++
    size.extractLsb' 24 8) = size
  rw [bswap32_bytes, word_of_bytes]

theorem firstCluster_eq (size : BitVec 32) : (directoryEntry (disk size 2562) 0).firstClusterLow = cluster := by
  have first : disk size 2562 26 = 1 := rfl
  have second : disk size 2562 27 = 1 := rfl
  change bswap16 (disk size 2562 26 ++ disk size 2562 27) = cluster
  rw [first, second]
  decide

theorem found (size : BitVec 32) (some_bytes : size ≠ 0) :
    (directory (directoryRead (medium size) start)).find? isImage =
      some (directoryEntry (disk size 2562) 0) := by
  have sector : rootDirSector (bootSectorRead (medium size) start) start.partLba = 2562 := by
    rw [mounted]
    decide
  have image : isImage (directoryEntry (disk size 2562) 0) = true := by
    have named : (directoryEntry (disk size 2562) 0).name = cString "IMAGE   BIN" := rfl
    have plain : (directoryEntry (disk size 2562) 0).attributes = 0 := rfl
    rw [isImage, named, plain, fileSize_eq]
    simpa using some_bytes
  rw [directoryRead_eq rfl, sector]
  exact directory_find_first image

theorem fits : volume.Fits cluster := by
  constructor <;> decide

/-- Any other block of the card. -/
theorem disk_ones (size : BitVec 32) {sector : Nat} (boot : sector ≠ 2048) (directory : sector ≠ 2562)
    (i : Nat) : disk size sector i = 1 := by
  rw [disk, if_neg boot, if_neg directory]

theorem fatEntry_eq (size : BitVec 32) : volume.fatEntry (disk size) cluster = cluster := by
  have byte (i : Nat) (sector : volume.partLba.toNat + volume.bootSector.reservedSectors.toNat +
      i / 512 = 2306) : volume.fatByte (disk size) i = 1 := by
    have word : u32 (volume.partLba.toNat + volume.bootSector.reservedSectors.toNat + (i / 512 : Nat)) =
        2306 := by
      unfold u32
      omega
    rw [Volume.fatByte, word]
    exact disk_ones size (by decide) (by decide) _
  rw [Volume.fatEntry, byte _ (by decide), byte _ (by decide)]
  rfl

theorem dataSector_eq : volume.dataSector cluster = 2834 := by decide

variable {buffer size : BitVec 32} {bufferIndex : Nat} {before : State}

/-- Between two clusters everything so far is loaded. -/
structure Loaded (buffer size : BitVec 32) (bufferIndex : Nat) (s : State) : Prop where
  partLba : s.partLba = 2048
  trusts : volume.Trusts (disk size) s.cache
  ones : ∀ addr, offset buffer addr < bufferIndex → s.memory addr = 1

theorem Loaded.turn (loaded : Loaded buffer size bufferIndex before) (more : bufferIndex < size.toNat) :
    ∃ middle after,
      readCluster (medium size) volume.bootSector buffer size.toNat cluster bufferIndex before =
        .ok (some (min size.toNat (bufferIndex + 512)), middle) ∧
      middle.getFatEntry (medium size) volume.bootSector cluster = .ok (cluster, after) ∧
      Loaded buffer size (min size.toNat (bufferIndex + 512)) after := by
  obtain ⟨⟨result, middle⟩, read, reads⟩ := readCluster_reads (medium size) volume buffer cluster before
    (Nat.le_of_lt more)
  obtain ⟨outcome, again, attempt⟩ := readCluster_attempt (medium size) buffer size.isLt fits
    loaded.partLba (Nat.le_of_lt more)
  rw [read] at again
  cases again
  obtain ⟨-, partLba, ⟨rfl, -⟩ | ⟨-, call, failed⟩⟩ := reads
  · obtain ⟨calls, copied⟩ := attempt.of_success
    obtain ⟨⟨next, after⟩, lookup, place, entry⟩ := State.getFatEntry_looked cluster
      (partLba.trans loaded.partLba : middle.partLba = volume.partLba)
      (copied.cache ▸ loaded.trusts : volume.Trusts (medium size).disk middle.cache)
    obtain ⟨other, later, again, memory⟩ := getFatEntry_returns (medium size) volume cluster middle
    rw [lookup] at again
    cases again
    obtain ⟨following, trusts⟩ | ⟨-, call, failed⟩ := entry
    · dsimp only at following place
      rw [following, show (medium size).disk = disk size from rfl, fatEntry_eq] at lookup
      refine ⟨middle, after, read, lookup, place.trans (partLba.trans loaded.partLba), trusts, ?_⟩
      intro addr inside
      rw [memory]
      by_cases earlier : offset buffer addr < bufferIndex
      · rw [copied.frame addr (.inl earlier)]
        exact loaded.ones addr earlier
      · have sector : (offset buffer addr - bufferIndex) / 512 = 0 := Nat.div_eq_of_lt (by omega)
        rw [copied.bytes addr (Nat.le_of_not_lt earlier) inside, sector, dataSector_eq]
        exact disk_ones size (by decide : 2834 ≠ 2048) (by decide) ((offset buffer addr - bufferIndex) % 512)
    · exact absurd rfl failed
  · exact absurd rfl failed

/-- No sector of the FAT has the tag of the empty cache. -/
theorem empty_trusts (size : BitVec 32) : volume.Trusts (disk size) .empty := by
  intro cluster hit
  have bound := cluster.isLt
  have tag : FatCache.empty.cachedSector = 0xFFFFFFFF := by decide
  have part : volume.partLba.toNat + volume.bootSector.reservedSectors.toNat = 2305 := by decide
  rw [fatSector, volume.bytesPerSector_toNat, tag] at hit
  unfold u32 at hit
  omega

/-- The loop comes to every cluster, up to the size of the file. -/
theorem reaches (buffer size : BitVec 32) (visits : Nat) (more : 512 * visits < size.toNat + 512) :
    ∃ before, AtCluster (medium size) volume buffer size.toNat cluster
        (afterDirectory (medium size) start) visits cluster (min size.toNat (512 * visits)) before ∧
      Loaded buffer size (min size.toNat (512 * visits)) before := by
  induction visits with
  | zero =>
      have loaded : Loaded buffer size 0 (afterDirectory (medium size) start) :=
        ⟨rfl, empty_trusts size, fun addr inside => absurd inside (Nat.not_lt_zero _)⟩
      rw [Nat.mul_zero, Nat.min_zero]
      exact ⟨_, .start, loaded⟩
  | succ visits ih =>
      obtain ⟨before, reached, loaded⟩ := ih (by omega)
      have here : min size.toNat (512 * visits) < size.toNat := by omega
      obtain ⟨middle, after, read, lookup, further⟩ := loaded.turn here
      have next : min size.toNat (min size.toNat (512 * visits) + 512) =
          min size.toNat (512 * (visits + 1)) := by omega
      rw [next] at read further
      exact ⟨after, .next _ _ _ _ _ _ _ _ reached ⟨by decide, here⟩ read lookup, further⟩

theorem moment_of_reached {target : Target} {visits bufferIndex : Nat} {at_ : State} (nonzero : size ≠ 0)
    (reached : AtCluster (medium size) volume target.programStart size.toNat cluster
      (afterDirectory (medium size) start) visits cluster bufferIndex at_) :
    Moment target (.boot size) (fun _ => 0) at_.memory := by
  have named : Moment target (.boot (directoryEntry (disk size 2562) 0).fileSize) start.memory at_.memory :=
    .booting (mounted size) (found size nonzero) (by rwa [fileSize_eq, firstCluster_eq])
  rwa [fileSize_eq] at named

/-- A file that is not empty overwrites every byte as far as its size goes. -/
theorem overwrites (target : Target) (nonzero : size ≠ 0) :
    ∃ after, Moment target (.boot size) (fun _ => 0) after ∧
      ∀ addr, offset target.programStart addr < size.toNat → after addr = 1 := by
  obtain ⟨at_, reached, loaded⟩ := reaches target.programStart size ((size.toNat + 511) / 512) (by omega)
  refine ⟨at_.memory, moment_of_reached nonzero reached, fun addr inside => loaded.ones addr ?_⟩
  omega

end EndlessChain

end Mackerel.Loading
