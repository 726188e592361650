import Mackerel.Bytes.Footprint
import Mackerel.Fat16.ReadFile
import Mathlib.Logic.Function.Iterate

namespace Mackerel.Fat16

open Bytes Bytes.Memory

/-- A disk of which every read succeeds, and what the stack holds before each. -/
def Disk.reliable (disk : Disk) (stale : Nat → Block) : Medium where
  disk
  faults := fun _ => none
  stale

/-- The bytes of consecutive blocks. -/
def Disk.blocks (disk : Disk) (lba : Nat) : Block := fun i => disk (lba + i / 512) (i % 512)

/-- What is written, by what the stack holds. -/
abbrev Written := (Nat → Block) → Footprint 32

/-- Any byte can be at the address afterwards. -/
def Written.Free (written : Written) (addr : BitVec 32) : Prop :=
  ∀ byte, ∃ stale memory, (written stale).apply memory addr = byte

def Written.andThen (first second : Written) : Written := fun stale =>
  (first stale).andThen (second stale)

section

variable {written first second : Written} {addr : BitVec 32}

theorem Written.free_of_none (untouched : ∀ stale, written stale addr = none) : written.Free addr := by
  intro byte
  refine ⟨fun _ _ => 0, fun _ => byte, ?_⟩
  rw [Footprint.apply_of_none (untouched _)]

theorem Written.Free.andThen (free : first.Free addr)
    (untouched : ∀ stale, second stale addr = none) : (first.andThen second).Free addr := by
  intro byte
  obtain ⟨stale, memory, same⟩ := free byte
  refine ⟨stale, memory, ?_⟩
  rw [Written.andThen, Footprint.apply_andThen, Footprint.apply_of_none (untouched stale), same]

end

namespace State

variable {disk : Disk} {stale : Nat → Block} {purpose : Purpose} {lba count : Nat}
  {destination : BitVec 32} {memory : Memory 32} {s : State}

def withMemory (s : State) (memory : Memory 32) : State := { s with memory }

def logged (s : State) (call : ReadCall) : State := { s with reads := s.reads ++ [call] }

theorem readSector_reliable :
    (s.withMemory memory).readSector (disk.reliable stale) purpose lba destination count =
      (true, (s.logged { purpose, lba, count, ok := true }).withMemory
        ((Footprint.ofStore destination (512 * count) (disk.blocks lba)).apply memory)) := by
  have stored : memory.store destination (512 * count)
      (disk.transfer none lba count (memory.load destination)) =
        (Footprint.ofStore destination (512 * count) (disk.blocks lba)).apply memory :=
    Footprint.store_eq_apply fun i inside => Disk.transfer_ok inside
  rw [← stored]
  rfl

theorem readLocal_reliable :
    (s.withMemory memory).readLocal (disk.reliable stale) purpose lba =
      (true, disk.transfer none lba 1 (stale s.reads.length),
        (s.logged { purpose, lba, count := 1, ok := true }).withMemory memory) := rfl

end State

section Sectors

variable (disk : Disk) (bootSector : BootSector) (buffer : BitVec 32) (size firstSector : Nat)

/-- What the sector-by-sector loop does from sector `i` with `left` sectors to go, if it returns.
    With sectors of fewer than 512 bytes it goes past the end of the file; with more than 512 bytes
    it leaves parts of the file out. -/
structure SectorsEffect (left i bufferIndex : Nat) (s : State) (index : Nat) (after : State)
    (written : Written) : Prop where
  ran : ∀ stale memory, readSectors (disk.reliable stale) bootSector buffer size firstSector left i
    bufferIndex (s.withMemory memory) =
      .ok (some index, after.withMemory ((written stale).apply memory))
  cache : after.cache = s.cache
  partLba : after.partLba = s.partLba
  bounded : index ≤ size
  reached : 512 ≤ bootSector.bytesPerSector.toNat →
    index = min (bufferIndex + left * bootSector.bytesPerSector.toNat) size
  within : 512 ≤ bootSector.bytesPerSector.toNat →
    ∀ stale, (written stale).Within buffer bufferIndex size
  covers : 512 ≤ bootSector.bytesPerSector.toNat →
    bootSector.bytesPerSector.toNat = 512 ∨ size ≤ 512 →
    (∀ stale, (written stale).Covers buffer bufferIndex index) ∧
      ∀ stale other, written stale = written other
  gap : 512 < bootSector.bytesPerSector.toNat → bufferIndex + 512 < size → left ≠ 0 →
    written.Free (buffer + BitVec.ofNat 32 (bufferIndex + 512))
  overrun : bootSector.bytesPerSector.toNat < 512 → bufferIndex < size →
    size < bufferIndex + left * bootSector.bytesPerSector.toNat →
    ∀ stale, (written stale (buffer + BitVec.ofNat 32 size)).isSome

variable {disk bootSector buffer size firstSector}
variable {left i bufferIndex index : Nat} {s after : State} {rest : Written}

theorem SectorsEffect.done (stops : left = 0 ∨ bufferIndex = size) (inside : bufferIndex ≤ size) :
    SectorsEffect disk bootSector buffer size firstSector left i bufferIndex s bufferIndex s
      fun _ => Footprint.empty where
  ran stale memory := by
    cases left with
    | zero => rfl
    | succ left =>
        have ended : ¬bufferIndex < size := by omega
        rw [readSectors, if_neg ended]
        rfl
  cache := rfl
  partLba := rfl
  bounded := inside
  reached _ := by
    rcases stops with rfl | rfl
    · omega
    · omega
  within _ _ := Footprint.within_empty
  covers _ _ := ⟨fun _ => Footprint.covers_empty (Nat.le_refl _), fun _ _ => rfl⟩
  gap _ more some := by omega
  overrun _ more beyond := by
    rcases stops with rfl | rfl
    · omega
    · omega

/-- A whole sector, and the rest of the loop. -/
theorem SectorsEffect.whole (word : size < 2 ^ 32) (nonzero : bootSector.bytesPerSector.toNat ≠ 0)
    (fits : bufferIndex + bootSector.bytesPerSector.toNat ≤ size)
    (later : SectorsEffect disk bootSector buffer size firstSector left (i + 1)
      (bufferIndex + bootSector.bytesPerSector.toNat)
      (s.logged { purpose := .data, lba := u32 ((firstSector : Int) + i), count := 1, ok := true })
      index after rest) :
    SectorsEffect disk bootSector buffer size firstSector (left + 1) i bufferIndex s index after
      (Written.andThen (fun _ => .ofStore (buffer + BitVec.ofNat 32 bufferIndex) (512 * 1)
        (disk.blocks (u32 ((firstSector : Int) + i)))) rest) where
  ran stale memory := by
    have more : bufferIndex < size := by omega
    have room : bootSector.bytesPerSector.toNat ≤ size - bufferIndex := by omega
    rw [readSectors, if_pos more, if_pos room, State.readSector_reliable]
    dsimp only
    rw [if_pos rfl, later.ran, Written.andThen, Footprint.apply_andThen]
  cache := later.cache
  partLba := later.partLba
  bounded := later.bounded
  reached large := by
    rw [later.reached large, Nat.succ_mul]
    omega
  within large stale := by
    have short : bufferIndex + 512 * 1 ≤ size := by omega
    refine Footprint.Within.andThen ?_ ((later.within large stale).mono (by omega) (Nat.le_refl _))
    exact (Footprint.ofStore_within (by omega)).mono (Nat.le_refl _) short
  covers large standard := by
    obtain ⟨covered, same⟩ := later.covers large standard
    refine ⟨fun stale => ?_, fun stale other => ?_⟩
    · have exact_ : bootSector.bytesPerSector.toNat = 512 * 1 := by omega
      have tail := covered stale
      rw [exact_] at tail
      exact Footprint.ofStore_covers.andThen tail
    · rw [Written.andThen, Written.andThen, same stale other]
  gap large more some := by
    have place : offset buffer (buffer + BitVec.ofNat 32 (bufferIndex + 512)) = bufferIndex + 512 :=
      offset_add buffer (by omega)
    refine Written.Free.andThen (Written.free_of_none fun stale => ?_) fun stale => ?_
    · apply (Footprint.ofStore_within (by omega)).untouched
      omega
    · apply (later.within (by omega) stale).untouched
      omega
  overrun small more beyond stale := by
    have place : offset buffer (buffer + BitVec.ofNat 32 size) = size := offset_add buffer word
    rw [Written.andThen, Footprint.isSome_andThen, Bool.or_eq_true]
    by_cases last : bufferIndex + bootSector.bytesPerSector.toNat = size
    · exact .inr (Footprint.ofStore_covers _ (by omega) (by omega))
    · refine .inl (later.overrun small (by omega) ?_ stale)
      rw [Nat.succ_mul] at beyond
      omega

/-- A part of a sector, by way of `sector_buffer`. -/
theorem SectorsEffect.part (word : size < 2 ^ 32) (more : bufferIndex < size)
    (partial_ : size < bufferIndex + bootSector.bytesPerSector.toNat)
    (large : 512 ≤ bootSector.bytesPerSector.toNat)
    (later : SectorsEffect disk bootSector buffer size firstSector left (i + 1) size
      (s.logged { purpose := .data, lba := u32 ((firstSector : Int) + i), count := 1, ok := true })
      index after rest) :
    SectorsEffect disk bootSector buffer size firstSector (left + 1) i bufferIndex s index after
      (Written.andThen (fun stale => .ofStore (buffer + BitVec.ofNat 32 bufferIndex)
        (size - bufferIndex)
        (disk.transfer none (u32 ((firstSector : Int) + i)) 1 (stale s.reads.length))) rest) where
  ran stale memory := by
    have short : ¬bootSector.bytesPerSector.toNat ≤ size - bufferIndex := by omega
    have stored : (memory.store (buffer + BitVec.ofNat 32 bufferIndex) (size - bufferIndex)
        (disk.transfer none (u32 ((firstSector : Int) + i)) 1 (stale s.reads.length))) =
          (Footprint.ofStore (buffer + BitVec.ofNat 32 bufferIndex) (size - bufferIndex)
            (disk.transfer none (u32 ((firstSector : Int) + i)) 1 (stale s.reads.length))).apply
              memory := Footprint.store_eq_apply fun _ _ => rfl
    have reached : bufferIndex + (size - bufferIndex) = size := by omega
    rw [readSectors, if_pos more, if_neg short, if_neg (Nat.not_lt.mpr large),
      State.readLocal_reliable]
    dsimp only
    rw [if_pos rfl, reached]
    have next := later.ran stale ((Footprint.ofStore (buffer + BitVec.ofNat 32 bufferIndex)
      (size - bufferIndex) (disk.transfer none (u32 ((firstSector : Int) + i)) 1
        (stale s.reads.length))).apply memory)
    rw [← stored] at next
    rw [Written.andThen, Footprint.apply_andThen, ← stored]
    exact next
  cache := later.cache
  partLba := later.partLba
  bounded := later.bounded
  reached _ := by
    rw [later.reached large, Nat.succ_mul]
    omega
  within _ stale := by
    have reached : bufferIndex + (size - bufferIndex) = size := by omega
    refine Footprint.Within.andThen ?_ ((later.within large stale).mono (by omega) (Nat.le_refl _))
    exact (Footprint.ofStore_within (by omega)).mono (Nat.le_refl _) (by omega)
  covers _ standard := by
    obtain ⟨covered, same⟩ := later.covers large standard
    have reached : bufferIndex + (size - bufferIndex) = size := by omega
    refine ⟨fun stale => ?_, fun stale other => ?_⟩
    · have tail := covered stale
      rw [← reached] at tail
      exact Footprint.ofStore_covers.andThen tail
    · rw [Written.andThen, Written.andThen, same stale other]
      refine congrArg (fun first => Footprint.andThen first (rest other)) ?_
      apply Footprint.ofStore_congr
      intro k inside
      rw [Disk.transfer_ok (by omega), Disk.transfer_ok (by omega)]
  gap wide beyond _ := by
    have place : offset buffer (buffer + BitVec.ofNat 32 (bufferIndex + 512)) = bufferIndex + 512 :=
      offset_add buffer (by omega)
    have start : offset (buffer + BitVec.ofNat 32 bufferIndex)
        (buffer + BitVec.ofNat 32 (bufferIndex + 512)) = 512 := by
      rw [Footprint.offset_from (by omega), place]
      omega
    refine Written.Free.andThen (fun byte => ⟨fun _ _ => byte, fun _ => 0, ?_⟩) fun stale => ?_
    · rw [Footprint.apply, Footprint.ofStore, start, if_pos (by omega), Disk.transfer,
        if_neg (by omega)]
      rfl
    · apply (later.within large stale).untouched
      omega
  overrun small := by omega

/-- The sector-by-sector loop stops only in front of a part of a sector of fewer than 512 bytes. -/
theorem readSectors_effect (word : size < 2 ^ 32) (nonzero : bootSector.bytesPerSector.toNat ≠ 0)
    (inside : bufferIndex ≤ size) :
    (bootSector.bytesPerSector.toNat < 512 ∧
      (bufferIndex < size ∧ size < bufferIndex + left * bootSector.bytesPerSector.toNat) ∧
      ∀ stale memory, readSectors (disk.reliable stale) bootSector buffer size firstSector left i
        bufferIndex (s.withMemory memory) = .error .outOfBounds) ∨
    ∃ index after written,
      SectorsEffect disk bootSector buffer size firstSector left i bufferIndex s index after
        written := by
  induction left generalizing i bufferIndex s with
  | zero => exact .inr ⟨_, _, _, .done (.inl rfl) inside⟩
  | succ left induction_hypothesis =>
      by_cases last : bufferIndex = size
      · exact .inr ⟨_, _, _, .done (.inr last) inside⟩
      · have more : bufferIndex < size := by omega
        by_cases fits : bufferIndex + bootSector.bytesPerSector.toNat ≤ size
        · have room : bootSector.bytesPerSector.toNat ≤ size - bufferIndex := by omega
          rcases induction_hypothesis fits with ⟨small, beyond, stops⟩ | ⟨index, after, rest, later⟩
          · refine .inl ⟨small, ⟨more, ?_⟩, fun stale memory => ?_⟩
            · rw [Nat.succ_mul]
              omega
            · rw [readSectors, if_pos more, if_pos room, State.readSector_reliable]
              dsimp only
              rw [if_pos rfl, stops]
          · exact .inr ⟨_, _, _, .whole word nonzero fits later⟩
        · by_cases large : 512 ≤ bootSector.bytesPerSector.toNat
          · rcases induction_hypothesis (Nat.le_refl size) with
              ⟨small, -⟩ | ⟨index, after, rest, later⟩
            · omega
            · exact .inr ⟨_, _, _, .part word more (by omega) large later⟩
          · refine .inl ⟨by omega, ⟨more, ?_⟩, fun stale memory => ?_⟩
            · rw [Nat.succ_mul]
              omega
            · rw [readSectors, if_pos more, if_neg (by omega), if_pos (by omega)]

end Sectors

theorem clusterBytes_eq (bootSector : BootSector) :
    clusterBytes bootSector =
      bootSector.sectorsPerCluster.toNat * bootSector.bytesPerSector.toNat := by
  have small : bootSector.sectorsPerCluster.toNat * bootSector.bytesPerSector.toNat < 2 ^ 8 * 2 ^ 16 :=
    Nat.mul_lt_mul'' bootSector.sectorsPerCluster.isLt bootSector.bytesPerSector.isLt
  rw [clusterBytes, ← Int.natCast_mul, u32_of_lt (by omega)]

/-- The blocks of the cluster that is read to `bufferIndex` end with the file. -/
def DataFits (bootSector : BootSector) (size bufferIndex : Nat) : Prop :=
  512 ≤ bootSector.bytesPerSector.toNat ∨
    bufferIndex + 512 * bootSector.sectorsPerCluster.toNat ≤ size

/-- What the reading of one cluster to `bufferIndex` does to the memory. -/
structure WritesCluster (bootSector : BootSector) (buffer : BitVec 32) (size bufferIndex index : Nat)
    (written : Written) : Prop where
  bounded : index ≤ size
  reached : DataFits bootSector size bufferIndex →
    index = min (bufferIndex + clusterBytes bootSector) size
  within : DataFits bootSector size bufferIndex →
    ∀ stale, (written stale).Within buffer bufferIndex size
  covers : 512 ≤ bootSector.bytesPerSector.toNat →
    bootSector.bytesPerSector.toNat = 512 ∨ size ≤ 512 →
    (∀ stale, (written stale).Covers buffer bufferIndex index) ∧
      ∀ stale other, written stale = written other
  gap : 512 < bootSector.bytesPerSector.toNat → bufferIndex + 512 < size →
    bootSector.sectorsPerCluster.toNat ≠ 0 →
    ∃ k < index, written.Free (buffer + BitVec.ofNat 32 k)
  overrun : ¬DataFits bootSector size bufferIndex →
    ∀ stale, (written stale (buffer + BitVec.ofNat 32 size)).isSome

/-- What `readCluster` does, if it returns. -/
structure ClusterEffect (disk : Disk) (bootSector : BootSector) (buffer : BitVec 32) (size : Nat)
    (cluster : BitVec 16) (bufferIndex : Nat) (s : State) (index : Nat) (after : State)
    (written : Written) : Prop where
  ran : ∀ stale memory, readCluster (disk.reliable stale) bootSector buffer size cluster bufferIndex
    (s.withMemory memory) = .ok (some index, after.withMemory ((written stale).apply memory))
  cache : after.cache = s.cache
  partLba : after.partLba = s.partLba
  writes : WritesCluster bootSector buffer size bufferIndex index written

section Clusters

variable {disk : Disk} {bootSector : BootSector} {buffer : BitVec 32} {size bufferIndex : Nat}
  {cluster : BitVec 16} {s : State}

theorem writesCluster_whole (word : size < 2 ^ 32) (lba : Nat) (more : bufferIndex < size)
    (fits : clusterBytes bootSector ≤ size - bufferIndex) :
    WritesCluster bootSector buffer size bufferIndex (bufferIndex + clusterBytes bootSector)
      fun _ => .ofStore (buffer + BitVec.ofNat 32 bufferIndex)
        (512 * bootSector.sectorsPerCluster.toNat) (disk.blocks lba) := by
  have step := clusterBytes_eq bootSector
  have wide (large : 512 ≤ bootSector.bytesPerSector.toNat) :
      512 * bootSector.sectorsPerCluster.toNat ≤ clusterBytes bootSector := by
    rw [step, Nat.mul_comm]
    exact Nat.mul_le_mul_left _ large
  refine ⟨by omega, fun _ => by omega, ?_, ?_, ?_, ?_⟩
  · intro inside stale
    have short : bufferIndex + 512 * bootSector.sectorsPerCluster.toNat ≤ size := by
      rcases inside with large | short
      · have := wide large
        omega
      · exact short
    exact (Footprint.ofStore_within (by omega)).mono (Nat.le_refl _) short
  · intro large standard
    have whole : 512 * bootSector.sectorsPerCluster.toNat = clusterBytes bootSector := by
      rcases Nat.eq_zero_or_pos bootSector.sectorsPerCluster.toNat with none | some
      · rw [step, none, Nat.zero_mul]
      · have single := Nat.le_mul_of_pos_left bootSector.bytesPerSector.toNat some
        have exact_ : bootSector.bytesPerSector.toNat = 512 := by omega
        rw [step, exact_, Nat.mul_comm]
    refine ⟨fun stale => ?_, fun _ _ => rfl⟩
    rw [← whole]
    exact Footprint.ofStore_covers
  · intro large _ some
    have left_out : 512 * bootSector.sectorsPerCluster.toNat < clusterBytes bootSector := by
      rw [step, Nat.mul_comm]
      exact Nat.mul_lt_mul_of_pos_left large (Nat.pos_of_ne_zero some)
    refine ⟨bufferIndex + 512 * bootSector.sectorsPerCluster.toNat, by omega, ?_⟩
    refine Written.free_of_none fun stale => (Footprint.ofStore_within (by omega)).untouched ?_
    exact .inr (Nat.le_of_eq (offset_add buffer (by omega)).symm)
  · intro exceeds stale
    unfold DataFits at exceeds
    have place : offset buffer (buffer + BitVec.ofNat 32 size) = size := offset_add buffer word
    exact Footprint.ofStore_covers _ (by omega) (by omega)

theorem writesCluster_sectors {firstSector index : Nat} {after : State} {written : Written}
    (more : bufferIndex < size) (exceeds : size - bufferIndex < clusterBytes bootSector)
    (effect : SectorsEffect disk bootSector buffer size firstSector
      bootSector.sectorsPerCluster.toNat 0 bufferIndex s index after written) :
    WritesCluster bootSector buffer size bufferIndex index written := by
  have step := clusterBytes_eq bootSector
  have narrow (small : bootSector.bytesPerSector.toNat < 512) :
      clusterBytes bootSector ≤ 512 * bootSector.sectorsPerCluster.toNat := by
    rw [step, Nat.mul_comm]
    exact Nat.mul_le_mul_right _ (Nat.le_of_lt small)
  have large (inside : DataFits bootSector size bufferIndex) :
      512 ≤ bootSector.bytesPerSector.toNat := by
    by_contra small
    have := narrow (by omega)
    unfold DataFits at inside
    omega
  refine ⟨effect.bounded, ?_, ?_, effect.covers, ?_, ?_⟩
  · intro inside
    rw [step]
    exact effect.reached (large inside)
  · intro inside
    exact effect.within (large inside)
  · intro wide beyond some
    refine ⟨bufferIndex + 512, ?_, effect.gap wide beyond some⟩
    have reached := effect.reached (Nat.le_of_lt wide)
    rw [← step] at reached
    omega
  · intro outside
    unfold DataFits at outside
    exact effect.overrun (by omega) more (by omega)

theorem readCluster_effect (word : size < 2 ^ 32) (nonzero : bootSector.bytesPerSector.toNat ≠ 0)
    (more : bufferIndex < size) :
    (¬DataFits bootSector size bufferIndex ∧
      ∀ stale memory, readCluster (disk.reliable stale) bootSector buffer size cluster bufferIndex
        (s.withMemory memory) = .error .outOfBounds) ∨
    ∃ index after written,
      ClusterEffect disk bootSector buffer size cluster bufferIndex s index after written := by
  by_cases fits : clusterBytes bootSector ≤ size - bufferIndex
  · have whole := @writesCluster_whole disk bootSector buffer size bufferIndex word
      (firstSectorOfCluster bootSector s.partLba cluster) more fits
    refine .inr ⟨_, s.logged ⟨.data, firstSectorOfCluster bootSector s.partLba cluster,
      bootSector.sectorsPerCluster.toNat, true⟩, _, fun stale memory => ?_, rfl, rfl, whole⟩
    rw [readCluster]
    dsimp only
    rw [if_pos fits, State.readSector_reliable]
    dsimp only
    rw [if_pos rfl]
    rfl
  · have unfolded (stale : Nat → Block) (memory : Memory 32) :
        readCluster (disk.reliable stale) bootSector buffer size cluster bufferIndex
          (s.withMemory memory) =
        readSectors (disk.reliable stale) bootSector buffer size
          (firstSectorOfCluster bootSector s.partLba cluster) bootSector.sectorsPerCluster.toNat 0
          bufferIndex (s.withMemory memory) := by
      rw [readCluster]
      dsimp only
      rw [if_neg fits]
      rfl
    rcases @readSectors_effect disk bootSector buffer size
      (firstSectorOfCluster bootSector s.partLba cluster) bootSector.sectorsPerCluster.toNat 0
      bufferIndex s word nonzero (Nat.le_of_lt more) with
      ⟨small, ⟨-, beyond⟩, stops⟩ | ⟨index, after, written, effect⟩
    · refine .inl ⟨?_, fun stale memory => (unfolded stale memory).trans (stops stale memory)⟩
      have narrow : bootSector.sectorsPerCluster.toNat * bootSector.bytesPerSector.toNat ≤
          bootSector.sectorsPerCluster.toNat * 512 := Nat.mul_le_mul_left _ (Nat.le_of_lt small)
      unfold DataFits
      omega
    · exact .inr ⟨index, after, written,
        fun stale memory => (unfolded stale memory).trans (effect.ran stale memory),
        effect.cache, effect.partLba, writesCluster_sectors more (by omega) effect⟩

end Clusters

/-- The next cluster by the FAT, and the cache after the lookup. Bytes that no block fills are as the
    buffer has them. -/
def fatLookup (disk : Disk) (bootSector : BootSector) (partLba : BitVec 32)
    (at_ : BitVec 16 × FatCache) : BitVec 16 × FatCache :=
  let sector := fatSector bootSector partLba at_.1
  let offset := fatEntryOffset bootSector at_.1
  let cache : FatCache :=
    if sector = at_.2.cachedSector then at_.2
    else { cachedSector := sector, fatBuffer := disk.transfer none sector 1 at_.2.fatBuffer }
  (cache.fatBuffer (offset + 1) ++ cache.fatBuffer offset, cache)

/-- The clusters of a chain by the FAT, from its first cluster and the cache on. -/
def fatChain (disk : Disk) (bootSector : BootSector) (partLba : BitVec 32)
    (start : BitVec 16 × FatCache) (i : Nat) : BitVec 16 × FatCache :=
  (fatLookup disk bootSector partLba)^[i] start

/-- Both bytes of the entry of a cluster are in `fat_buffer`. -/
def EntryFits (bootSector : BootSector) (cluster : BitVec 16) : Prop :=
  fatEntryOffset bootSector cluster + 1 < 1024

instance {bootSector : BootSector} {cluster : BitVec 16} : Decidable (EntryFits bootSector cluster) :=
  inferInstanceAs (Decidable (_ < 1024))

section Loop

variable {disk : Disk} {bootSector : BootSector} {buffer : BitVec 32} {size bufferIndex : Nat}
  {cluster : BitVec 16} {s : State}

theorem State.getFatEntry_reliable (nonzero : bootSector.bytesPerSector.toNat ≠ 0) :
    ∃ calls, ∀ stale memory,
      (s.withMemory memory).getFatEntry (disk.reliable stale) bootSector cluster =
        if EntryFits bootSector cluster then
          .ok ((fatLookup disk bootSector s.partLba (cluster, s.cache)).1,
            ({ s with
              cache := (fatLookup disk bootSector s.partLba (cluster, s.cache)).2
              reads := s.reads ++ calls } : State).withMemory memory)
        else .error .outOfBounds := by
  have size_ : bootSector.bytesPerSector ≠ 0 := fun zero => nonzero (congrArg BitVec.toNat zero)
  by_cases hit : fatSector bootSector s.partLba cluster = s.cache.cachedSector
  · refine ⟨[], fun stale memory => ?_⟩
    by_cases inside : EntryFits bootSector cluster
    · have bound : fatEntryOffset bootSector cluster + 1 < 1024 := inside
      simp only [State.getFatEntry, State.withMemory, Disk.reliable, Fat16.getFatEntry, size_, hit,
        bound, inside, fatLookup, if_true, if_false, ne_eq, not_true]
      rfl
    · have bound : ¬fatEntryOffset bootSector cluster + 1 < 1024 := inside
      simp only [State.getFatEntry, State.withMemory, Disk.reliable, Fat16.getFatEntry, size_, hit,
        bound, inside, if_false, ne_eq, not_true]
  · refine ⟨[⟨.fat, fatSector bootSector s.partLba cluster, 1, true⟩], fun stale memory => ?_⟩
    by_cases inside : EntryFits bootSector cluster
    · have bound : fatEntryOffset bootSector cluster + 1 < 1024 := inside
      simp only [State.getFatEntry, State.withMemory, Disk.reliable, Fat16.getFatEntry, size_, hit,
        bound, inside, fatLookup, Option.isSome_none, Bool.false_eq_true, if_true, if_false, ne_eq,
        not_false_eq_true]
      rfl
    · have bound : ¬fatEntryOffset bootSector cluster + 1 < 1024 := inside
      simp only [State.getFatEntry, State.withMemory, Disk.reliable, Fat16.getFatEntry, size_, hit,
        bound, inside, Option.isSome_none, Bool.false_eq_true, if_true, if_false, ne_eq,
        not_false_eq_true]

/-- What one turn of the loop does, if it does not stop there. -/
structure TurnEffect (disk : Disk) (bootSector : BootSector) (buffer : BitVec 32) (size : Nat)
    (cluster : BitVec 16) (bufferIndex : Nat) (s : State) (index : Nat) (after : State)
    (written : Written) : Prop where
  ran : ∀ fuel stale memory, readClusters (disk.reliable stale) bootSector buffer size (fuel + 1)
    cluster bufferIndex (s.withMemory memory) =
      readClusters (disk.reliable stale) bootSector buffer size fuel
        (fatLookup disk bootSector s.partLba (cluster, s.cache)).1 index
        (after.withMemory ((written stale).apply memory))
  cache : after.cache = (fatLookup disk bootSector s.partLba (cluster, s.cache)).2
  partLba : after.partLba = s.partLba
  writes : WritesCluster bootSector buffer size bufferIndex index written

theorem readClusters_turnEffect (word : size < 2 ^ 32) (nonzero : bootSector.bytesPerSector.toNat ≠ 0)
    (more : cluster ≠ 0xFFFF ∧ bufferIndex < size) :
    (¬(EntryFits bootSector cluster ∧ DataFits bootSector size bufferIndex) ∧
      ∀ fuel stale memory, readClusters (disk.reliable stale) bootSector buffer size (fuel + 1)
        cluster bufferIndex (s.withMemory memory) = .error .outOfBounds) ∨
    EntryFits bootSector cluster ∧ ∃ index after written,
      TurnEffect disk bootSector buffer size cluster bufferIndex s index after written := by
  rcases @readCluster_effect disk bootSector buffer size bufferIndex cluster s word nonzero more.2
    with ⟨outside, stops⟩ | ⟨index, after, written, effect⟩
  · refine .inl ⟨fun both => outside both.2, fun fuel stale memory => ?_⟩
    rw [readClusters, if_pos more, stops]
  · obtain ⟨calls, lookup⟩ :=
      @State.getFatEntry_reliable disk bootSector cluster after nonzero
    rw [effect.cache, effect.partLba] at lookup
    by_cases inside : EntryFits bootSector cluster
    · refine .inr ⟨inside, index, { after with
          cache := (fatLookup disk bootSector s.partLba (cluster, s.cache)).2
          reads := after.reads ++ calls }, written, fun fuel stale memory => ?_, rfl,
        effect.partLba, effect.writes⟩
      rw [readClusters, if_pos more, effect.ran]
      dsimp only
      rw [lookup, if_pos inside, effect.partLba]
    · refine .inl ⟨fun both => inside both.1, fun fuel stale memory => ?_⟩
      rw [readClusters, if_pos more, effect.ran]
      dsimp only
      rw [lookup, if_neg inside]

theorem readClusters_end (ends : ¬(cluster ≠ 0xFFFF ∧ bufferIndex < size)) (fuel : Nat)
    (medium : Medium) :
    readClusters medium bootSector buffer size (fuel + 1) cluster bufferIndex s =
      .ok (int32 bufferIndex, s) := by
  rw [readClusters, if_neg ends]

/-- With any fuel the loop stops, or it writes the same for every memory. -/
theorem readClusters_effect (word : size < 2 ^ 32) (nonzero : bootSector.bytesPerSector.toNat ≠ 0)
    (fuel : Nat) :
    (∃ stop, ∀ stale memory, readClusters (disk.reliable stale) bootSector buffer size fuel cluster
      bufferIndex (s.withMemory memory) = .error stop) ∨
    ∃ n after, ∃ written : Written, ∀ stale memory,
      readClusters (disk.reliable stale) bootSector buffer size fuel cluster bufferIndex
        (s.withMemory memory) = .ok (n, State.withMemory after ((written stale).apply memory)) := by
  induction fuel generalizing cluster bufferIndex s with
  | zero => exact .inl ⟨.outOfFuel, fun _ _ => rfl⟩
  | succ fuel induction_hypothesis =>
      by_cases more : cluster ≠ 0xFFFF ∧ bufferIndex < size
      · rcases @readClusters_turnEffect disk bootSector buffer size bufferIndex cluster s word nonzero more
          with ⟨-, stops⟩ | ⟨-, index, after, written, turn⟩
        · exact .inl ⟨.outOfBounds, stops fuel⟩
        · rcases @induction_hypothesis index
            (fatLookup disk bootSector s.partLba (cluster, s.cache)).1 after with
            ⟨stop, stops⟩ | ⟨n, last, rest, ran⟩
          · refine .inl ⟨stop, fun stale memory => ?_⟩
            rw [turn.ran, stops]
          · refine .inr ⟨n, last, written.andThen rest, fun stale memory => ?_⟩
            rw [turn.ran, ran, Written.andThen, Footprint.apply_andThen]
      · refine .inr ⟨int32 bufferIndex, s, fun _ => .empty, fun stale memory => ?_⟩
        rw [readClusters_end more, Footprint.apply_empty]

/-- What `n` turns of the loop do. -/
structure TurnsEffect (disk : Disk) (bootSector : BootSector) (buffer : BitVec 32) (size : Nat)
    (cluster : BitVec 16) (bufferIndex : Nat) (s : State) (n : Nat) (after : State)
    (written : Written) : Prop where
  ran : ∀ fuel stale memory, readClusters (disk.reliable stale) bootSector buffer size (n + fuel)
    cluster bufferIndex (s.withMemory memory) =
      readClusters (disk.reliable stale) bootSector buffer size fuel
        (fatChain disk bootSector s.partLba (cluster, s.cache) n).1
        (min (bufferIndex + n * clusterBytes bootSector) size)
        (after.withMemory ((written stale).apply memory))
  cache : after.cache = (fatChain disk bootSector s.partLba (cluster, s.cache) n).2
  partLba : after.partLba = s.partLba
  within : ∀ stale, (written stale).Within buffer bufferIndex size
  covers : 512 ≤ bootSector.bytesPerSector.toNat →
    bootSector.bytesPerSector.toNat = 512 ∨ size ≤ 512 →
    (∀ stale, (written stale).Covers buffer bufferIndex
      (min (bufferIndex + n * clusterBytes bootSector) size)) ∧
      ∀ stale other, written stale = written other
  gap : n ≠ 0 → 512 < bootSector.bytesPerSector.toNat → bufferIndex + 512 < size →
    bootSector.sectorsPerCluster.toNat ≠ 0 →
    ∃ k < size, written.Free (buffer + BitVec.ofNat 32 k)

/-- The loop goes on at a cluster, and nothing of this turn is out of bounds. -/
structure TurnFits (bootSector : BootSector) (size : Nat) (cluster : BitVec 16) (bufferIndex : Nat) :
    Prop where
  more : cluster ≠ 0xFFFF ∧ bufferIndex < size
  entry : EntryFits bootSector cluster
  data : DataFits bootSector size bufferIndex

theorem readClusters_turns (word : size < 2 ^ 32) (nonzero : bootSector.bytesPerSector.toNat ≠ 0)
    (inside : bufferIndex ≤ size) {n : Nat}
    (fits : ∀ i < n, TurnFits bootSector size
      (fatChain disk bootSector s.partLba (cluster, s.cache) i).1
      (bufferIndex + i * clusterBytes bootSector)) :
    ∃ after written,
      TurnsEffect disk bootSector buffer size cluster bufferIndex s n after written := by
  induction n generalizing cluster bufferIndex s with
  | zero =>
      have start : min (bufferIndex + 0 * clusterBytes bootSector) size = bufferIndex := by omega
      refine ⟨s, fun _ => .empty, fun fuel stale memory => ?_, rfl, rfl,
        fun _ => Footprint.within_empty, fun _ _ => ⟨fun _ => Footprint.covers_empty ?_, fun _ _ => rfl⟩,
        fun none => absurd rfl none⟩
      · rw [start, Nat.zero_add, Footprint.apply_empty]
        rfl
      · omega
  | succ n induction_hypothesis =>
      have first := fits 0 (Nat.succ_pos n)
      rw [Nat.zero_mul, Nat.add_zero] at first
      rcases @readClusters_turnEffect disk bootSector buffer size bufferIndex cluster s word nonzero
        first.more with ⟨outside, -⟩ | ⟨-, index, middle, written, turn⟩
      · exact absurd ⟨first.entry, first.data⟩ outside
      · have reached := turn.writes.reached first.data
        have chain (i : Nat) : fatChain disk bootSector middle.partLba
            ((fatLookup disk bootSector s.partLba (cluster, s.cache)).1, middle.cache) i =
            fatChain disk bootSector s.partLba (cluster, s.cache) (i + 1) := by
          rw [turn.cache, turn.partLba]
          rfl
        have later : ∀ i < n, TurnFits bootSector size
            (fatChain disk bootSector middle.partLba
              ((fatLookup disk bootSector s.partLba (cluster, s.cache)).1, middle.cache) i).1
            (index + i * clusterBytes bootSector) := by
          intro i before
          have second := (fits 1 (by omega)).more.2
          have next := fits (i + 1) (by omega)
          have place : index + i * clusterBytes bootSector =
              bufferIndex + (i + 1) * clusterBytes bootSector := by
            rw [Nat.succ_mul]
            omega
          rw [chain, place]
          exact next
        obtain ⟨after, rest, turns⟩ := induction_hypothesis turn.writes.bounded later
        have place : min (index + n * clusterBytes bootSector) size =
            min (bufferIndex + (n + 1) * clusterBytes bootSector) size := by
          rw [Nat.succ_mul]
          omega
        refine ⟨after, written.andThen rest, fun fuel stale memory => ?_, ?_,
          turns.partLba.trans turn.partLba, fun stale => ?_, fun large standard => ?_,
          fun _ wide beyond some => ?_⟩
        · have fuel_ : n + 1 + fuel = n + fuel + 1 := by omega
          rw [fuel_, turn.ran, turns.ran, chain, place, Written.andThen, Footprint.apply_andThen]
        · rw [turns.cache, chain]
        · exact (turn.writes.within first.data stale).andThen
            ((turns.within stale).mono (by omega) (Nat.le_refl _))
        · obtain ⟨early, same⟩ := turn.writes.covers large standard
          obtain ⟨late, sameLater⟩ := turns.covers large standard
          rw [place] at late
          refine ⟨fun stale => (early stale).andThen (late stale), fun stale other => ?_⟩
          rw [Written.andThen, Written.andThen, same stale other, sameLater stale other]
        · obtain ⟨k, below, free⟩ := turn.writes.gap wide beyond some
          have bounded := turn.writes.bounded
          have place : offset buffer (buffer + BitVec.ofNat 32 k) = k := offset_add buffer (by omega)
          refine ⟨k, by omega, free.andThen fun stale => (turns.within stale).untouched ?_⟩
          omega

end Loop

end Mackerel.Fat16
