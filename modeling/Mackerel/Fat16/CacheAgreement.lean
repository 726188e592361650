import Mackerel.Fat16.FatCache

namespace Mackerel.Fat16

open Bytes

/-- A volume with the sector size that `read_sector` delivers. -/
structure Volume where
  bootSector : BootSector
  partLba : BitVec 32
  sectorSize : bootSector.bytesPerSector = 512

namespace Volume

variable (volume : Volume)

/-- A byte of the first FAT on the disk. -/
def fatByte (disk : Disk) (i : Nat) : Byte :=
  disk (u32 (volume.partLba.toNat + volume.bootSector.reservedSectors.toNat + (i / 512 : Nat)))
    (i % 512)

/-- The little-endian entry of a cluster on the disk. -/
def fatEntry (disk : Disk) (cluster : BitVec 16) : BitVec 16 :=
  volume.fatByte disk (2 * cluster.toNat + 1) ++ volume.fatByte disk (2 * cluster.toNat)

theorem bytesPerSector_toNat : volume.bootSector.bytesPerSector.toNat = 512 := by
  rw [volume.sectorSize]
  rfl

/-- An entry does not cross the end of its sector. -/
theorem fatEntryOffset_lt (cluster : BitVec 16) :
    fatEntryOffset volume.bootSector cluster + 1 < 512 := by
  unfold fatEntryOffset
  rw [volume.bytesPerSector_toNat]
  omega

theorem fatByte_even (disk : Disk) (cluster : BitVec 16) :
    volume.fatByte disk (2 * cluster.toNat) =
      disk (fatSector volume.bootSector volume.partLba cluster)
        (fatEntryOffset volume.bootSector cluster) := by
  unfold fatByte fatSector fatEntryOffset
  rw [volume.bytesPerSector_toNat, Nat.mul_comm 2]

theorem fatByte_odd (disk : Disk) (cluster : BitVec 16) :
    volume.fatByte disk (2 * cluster.toNat + 1) =
      disk (fatSector volume.bootSector volume.partLba cluster)
        (fatEntryOffset volume.bootSector cluster + 1) := by
  have quotient : (2 * cluster.toNat + 1) / 512 = cluster.toNat * 2 / 512 := by omega
  have remainder : (2 * cluster.toNat + 1) % 512 = cluster.toNat * 2 % 512 + 1 := by omega
  unfold fatByte fatSector fatEntryOffset
  rw [volume.bytesPerSector_toNat, quotient, remainder]

end Volume

theorem append_eq_iff {high low high' low' : Byte} :
    high ++ low = high' ++ low' ↔ high = high' ∧ low = low' := by
  constructor
  · intro same
    have top := congrArg (BitVec.extractLsb' 8 8) same
    have bottom := congrArg (BitVec.extractLsb' 0 8) same
    rw [BitVec.extractLsb'_append_eq_left, BitVec.extractLsb'_append_eq_left] at top
    rw [BitVec.extractLsb'_append_eq_right, BitVec.extractLsb'_append_eq_right] at bottom
    exact ⟨top, bottom⟩
  · rintro ⟨rfl, rfl⟩
    rfl

theorem getFatEntry_of_volume (disk : Disk) (fault : Option Garbage) (volume : Volume)
    (cluster : BitVec 16) (cache : FatCache) :
    let sector := fatSector volume.bootSector volume.partLba cluster
    let offset := fatEntryOffset volume.bootSector cluster
    let fatBuffer := disk.transfer fault sector 1 cache.fatBuffer
    getFatEntry disk fault volume.bootSector volume.partLba cluster cache = .ok
      (if sector = cache.cachedSector then
        { nextCluster := cache.fatBuffer (offset + 1) ++ cache.fatBuffer offset
          cache
          call := none }
      else if fault.isSome then
        { nextCluster := 0xFFFF
          cache := { cache with fatBuffer }
          call := some { purpose := .fat, lba := sector, count := 1, ok := false } }
      else
        { nextCluster := fatBuffer (offset + 1) ++ fatBuffer offset
          cache := { cachedSector := sector, fatBuffer }
          call := some { purpose := .fat, lba := sector, count := 1, ok := true } }) := by
  have nonzero : volume.bootSector.bytesPerSector ≠ 0 := by simp [volume.sectorSize]
  have bound := volume.fatEntryOffset_lt cluster
  have inside : fatEntryOffset volume.bootSector cluster + 1 < 1024 := by omega
  dsimp only
  unfold getFatEntry
  rw [if_neg nonzero]
  by_cases hit : fatSector volume.bootSector volume.partLba cluster = cache.cachedSector
  · simp [hit, inside]
  · cases fault with
    | none => simp [hit, inside]
    | some garbage => simp [hit]

/-- One lookup of a history; `fault` is the outcome of its read, if it makes one. -/
structure Request where
  volume : Volume
  cluster : BitVec 16
  fault : Option Garbage

namespace Request

def sector (request : Request) : Nat :=
  fatSector request.volume.bootSector request.volume.partLba request.cluster

def offset (request : Request) : Nat := fatEntryOffset request.volume.bootSector request.cluster

end Request

def FatEntry.failed (entry : FatEntry) : Bool := entry.call.any fun call => !call.ok

/-- The answers to a history of lookups, each from the cache that the one before it left. -/
def answers (disk : Disk) (cache : FatCache) : List Request → List (Request × FatEntry)
  | [] => []
  | request :: rest =>
      match getFatEntry disk request.fault request.volume.bootSector request.volume.partLba
        request.cluster cache with
      | .ok entry => (request, entry) :: answers disk entry.cache rest
      | .error _ => []

/-- An answer without a read failure is the entry on the disk. -/
def Agrees (disk : Disk) (answer : Request × FatEntry) : Prop :=
  answer.2.failed = false → answer.2.nextCluster = answer.1.volume.fatEntry disk answer.1.cluster

instance (disk : Disk) (answer : Request × FatEntry) : Decidable (Agrees disk answer) :=
  inferInstanceAs (Decidable (_ → _))

/-- The sector that the last successful read brought in, and the bytes that failed reads have
    overwritten since. -/
structure Loaded where
  sector : Nat
  overwritten : Garbage

/-- At power-up the buffer is zero, under the tag `(uint32_t)-1`. -/
def Loaded.powerUp : Loaded where
  sector := u32 (-1)
  overwritten := fun _ => some 0

def Loaded.after (loaded : Loaded) (request : Request) : Loaded :=
  if request.sector = loaded.sector then loaded
  else
    match request.fault with
    | none => { sector := request.sector, overwritten := fun _ => none }
    | some garbage =>
        { loaded with overwritten := fun i => (garbage i).or (loaded.overwritten i) }

/-- Neither byte of the request's entry is overwritten by another value. -/
def Loaded.Intact (disk : Disk) (loaded : Loaded) (request : Request) : Prop :=
  ∀ i, (i = request.offset ∨ i = request.offset + 1) →
    ∀ byte, loaded.overwritten i = some byte → byte = disk loaded.sector i

/-- No lookup of the history is answered from the cache after a failed read has changed its
    entry in the buffer. -/
def Unharmed (disk : Disk) (loaded : Loaded) : List Request → Prop
  | [] => True
  | request :: rest =>
      (request.sector = loaded.sector → loaded.Intact disk request) ∧
        Unharmed disk (loaded.after request) rest

/-- What the two static variables hold. -/
structure FatCache.Holds (disk : Disk) (loaded : Loaded) (cache : FatCache) : Prop where
  tag : cache.cachedSector = loaded.sector
  buffer : ∀ i, i < 512 → cache.fatBuffer i = (loaded.overwritten i).getD (disk loaded.sector i)

variable {disk : Disk} {loaded : Loaded} {cache : FatCache}

theorem FatCache.holds_powerUp : FatCache.empty.Holds disk Loaded.powerUp :=
  ⟨rfl, fun _ _ => rfl⟩

theorem Loaded.intact_iff (request : Request) :
    loaded.Intact disk request ↔
      (loaded.overwritten (request.offset + 1)).getD (disk loaded.sector (request.offset + 1)) =
          disk loaded.sector (request.offset + 1) ∧
        (loaded.overwritten request.offset).getD (disk loaded.sector request.offset) =
          disk loaded.sector request.offset := by
  have single (i : Nat) : (loaded.overwritten i).getD (disk loaded.sector i) = disk loaded.sector i ↔
      ∀ byte, loaded.overwritten i = some byte → byte = disk loaded.sector i := by
    cases loaded.overwritten i <;> simp
  rw [single, single]
  constructor
  · intro intact
    exact ⟨intact _ (.inr rfl), intact _ (.inl rfl)⟩
  · rintro ⟨high, low⟩ i (rfl | rfl)
    · exact low
    · exact high

/-- The two bytes of an entry are right exactly if the failed reads have left them alone. -/
theorem FatCache.Holds.entry_iff (holds : cache.Holds disk loaded) (request : Request)
    (hit : request.sector = loaded.sector) :
    cache.fatBuffer (request.offset + 1) ++ cache.fatBuffer request.offset =
      request.volume.fatEntry disk request.cluster ↔ loaded.Intact disk request := by
  have bound : request.offset + 1 < 512 := request.volume.fatEntryOffset_lt request.cluster
  have even : request.volume.fatByte disk (2 * request.cluster.toNat) =
      disk loaded.sector request.offset := hit ▸ request.volume.fatByte_even disk request.cluster
  have odd : request.volume.fatByte disk (2 * request.cluster.toNat + 1) =
      disk loaded.sector (request.offset + 1) := hit ▸ request.volume.fatByte_odd disk request.cluster
  rw [Volume.fatEntry, holds.buffer _ bound, holds.buffer _ (by omega), even, odd, append_eq_iff,
    loaded.intact_iff]

theorem FatCache.Holds.after_failure (holds : cache.Holds disk loaded) (garbage : Garbage)
    (sector : Nat) :
    { cache with fatBuffer := disk.transfer (some garbage) sector 1 cache.fatBuffer : FatCache }.Holds
      disk { loaded with overwritten := fun i => (garbage i).or (loaded.overwritten i) } where
  tag := holds.tag
  buffer i inside := by
    have before := holds.buffer i inside
    have written : i < 512 * 1 := by omega
    dsimp only [Disk.transfer]
    rw [if_pos written, before]
    cases garbage i <;> rfl

theorem FatCache.holds_after_success (disk : Disk) (sector : Nat) (old : Block) :
    { cachedSector := sector, fatBuffer := disk.transfer none sector 1 old : FatCache }.Holds disk
      { sector, overwritten := fun _ => none } where
  tag := rfl
  buffer i inside := by
    have place : i / 512 = 0 ∧ i % 512 = i := by omega
    change disk.transfer none sector 1 old i = disk sector i
    rw [Disk.transfer_ok (by omega), place.1, place.2, Nat.add_zero]

/-- One lookup: what it leaves in the cache, and when its answer is right. -/
theorem FatCache.Holds.lookup (holds : cache.Holds disk loaded) (request : Request) :
    ∃ entry,
      getFatEntry disk request.fault request.volume.bootSector request.volume.partLba
          request.cluster cache = .ok entry ∧
        entry.cache.Holds disk (loaded.after request) ∧
        (Agrees disk (request, entry) ↔
          (request.sector = loaded.sector → loaded.Intact disk request)) := by
  refine ⟨_, getFatEntry_of_volume disk request.fault request.volume request.cluster cache, ?_⟩
  rw [← Request.sector, ← Request.offset, holds.tag, Loaded.after]
  by_cases hit : request.sector = loaded.sector
  · have entry := holds.entry_iff request hit
    simpa [hit, Agrees, FatEntry.failed, holds] using entry
  · cases outcome : request.fault with
    | none =>
        have fresh := FatCache.holds_after_success disk request.sector cache.fatBuffer
        have entry := fresh.entry_iff request rfl
        simpa [hit, Agrees, FatEntry.failed, fresh, Loaded.Intact] using entry
    | some garbage =>
        have after := holds.after_failure garbage request.sector
        simpa [hit, Agrees, FatEntry.failed, holds.tag] using after

theorem FatCache.Holds.answers_agree_iff (holds : cache.Holds disk loaded)
    (requests : List Request) :
    (∀ answer ∈ answers disk cache requests, Agrees disk answer) ↔ Unharmed disk loaded requests := by
  induction requests generalizing cache loaded with
  | nil => simp [answers, Unharmed]
  | cons request rest induction_hypothesis =>
      obtain ⟨entry, returned, after, right⟩ := holds.lookup request
      have later := induction_hypothesis after
      simp only [answers, returned, List.forall_mem_cons, Unharmed]
      rw [right, later]

/-- From power-up on, the answers of a history without a read failure of their own are the
    entries on the disk exactly if the history is unharmed. -/
theorem fat_cache_agrees_iff (disk : Disk) (requests : List Request) :
    (∀ answer ∈ answers disk .empty requests, Agrees disk answer) ↔
      Unharmed disk .powerUp requests :=
  FatCache.holds_powerUp.answers_agree_iff requests

def smallVolume : Volume where
  bootSector :=
    { BootSector.overlay (fun _ => 0) with
      bytesPerSector := 512, sectorsPerCluster := 1, reservedSectors := 1, numFats := 1
      rootEntries := 16, fatSize16 := 1 }
  partLba := 2048
  sectorSize := rfl

def harmedRequests : List Request :=
  [{ volume := smallVolume, cluster := 2, fault := none },
    { volume := smallVolume, cluster := 300, fault := some fun _ => some 0xFF },
    { volume := smallVolume, cluster := 2, fault := none }]

theorem failed_read_poisons_cache :
    ¬ ∀ (disk : Disk) (requests : List Request),
      ∀ answer ∈ answers disk .empty requests, Agrees disk answer := by
  intro agrees
  have all := agrees (fun _ _ => 0) harmedRequests
  revert all
  decide

end Mackerel.Fat16
