import Mackerel.Fat16.CacheAgreement
import Mackerel.Fat16.ReadFile
import Mathlib.Algebra.GroupWithZero.Nat
import Mathlib.Data.List.Chain

namespace Mackerel.Fat16

open Bytes Bytes.Memory

namespace Volume

variable (volume : Volume)

def clusterSize : Nat := 512 * volume.bootSector.sectorsPerCluster.toNat

def dataSector (cluster : BitVec 16) : Nat :=
  volume.partLba.toNat + volume.bootSector.reservedSectors.toNat +
    volume.bootSector.numFats.toNat * volume.bootSector.fatSize16.toNat +
    (volume.bootSector.rootEntries.toNat * 32 + 511) / 512 +
    (cluster.toNat - 2) * volume.bootSector.sectorsPerCluster.toNat

/-- A byte of the concatenated clusters. -/
def chainByte (disk : Disk) : List (BitVec 16) → Block
  | [], _ => 0
  | cluster :: rest, i =>
      if i < volume.clusterSize then disk (volume.dataSector cluster + i / 512) (i % 512)
      else chainByte disk rest (i - volume.clusterSize)

/-- A cluster number for which no sector number overflows 32 bits. -/
structure Fits (cluster : BitVec 16) : Prop where
  valid : 2 ≤ cluster.toNat
  notEnd : cluster ≠ 0xFFFF
  fat : volume.partLba.toNat + volume.bootSector.reservedSectors.toNat +
    cluster.toNat * 2 / 512 + 1 < 2 ^ 32
  data : volume.dataSector cluster + volume.bootSector.sectorsPerCluster.toNat < 2 ^ 32

/-- A chain of clusters that holds `size` bytes. -/
structure Chain (disk : Disk) (chain : List (BitVec 16)) (startingCluster : BitVec 16)
    (size : Nat) : Prop where
  starts : ∀ cluster ∈ chain.head?, cluster = startingCluster
  fits : ∀ cluster ∈ chain, volume.Fits cluster
  linked : chain.IsChain fun cluster next => volume.fatEntry disk cluster = next
  enough : size ≤ chain.length * volume.clusterSize

variable {volume} {cluster : BitVec 16}

theorem Fits.firstSector (fits : volume.Fits cluster) :
    firstSectorOfCluster volume.bootSector volume.partLba cluster = volume.dataSector cluster := by
  have valid := fits.valid
  have data := fits.data
  have entries := volume.bootSector.rootEntries.isLt
  have root : rootDirSectors volume.bootSector =
      (volume.bootSector.rootEntries.toNat * 32 + 511) / 512 := by
    have bytes : u32 (volume.bootSector.rootEntries.toNat * 32 + (512 : Nat) - 1) =
        volume.bootSector.rootEntries.toNat * 32 + 511 := by
      unfold u32
      omega
    rw [rootDirSectors, volume.bytesPerSector_toNat, bytes]
  have distance : ((cluster.toNat : Int) - 2) * volume.bootSector.sectorsPerCluster.toNat =
      ((cluster.toNat - 2) * volume.bootSector.sectorsPerCluster.toNat : Nat) := by
    rw [Int.natCast_mul, Int.ofNat_sub valid]
    rfl
  have sum : firstSectorOfCluster volume.bootSector volume.partLba cluster =
      u32 (volume.dataSector cluster : Nat) := by
    unfold firstSectorOfCluster dataSector
    rw [root, distance]
    refine congrArg u32 ?_
    omega
  rw [sum, u32_of_lt (by omega)]

theorem Fits.fatSector_ne (fits : volume.Fits cluster) :
    fatSector volume.bootSector volume.partLba cluster ≠ u32 (-1) := by
  have fat := fits.fat
  unfold fatSector
  rw [volume.bytesPerSector_toNat]
  unfold u32
  omega

theorem clusterBytes_eq : clusterBytes volume.bootSector = volume.clusterSize := by
  have small := volume.bootSector.sectorsPerCluster.isLt
  unfold clusterBytes clusterSize u32
  rw [volume.bytesPerSector_toNat]
  omega

end Volume

/-- The sectors that a sequence of calls reads into the file's buffer. -/
def sectorsRead (calls : List ReadCall) : Nat :=
  ((calls.filter fun call => call.purpose = .data).map ReadCall.count).sum

@[simp] theorem sectorsRead_nil : sectorsRead [] = 0 := rfl

theorem sectorsRead_append (first second : List ReadCall) :
    sectorsRead (first ++ second) = sectorsRead first + sectorsRead second := by
  simp [sectorsRead]

theorem sectorsRead_fat {calls : List ReadCall} (fat : ∀ call ∈ calls, call.purpose = .fat) :
    sectorsRead calls = 0 := by
  have none_left : calls.filter (fun call => call.purpose = .data) = [] := by
    apply List.filter_eq_nil_iff.mpr
    intro call member
    simp [fat call member]
  rw [sectorsRead, none_left]
  rfl

section Cluster

variable {medium : Medium} {volume : Volume} {buffer : BitVec 32} {size firstSector : Nat}
  {bufferIndex : Nat} {before after : State} {calls : List ReadCall}

/-- Bytes `bufferIndex` up to `next` of the buffer have been filled from consecutive sectors. -/
structure Copied (disk : Disk) (buffer : BitVec 32) (size firstSector bufferIndex next : Nat)
    (before after : State) (calls : List ReadCall) : Prop where
  log : after.reads = before.reads ++ calls
  succeeded : ∀ call ∈ calls, call.ok = true ∧ call.purpose = .data
  index : next = min size (bufferIndex + 512 * sectorsRead calls)
  bytes : ∀ addr, bufferIndex ≤ offset buffer addr → offset buffer addr < next →
    after.memory addr = disk (firstSector + (offset buffer addr - bufferIndex) / 512)
      ((offset buffer addr - bufferIndex) % 512)
  frame : ∀ addr, offset buffer addr < bufferIndex ∨ next ≤ offset buffer addr →
    after.memory addr = before.memory addr
  cache : after.cache = before.cache
  partLba : after.partLba = before.partLba

/-- The last call has failed; only bytes from `bufferIndex` up to `size` have changed. -/
structure Aborted (buffer : BitVec 32) (size bufferIndex : Nat) (before after : State)
    (calls : List ReadCall) : Prop where
  log : after.reads = before.reads ++ calls
  failure : ∃ good bad, calls = good ++ [bad] ∧ (∀ call ∈ good, call.ok = true) ∧
    bad.ok = false ∧ bad.purpose = .data
  frame : ∀ addr, offset buffer addr < bufferIndex ∨ size ≤ offset buffer addr →
    after.memory addr = before.memory addr

def Attempt (disk : Disk) (buffer : BitVec 32) (size firstSector bufferIndex sectors : Nat)
    (before : State) (outcome : Option Nat × State) : Prop :=
  ∃ calls,
    (outcome.1 = some (min size (bufferIndex + 512 * sectors)) ∧
      Copied disk buffer size firstSector bufferIndex (min size (bufferIndex + 512 * sectors))
        before outcome.2 calls) ∨
    (outcome.1 = none ∧ Aborted buffer size bufferIndex before outcome.2 calls)

/-- Sectors read straight into the buffer. -/
theorem State.readSector_attempt (medium : Medium) (before : State) (buffer : BitVec 32)
    (firstSector : Nat) (addressable : size < 2 ^ 32) {sectors : Nat}
    (fits : bufferIndex + 512 * sectors ≤ size) :
    let result := before.readSector medium .data firstSector
      (buffer + BitVec.ofNat 32 bufferIndex) sectors
    Attempt medium.disk buffer size firstSector bufferIndex sectors before
      (if result.1 then some (bufferIndex + 512 * sectors) else none, result.2) := by
  have range : bufferIndex + 512 * sectors ≤ 2 ^ 32 := by omega
  have place (addr : BitVec 32) (bytes : Block) :=
    Memory.store_at before.memory buffer addr bytes range
  have reached : min size (bufferIndex + 512 * sectors) = bufferIndex + 512 * sectors :=
    Nat.min_eq_right fits
  dsimp only [State.readSector]
  cases fault : medium.faults before.reads.length with
  | none =>
      refine ⟨[{ purpose := .data, lba := firstSector, count := sectors, ok := true }], .inl ⟨?_, ?_⟩⟩
      · simp [reached]
      · rw [reached]
        refine ⟨rfl, by simp, by simp [sectorsRead, reached], ?_, ?_, rfl, rfl⟩
        · intro addr low high
          dsimp only
          rw [place, if_pos ⟨low, high⟩, Disk.transfer_ok (by omega)]
        · intro addr outside
          dsimp only
          rw [place, if_neg (by omega)]
  | some garbage =>
      refine ⟨[{ purpose := .data, lba := firstSector, count := sectors, ok := false }],
        .inr ⟨rfl, rfl, ?_, ?_⟩⟩
      · exact ⟨[], _, rfl, by simp, rfl, rfl⟩
      · intro addr outside
        dsimp only
        rw [place, if_neg (by omega)]

/-- The last partial sector, read into `sector_buffer` and copied from there. -/
theorem State.readLocal_attempt (medium : Medium) (before : State) (buffer : BitVec 32)
    (firstSector : Nat) (addressable : size < 2 ^ 32) (inside : bufferIndex ≤ size)
    (partly : size - bufferIndex < 512) :
    let result := before.readLocal medium .data firstSector
    let memory := result.2.2.memory.store (buffer + BitVec.ofNat 32 bufferIndex)
      (size - bufferIndex) result.2.1
    Attempt medium.disk buffer size firstSector bufferIndex 1 before
      (if result.1 then (some size, { result.2.2 with memory }) else (none, result.2.2)) := by
  have range : bufferIndex + (size - bufferIndex) ≤ 2 ^ 32 := by omega
  have place (addr : BitVec 32) (bytes : Block) :=
    Memory.store_at before.memory buffer addr bytes range
  have reached : min size (bufferIndex + 512 * 1) = size := Nat.min_eq_left (by omega)
  dsimp only [State.readLocal]
  cases fault : medium.faults before.reads.length with
  | none =>
      refine ⟨[{ purpose := .data, lba := firstSector, count := 1, ok := true }], .inl ⟨?_, ?_⟩⟩
      · simp [reached]
      · rw [reached]
        refine ⟨rfl, by simp, by simp [sectorsRead, reached], ?_, ?_, rfl, rfl⟩
        · intro addr low high
          simp only [Option.isNone_none, if_true]
          rw [place, if_pos ⟨low, by omega⟩, Disk.transfer_ok (by omega)]
        · intro addr outside
          simp only [Option.isNone_none, if_true]
          rw [place, if_neg (by omega)]
  | some garbage =>
      refine ⟨[{ purpose := .data, lba := firstSector, count := 1, ok := false }],
        .inr ⟨rfl, rfl, ?_, ?_⟩⟩
      · exact ⟨[], _, rfl, by simp, rfl, rfl⟩
      · intro addr outside
        rfl

theorem Attempt.of_success {disk : Disk} {sectors next : Nat}
    (attempt : Attempt disk buffer size firstSector bufferIndex sectors before (some next, after)) :
    ∃ calls, Copied disk buffer size firstSector bufferIndex next before after calls := by
  obtain ⟨calls, ⟨result, copied⟩ | ⟨result, -⟩⟩ := attempt
  · cases result
    exact ⟨calls, copied⟩
  · cases result

/-- An abort is an abort of any longer read. -/
theorem Attempt.of_failure {disk : Disk} {sectors other : Nat}
    (attempt : Attempt disk buffer size firstSector bufferIndex sectors before (none, after)) :
    Attempt disk buffer size firstSector bufferIndex other before (none, after) := by
  obtain ⟨calls, ⟨result, -⟩ | ⟨-, aborted⟩⟩ := attempt
  · cases result
  · exact ⟨calls, .inr ⟨rfl, aborted⟩⟩

theorem Copied.nothing {disk : Disk} (inside : bufferIndex ≤ size) :
    Copied disk buffer size firstSector bufferIndex bufferIndex before before [] where
  log := by simp
  succeeded := by simp
  index := by simp [inside]
  bytes addr low high := by omega
  frame _ _ := rfl
  cache := rfl
  partLba := rfl

theorem Copied.followed {disk : Disk} {middle : State} {next left : Nat}
    {outcome : Option Nat × State} (inside : bufferIndex ≤ size)
    (reached : next = min size (bufferIndex + 512))
    (first : Copied disk buffer size firstSector bufferIndex next before middle calls)
    (rest : Attempt disk buffer size (firstSector + 1) next left middle outcome) :
    Attempt disk buffer size firstSector bufferIndex (left + 1) before outcome := by
  obtain ⟨later, ⟨result, copied⟩ | ⟨result, aborted⟩⟩ := rest
  · have total : min size (next + 512 * left) = min size (bufferIndex + 512 * (left + 1)) := by omega
    rw [total] at result copied
    refine ⟨calls ++ later, .inl ⟨result, ?_⟩⟩
    refine ⟨?_, ?_, ?_, ?_, ?_, ?_, ?_⟩
    · rw [copied.log, first.log, List.append_assoc]
    · intro call member
      rcases List.mem_append.mp member with early | late
      · exact first.succeeded call early
      · exact copied.succeeded call late
    · have index := first.index
      have laterIndex := copied.index
      rw [sectorsRead_append]
      omega
    · intro addr low high
      by_cases early : offset buffer addr < next
      · rw [copied.frame addr (.inl early), first.bytes addr low early]
      · have sector : firstSector + (offset buffer addr - bufferIndex) / 512 =
            firstSector + 1 + (offset buffer addr - next) / 512 := by omega
        have byte : (offset buffer addr - bufferIndex) % 512 =
            (offset buffer addr - next) % 512 := by omega
        rw [copied.bytes addr (by omega) high, sector, byte]
    · intro addr outside
      rw [copied.frame addr (by omega), first.frame addr (by omega)]
    · rw [copied.cache, first.cache]
    · rw [copied.partLba, first.partLba]
  · obtain ⟨good, bad, split, succeeded, failed, data⟩ := aborted.failure
    refine ⟨calls ++ later, .inr ⟨result, ?_, ?_, ?_⟩⟩
    · rw [aborted.log, first.log, List.append_assoc]
    · refine ⟨calls ++ good, bad, by rw [split, List.append_assoc], ?_, failed, data⟩
      intro call member
      rcases List.mem_append.mp member with early | late
      · exact (first.succeeded call early).1
      · exact succeeded call late
    · intro addr outside
      rw [aborted.frame addr (by omega), first.frame addr (by omega)]

/-- The sector-by-sector loop, by induction on the sectors to go. -/
theorem readSectors_attempt (medium : Medium) (buffer : BitVec 32) (addressable : size < 2 ^ 32)
    (left i bufferIndex : Nat) (before : State) (inside : bufferIndex ≤ size)
    (fits : firstSector + i + left < 2 ^ 32) :
    ∃ outcome,
      readSectors medium volume.bootSector buffer size firstSector left i bufferIndex before =
        .ok outcome ∧
      Attempt medium.disk buffer size (firstSector + i) bufferIndex left before outcome := by
  induction left generalizing i bufferIndex before with
  | zero =>
      have same : min size (bufferIndex + 512 * 0) = bufferIndex := by omega
      refine ⟨_, rfl, [], .inl ?_⟩
      rw [same]
      exact ⟨rfl, .nothing inside⟩
  | succ left induction_hypothesis =>
      have sector : u32 ((firstSector : Int) + i) = firstSector + i := u32_of_lt (by omega)
      rw [readSectors, volume.bytesPerSector_toNat]
      by_cases more : bufferIndex < size
      · rw [if_pos more]
        by_cases whole : 512 ≤ size - bufferIndex
        · have room : bufferIndex + 512 * 1 ≤ size := by omega
          have attempt :=
            State.readSector_attempt medium before buffer (firstSector + i) addressable room
          rw [if_pos whole, sector]
          rcases result : before.readSector medium .data (firstSector + i)
            (buffer + BitVec.ofNat 32 bufferIndex) 1 with ⟨ok, middle⟩
          rw [result] at attempt
          cases ok with
          | false => exact ⟨_, rfl, attempt.of_failure⟩
          | true =>
              obtain ⟨calls, copied⟩ := attempt.of_success
              obtain ⟨outcome, returned, rest⟩ :=
                induction_hypothesis (i + 1) (bufferIndex + 512) middle (by omega) (by omega)
              exact ⟨outcome, returned, copied.followed inside (by omega) rest⟩
        · have attempt := State.readLocal_attempt medium before buffer (firstSector + i) addressable
            inside (by omega)
          rw [if_neg whole, if_neg (by omega), sector]
          rcases result : before.readLocal medium .data (firstSector + i) with ⟨ok, bytes, middle⟩
          rw [result] at attempt
          cases ok with
          | false => exact ⟨_, rfl, attempt.of_failure⟩
          | true =>
              obtain ⟨calls, copied⟩ := attempt.of_success
              have full : bufferIndex + (size - bufferIndex) = size := by omega
              obtain ⟨outcome, returned, rest⟩ := induction_hypothesis (i + 1)
                (bufferIndex + (size - bufferIndex)) _ (by omega) (by omega)
              rw [full] at rest
              exact ⟨outcome, returned, copied.followed inside (by omega) rest⟩
      · have same : min size (bufferIndex + 512 * (left + 1)) = bufferIndex := by omega
        refine ⟨_, if_neg more, [], .inl ?_⟩
        rw [same]
        exact ⟨rfl, .nothing inside⟩

/-- The whole-cluster path and the sector-by-sector path fill the buffer alike. -/
theorem readCluster_attempt (medium : Medium) (buffer : BitVec 32) {cluster : BitVec 16}
    (addressable : size < 2 ^ 32)
    (fits : volume.Fits cluster) (mounted : before.partLba = volume.partLba)
    (inside : bufferIndex ≤ size) :
    ∃ outcome,
      readCluster medium volume.bootSector buffer size cluster bufferIndex before = .ok outcome ∧
      Attempt medium.disk buffer size (volume.dataSector cluster) bufferIndex
        volume.bootSector.sectorsPerCluster.toNat before outcome := by
  have data := fits.data
  unfold readCluster
  rw [mounted, fits.firstSector, Volume.clusterBytes_eq, Volume.clusterSize]
  by_cases whole : 512 * volume.bootSector.sectorsPerCluster.toNat ≤ size - bufferIndex
  · have room : bufferIndex + 512 * volume.bootSector.sectorsPerCluster.toNat ≤ size := by omega
    have attempt :=
      State.readSector_attempt medium before buffer (volume.dataSector cluster) addressable room
    rw [if_pos whole]
    rcases result : before.readSector medium .data (volume.dataSector cluster)
      (buffer + BitVec.ofNat 32 bufferIndex) volume.bootSector.sectorsPerCluster.toNat with ⟨ok, middle⟩
    rw [result] at attempt
    cases ok with
    | false => exact ⟨_, rfl, attempt⟩
    | true => exact ⟨_, rfl, attempt⟩
  · rw [if_neg whole]
    exact readSectors_attempt medium buffer addressable _ 0 bufferIndex before inside (by omega)

end Cluster

section Lookup

variable {disk : Disk} {cache : FatCache}

/-- The cache is as at power-up, or holds the sector of its tag. -/
def FatCache.Ready (disk : Disk) (cache : FatCache) : Prop :=
  cache.cachedSector = u32 (-1) ∨ ∀ i, i < 512 → cache.fatBuffer i = disk cache.cachedSector i

theorem FatCache.Holds.entry {sector : Nat} {volume : Volume} {cluster : BitVec 16}
    (holds : cache.Holds disk { sector, overwritten := fun _ => none })
    (hit : fatSector volume.bootSector volume.partLba cluster = sector) :
    cache.fatBuffer (fatEntryOffset volume.bootSector cluster + 1) ++
        cache.fatBuffer (fatEntryOffset volume.bootSector cluster) =
      volume.fatEntry disk cluster := by
  apply (holds.entry_iff { volume, cluster, fault := none } hit).mpr
  intro i _ byte overwritten
  cases overwritten

/-- What a lookup does to a ready cache. -/
inductive Lookup (medium : Medium) (volume : Volume) (cluster : BitVec 16) (before : State) :
    BitVec 16 × State → List ReadCall → Prop where
  | found (cache : FatCache) (calls : List ReadCall) (ready : cache.Ready medium.disk)
      (fat : ∀ call ∈ calls, call.purpose = .fat ∧ call.ok = true) :
      Lookup medium volume cluster before
        (volume.fatEntry medium.disk cluster, { before with cache, reads := before.reads ++ calls })
        calls
  | failed (cache : FatCache) (call : ReadCall) (fat : call.purpose = .fat)
      (failed : call.ok = false) :
      Lookup medium volume cluster before
        (0xFFFF, { before with cache, reads := before.reads ++ [call] }) [call]

theorem State.getFatEntry_hit (medium : Medium) {volume : Volume} {cluster : BitVec 16}
    {before : State} (mounted : before.partLba = volume.partLba)
    (hit : fatSector volume.bootSector volume.partLba cluster = before.cache.cachedSector) :
    before.getFatEntry medium volume.bootSector cluster =
      .ok (before.cache.fatBuffer (fatEntryOffset volume.bootSector cluster + 1) ++
          before.cache.fatBuffer (fatEntryOffset volume.bootSector cluster), before) := by
  rcases before with ⟨memory, cache, partLba, reads⟩
  obtain rfl : partLba = volume.partLba := mounted
  have entry := getFatEntry_of_volume medium.disk (medium.faults reads.length) volume cluster cache
  dsimp only at entry hit ⊢
  unfold State.getFatEntry
  rw [entry, if_pos hit]
  simp

section Miss

variable {medium : Medium} {volume : Volume} {cluster : BitVec 16} {before : State}

/-- A lookup in another sector, if the card delivers it. -/
theorem State.getFatEntry_loaded (mounted : before.partLba = volume.partLba)
    (miss : fatSector volume.bootSector volume.partLba cluster ≠ before.cache.cachedSector)
    (delivered : medium.faults before.reads.length = none) :
    ∃ cache calls, before.getFatEntry medium volume.bootSector cluster =
        .ok (volume.fatEntry medium.disk cluster, { before with cache, reads := before.reads ++ calls }) ∧
      (∀ i, i < 512 → cache.fatBuffer i = medium.disk cache.cachedSector i) ∧
      ∀ call ∈ calls, call.purpose = .fat ∧ call.ok = true := by
  rcases before with ⟨memory, cache, partLba, reads⟩
  obtain rfl : partLba = volume.partLba := mounted
  have entry := getFatEntry_of_volume medium.disk (medium.faults reads.length) volume cluster cache
  have holds := FatCache.holds_after_success medium.disk
    (fatSector volume.bootSector volume.partLba cluster) cache.fatBuffer
  have next := holds.entry (rfl : fatSector volume.bootSector volume.partLba cluster = _)
  dsimp only at entry miss delivered ⊢
  unfold State.getFatEntry
  rw [entry, if_neg miss, delivered]
  simp only [Option.isSome_none, Bool.false_eq_true, if_false]
  rw [next]
  exact ⟨_, _, rfl, holds.buffer, by simp⟩

theorem State.getFatEntry_failed (mounted : before.partLba = volume.partLba)
    (miss : fatSector volume.bootSector volume.partLba cluster ≠ before.cache.cachedSector)
    {garbage : Garbage} (failed : medium.faults before.reads.length = some garbage) :
    ∃ cache call, before.getFatEntry medium volume.bootSector cluster =
        .ok (0xFFFF, { before with cache, reads := before.reads ++ [call] }) ∧
      call.purpose = .fat ∧ call.ok = false := by
  rcases before with ⟨memory, cache, partLba, reads⟩
  obtain rfl : partLba = volume.partLba := mounted
  have entry := getFatEntry_of_volume medium.disk (medium.faults reads.length) volume cluster cache
  dsimp only at entry miss failed ⊢
  unfold State.getFatEntry
  rw [entry, if_neg miss, failed, if_pos (Option.isSome_some (a := garbage))]
  exact ⟨_, _, rfl, rfl, rfl⟩

theorem State.getFatEntry_miss (mounted : before.partLba = volume.partLba)
    (miss : fatSector volume.bootSector volume.partLba cluster ≠ before.cache.cachedSector) :
    ∃ outcome calls, before.getFatEntry medium volume.bootSector cluster = .ok outcome ∧
      Lookup medium volume cluster before outcome calls := by
  cases call : medium.faults before.reads.length with
  | none =>
      obtain ⟨cache, calls, lookup, coherent, fat⟩ := State.getFatEntry_loaded mounted miss call
      exact ⟨_, _, lookup, .found cache calls (.inr coherent) fat⟩
  | some garbage =>
      obtain ⟨cache, call, lookup, fat, failed⟩ := State.getFatEntry_failed mounted miss call
      exact ⟨_, _, lookup, .failed cache call fat failed⟩

end Miss

theorem State.getFatEntry_lookup {medium : Medium} {volume : Volume} {cluster : BitVec 16}
    {before : State} (fits : volume.Fits cluster) (mounted : before.partLba = volume.partLba)
    (ready : before.cache.Ready medium.disk) :
    ∃ outcome calls, before.getFatEntry medium volume.bootSector cluster = .ok outcome ∧
      Lookup medium volume cluster before outcome calls := by
  by_cases hit : fatSector volume.bootSector volume.partLba cluster = before.cache.cachedSector
  · have coherent := ready.resolve_left (hit ▸ fits.fatSector_ne)
    have holds : before.cache.Holds medium.disk
        { sector := before.cache.cachedSector, overwritten := fun _ => none } := ⟨rfl, coherent⟩
    refine ⟨_, [], State.getFatEntry_hit medium mounted hit, ?_⟩
    rw [holds.entry hit]
    have found : Lookup medium volume cluster before _ _ := .found before.cache [] ready (by simp)
    simpa using found
  · exact State.getFatEntry_miss mounted hit

/-- Along a chain of `left` bytes the cache answers with the entries of the disk, until it is
    loaded again. The lookup after the last byte is not used. -/
def Volume.Fresh (volume : Volume) (disk : Disk) (cache : FatCache) : List (BitVec 16) → Nat → Prop
  | [], _ => True
  | cluster :: rest, left =>
      volume.clusterSize < left →
        fatSector volume.bootSector volume.partLba cluster = cache.cachedSector →
        cache.fatBuffer (fatEntryOffset volume.bootSector cluster + 1) ++
            cache.fatBuffer (fatEntryOffset volume.bootSector cluster) =
          volume.fatEntry disk cluster ∧
        volume.Fresh disk cache rest (left - volume.clusterSize)

/-- A cache of another disk serves as long as the two disks agree about the chain. -/
theorem FatCache.Ready.fresh_of_agreement {other : Disk} {volume : Volume}
    (ready : cache.Ready other) {chain : List (BitVec 16)}
    (fits : ∀ cluster ∈ chain, volume.Fits cluster)
    (agree : ∀ cluster ∈ chain, volume.fatEntry other cluster = volume.fatEntry disk cluster)
    (left : Nat) : volume.Fresh disk cache chain left := by
  induction chain generalizing left with
  | nil => trivial
  | cons cluster rest induction_hypothesis =>
      intro _ hit
      have coherent := ready.resolve_left (hit ▸ (fits cluster List.mem_cons_self).fatSector_ne)
      have holds : cache.Holds other
          { sector := cache.cachedSector, overwritten := fun _ => none } := ⟨rfl, coherent⟩
      constructor
      · rw [holds.entry hit, agree cluster List.mem_cons_self]
      · apply induction_hypothesis
        · exact fun next member => fits next (List.mem_cons_of_mem _ member)
        · exact fun next member => agree next (List.mem_cons_of_mem _ member)

theorem FatCache.Ready.fresh {volume : Volume} (ready : cache.Ready disk)
    {chain : List (BitVec 16)} (fits : ∀ cluster ∈ chain, volume.Fits cluster) (left : Nat) :
    volume.Fresh disk cache chain left :=
  ready.fresh_of_agreement fits (fun _ _ => rfl) left

end Lookup

/-- Where a walk that starts at `bufferIndex` ends, if not at a failed read of data, and the calls
    that it makes. A lookup after the last needed cluster may fail without harm. -/
inductive Ending (size bufferIndex : Nat) : Option Nat → List ReadCall → Prop where
  | complete (good last : List ReadCall) (succeeded : ∀ call ∈ good, call.ok = true)
      (single : last.length ≤ 1) (fat : ∀ call ∈ last, call.purpose = .fat)
      (reached : size ≤ bufferIndex + 512 * sectorsRead good) :
      Ending size bufferIndex (some size) (good ++ last)
  | dataFailure (good : List ReadCall) (bad : ReadCall) (succeeded : ∀ call ∈ good, call.ok = true)
      (failed : bad.ok = false) (data : bad.purpose = .data) :
      Ending size bufferIndex none (good ++ [bad])
  | fatFailure (good : List ReadCall) (bad : ReadCall) (succeeded : ∀ call ∈ good, call.ok = true)
      (failed : bad.ok = false) (fat : bad.purpose = .fat)
      (short : bufferIndex + 512 * sectorsRead good < size) :
      Ending size bufferIndex (some (bufferIndex + 512 * sectorsRead good)) (good ++ [bad])

theorem Ending.preceded {size bufferIndex next : Nat} {result : Option Nat}
    {first later : List ReadCall}
    (ending : Ending size next result later) (succeeded : ∀ call ∈ first, call.ok = true)
    (index : next = min size (bufferIndex + 512 * sectorsRead first)) :
    Ending size bufferIndex result (first ++ later) := by
  have both {good : List ReadCall} (rest : ∀ call ∈ good, call.ok = true) :
      ∀ call ∈ first ++ good, call.ok = true := by
    intro call member
    exact (List.mem_append.mp member).elim (succeeded call) (rest call)
  cases ending with
  | complete good last rest single fat reached =>
      rw [← List.append_assoc]
      refine .complete _ last (both rest) single fat ?_
      rw [sectorsRead_append]
      omega
  | dataFailure good bad rest failed data =>
      rw [← List.append_assoc]
      exact .dataFailure _ bad (both rest) failed data
  | fatFailure good bad rest failed fat short =>
      have total : next + 512 * sectorsRead good =
          bufferIndex + 512 * sectorsRead (first ++ good) := by
        rw [sectorsRead_append]
        omega
      rw [← List.append_assoc, total]
      exact .fatFailure _ bad (both rest) failed fat (by omega)

structure Walk (disk : Disk) (volume : Volume) (chain : List (BitVec 16)) (buffer : BitVec 32)
    (size bufferIndex : Nat) (before : State) (result : Option Nat) (after : State)
    (calls : List ReadCall) : Prop where
  log : after.reads = before.reads ++ calls
  ending : Ending size bufferIndex result calls
  bytes : result = some size → ∀ addr, bufferIndex ≤ offset buffer addr → offset buffer addr < size →
    after.memory addr = volume.chainByte disk chain (offset buffer addr - bufferIndex)
  frame : ∀ addr, offset buffer addr < bufferIndex ∨ size ≤ offset buffer addr →
    after.memory addr = before.memory addr

section Walk

variable {medium : Medium} {volume : Volume} {buffer : BitVec 32} {size : Nat}

def returned : Option Nat → Int
  | none => -1
  | some bufferIndex => int32 bufferIndex

/-- With more fuel than the chain has clusters the loop ends, and its calls are a walk. -/
def Walks (medium : Medium) (volume : Volume) (buffer : BitVec 32) (size : Nat)
    (chain : List (BitVec 16)) (cluster : BitVec 16) (bufferIndex : Nat) (before : State) : Prop :=
  ∃ result after calls,
    (∀ fuel, chain.length + 1 < fuel →
      readClusters medium volume.bootSector buffer size fuel cluster bufferIndex before =
        .ok (returned result, after)) ∧
    Walk medium.disk volume chain buffer size bufferIndex before result after calls

theorem walks_full (medium : Medium) (volume : Volume) (buffer : BitVec 32) (cluster : BitVec 16)
    (before : State) (chain : List (BitVec 16)) :
    Walks medium volume buffer size chain cluster size before := by
  refine ⟨some size, before, [], ?_, ?_⟩
  · intro fuel enough
    obtain ⟨fuel, rfl⟩ := Nat.exists_eq_succ_of_ne_zero (by omega : fuel ≠ 0)
    rw [readClusters, if_neg (by omega), returned]
  · refine ⟨by simp, .complete [] [] (by simp) (by simp) (by simp) (by omega), ?_, ?_⟩
    · intro _ addr low high
      omega
    · intro addr outside
      rfl

theorem Volume.Chain.rest {cluster first : BitVec 16} {chain : List (BitVec 16)} {length : Nat}
    (linked : volume.Chain medium.disk (first :: chain) cluster length) :
    volume.Chain medium.disk chain (volume.fatEntry medium.disk first)
      (length - volume.clusterSize) where
  starts := by
    intro next member
    cases chain with
    | nil => cases member
    | cons second rest =>
        cases member
        exact (List.isChain_cons_cons.mp linked.linked).1.symm
  fits next member := linked.fits next (List.mem_cons_of_mem _ member)
  linked := linked.linked.tail
  enough := by
    have enough := linked.enough
    rw [List.length_cons, Nat.succ_mul] at enough
    omega

section Step

variable {first : BitVec 16} {chain : List (BitVec 16)} {bufferIndex : Nat}
  {before middle after : State} {calls fatCalls later : List ReadCall} {cache : FatCache}
  {result : Option Nat}

/-- A cluster, a lookup that finds the next one, and the rest of the walk. -/
theorem Walk.continued
    (copied : Copied medium.disk buffer size (volume.dataSector first) bufferIndex
      (min size (bufferIndex + volume.clusterSize)) before middle calls)
    (fat : ∀ call ∈ fatCalls, call.purpose = .fat ∧ call.ok = true)
    (rest : Walk medium.disk volume chain buffer size
      (min size (bufferIndex + volume.clusterSize))
      { middle with cache, reads := middle.reads ++ fatCalls } result after later) :
    Walk medium.disk volume (first :: chain) buffer size bufferIndex before result after
      (calls ++ fatCalls ++ later) where
  log := by rw [rest.log, copied.log, List.append_assoc, List.append_assoc, List.append_assoc]
  ending := by
    apply rest.ending.preceded
    · intro call member
      rcases List.mem_append.mp member with early | late
      · exact (copied.succeeded call early).1
      · exact (fat call late).2
    · rw [sectorsRead_append, sectorsRead_fat fun call member => (fat call member).1, Nat.add_zero,
        copied.index]
  bytes full addr low high := by
    rw [Volume.chainByte]
    by_cases here : offset buffer addr < min size (bufferIndex + volume.clusterSize)
    · rw [if_pos (by omega), rest.frame addr (.inl here)]
      exact copied.bytes addr low here
    · have later := rest.bytes full addr (by omega) high
      have distance : offset buffer addr - min size (bufferIndex + volume.clusterSize) =
          offset buffer addr - bufferIndex - volume.clusterSize := by omega
      rw [if_neg (by omega), later, distance]
  frame addr outside := by
    rw [rest.frame addr (by omega)]
    exact copied.frame addr (by omega)

theorem Walk.cut (cache : FatCache) {call : ReadCall}
    (copied : Copied medium.disk buffer size (volume.dataSector first) bufferIndex
      (min size (bufferIndex + volume.clusterSize)) before middle calls)
    (fat : call.purpose = .fat) (failed : call.ok = false) :
    Walk medium.disk volume (first :: chain) buffer size bufferIndex before
      (some (min size (bufferIndex + volume.clusterSize)))
      { middle with cache, reads := middle.reads ++ [call] } (calls ++ [call]) where
  log := by rw [copied.log, List.append_assoc]
  ending := by
    have succeeded : ∀ call ∈ calls, call.ok = true := fun call member =>
      (copied.succeeded call member).1
    have index := copied.index
    by_cases short : bufferIndex + 512 * sectorsRead calls < size
    · rw [index, Nat.min_eq_right (by omega)]
      exact .fatFailure calls call succeeded failed fat short
    · rw [index, Nat.min_eq_left (by omega)]
      exact .complete calls [call] succeeded (by simp) (by simpa using fat) (by omega)
  bytes full addr low high := by
    have whole := Option.some.inj full
    rw [Volume.chainByte, if_pos (by omega)]
    exact copied.bytes addr low (by omega)
  frame addr outside := copied.frame addr (by omega)

theorem Walk.aborted (failure : Aborted buffer size bufferIndex before after calls) :
    Walk medium.disk volume (first :: chain) buffer size bufferIndex before none after calls where
  log := failure.log
  ending := by
    obtain ⟨good, bad, split, succeeded, failed, data⟩ := failure.failure
    rw [split]
    exact .dataFailure good bad succeeded failed data
  bytes full := by cases full
  frame := failure.frame

end Step

theorem readClusters_turn (fuel : Nat) {bufferIndex next : Nat} {cluster nextCluster : BitVec 16}
    {before middle after : State} (notEnd : cluster ≠ 0xFFFF) (more : bufferIndex < size)
    (read : readCluster medium volume.bootSector buffer size cluster bufferIndex before =
      .ok (some next, middle))
    (found : middle.getFatEntry medium volume.bootSector cluster = .ok (nextCluster, after)) :
    readClusters medium volume.bootSector buffer size (fuel + 1) cluster bufferIndex before =
      readClusters medium volume.bootSector buffer size fuel nextCluster next after := by
  rw [readClusters, if_pos ⟨notEnd, more⟩, read]
  dsimp only
  rw [found]

theorem walks_continued {bufferIndex : Nat} {first nextCluster : BitVec 16}
    {chain : List (BitVec 16)} {before middle : State} {cache : FatCache}
    {calls fatCalls : List ReadCall} (notEnd : first ≠ 0xFFFF) (more : bufferIndex < size)
    (read : readCluster medium volume.bootSector buffer size first bufferIndex before =
      .ok (some (min size (bufferIndex + volume.clusterSize)), middle))
    (copied : Copied medium.disk buffer size (volume.dataSector first) bufferIndex
      (min size (bufferIndex + volume.clusterSize)) before middle calls)
    (found : middle.getFatEntry medium volume.bootSector first =
      .ok (nextCluster, { middle with cache, reads := middle.reads ++ fatCalls }))
    (fat : ∀ call ∈ fatCalls, call.purpose = .fat ∧ call.ok = true)
    (rest : Walks medium volume buffer size chain nextCluster
      (min size (bufferIndex + volume.clusterSize))
      { middle with cache, reads := middle.reads ++ fatCalls }) :
    Walks medium volume buffer size (first :: chain) first bufferIndex before := by
  obtain ⟨result, after, later, walked, walk⟩ := rest
  refine ⟨_, _, _, ?_, .continued copied fat walk⟩
  intro fuel enough
  obtain ⟨fuel, rfl⟩ := Nat.exists_eq_succ_of_ne_zero (by omega : fuel ≠ 0)
  rw [readClusters_turn _ notEnd more read found]
  exact walked fuel (Nat.lt_of_succ_lt_succ enough)

theorem walks_cut {bufferIndex : Nat} {first : BitVec 16} {chain : List (BitVec 16)}
    {before middle : State} {cache : FatCache} {calls : List ReadCall} {call : ReadCall}
    (notEnd : first ≠ 0xFFFF) (more : bufferIndex < size)
    (read : readCluster medium volume.bootSector buffer size first bufferIndex before =
      .ok (some (min size (bufferIndex + volume.clusterSize)), middle))
    (copied : Copied medium.disk buffer size (volume.dataSector first) bufferIndex
      (min size (bufferIndex + volume.clusterSize)) before middle calls)
    (found : middle.getFatEntry medium volume.bootSector first =
      .ok (0xFFFF, { middle with cache, reads := middle.reads ++ [call] }))
    (fat : call.purpose = .fat) (failed : call.ok = false) :
    Walks medium volume buffer size (first :: chain) first bufferIndex before := by
  have stopped : ¬((0xFFFF : BitVec 16) ≠ 0xFFFF ∧
      min size (bufferIndex + volume.clusterSize) < size) := by simp
  refine ⟨_, _, _, ?_, Walk.cut cache copied fat failed⟩
  intro fuel enough
  rw [List.length_cons] at enough
  obtain ⟨fuel, rfl⟩ := Nat.exists_eq_add_of_le (by omega : 2 ≤ fuel)
  rw [Nat.add_comm 2, readClusters_turn _ notEnd more read found, readClusters, if_neg stopped,
    returned]

theorem walks_aborted {bufferIndex : Nat} {first : BitVec 16} {chain : List (BitVec 16)}
    {before after : State} {calls : List ReadCall} (notEnd : first ≠ 0xFFFF)
    (more : bufferIndex < size)
    (read : readCluster medium volume.bootSector buffer size first bufferIndex before =
      .ok (none, after))
    (failure : Aborted buffer size bufferIndex before after calls) :
    Walks medium volume buffer size (first :: chain) first bufferIndex before := by
  refine ⟨_, _, _, ?_, .aborted failure⟩
  intro fuel enough
  obtain ⟨fuel, rfl⟩ := Nat.exists_eq_succ_of_ne_zero (by omega : fuel ≠ 0)
  rw [readClusters, if_pos ⟨notEnd, more⟩, read, returned]

/-- The loop, by induction on the clusters of the chain. -/
theorem readClusters_walk_fresh (medium : Medium) (buffer : BitVec 32)
    (addressable : size < 2 ^ 32) {chain : List (BitVec 16)} {bufferIndex : Nat}
    {cluster : BitVec 16} (before : State) (inside : bufferIndex ≤ size)
    (linked : volume.Chain medium.disk chain cluster (size - bufferIndex))
    (mounted : before.partLba = volume.partLba)
    (fresh : volume.Fresh medium.disk before.cache chain (size - bufferIndex)) :
    Walks medium volume buffer size chain cluster bufferIndex before := by
  induction chain generalizing bufferIndex cluster before with
  | nil =>
      have covered := linked.enough
      rw [List.length_nil, Nat.zero_mul] at covered
      obtain rfl : bufferIndex = size := by omega
      exact walks_full medium volume buffer cluster before []
  | cons first chain induction_hypothesis =>
      by_cases more : bufferIndex < size
      · obtain rfl := linked.starts first rfl
        have fits := linked.fits first List.mem_cons_self
        obtain ⟨⟨next, middle⟩, read, calls, attempt⟩ :=
          readCluster_attempt medium buffer addressable fits mounted inside
        rcases attempt with ⟨rfl, copied⟩ | ⟨rfl, failure⟩
        · rw [← Volume.clusterSize] at copied read
          have remaining : size - min size (bufferIndex + volume.clusterSize) =
              size - bufferIndex - volume.clusterSize := by omega
          have middleMounted := copied.partLba.trans mounted
          -- the entry matters only if the file has bytes left
          have rest {nextCluster : BitVec 16} {cache : FatCache} (fatCalls : List ReadCall)
              (right : volume.clusterSize < size - bufferIndex →
                nextCluster = volume.fatEntry medium.disk first ∧
                  volume.Fresh medium.disk cache chain (size - bufferIndex - volume.clusterSize)) :
              Walks medium volume buffer size chain nextCluster
                (min size (bufferIndex + volume.clusterSize))
                { middle with cache, reads := middle.reads ++ fatCalls } := by
            by_cases needed : volume.clusterSize < size - bufferIndex
            · obtain ⟨rfl, fresh⟩ := right needed
              exact induction_hypothesis _ (Nat.min_le_left _ _) (remaining ▸ linked.rest)
                middleMounted (remaining ▸ fresh)
            · have full : min size (bufferIndex + volume.clusterSize) = size := by omega
              rw [full]
              exact walks_full medium volume buffer nextCluster _ chain
          by_cases hit : fatSector volume.bootSector volume.partLba first =
            middle.cache.cachedSector
          · have right (needed : volume.clusterSize < size - bufferIndex) :=
              fresh needed (copied.cache ▸ hit)
            have same : { middle with cache := before.cache, reads := middle.reads ++ [] } =
                middle := by simp [← copied.cache]
            have found := State.getFatEntry_hit medium middleMounted hit
            rw [copied.cache] at found
            refine walks_continued fits.notEnd more read copied ?_ (by simp) (rest [] right)
            rw [same]
            exact found
          · obtain ⟨outcome, fatCalls, found, lookup⟩ := State.getFatEntry_miss middleMounted hit
            cases lookup with
            | found cache fatCalls ready fat =>
                refine walks_continued fits.notEnd more read copied found fat (rest _ ?_)
                intro _
                exact ⟨rfl, ready.fresh
                  (fun next member => linked.fits next (List.mem_cons_of_mem _ member)) _⟩
            | failed cache call fat failed =>
                exact walks_cut fits.notEnd more read copied found fat failed
        · exact walks_aborted fits.notEnd more read failure
      · obtain rfl : bufferIndex = size := by omega
        exact walks_full medium volume buffer cluster before (first :: chain)

theorem readClusters_walk (medium : Medium) (buffer : BitVec 32) (addressable : size < 2 ^ 32)
    {chain : List (BitVec 16)}
    {bufferIndex : Nat} {cluster : BitVec 16} (before : State) (inside : bufferIndex ≤ size)
    (linked : volume.Chain medium.disk chain cluster (size - bufferIndex))
    (mounted : before.partLba = volume.partLba) (ready : before.cache.Ready medium.disk) :
    Walks medium volume buffer size chain cluster bufferIndex before :=
  readClusters_walk_fresh medium buffer addressable before inside linked mounted
    (ready.fresh linked.fits _)

theorem fat16ReadFile_eq (medium : Medium) (volume : Volume) (buffer : BitVec 32) (size fuel : Nat)
    (startingCluster : BitVec 16) (s : State) :
    fat16ReadFile medium volume.bootSector buffer size fuel startingCluster s =
      readClusters medium volume.bootSector buffer size fuel startingCluster 0 s := by
  have nonzero : volume.bootSector.bytesPerSector ≠ 0 := by simp [volume.sectorSize]
  rw [fat16ReadFile, if_neg nonzero]

end Walk

theorem Walk.load {disk : Disk} {volume : Volume} {chain : List (BitVec 16)} {buffer : BitVec 32}
    {size i : Nat} {before after : State} {calls : List ReadCall}
    (walk : Walk disk volume chain buffer size 0 before (some size) after calls)
    (addressable : size < 2 ^ 32) (inside : i < size) :
    after.memory.load buffer i = volume.chainByte disk chain i := by
  have place : offset buffer (buffer + BitVec.ofNat 32 i) = i := offset_add buffer (by omega)
  have byte := walk.bytes rfl (buffer + BitVec.ofNat 32 i) (by omega) (by omega)
  rw [place] at byte
  exact byte

/-- A file on a volume: its clusters in order, and its length. -/
structure File where
  volume : Volume
  startingCluster : BitVec 16
  chain : List (BitVec 16)
  size : Nat

structure File.OnDisk (file : File) (disk : Disk) : Prop where
  chained : file.volume.Chain disk file.chain file.startingCluster file.size
  small : file.size < 2 ^ 31

def File.byte (file : File) (disk : Disk) : Block := file.volume.chainByte disk file.chain

/-- What a call of `fat16_read_file` for a whole file does. -/
structure File.ReadExactly (file : File) (disk : Disk) (buffer : BitVec 32) (before : State)
    (result : Int) (after : State) (calls : List ReadCall) : Prop where
  log : after.reads = before.reads ++ calls
  contents : result = file.size → ∀ i, i < file.size → after.memory.load buffer i = file.byte disk i
  complete : (∀ call ∈ calls, call.ok = true) → result = file.size
  dataFailure : (∃ call ∈ calls, call.purpose = .data ∧ call.ok = false) → result = -1
  -- the sectors read before a failed lookup tell which cluster the lookup is for
  fatFailure : ∀ earlier failed later, calls = earlier ++ failed :: later → failed.purpose = .fat →
    failed.ok = false → 512 * sectorsRead earlier < file.size → 0 ≤ result ∧ result < file.size
  frame : ∀ addr, file.size ≤ offset buffer addr → after.memory addr = before.memory addr

section Endings

variable {size : Nat} {result : Option Nat} {calls : List ReadCall}

/-- A failed call is the last one, or all calls before the last are good. -/
theorem failed_call_position {good last earlier later : List ReadCall} {failed : ReadCall}
    (split : good ++ last = earlier ++ failed :: later)
    (succeeded : ∀ call ∈ good, call.ok = true) (single : last.length ≤ 1)
    (failure : failed.ok = false) : earlier = good ∧ last = [failed] := by
  induction good generalizing earlier with
  | nil =>
      cases earlier with
      | nil =>
          have length := congrArg List.length split
          cases last with
          | nil => cases split
          | cons call rest =>
              cases split
              have short : later = [] := List.length_eq_zero_iff.mp (by simpa using single)
              rw [short]
              exact ⟨rfl, rfl⟩
      | cons call earlier =>
          have length := congrArg List.length split
          simp at length
          omega
  | cons call good induction_hypothesis =>
      cases earlier with
      | nil =>
          cases split
          have contradiction := succeeded failed List.mem_cons_self
          rw [failure] at contradiction
          cases contradiction
      | cons first earlier =>
          rw [List.cons_append, List.cons_append] at split
          obtain ⟨rfl, tails⟩ := List.cons.inj split
          obtain ⟨rfl, tail⟩ := induction_hypothesis tails fun call member =>
            succeeded call (List.mem_cons_of_mem _ member)
          exact ⟨rfl, tail⟩

theorem Ending.le (ending : Ending size 0 result calls) {index : Nat} (reached : result = some index) :
    index ≤ size := by
  cases ending with
  | complete => cases reached; exact Nat.le_refl _
  | dataFailure => cases reached
  | fatFailure good bad _ _ _ short => cases reached; omega

theorem Ending.parts (ending : Ending size 0 (some size) calls) :
    ∃ good last, calls = good ++ last ∧ (∀ call ∈ good, call.ok = true) ∧ last.length ≤ 1 ∧
      (∀ call ∈ last, call.purpose = .fat) ∧ size ≤ 512 * sectorsRead good := by
  generalize full : some size = result at ending
  cases ending with
  | complete good last succeeded single fat reached =>
      exact ⟨good, last, rfl, succeeded, single, fat, by omega⟩
  | dataFailure => cases full
  | fatFailure good bad _ _ _ short =>
      have same := Option.some.inj full
      omega

theorem Ending.full_of_returned (ending : Ending size 0 result calls) (small : size < 2 ^ 31)
    (full : returned result = size) : result = some size := by
  cases reached : result with
  | none =>
      rw [reached, returned] at full
      omega
  | some index =>
      rw [reached, returned, int32_of_le small (ending.le reached)] at full
      rw [Int.natCast_inj.mp full]

/-- A result that passes the tests of `load_named_file` and `handler_boot`. -/
theorem Ending.whole_of_returned (ending : Ending size 0 result calls) (bound : size < 2 ^ 32)
    (full : returned result = int32 size) (positive : 0 ≤ returned result) : result = some size := by
  cases reached : result with
  | none =>
      rw [reached, returned] at positive
      omega
  | some index =>
      have inside := ending.le reached
      rw [reached, returned] at full
      rw [int32_injective (by omega) bound full]

theorem Ending.complete_of_ok (ending : Ending size 0 result calls)
    (succeeded : ∀ call ∈ calls, call.ok = true) : result = some size := by
  cases ending with
  | complete => rfl
  | dataFailure good bad _ failed _ =>
      have contradiction := succeeded bad (by simp)
      rw [failed] at contradiction
      cases contradiction
  | fatFailure good bad _ failed _ _ =>
      have contradiction := succeeded bad (by simp)
      rw [failed] at contradiction
      cases contradiction

theorem Ending.dataFailure_result (ending : Ending size 0 result calls) {call : ReadCall}
    (member : call ∈ calls) (data : call.purpose = .data) (failed : call.ok = false) :
    result = none := by
  have absent {good last : List ReadCall} (member : call ∈ good ++ last)
      (succeeded : ∀ call ∈ good, call.ok = true) (fat : ∀ call ∈ last, call.purpose = .fat) :
      False := by
    rcases List.mem_append.mp member with early | late
    · have contradiction := succeeded call early
      rw [failed] at contradiction
      cases contradiction
    · have contradiction := fat call late
      rw [data] at contradiction
      cases contradiction
  cases ending with
  | complete good last succeeded _ fat _ => exact (absent member succeeded fat).elim
  | dataFailure => rfl
  | fatFailure good bad succeeded _ fat _ =>
      exact (absent member succeeded (by simpa using fat)).elim

theorem Ending.fatFailure_result (ending : Ending size 0 result calls)
    {earlier later : List ReadCall} {failed : ReadCall} (split : calls = earlier ++ failed :: later)
    (fat : failed.purpose = .fat) (failure : failed.ok = false)
    (needed : 512 * sectorsRead earlier < size) : ∃ index, result = some index ∧ index < size := by
  cases ending with
  | complete good last succeeded single _ reached =>
      obtain ⟨rfl, -⟩ := failed_call_position split succeeded single failure
      omega
  | dataFailure good bad succeeded _ data =>
      obtain ⟨-, same⟩ := failed_call_position split succeeded (by simp) failure
      cases same
      rw [fat] at data
      cases data
  | fatFailure good bad succeeded _ _ short => exact ⟨_, rfl, by omega⟩

end Endings

/-- `fat16_read_file` returns exactly the file, for every pattern of failing reads; every amount of
    fuel above the length of the chain serves. -/
theorem fat16_read_file_exact (medium : Medium) (file : File) (onDisk : file.OnDisk medium.disk)
    (buffer : BitVec 32) (before : State) (mounted : before.partLba = file.volume.partLba)
    (ready : before.cache.Ready medium.disk) :
    ∃ result after calls,
      (∀ fuel, file.chain.length + 1 < fuel →
        fat16ReadFile medium file.volume.bootSector buffer file.size fuel file.startingCluster before =
          .ok (result, after)) ∧
      file.ReadExactly medium.disk buffer before result after calls := by
  have small := onDisk.small
  have addressable : file.size < 2 ^ 32 := by omega
  obtain ⟨result, after, calls, walked, walk⟩ := readClusters_walk medium buffer addressable
    before (Nat.zero_le _) onDisk.chained mounted ready
  refine ⟨returned result, after, calls, ?_, ?_⟩
  · intro fuel enough
    rw [fat16ReadFile_eq]
    exact walked fuel enough
  · refine ⟨walk.log, ?_, ?_, ?_, ?_, ?_⟩
    · intro full i inside
      obtain rfl := walk.ending.full_of_returned small full
      exact walk.load addressable inside
    · intro succeeded
      rw [walk.ending.complete_of_ok succeeded, returned, int32_of_le small (Nat.le_refl _)]
    · intro ⟨call, member, data, failed⟩
      rw [walk.ending.dataFailure_result member data failed, returned]
    · intro earlier failed later split fat failure needed
      obtain ⟨index, rfl, short⟩ := walk.ending.fatFailure_result split fat failure needed
      rw [returned, int32_of_le small (Nat.le_of_lt short)]
      omega
    · intro addr outside
      exact walk.frame addr (.inr outside)

def smallDisk : Disk := fun sector i =>
  if sector = 2049 then if i = 6 then 2 else 0
  else BitVec.ofNat 8 (sector + i)

/-- A file of two clusters in descending order; the fourth FAT entry is 2. -/
def smallFile : File where
  volume := smallVolume
  startingCluster := 3
  chain := [3, 2]
  size := 700

theorem smallFile_onDisk : smallFile.OnDisk smallDisk where
  chained := {
    starts := by simp [smallFile]
    fits := by
      intro cluster member
      rcases List.mem_pair.mp member with rfl | rfl
      · exact ⟨by decide, by decide, by decide, by decide⟩
      · exact ⟨by decide, by decide, by decide, by decide⟩
    linked := by
      rw [smallFile, List.isChain_cons_cons]
      exact ⟨by decide, .singleton _⟩
    enough := by decide }
  small := by decide

theorem small_file_read_exactly :
    ∃ result after calls,
      (∀ fuel, 3 < fuel →
        fat16ReadFile ⟨smallDisk, fun _ => none, fun _ _ => 0⟩ smallVolume.bootSector 0x100000 700 fuel
          3 ⟨fun _ => 0, .empty, 2048, []⟩ = .ok (result, after)) ∧
      smallFile.ReadExactly smallDisk 0x100000 ⟨fun _ => 0, .empty, 2048, []⟩ result after calls :=
  fat16_read_file_exact ⟨smallDisk, fun _ => none, fun _ _ => 0⟩ smallFile smallFile_onDisk
    0x100000 ⟨fun _ => 0, .empty, 2048, []⟩ rfl (.inl rfl)

end Mackerel.Fat16
