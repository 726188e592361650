import Mackerel.Fat16.ReadFileExact
import Mathlib.Logic.Function.Iterate

namespace Mackerel.Fat16

open Bytes

namespace Volume

variable (volume : Volume)

def totalSectors : Nat :=
  if volume.bootSector.totalSectors16 = 0 then volume.bootSector.totalSectors32.toNat
  else volume.bootSector.totalSectors16.toNat

/-- The number of clusters; the first one has number 2. -/
def clusterCount : Nat :=
  (volume.totalSectors - (volume.bootSector.reservedSectors.toNat +
    volume.bootSector.numFats.toNat * volume.bootSector.fatSize16.toNat +
    (volume.bootSector.rootEntries.toNat * 32 + 511) / 512)) /
  volume.bootSector.sectorsPerCluster.toNat

/-- A value that is no cluster of a file: free, reserved, bad, an end of chain, or beyond the
    volume. -/
def Mark (value : BitVec 16) : Prop :=
  value.toNat < 2 ∨ 0xFFF7 ≤ value.toNat ∨ volume.clusterCount + 2 ≤ value.toNat

instance (value : BitVec 16) : Decidable (volume.Mark value) :=
  inferInstanceAs (Decidable (_ ∨ _ ∨ _))

def chainValue (disk : Disk) (startingCluster : BitVec 16) (i : Nat) : BitVec 16 :=
  (volume.fatEntry disk)^[i] startingCluster

/-- The chain meets a mark while bytes of the file are missing. -/
def EndsEarly (disk : Disk) (startingCluster : BitVec 16) (size : Nat) : Prop :=
  ∃ i, i * volume.clusterSize < size ∧ volume.Mark (volume.chainValue disk startingCluster i)

/-- What a lookup finds in the cache is what the disk holds. -/
def Trusts (disk : Disk) (cache : FatCache) : Prop :=
  ∀ cluster, fatSector volume.bootSector volume.partLba cluster = cache.cachedSector →
    ∀ i, i < 512 → cache.fatBuffer i = disk cache.cachedSector i

/-- The test of `load_named_file` sees every early end. -/
def NoticesEarlyEnd (disk : Disk) (startingCluster : BitVec 16) (size : Nat) : Prop :=
  volume.EndsEarly disk startingCluster size →
    ∀ faults stale buffer (before : State), before.partLba = volume.partLba →
      volume.Trusts disk before.cache →
      ∃ result after,
        (∀ fuel, size < fuel →
          fat16ReadFile ⟨disk, faults, stale⟩ volume.bootSector buffer size fuel startingCluster
            before = .ok (result, after)) ∧
        result ≠ int32 size

/-- The one mark that the loop looks for comes while bytes of the file are missing. -/
def StopsShort (disk : Disk) (startingCluster : BitVec 16) (size : Nat) : Prop :=
  ∃ i, i * volume.clusterSize < size ∧ volume.chainValue disk startingCluster i = 0xFFFF

variable {volume} {disk : Disk} {cluster : BitVec 16}

theorem chainValue_succ (i : Nat) : volume.chainValue disk cluster (i + 1) =
    volume.chainValue disk (volume.fatEntry disk cluster) i :=
  Function.iterate_succ_apply _ i cluster

theorem StopsShort.of_rest {size : Nat}
    (stops : volume.StopsShort disk (volume.fatEntry disk cluster) (size - volume.clusterSize)) :
    volume.StopsShort disk cluster size := by
  obtain ⟨i, needed, last⟩ := stops
  refine ⟨i + 1, ?_, (chainValue_succ i).trans last⟩
  rw [Nat.succ_mul]
  omega

theorem StopsShort.rest {size : Nat} (stops : volume.StopsShort disk cluster size)
    (notEnd : cluster ≠ 0xFFFF) :
    volume.StopsShort disk (volume.fatEntry disk cluster) (size - volume.clusterSize) := by
  obtain ⟨i, needed, last⟩ := stops
  cases i with
  | zero => exact absurd last notEnd
  | succ i =>
      rw [Nat.succ_mul] at needed
      exact ⟨i, by omega, (chainValue_succ i).symm.trans last⟩

end Volume

section Sectors

variable {medium : Medium} {volume : Volume} {buffer : BitVec 32} {size bufferIndex next : Nat}
  {before middle : State} {outcome : Option Nat × State}

/-- What reading some sectors comes to: the bytes up to `next`, or a failure. -/
structure Reads (medium : Medium) (bufferIndex next : Nat) (before : State)
    (outcome : Option Nat × State) : Prop where
  cache : outcome.2.cache = before.cache
  partLba : outcome.2.partLba = before.partLba
  result : (outcome.1 = some next ∧ (bufferIndex < next → ∃ call, medium.faults call = none)) ∨
    (outcome.1 = none ∧ ∃ call, medium.faults call ≠ none)

theorem Reads.nothing : Reads medium bufferIndex bufferIndex before (some bufferIndex, before) :=
  ⟨rfl, rfl, .inl ⟨rfl, fun more => absurd more (Nat.lt_irrefl _)⟩⟩

theorem Reads.single {fault : Option Garbage} (call : medium.faults before.reads.length = fault)
    (cache : middle.cache = before.cache) (partLba : middle.partLba = before.partLba) :
    Reads medium bufferIndex next before
      (if fault.isNone then some next else none, middle) := by
  cases fault with
  | none => exact ⟨cache, partLba, .inl ⟨rfl, fun _ => ⟨_, call⟩⟩⟩
  | some garbage => exact ⟨cache, partLba, .inr ⟨rfl, _, by rw [call]; exact Option.some_ne_none _⟩⟩

theorem Reads.followed {between : Nat} (rest : Reads medium between next middle outcome)
    (call : medium.faults before.reads.length = none) (cache : middle.cache = before.cache)
    (partLba : middle.partLba = before.partLba) :
    Reads medium bufferIndex next before outcome where
  cache := rest.cache.trans cache
  partLba := rest.partLba.trans partLba
  result := rest.result.imp_left fun reached => ⟨reached.1, fun _ => ⟨_, call⟩⟩

theorem readSectors_reads (medium : Medium) (volume : Volume) (buffer : BitVec 32)
    (firstSector left i bufferIndex : Nat) (before : State) (inside : bufferIndex ≤ size) :
    ∃ outcome,
      readSectors medium volume.bootSector buffer size firstSector left i bufferIndex before =
        .ok outcome ∧
      Reads medium bufferIndex (min size (bufferIndex + 512 * left)) before outcome := by
  induction left generalizing i bufferIndex before with
  | zero =>
      have same : min size (bufferIndex + 512 * 0) = bufferIndex := by omega
      rw [same]
      exact ⟨_, rfl, .nothing⟩
  | succ left ih =>
      have total (step : Nat) (bound : step = min 512 (size - bufferIndex)) :
          min size (bufferIndex + step + 512 * left) = min size (bufferIndex + 512 * (left + 1)) := by
        omega
      rw [readSectors, volume.bytesPerSector_toNat]
      by_cases more : bufferIndex < size
      · rw [if_pos more]
        by_cases whole : 512 ≤ size - bufferIndex
        · rw [if_pos whole]
          dsimp only [State.readSector]
          cases call : medium.faults before.reads.length with
          | some garbage => exact ⟨_, rfl, Reads.single call rfl rfl⟩
          | none =>
              obtain ⟨outcome, read, rest⟩ := ih (i + 1) (bufferIndex + 512) _ (by omega)
              rw [total 512 (by omega)] at rest
              exact ⟨outcome, read, rest.followed call rfl rfl⟩
        · rw [if_neg whole, if_neg (by decide)]
          dsimp only [State.readLocal]
          cases call : medium.faults before.reads.length with
          | some garbage => exact ⟨_, rfl, Reads.single call rfl rfl⟩
          | none =>
              obtain ⟨outcome, read, rest⟩ :=
                ih (i + 1) (bufferIndex + (size - bufferIndex)) _ (by omega)
              rw [total _ (by omega)] at rest
              exact ⟨outcome, read, rest.followed call rfl rfl⟩
      · have same : min size (bufferIndex + 512 * (left + 1)) = bufferIndex := by omega
        rw [if_neg more, same]
        exact ⟨_, rfl, .nothing⟩

theorem readCluster_reads (medium : Medium) (volume : Volume) (buffer : BitVec 32)
    (cluster : BitVec 16) (before : State) (inside : bufferIndex ≤ size) :
    ∃ outcome,
      readCluster medium volume.bootSector buffer size cluster bufferIndex before = .ok outcome ∧
      Reads medium bufferIndex (min size (bufferIndex + volume.clusterSize)) before outcome := by
  unfold readCluster
  rw [Volume.clusterBytes_eq]
  by_cases whole : volume.clusterSize ≤ size - bufferIndex
  · have total : min size (bufferIndex + volume.clusterSize) = bufferIndex + volume.clusterSize := by
      omega
    rw [if_pos whole, total]
    dsimp only [State.readSector]
    cases call : medium.faults before.reads.length with
    | some garbage => exact ⟨_, rfl, Reads.single call rfl rfl⟩
    | none => exact ⟨_, rfl, Reads.single call rfl rfl⟩
  · rw [if_neg whole]
    exact readSectors_reads medium volume buffer _ _ 0 bufferIndex before inside

end Sectors

section Lookup

variable {medium : Medium} {volume : Volume} {before : State}

/-- A lookup that trusts its cache: the entry on the disk, or the answer to a failed read. -/
structure Looked (medium : Medium) (volume : Volume) (cluster : BitVec 16) (before : State)
    (outcome : BitVec 16 × State) : Prop where
  partLba : outcome.2.partLba = before.partLba
  result : (outcome.1 = volume.fatEntry medium.disk cluster ∧
      volume.Trusts medium.disk outcome.2.cache) ∨
    (outcome.1 = 0xFFFF ∧ ∃ call, medium.faults call ≠ none)

theorem State.getFatEntry_looked (cluster : BitVec 16) (mounted : before.partLba = volume.partLba)
    (trusts : volume.Trusts medium.disk before.cache) :
    ∃ outcome, before.getFatEntry medium volume.bootSector cluster = .ok outcome ∧
      Looked medium volume cluster before outcome := by
  by_cases hit : fatSector volume.bootSector volume.partLba cluster = before.cache.cachedSector
  · have holds : before.cache.Holds medium.disk
        { sector := before.cache.cachedSector, overwritten := fun _ => none } := ⟨rfl, trusts cluster hit⟩
    refine ⟨_, State.getFatEntry_hit medium mounted hit, ?_⟩
    rw [holds.entry hit]
    exact ⟨rfl, .inl ⟨rfl, trusts⟩⟩
  · cases call : medium.faults before.reads.length with
    | none =>
        obtain ⟨cache, calls, lookup, coherent, -⟩ := State.getFatEntry_loaded mounted hit call
        exact ⟨_, lookup, rfl, .inl ⟨rfl, fun _ _ => coherent⟩⟩
    | some garbage =>
        obtain ⟨cache, _, lookup, -, -⟩ := State.getFatEntry_failed mounted hit call
        exact ⟨_, lookup, rfl, .inr ⟨rfl, _, by rw [call]; exact Option.some_ne_none _⟩⟩

end Lookup

section Walk

variable {medium : Medium} {volume : Volume} {size : Nat}

/-- How the loop ends that has `left` bytes to go. -/
structure Ends (medium : Medium) (volume : Volume) (cluster : BitVec 16) (size left : Nat)
    (result : Option Nat) : Prop where
  bound : ∀ index, result = some index → index ≤ size
  full : result = some size → ¬ volume.StopsShort medium.disk cluster left
  short : result ≠ some size → volume.StopsShort medium.disk cluster left ∨
    ∃ call, medium.faults call ≠ none
  begun : result = none → cluster ≠ 0xFFFF
  reads : result ≠ none → cluster ≠ 0xFFFF → 0 < left → ∃ call, medium.faults call = none

variable {cluster : BitVec 16} {left bufferIndex : Nat}

theorem Ends.complete : Ends medium volume cluster size 0 (some size) where
  bound index same := by
    cases same
    exact Nat.le_refl _
  full _ := by
    intro ⟨i, needed, _⟩
    exact absurd needed (Nat.not_lt_zero _)
  short incomplete := absurd rfl incomplete
  begun none := by cases none
  reads _ _ more := absurd more (Nat.lt_irrefl _)

theorem Ends.stopped (more : bufferIndex < size) (needed : 0 < left) :
    Ends medium volume 0xFFFF size left (some bufferIndex) where
  bound index same := by
    cases same
    omega
  full same := by
    have equal := Option.some.inj same
    omega
  short _ := .inl ⟨0, by simpa using needed, rfl⟩
  begun none := by cases none
  reads _ notEnd := absurd rfl notEnd

theorem Ends.failed (notEnd : cluster ≠ 0xFFFF) (failure : ∃ call, medium.faults call ≠ none) :
    Ends medium volume cluster size left none where
  bound index same := by cases same
  full same := by cases same
  short _ := .inr failure
  begun _ := notEnd
  reads some := absurd rfl some

theorem Ends.cut {next : Nat} (notEnd : cluster ≠ 0xFFFF) (reached : next ≤ size)
    (last : next = size → left ≤ volume.clusterSize)
    (failure : ∃ call, medium.faults call ≠ none) (success : ∃ call, medium.faults call = none) :
    Ends medium volume cluster size left (some next) where
  bound index same := by
    cases same
    exact reached
  full same stops := by
    obtain ⟨i, needed, mark⟩ := stops.rest notEnd
    have short := last (Option.some.inj same)
    omega
  short _ := .inr failure
  begun none := by cases none
  reads _ _ _ := success

theorem Ends.continued {result : Option Nat} (notEnd : cluster ≠ 0xFFFF)
    (success : ∃ call, medium.faults call = none)
    (rest : Ends medium volume (volume.fatEntry medium.disk cluster) size
      (left - volume.clusterSize) result) :
    Ends medium volume cluster size left result where
  bound := rest.bound
  full same stops := rest.full same (stops.rest notEnd)
  short incomplete := (rest.short incomplete).imp_left fun stops => stops.of_rest
  begun _ := notEnd
  reads _ _ _ := success

/-- The loop, by induction on the bytes to go. -/
theorem readClusters_ends (medium : Medium) (clustered : 0 < volume.clusterSize)
    (buffer : BitVec 32) (left : Nat) (cluster : BitVec 16) (bufferIndex : Nat) (before : State)
    (total : bufferIndex + left = size) (mounted : before.partLba = volume.partLba)
    (trusts : volume.Trusts medium.disk before.cache) :
    ∃ result after,
      (∀ fuel, left < fuel →
        readClusters medium volume.bootSector buffer size fuel cluster bufferIndex before =
          .ok (returned result, after)) ∧
      Ends medium volume cluster size left result := by
  induction left using Nat.strong_induction_on generalizing cluster bufferIndex before with
  | h left ih =>
      by_cases more : 0 < left
      · by_cases last : cluster = 0xFFFF
        · subst last
          have short : bufferIndex < size := by omega
          refine ⟨some bufferIndex, before, fun fuel enough => ?_, .stopped short more⟩
          obtain ⟨fuel, rfl⟩ := Nat.exists_eq_succ_of_ne_zero (by omega : fuel ≠ 0)
          rw [readClusters, if_neg (by simp), returned]
        · have inside : bufferIndex ≤ size := by omega
          obtain ⟨⟨reached, middle⟩, read, cache, partLba, outcome⟩ :=
            readCluster_reads medium volume buffer cluster before inside
          have turn : cluster ≠ 0xFFFF ∧ bufferIndex < size := ⟨last, by omega⟩
          dsimp only at cache partLba outcome
          rcases outcome with ⟨rfl, success⟩ | ⟨rfl, failure⟩
          · have success := success (by omega)
            obtain ⟨⟨nextCluster, after⟩, found, afterLba, looked⟩ := State.getFatEntry_looked cluster
              (partLba.trans mounted) (cache ▸ trusts)
            dsimp only at afterLba looked
            rcases looked with ⟨rfl, trusts⟩ | ⟨rfl, failure⟩
            · obtain ⟨result, final, ran, ends⟩ := ih (left - volume.clusterSize) (by omega)
                (volume.fatEntry medium.disk cluster) (min size (bufferIndex + volume.clusterSize))
                after (by omega) (afterLba.trans (partLba.trans mounted)) trusts
              refine ⟨result, final, fun fuel enough => ?_, .continued last success ends⟩
              obtain ⟨fuel, rfl⟩ := Nat.exists_eq_succ_of_ne_zero (by omega : fuel ≠ 0)
              rw [readClusters_turn _ last turn.2 read found]
              exact ran fuel (by omega)
            · refine ⟨some (min size (bufferIndex + volume.clusterSize)), after,
                fun fuel enough => ?_,
                .cut last (Nat.min_le_left _ _) (fun full => by omega) failure success⟩
              obtain ⟨fuel, rfl⟩ := Nat.exists_eq_add_of_le (by omega : 2 ≤ fuel)
              rw [Nat.add_comm 2, readClusters_turn _ last turn.2 read found, readClusters,
                if_neg (by simp), returned]
          · refine ⟨none, middle, fun fuel enough => ?_, .failed last failure⟩
            obtain ⟨fuel, rfl⟩ := Nat.exists_eq_succ_of_ne_zero (by omega : fuel ≠ 0)
            rw [readClusters, if_pos turn, read, returned]
      · obtain rfl : left = 0 := by omega
        obtain rfl : bufferIndex = size := by omega
        refine ⟨some bufferIndex, before, fun fuel enough => ?_, .complete⟩
        obtain ⟨fuel, rfl⟩ := Nat.exists_eq_succ_of_ne_zero (by omega : fuel ≠ 0)
        rw [readClusters, if_neg (by omega), returned]

end Walk

section Call

variable {volume : Volume} {disk : Disk} {startingCluster : BitVec 16} {size : Nat}

theorem fat16ReadFile_ends (medium : Medium) (clustered : 0 < volume.clusterSize)
    (buffer : BitVec 32) (startingCluster : BitVec 16) (size : Nat) (before : State)
    (mounted : before.partLba = volume.partLba)
    (trusts : volume.Trusts medium.disk before.cache) :
    ∃ result after,
      (∀ fuel, size < fuel →
        fat16ReadFile medium volume.bootSector buffer size fuel startingCluster before =
          .ok (returned result, after)) ∧
      Ends medium volume startingCluster size size result := by
  obtain ⟨result, after, ran, ends⟩ := readClusters_ends medium clustered buffer size
    startingCluster 0 before (Nat.zero_add _) mounted trusts
  refine ⟨result, after, fun fuel enough => ?_, ends⟩
  rw [fat16ReadFile_eq]
  exact ran fuel enough

theorem Volume.NoticesEarlyEnd.outcome (notices : volume.NoticesEarlyEnd disk startingCluster size)
    (early : volume.EndsEarly disk startingCluster size) (clustered : 0 < volume.clusterSize)
    (faults : Nat → Option Garbage) : ∃ result,
      Ends ⟨disk, faults, fun _ _ => 0⟩ volume startingCluster size size result ∧
      returned result ≠ int32 size := by
  -- from a cache that holds a sector of the disk
  let before : State := ⟨fun _ => 0, ⟨0, disk 0⟩, volume.partLba, []⟩
  have trusts : volume.Trusts disk before.cache := fun _ _ _ _ => rfl
  obtain ⟨result, after, ran, ends⟩ := fat16ReadFile_ends ⟨disk, faults, fun _ _ => 0⟩ clustered 0
    startingCluster size before rfl trusts
  obtain ⟨value, _, same, different⟩ := notices early faults (fun _ _ => 0) 0 before rfl trusts
  have equal := (same _ (Nat.lt_succ_self _)).symm.trans (ran _ (Nat.lt_succ_self _))
  have equal : value = returned result := congrArg Prod.fst (Except.ok.inj equal)
  exact ⟨result, ends, equal ▸ different⟩

theorem Volume.NoticesEarlyEnd.stops (notices : volume.NoticesEarlyEnd disk startingCluster size)
    (early : volume.EndsEarly disk startingCluster size) (clustered : 0 < volume.clusterSize) :
    volume.StopsShort disk startingCluster size := by
  obtain ⟨result, ends, different⟩ := notices.outcome early clustered fun _ => none
  have incomplete : result ≠ some size := by
    rintro rfl
    exact different rfl
  rcases ends.short incomplete with stops | ⟨_, failure⟩
  · exact stops
  · exact absurd rfl failure

/-- A failed read of data returns -1, which is also the largest size as an `int`. -/
theorem Ends.unequal {medium : Medium} {result : Option Nat}
    (ends : Ends medium volume startingCluster size size result) (word : size < 2 ^ 32)
    (stops : volume.StopsShort medium.disk startingCluster size)
    (largest : size = 0xFFFFFFFF → startingCluster = 0xFFFF) : returned result ≠ int32 size := by
  intro same
  cases reached : result with
  | none =>
      have minus : int32 0xFFFFFFFF = -1 := by decide
      rw [reached, returned, ← minus] at same
      exact ends.begun reached (largest (int32_injective word (by decide) same.symm))
  | some index =>
      have inside := ends.bound index reached
      rw [reached, returned] at same
      have full := int32_injective (by omega) word same
      exact ends.full (full ▸ reached) stops

end Call

/-- Exactly when the early ends of a chain are noticed. -/
theorem early_end_noticed_iff (volume : Volume)
    (clustered : volume.bootSector.sectorsPerCluster ≠ 0) (disk : Disk)
    (startingCluster : BitVec 16) (size : BitVec 32) :
    volume.NoticesEarlyEnd disk startingCluster size.toNat ↔
      (volume.EndsEarly disk startingCluster size.toNat →
        volume.StopsShort disk startingCluster size.toNat ∧
          (size = 0xFFFFFFFF → startingCluster = 0xFFFF)) := by
  have positive : 0 < volume.clusterSize := by
    have sectors : volume.bootSector.sectorsPerCluster.toNat ≠ 0 := fun zero =>
      clustered (BitVec.eq_of_toNat_eq zero)
    rw [Volume.clusterSize]
    omega
  constructor
  · intro notices early
    refine ⟨notices.stops early positive, ?_⟩
    rintro rfl
    by_contra notEnd
    -- every read fails
    obtain ⟨result, ends, different⟩ := notices.outcome early positive fun _ => some fun _ => none
    have failed : result = none := by
      by_contra succeeded
      obtain ⟨_, success⟩ := ends.reads succeeded notEnd (by decide)
      cases success
    rw [failed] at different
    exact different (by decide)
  · intro condition early faults stale buffer before mounted trusts
    obtain ⟨stops, largest⟩ := condition early
    obtain ⟨result, after, ran, ends⟩ := fat16ReadFile_ends ⟨disk, faults, stale⟩ positive buffer
      startingCluster size.toNat before mounted trusts
    refine ⟨returned result, after, ran, ends.unequal size.isLt stops fun full => ?_⟩
    exact largest (BitVec.eq_of_toNat_eq full)

def markedVolume : Volume where
  bootSector := { smallVolume.bootSector with totalSectors16 := 100 }
  partLba := 2048
  sectorSize := rfl

/-- A file of two clusters whose first one is marked as its last with `0xFFF8`. -/
def markedDisk : Disk := fun sector i =>
  if sector = 2049 then if i = 4 then 0xF8 else if i = 5 then 0xFF else 0
  else 0

theorem marked_chain_noticed_iff : markedVolume.NoticesEarlyEnd markedDisk 2 1024 ↔
    (markedVolume.EndsEarly markedDisk 2 1024 →
      markedVolume.StopsShort markedDisk 2 1024 ∧
        ((1024 : BitVec 32) = 0xFFFFFFFF → (2 : BitVec 16) = 0xFFFF)) :=
  early_end_noticed_iff markedVolume (by decide) markedDisk 2 1024

theorem marked_chain_read_as_complete : ¬ markedVolume.NoticesEarlyEnd markedDisk 2 1024 := by
  intro notices
  have early : markedVolume.EndsEarly markedDisk 2 1024 := ⟨1, by decide, by decide⟩
  let before : State := ⟨fun _ => 0, .empty, 2048, []⟩
  have trusts : markedVolume.Trusts markedDisk before.cache := by
    intro cluster hit
    have bound := cluster.isLt
    have sector : fatSector markedVolume.bootSector markedVolume.partLba cluster =
        2049 + cluster.toNat * 2 / 512 := by
      have part : markedVolume.partLba.toNat = 2048 := rfl
      have reserved : markedVolume.bootSector.reservedSectors.toNat = 1 := rfl
      have bytes : markedVolume.bootSector.bytesPerSector.toNat = 512 := rfl
      rw [fatSector, part, reserved, bytes]
      unfold u32
      omega
    have tag : before.cache.cachedSector = 0xFFFFFFFF := by decide
    omega
  obtain ⟨result, after, ran, different⟩ :=
    notices early (fun _ => none) (fun _ _ => 0) 0 before rfl trusts
  have complete : (fat16ReadFile ⟨markedDisk, fun _ => none, fun _ _ => 0⟩ markedVolume.bootSector
      0 1024 1025 2 before).toOption.map Prod.fst = some 1024 := by decide +kernel
  rw [ran 1025 (by decide)] at complete
  exact different ((Option.some.inj complete).trans (by decide))

end Mackerel.Fat16
