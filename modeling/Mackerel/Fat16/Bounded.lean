import Mackerel.Fat16.Addresses
import Mackerel.Fat16.EarlyEnd
import Mackerel.Fat16.Runs

namespace Mackerel.Fat16

open Bytes Bytes.Memory

section Places

variable (medium : Medium) (volume : Volume) (buffer : BitVec 32) (size : Nat)
  (startingCluster : BitVec 16) (start : State)

/-- The test of the loop, after so many clusters. -/
inductive AtCluster : (visits : Nat) → (cluster : BitVec 16) → (bufferIndex : Nat) → State → Prop
  | start : AtCluster 0 startingCluster 0 start
  | next (visits : Nat) (cluster following : BitVec 16) (bufferIndex index : Nat)
      (before middle after : State) :
      AtCluster visits cluster bufferIndex before → cluster ≠ 0xFFFF ∧ bufferIndex < size →
        readCluster medium volume.bootSector buffer size cluster bufferIndex before =
          .ok (some index, middle) →
        middle.getFatEntry medium volume.bootSector cluster = .ok (following, after) →
          AtCluster (visits + 1) following index after

/-- The test of the loop over the sectors of a cluster. -/
inductive AtSector : (firstSector left i bufferIndex : Nat) → State → Prop
  | start (visits : Nat) (cluster : BitVec 16) (bufferIndex : Nat) (before : State) :
      AtCluster medium volume buffer size startingCluster start visits cluster bufferIndex before →
        cluster ≠ 0xFFFF ∧ bufferIndex < size →
        ¬clusterBytes volume.bootSector ≤ size - bufferIndex →
          AtSector (firstSectorOfCluster volume.bootSector before.partLba cluster)
            volume.bootSector.sectorsPerCluster.toNat 0 bufferIndex before
  | whole (firstSector left i bufferIndex : Nat) (before after : State) :
      AtSector firstSector (left + 1) i bufferIndex before → bufferIndex < size →
        volume.bootSector.bytesPerSector.toNat ≤ size - bufferIndex →
        before.readSector medium .data (u32 (firstSector + i)) (buffer + BitVec.ofNat 32 bufferIndex) 1 =
          (true, after) →
          AtSector firstSector left (i + 1) (bufferIndex + volume.bootSector.bytesPerSector.toNat) after
  | part (firstSector left i bufferIndex : Nat) (before after : State) (sectorBuffer : Block) :
      AtSector firstSector (left + 1) i bufferIndex before → bufferIndex < size →
        ¬volume.bootSector.bytesPerSector.toNat ≤ size - bufferIndex →
        before.readLocal medium .data (u32 (firstSector + i)) = (true, sectorBuffer, after) →
          AtSector firstSector left (i + 1) (bufferIndex + (size - bufferIndex))
            { after with
              memory := after.memory.store (buffer + BitVec.ofNat 32 bufferIndex) (size - bufferIndex)
                sectorBuffer }

/-- A read of so many sectors straight into the buffer, from `bufferIndex` on. -/
inductive Requests : (bufferIndex count : Nat) → Prop
  | cluster (visits : Nat) (cluster : BitVec 16) (bufferIndex : Nat) (before : State) :
      AtCluster medium volume buffer size startingCluster start visits cluster bufferIndex before →
        cluster ≠ 0xFFFF ∧ bufferIndex < size →
        clusterBytes volume.bootSector ≤ size - bufferIndex →
          Requests bufferIndex volume.bootSector.sectorsPerCluster.toNat
  | sector (firstSector left i bufferIndex : Nat) (before : State) :
      AtSector medium volume buffer size startingCluster start firstSector (left + 1) i bufferIndex before →
        bufferIndex < size → volume.bootSector.bytesPerSector.toNat ≤ size - bufferIndex →
          Requests bufferIndex 1

/-- A read of data is one straight into the buffer, or that of the last sector beside it. -/
def Requested (call : ReadCall) : Prop :=
  call.purpose = .data →
    (∃ bufferIndex, Requests medium volume buffer size startingCluster start bufferIndex call.count) ∨
    call.count = 1 ∧ ∃ firstSector left i bufferIndex before,
      AtSector medium volume buffer size startingCluster start firstSector (left + 1) i bufferIndex before ∧
        bufferIndex < size ∧ call.lba = u32 (firstSector + i)

end Places

section Frame

variable {medium : Medium} {volume : Volume} {buffer : BitVec 32} {size bufferIndex : Nat}
  {before after : State}

/-- Only the bytes of the buffer from `start` on change. -/
def Kept (buffer : BitVec 32) (start size : Nat) (memory changed : Memory 32) : Prop :=
  ∀ addr, offset buffer addr < start ∨ size ≤ offset buffer addr → changed addr = memory addr

theorem Kept.refl (buffer : BitVec 32) (start size : Nat) (memory : Memory 32) :
    Kept buffer start size memory memory := fun _ _ => rfl

theorem Kept.trans {start later : Nat} {memory middle changed : Memory 32} (grows : start ≤ later)
    (first : Kept buffer start size memory middle) (second : Kept buffer later size middle changed) :
    Kept buffer start size memory changed := by
  intro addr outside
  rw [second addr (by omega), first addr outside]

variable (buffer) in
theorem kept_store {start count : Nat} (word : size < 2 ^ 32) (fits : start + count ≤ size)
    (memory : Memory 32) (bytes : Block) :
    Kept buffer start size memory (memory.store (buffer + BitVec.ofNat 32 start) count bytes) := by
  intro addr outside
  rw [store_at memory buffer addr bytes (by omega), if_neg (by omega)]

theorem readSectors_kept (word : size < 2 ^ 32) {firstSector left i : Nat} {result : Option Nat}
    (inside : bufferIndex ≤ size)
    (ran : readSectors medium volume.bootSector buffer size firstSector left i bufferIndex before =
      .ok (result, after)) : Kept buffer bufferIndex size before.memory after.memory := by
  induction left generalizing i bufferIndex before with
  | zero =>
      cases ran
      exact .refl _ _ _ _
  | succ left ih =>
      rw [readSectors, volume.bytesPerSector_toNat] at ran
      by_cases more : bufferIndex < size
      · rw [if_pos more] at ran
        by_cases whole : 512 ≤ size - bufferIndex
        · have stored := kept_store buffer word (by omega : bufferIndex + 512 * 1 ≤ size)
          rw [if_pos whole] at ran
          dsimp only [State.readSector] at ran
          split at ran
          · exact (stored _ _).trans (Nat.le_add_right _ 512) (ih (by omega) ran)
          · cases ran
            exact stored _ _
        · have reached : bufferIndex + (size - bufferIndex) = size := by omega
          have stored := kept_store buffer word (Nat.le_of_eq reached)
          rw [if_neg whole, if_neg (by decide)] at ran
          dsimp only [State.readLocal] at ran
          split at ran
          · exact (stored _ _).trans (Nat.le_add_right _ _) (ih (by omega) ran)
          · cases ran
            exact .refl _ _ _ _
      · rw [if_neg more] at ran
        cases ran
        exact .refl _ _ _ _

theorem readCluster_kept (word : size < 2 ^ 32) {cluster : BitVec 16} {result : Option Nat}
    (inside : bufferIndex ≤ size)
    (ran : readCluster medium volume.bootSector buffer size cluster bufferIndex before =
      .ok (result, after)) : Kept buffer bufferIndex size before.memory after.memory := by
  unfold readCluster at ran
  dsimp only at ran
  rw [volume.clusterBytes_eq] at ran
  by_cases whole : volume.clusterSize ≤ size - bufferIndex
  · have fits : bufferIndex + 512 * volume.bootSector.sectorsPerCluster.toNat ≤ size := by
      rw [Volume.clusterSize] at whole
      omega
    have stored := kept_store buffer word fits before.memory
    rw [if_pos whole] at ran
    split at ran
    · cases ran
      exact stored _
    · cases ran
      exact stored _
  · rw [if_neg whole] at ran
    exact readSectors_kept word inside ran

/-- A lookup always returns, and leaves the memory alone. -/
theorem getFatEntry_returns (medium : Medium) (volume : Volume) (cluster : BitVec 16) (before : State) :
    ∃ next after, before.getFatEntry medium volume.bootSector cluster = .ok (next, after) ∧
      after.memory = before.memory := by
  have entry := getFatEntry_of_volume medium.disk (medium.faults before.reads.length)
    { volume with partLba := before.partLba } cluster before.cache
  dsimp only at entry
  unfold State.getFatEntry
  rw [entry]
  exact ⟨_, _, rfl, rfl⟩

end Frame

section Calls

variable {medium : Medium} {volume : Volume} {buffer : BitVec 32} {size : Nat}
  {startingCluster cluster : BitVec 16} {start before after : State} {visits bufferIndex : Nat}

theorem AtCluster.run
    (reached : AtCluster medium volume buffer size startingCluster start visits cluster bufferIndex before)
    (fuel : Nat) :
    readClusters medium volume.bootSector buffer size (fuel + visits) startingCluster 0 start =
      readClusters medium volume.bootSector buffer size fuel cluster bufferIndex before := by
  induction reached generalizing fuel with
  | start => rfl
  | next visits cluster following bufferIndex index before middle after _ more read found ih =>
      have turn : fuel + (visits + 1) = fuel + 1 + visits := by omega
      rw [turn, ih, readClusters, if_pos more, read]
      dsimp only
      rw [found]

theorem AtSector.run {firstSector left i : Nat}
    (reached : AtSector medium volume buffer size startingCluster start firstSector left i bufferIndex before) :
    ∃ visits cluster index earlier,
      AtCluster medium volume buffer size startingCluster start visits cluster index earlier ∧
        readCluster medium volume.bootSector buffer size cluster index earlier =
          readSectors medium volume.bootSector buffer size firstSector left i bufferIndex before := by
  induction reached with
  | start visits cluster bufferIndex before reached more short =>
      exact ⟨visits, cluster, bufferIndex, before, reached, by rw [readCluster, if_neg short]⟩
  | whole firstSector left i bufferIndex before after _ more whole read ih =>
      obtain ⟨visits, cluster, index, earlier, reached, ran⟩ := ih
      refine ⟨visits, cluster, index, earlier, reached, ran.trans ?_⟩
      rw [readSectors, if_pos more]
      dsimp only
      rw [if_pos whole, read]
      rfl
  | part firstSector left i bufferIndex before after sectorBuffer _ more part read ih =>
      obtain ⟨visits, cluster, index, earlier, reached, ran⟩ := ih
      refine ⟨visits, cluster, index, earlier, reached, ran.trans ?_⟩
      have room : ¬volume.bootSector.bytesPerSector.toNat < 512 := by
        rw [volume.bytesPerSector_toNat]
        decide
      rw [readSectors, if_pos more]
      dsimp only
      rw [if_neg part, if_neg room, read]
      rfl

theorem AtSector.readSectors_requested {firstSector left i : Nat} {result : Option Nat}
    (reached : AtSector medium volume buffer size startingCluster start firstSector left i bufferIndex before)
    (ran : readSectors medium volume.bootSector buffer size firstSector left i bufferIndex before =
      .ok (result, after)) :
    Extends (Requested medium volume buffer size startingCluster start) before after := by
  induction left generalizing i bufferIndex before with
  | zero =>
      cases ran
      exact .refl _
  | succ left ih =>
      rw [readSectors] at ran
      by_cases more : bufferIndex < size
      · rw [if_pos more] at ran
        dsimp only at ran
        by_cases whole : volume.bootSector.bytesPerSector.toNat ≤ size - bufferIndex
        · rw [if_pos whole] at ran
          have here (ok : Bool) (lba : Nat) : Requested medium volume buffer size startingCluster start
              { purpose := .data, lba := lba, count := 1, ok := ok } :=
            fun _ => .inl ⟨bufferIndex, .sector firstSector left i bufferIndex before reached more whole⟩
          split at ran
          · rename_i ok
            have next := AtSector.whole firstSector left i bufferIndex before _ reached more whole (Prod.ext ok rfl)
            refine Extends.trans ?_ (ih next ran)
            exact .single rfl rfl (here _ _)
          · cases ran
            exact .single rfl rfl (here _ _)
        · rw [if_neg whole] at ran
          have here (ok : Bool) : Requested medium volume buffer size startingCluster start
              { purpose := .data, lba := u32 (firstSector + i), count := 1, ok := ok } :=
            fun _ => .inr ⟨rfl, firstSector, left, i, bufferIndex, before, reached, more, rfl⟩
          split at ran
          · cases ran
          · split at ran
            · rename_i ok
              have next := AtSector.part firstSector left i bufferIndex before _ _ reached more whole (Prod.ext ok rfl)
              refine Extends.trans ?_ (ih next ran)
              exact .single rfl rfl (here _)
            · cases ran
              exact .single rfl rfl (here _)
      · rw [if_neg more] at ran
        cases ran
        exact .refl _

theorem AtCluster.readCluster_requested {result : Option Nat}
    (reached : AtCluster medium volume buffer size startingCluster start visits cluster bufferIndex before)
    (more : cluster ≠ 0xFFFF ∧ bufferIndex < size)
    (ran : readCluster medium volume.bootSector buffer size cluster bufferIndex before = .ok (result, after)) :
    Extends (Requested medium volume buffer size startingCluster start) before after := by
  unfold readCluster at ran
  dsimp only at ran
  by_cases whole : clusterBytes volume.bootSector ≤ size - bufferIndex
  · rw [if_pos whole] at ran
    have here (ok : Bool) (lba : Nat) : Requested medium volume buffer size startingCluster start
        { purpose := .data, lba := lba, count := volume.bootSector.sectorsPerCluster.toNat, ok := ok } :=
      fun _ => .inl ⟨bufferIndex, .cluster visits cluster bufferIndex before reached more whole⟩
    split at ran
    · cases ran
      exact .single rfl rfl (here _ _)
    · cases ran
      exact .single rfl rfl (here _ _)
  · rw [if_neg whole] at ran
    exact (AtSector.start visits cluster bufferIndex before reached more whole).readSectors_requested ran

theorem getFatEntry_requested {next : BitVec 16}
    (found : before.getFatEntry medium volume.bootSector cluster = .ok (next, after)) :
    Extends (Requested medium volume buffer size startingCluster start) before after := by
  unfold State.getFatEntry at found
  cases lookup : Fat16.getFatEntry medium.disk (medium.faults before.reads.length) volume.bootSector
    before.partLba cluster before.cache with
  | error stop =>
      rw [lookup] at found
      cases found
  | ok entry =>
      rw [lookup] at found
      cases found
      refine ⟨rfl, _, rfl, fun call member data => ?_⟩
      have fat := (getFatEntry_call lookup (Option.mem_toList.mp member)).1
      rw [fat] at data
      cases data

theorem AtCluster.readClusters_requested
    (reached : AtCluster medium volume buffer size startingCluster start visits cluster bufferIndex before)
    {fuel : Nat} {outcome : Int × State}
    (ran : readClusters medium volume.bootSector buffer size fuel cluster bufferIndex before = .ok outcome) :
    Extends (Requested medium volume buffer size startingCluster start) before outcome.2 := by
  induction fuel generalizing visits cluster bufferIndex before with
  | zero => cases ran
  | succ fuel ih =>
      rw [readClusters] at ran
      by_cases more : cluster ≠ 0xFFFF ∧ bufferIndex < size
      · rw [if_pos more] at ran
        split at ran
        · cases ran
        · rename_i read
          cases ran
          exact reached.readCluster_requested more read
        · rename_i index middle read
          have turn := reached.readCluster_requested more read
          split at ran
          · cases ran
          · rename_i next found lookup
            exact turn.trans ((getFatEntry_requested lookup).trans
              (ih (.next visits cluster next bufferIndex index before middle found reached more read lookup) ran))
      · rw [if_neg more] at ran
        cases ran
        exact .refl _

end Calls

section Bounds

variable {medium : Medium} {volume : Volume} {buffer : BitVec 32} {size : Nat}
  {startingCluster cluster : BitVec 16} {start before : State} {visits bufferIndex : Nat}

/-- The places from which the file is still to be read. -/
theorem AtCluster.bufferIndex_eq
    (reached : AtCluster medium volume buffer size startingCluster start visits cluster bufferIndex before) :
    bufferIndex = min size (visits * volume.clusterSize) := by
  induction reached with
  | start => rw [Nat.zero_mul, Nat.min_zero]
  | next visits cluster following bufferIndex index before middle after _ more read _ ih =>
      obtain ⟨outcome, ran, reads⟩ := readCluster_reads medium volume buffer cluster before (Nat.le_of_lt more.2)
      rw [read] at ran
      cases ran
      rcases reads.result with ⟨here, _⟩ | ⟨none, _⟩
      · obtain rfl := Option.some.inj here
        rw [Nat.add_mul]
        omega
      · cases none

theorem AtCluster.kept (word : size < 2 ^ 32)
    (reached : AtCluster medium volume buffer size startingCluster start visits cluster bufferIndex before) :
    Kept buffer 0 size start.memory before.memory := by
  induction reached with
  | start => exact .refl _ _ _ _
  | next visits cluster following bufferIndex index before middle after reached more read found ih =>
      obtain ⟨next, later, lookup, memory⟩ := getFatEntry_returns medium volume cluster middle
      rw [found] at lookup
      cases lookup
      rw [memory]
      exact ih.trans (Nat.zero_le _) (readCluster_kept word (Nat.le_of_lt more.2) read)

theorem AtSector.bufferIndex_le {firstSector left i : Nat}
    (reached : AtSector medium volume buffer size startingCluster start firstSector left i bufferIndex before) :
    bufferIndex ≤ size := by
  cases reached with
  | start _ _ _ _ _ more => exact Nat.le_of_lt more.2
  | whole _ _ _ _ _ _ _ more fits => omega
  | part _ _ _ _ _ _ _ _ more _ _ => omega

theorem Requests.fits {count : Nat}
    (requests : Requests medium volume buffer size startingCluster start bufferIndex count) :
    bufferIndex + 512 * count ≤ size := by
  cases requests with
  | cluster _ _ _ _ _ more fits =>
      rw [volume.clusterBytes_eq, Volume.clusterSize] at fits
      omega
  | sector _ _ _ _ _ _ more fits =>
      rw [volume.bytesPerSector_toNat] at fits
      omega

/-- A turn of the loop fails, or goes on behind the bytes of the cluster. -/
theorem readClusters_either (word : size < 2 ^ 32) (inside : bufferIndex ≤ size)
    (more : cluster ≠ 0xFFFF ∧ bufferIndex < size) (medium : Medium) (volume : Volume) (before : State) :
    (∃ after, Kept buffer bufferIndex size before.memory after.memory ∧
      ∀ fuel, readClusters medium volume.bootSector buffer size (fuel + 1) cluster bufferIndex before =
        .ok (-1, after)) ∨
      ∃ next after, Kept buffer bufferIndex size before.memory after.memory ∧
        ∀ fuel, readClusters medium volume.bootSector buffer size (fuel + 1) cluster bufferIndex before =
          readClusters medium volume.bootSector buffer size fuel next
            (min size (bufferIndex + volume.clusterSize)) after := by
  obtain ⟨⟨result, middle⟩, ran, reads⟩ := readCluster_reads medium volume buffer cluster before inside
  have kept := readCluster_kept word inside ran
  rcases reads.result with ⟨here, _⟩ | ⟨none, _⟩
  · obtain ⟨next, after, found, memory⟩ := getFatEntry_returns medium volume cluster middle
    dsimp only at here
    rw [here] at ran
    refine .inr ⟨next, after, memory ▸ kept, fun fuel => ?_⟩
    rw [readClusters, if_pos more, ran]
    dsimp only
    rw [found]
  · dsimp only at none
    rw [none] at ran
    refine .inl ⟨middle, kept, fun fuel => ?_⟩
    rw [readClusters, if_pos more, ran]

variable (medium buffer) in
/-- The loop returns with one turn more than there are clusters to read. -/
theorem readClusters_returns (word : size < 2 ^ 32) (turns : Nat) (cluster : BitVec 16) (before : State)
    (enough : size ≤ bufferIndex + turns * volume.clusterSize) (inside : bufferIndex ≤ size) :
    ∃ outcome, readClusters medium volume.bootSector buffer size (turns + 1) cluster bufferIndex before =
      .ok outcome := by
  induction turns generalizing cluster bufferIndex before with
  | zero =>
      have ended : ¬(cluster ≠ 0xFFFF ∧ bufferIndex < size) := by omega
      exact ⟨_, by rw [readClusters, if_neg ended]⟩
  | succ turns ih =>
      by_cases more : cluster ≠ 0xFFFF ∧ bufferIndex < size
      · rw [Nat.succ_mul] at enough
        rcases readClusters_either word inside more medium volume before with ⟨_, _, ran⟩ | ⟨next, after, _, ran⟩
        · exact ⟨_, ran _⟩
        · rw [ran]
          exact ih next after (by omega) (Nat.min_le_left _ _)
      · exact ⟨_, by rw [readClusters, if_neg more]⟩

/-- The only way not to return is that the turns run out. -/
theorem readClusters_error (word : size < 2 ^ 32) (fuel : Nat) (cluster : BitVec 16) (before : State)
    (inside : bufferIndex ≤ size) {stop : Stop}
    (stopped : readClusters medium volume.bootSector buffer size fuel cluster bufferIndex before =
      .error stop) : stop = .outOfFuel := by
  induction fuel generalizing cluster bufferIndex before with
  | zero =>
      cases stopped
      rfl
  | succ fuel ih =>
      by_cases more : cluster ≠ 0xFFFF ∧ bufferIndex < size
      · rcases readClusters_either word inside more medium volume before with ⟨_, _, ran⟩ | ⟨next, after, _, ran⟩
        · rw [ran] at stopped
          cases stopped
        · rw [ran] at stopped
          exact ih next after (Nat.min_le_left _ _) stopped
      · rw [readClusters, if_neg more] at stopped
        cases stopped

theorem readClusters_kept (word : size < 2 ^ 32) (fuel : Nat) (cluster : BitVec 16) (before : State)
    (inside : bufferIndex ≤ size) {outcome : Int × State}
    (ran : readClusters medium volume.bootSector buffer size fuel cluster bufferIndex before = .ok outcome) :
    Kept buffer bufferIndex size before.memory outcome.2.memory := by
  induction fuel generalizing cluster bufferIndex before with
  | zero => cases ran
  | succ fuel ih =>
      by_cases more : cluster ≠ 0xFFFF ∧ bufferIndex < size
      · rcases readClusters_either word inside more medium volume before with
          ⟨after, kept, turn⟩ | ⟨next, after, kept, turn⟩
        · rw [turn] at ran
          cases ran
          exact kept
        · rw [turn] at ran
          exact kept.trans (by omega) (ih next after (Nat.min_le_left _ _) ran)
      · rw [readClusters, if_neg more] at ran
        cases ran
        exact .refl _ _ _ _

variable (volume) in
/-- The clusters that a file takes. -/
def Volume.clustersOf (size : Nat) : Nat := (size + volume.clusterSize - 1) / volume.clusterSize

variable (some_sectors : volume.bootSector.sectorsPerCluster ≠ 0)

include some_sectors

theorem clusterSize_pos : 0 < volume.clusterSize := by
  have positive : volume.bootSector.sectorsPerCluster.toNat ≠ 0 := fun zero =>
    some_sectors (BitVec.eq_of_toNat_eq zero)
  rw [Volume.clusterSize]
  omega

theorem le_clustersOf (size : Nat) : size ≤ volume.clustersOf size * volume.clusterSize := by
  have positive := clusterSize_pos some_sectors
  have division := Nat.div_add_mod (size + volume.clusterSize - 1) volume.clusterSize
  have remainder := Nat.mod_lt (size + volume.clusterSize - 1) positive
  rw [Volume.clustersOf, Nat.mul_comm]
  omega

theorem AtCluster.visits_lt
    (reached : AtCluster medium volume buffer size startingCluster start visits cluster bufferIndex before)
    (more : bufferIndex < size) : visits < volume.clustersOf size := by
  have positive := clusterSize_pos some_sectors
  have place := reached.bufferIndex_eq
  rw [Volume.clustersOf, Nat.lt_iff_add_one_le, Nat.le_div_iff_mul_le positive, Nat.add_mul]
  omega

end Bounds

/-- What holds of a call, whatever the FAT says and whichever reads fail: it returns, after at most as
    many clusters as the file takes, and nothing is indexed or written out of bounds. -/
structure Contained (medium : Medium) (volume : Volume) (buffer bufferSize : BitVec 32)
    (startingCluster : BitVec 16) (start : State) : Prop where
  returns : ∀ fuel, volume.clustersOf bufferSize.toNat < fuel → ∃ outcome,
    fat16ReadFile medium volume.bootSector buffer bufferSize.toNat fuel startingCluster start = .ok outcome
  visits : ∀ visits cluster bufferIndex before,
    AtCluster medium volume buffer bufferSize.toNat startingCluster start visits cluster bufferIndex before →
      cluster ≠ 0xFFFF ∧ bufferIndex < bufferSize.toNat → visits < volume.clustersOf bufferSize.toNat
  inside : ∀ fuel stop,
    fat16ReadFile medium volume.bootSector buffer bufferSize.toNat fuel startingCluster start = .error stop →
      stop = .outOfFuel
  clusterIndex : ∀ visits cluster bufferIndex before,
    AtCluster medium volume buffer bufferSize.toNat startingCluster start visits cluster bufferIndex before →
      bufferIndex ≤ bufferSize.toNat
  sectorIndex : ∀ firstSector left i bufferIndex before,
    AtSector medium volume buffer bufferSize.toNat startingCluster start firstSector left i bufferIndex before →
      bufferIndex ≤ bufferSize.toNat
  fits : ∀ bufferIndex count,
    Requests medium volume buffer bufferSize.toNat startingCluster start bufferIndex count →
      bufferIndex + 512 * count ≤ bufferSize.toNat
  kept : ∀ fuel outcome,
    fat16ReadFile medium volume.bootSector buffer bufferSize.toNat fuel startingCluster start = .ok outcome →
      Kept buffer 0 bufferSize.toNat start.memory outcome.2.memory
  turns : ∀ visits cluster bufferIndex before,
    AtCluster medium volume buffer bufferSize.toNat startingCluster start visits cluster bufferIndex before →
      ∀ fuel, fat16ReadFile medium volume.bootSector buffer bufferSize.toNat (fuel + visits) startingCluster start =
        readClusters medium volume.bootSector buffer bufferSize.toNat fuel cluster bufferIndex before
  sectors : ∀ firstSector left i bufferIndex before,
    AtSector medium volume buffer bufferSize.toNat startingCluster start firstSector left i bufferIndex before →
      ∃ visits cluster index earlier,
        AtCluster medium volume buffer bufferSize.toNat startingCluster start visits cluster index earlier ∧
          readCluster medium volume.bootSector buffer bufferSize.toNat cluster index earlier =
            readSectors medium volume.bootSector buffer bufferSize.toNat firstSector left i bufferIndex before
  calls : ∀ fuel outcome,
    fat16ReadFile medium volume.bootSector buffer bufferSize.toNat fuel startingCluster start = .ok outcome →
      ∃ calls, outcome.2.reads = start.reads ++ calls ∧
        ∀ call ∈ calls, Requested medium volume buffer bufferSize.toNat startingCluster start call

theorem fat16ReadFile_contained (medium : Medium) (volume : Volume)
    (some_sectors : volume.bootSector.sectorsPerCluster ≠ 0) (buffer bufferSize : BitVec 32)
    (startingCluster : BitVec 16) (start : State) :
    Contained medium volume buffer bufferSize startingCluster start := by
  have nonzero : volume.bootSector.bytesPerSector ≠ 0 := by simp [volume.sectorSize]
  have loop (fuel : Nat) :
      fat16ReadFile medium volume.bootSector buffer bufferSize.toNat fuel startingCluster start =
        readClusters medium volume.bootSector buffer bufferSize.toNat fuel startingCluster 0 start := by
    rw [fat16ReadFile, if_neg nonzero]
  have word : bufferSize.toNat < 2 ^ 32 := bufferSize.isLt
  refine {
    returns := fun fuel enough => ?_
    visits := fun _ _ _ _ reached more => reached.visits_lt some_sectors more.2
    inside := fun fuel stop stopped => ?_
    clusterIndex := fun _ _ _ _ reached => ?_
    sectorIndex := fun _ _ _ _ _ reached => reached.bufferIndex_le
    fits := fun _ _ requests => requests.fits
    kept := fun fuel outcome ran => ?_
    turns := fun _ _ _ _ reached fuel => (loop _).trans (reached.run fuel)
    sectors := fun _ _ _ _ _ reached => reached.run
    calls := fun fuel outcome ran => ?_ }
  · have turns := le_clustersOf some_sectors bufferSize.toNat
    obtain ⟨outcome, ran⟩ := readClusters_returns medium buffer word
      (volume.clustersOf bufferSize.toNat) startingCluster start (by rwa [Nat.zero_add]) (Nat.zero_le _)
    exact ⟨outcome, (loop fuel).trans (readClusters_fuel enough ran)⟩
  · rw [loop] at stopped
    exact readClusters_error word fuel startingCluster start (Nat.zero_le _) stopped
  · rw [reached.bufferIndex_eq]
    exact Nat.min_le_left _ _
  · rw [loop] at ran
    exact readClusters_kept word fuel startingCluster start (Nat.zero_le _) ran
  · rw [loop] at ran
    exact (AtCluster.start.readClusters_requested ran).log

/-- A FAT that sends every cluster to cluster 2, on a disk that fails at every third read. -/
theorem loopingFat_contained : Contained
    ⟨fun _ i => if i % 2 = 0 then 2 else 0, fun call => if call % 3 = 2 then some fun _ => none else none,
      fun _ _ => 0⟩
    markedVolume 0x10000 5000 2 ⟨fun _ => 0, .empty, 2048, []⟩ :=
  fat16ReadFile_contained _ _ (by decide) _ _ _ _

end Mackerel.Fat16
