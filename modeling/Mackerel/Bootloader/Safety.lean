import Mackerel.Bootloader.BootComplete
import Mackerel.Fat16.Footprints
import Mathlib.Data.Nat.Find

namespace Mackerel.Bootloader

open Bytes Bytes.Memory Fat16

/-- The bytes for each percent of the progress bar, by which the bytes read are divided. -/
def pctStep (bufferSize : Nat) : Nat := if bufferSize / 100 = 0 then 1 else bufferSize / 100

/-- A `boot` command of which every read succeeds; the state is any state. -/
structure ReliableBoot where
  board : Board
  disk : Disk
  before : State

namespace ReliableBoot

variable (boot : ReliableBoot)

def bootSector : BootSector := bswapBootSector (.overlay (boot.disk 2048))

def rootSector : Nat := rootDirSector boot.bootSector boot.before.partLba

/-- The entry that the command loads. -/
def image : Option DirEntry := (directory (boot.disk boot.rootSector)).find? isImage

def fileSize : Nat := boot.image.elim 0 fun file => file.fileSize.toNat

/-- The command, with any contents of the memory and of the stack. -/
def run (fuel : Nat) (stale : Nat → Block) (memory : Memory 32) :
    Except Stop (BootExit × State) :=
  handlerBoot boot.board (boot.disk.reliable stale) fuel (boot.before.withMemory memory)

/-- What the command does after it has had enough fuel, whatever the memory and the stack hold:
    it writes to no address outside the file, and runs a file of which every byte is from the
    disk. -/
def EndsWith (exit : BootExit) (enough : Nat) (loaded : Block) : Prop :=
  ∀ stale memory, ∃ after,
    (∀ fuel, enough < fuel → boot.run fuel stale memory = .ok (exit, after)) ∧
    (∀ addr, boot.fileSize ≤ offset boot.board.programStart addr →
      after.memory addr = memory addr) ∧
    (exit = .error ∨ exit = .handlerRun boot.board.programStart ∧
      ∀ i < boot.fileSize, after.memory.load boot.board.programStart i = loaded i)

structure Safe : Prop where
  listed : ∀ stale (s : State),
    (s.fat16ListFiles (boot.disk.reliable stale) boot.bootSector
      (List.replicate 16 (.overlay fun _ => 0))).1 ≤ 16
  progress : pctStep boot.fileSize ≠ 0
  ends : ∃ exit enough loaded, boot.EndsWith exit enough loaded

section Chain

variable (file : DirEntry)

/-- Cluster `i` of the file by the FAT. -/
def cluster (i : Nat) : BitVec 16 :=
  (fatChain boot.disk boot.bootSector boot.before.partLba
    (file.firstClusterLow, boot.before.cache) i).1

/-- The file goes on at cluster `i`. -/
def Visits (i : Nat) : Prop :=
  (∀ j ≤ i, boot.cluster file j ≠ 0xFFFF) ∧
    i * clusterBytes boot.bootSector < file.fileSize.toNat

/-- A boot sector and a chain with which the reading of the file keeps to its buffers and ends, and
    leaves nothing of a file out that it reports as read. -/
structure Bounded : Prop where
  sectorSize : boot.bootSector.bytesPerSector.toNat ≠ 0
  entry : ∀ i, boot.Visits file i → EntryFits boot.bootSector (boot.cluster file i)
  data : ∀ i, boot.Visits file i →
    DataFits boot.bootSector file.fileSize.toNat (i * clusterBytes boot.bootSector)
  ends : boot.bootSector.sectorsPerCluster.toNat ≠ 0 ∨ ∃ i, boot.cluster file i = 0xFFFF
  whole : file.fileSize.toNat ≤ 512 ∨ boot.bootSector.bytesPerSector.toNat ≤ 512 ∨
    2 ^ 31 ≤ file.fileSize.toNat ∨
    ∃ i, i * clusterBytes boot.bootSector < file.fileSize.toNat ∧ boot.cluster file i = 0xFFFF

end Chain

/-- The state after the reads of the boot sector and the root directory. -/
def opened : State :=
  (boot.before.logged ⟨.bootSector, 2048, 1, true⟩).logged ⟨.rootDirectory, boot.rootSector, 1, true⟩

variable {boot} {file : DirEntry} {fuel : Nat} {stale : Nat → Block} {memory : Memory 32}

/-- The reading of the file. -/
def read (boot : ReliableBoot) (file : DirEntry) (fuel : Nat) (stale : Nat → Block)
    (memory : Memory 32) : Except Stop (Int × State) :=
  fat16ReadFile (boot.disk.reliable stale) boot.bootSector boot.board.programStart
    file.fileSize.toNat fuel file.firstClusterLow (boot.opened.withMemory memory)

theorem run_eq (up : boot.board.storageReady = true) :
    boot.run fuel stale memory =
      match boot.image with
      | none => .ok (.error, boot.opened.withMemory memory)
      | some file =>
          finish boot.board.programStart file.fileSize.toNat (boot.read file fuel stale memory) := by
  have sector : bootSectorRead (boot.disk.reliable stale) (boot.before.withMemory memory) =
      boot.bootSector := bootSectorRead_eq rfl
  have entries : directory (directoryRead (boot.disk.reliable stale)
      (boot.before.withMemory memory)) = directory (boot.disk boot.rootSector) := by
    rw [directoryRead_eq rfl, sector]
    rfl
  have state : afterDirectory (boot.disk.reliable stale) (boot.before.withMemory memory) =
      boot.opened.withMemory memory := by
    unfold afterDirectory
    rw [sector]
    rfl
  rw [run, handlerBoot_eq _ _ up, entries, state, sector]
  rfl

theorem run_down (down : boot.board.storageReady = false) :
    boot.run fuel stale memory = .ok (.error, boot.before.withMemory memory) := by
  rw [run, handlerBoot, down]
  rfl

theorem fileSize_eq (found : boot.image = some file) : boot.fileSize = file.fileSize.toNat := by
  rw [fileSize, found]
  rfl

theorem fileSize_pos (found : boot.image = some file) : 0 < file.fileSize.toNat := by
  have image := List.find?_some found
  simp only [isImage, Bool.and_eq_true, bne_iff_ne] at image
  exact Nat.pos_of_ne_zero fun zero => image.2 (BitVec.eq_of_toNat_eq zero)

theorem read_eq (nonzero : boot.bootSector.bytesPerSector.toNat ≠ 0) :
    boot.read file fuel stale memory =
      readClusters (boot.disk.reliable stale) boot.bootSector boot.board.programStart
        file.fileSize.toNat fuel file.firstClusterLow 0 (boot.opened.withMemory memory) := by
  rw [read, fat16ReadFile, if_neg fun zero => nonzero (congrArg BitVec.toNat zero)]

theorem Visits.before {i j : Nat} (visits : boot.Visits file i) (earlier : j ≤ i) :
    boot.Visits file j := by
  have monotone := Nat.mul_le_mul_right (clusterBytes boot.bootSector) earlier
  exact ⟨fun k below => visits.1 k (Nat.le_trans below earlier), Nat.lt_of_le_of_lt monotone visits.2⟩

/-- The first cluster at which the file does not go on. -/
theorem exists_end {m : Nat} (stops : ¬boot.Visits file m) :
    ∃ n, (∀ i < n, boot.Visits file i) ∧
      (boot.cluster file n = 0xFFFF ∨
        file.fileSize.toNat ≤ n * clusterBytes boot.bootSector) := by
  classical
  have found : ∃ m, ¬boot.Visits file m := ⟨m, stops⟩
  have earlier : ∀ i < Nat.find found, boot.Visits file i :=
    fun i before => not_not.mp (Nat.find_min found before)
  refine ⟨Nat.find found, earlier, ?_⟩
  by_contra goes_on
  rw [not_or, Nat.not_le] at goes_on
  apply Nat.find_spec found
  refine ⟨fun j below => ?_, goes_on.2⟩
  rcases Nat.lt_or_eq_of_le below with before | same
  · exact (earlier j before).1 j (Nat.le_refl _)
  · exact same ▸ goes_on.1

theorem turnFits {i : Nat} (visits : boot.Visits file i)
    (entry : EntryFits boot.bootSector (boot.cluster file i))
    (data : DataFits boot.bootSector file.fileSize.toNat (i * clusterBytes boot.bootSector)) :
    TurnFits boot.bootSector file.fileSize.toNat (boot.cluster file i)
      (0 + i * clusterBytes boot.bootSector) := by
  rw [Nat.zero_add]
  exact ⟨⟨visits.1 i (Nat.le_refl _), visits.2⟩, entry, data⟩

/-- The turns of the loop at the first `n` clusters. -/
theorem turns (nonzero : boot.bootSector.bytesPerSector.toNat ≠ 0) {n : Nat}
    (fits : ∀ i < n, TurnFits boot.bootSector file.fileSize.toNat (boot.cluster file i)
      (0 + i * clusterBytes boot.bootSector)) :
    ∃ after written, TurnsEffect boot.disk boot.bootSector boot.board.programStart
      file.fileSize.toNat file.firstClusterLow 0 boot.opened n after written :=
  readClusters_turns file.fileSize.isLt nonzero (Nat.zero_le _) fits

/-- A result that is the whole size, and not negative, is one of a file of less than 2^31 bytes. -/
theorem finish_whole {size : Nat} (word : size < 2 ^ 32) (addr : BitVec 32) (index : Nat)
    (inside : index ≤ size) (s : State) :
    finish addr size (.ok (int32 index, s)) =
      if index = size ∧ size < 2 ^ 31 then .ok (.handlerRun addr, s) else .ok (.error, s) := by
  rw [finish]
  by_cases complete : index = size ∧ size < 2 ^ 31
  · obtain ⟨rfl, small⟩ := complete
    have positive := int32_of_le small (Nat.le_refl index)
    rw [if_pos ⟨rfl, by omega⟩, if_pos ⟨rfl, small⟩]
  · rw [if_neg complete, if_neg]
    rintro ⟨same, positive⟩
    apply complete
    refine ⟨int32_injective (by omega) word same, ?_⟩
    have value := int32_nonnegative (by omega) positive
    have top : int32 index < 2 ^ 31 := BitVec.toInt_lt
    have equal := int32_injective (by omega) word same
    omega

/-- The run of the loop at the first `n` clusters, if the file ends there. -/
theorem read_turns (nonzero : boot.bootSector.bytesPerSector.toNat ≠ 0) {n : Nat} {after : State}
    {written : Written}
    (effect : TurnsEffect boot.disk boot.bootSector boot.board.programStart file.fileSize.toNat
      file.firstClusterLow 0 boot.opened n after written)
    (ends : boot.cluster file n = 0xFFFF ∨
      file.fileSize.toNat ≤ n * clusterBytes boot.bootSector) (more : n < fuel) :
    boot.read file fuel stale memory =
      .ok (int32 (min (n * clusterBytes boot.bootSector) file.fileSize.toNat : Nat),
        after.withMemory ((written stale).apply memory)) := by
  obtain ⟨rest, rfl⟩ := Nat.exists_eq_add_of_lt more
  have stops : ¬((fatChain boot.disk boot.bootSector boot.opened.partLba
      (file.firstClusterLow, boot.opened.cache) n).1 ≠ 0xFFFF ∧
      min (0 + n * clusterBytes boot.bootSector) file.fileSize.toNat < file.fileSize.toNat) := by
    rintro ⟨goes_on, inside⟩
    rcases ends with last | full
    · exact goes_on last
    · omega
  rw [read_eq nonzero, Nat.add_assoc, effect.ran, readClusters_end stops, Nat.zero_add]

theorem Bounded.exists_end (bounded : boot.Bounded file) :
    ∃ n, (∀ i < n, boot.Visits file i) ∧
      (boot.cluster file n = 0xFFFF ∨
        file.fileSize.toNat ≤ n * clusterBytes boot.bootSector) := by
  rcases bounded.ends with some | ⟨i, last⟩
  · have step : 0 < clusterBytes boot.bootSector := by
      rw [clusterBytes_eq]
      exact Nat.mul_pos (Nat.pos_of_ne_zero some) (Nat.pos_of_ne_zero bounded.sectorSize)
    have stops : ¬boot.Visits file file.fileSize.toNat := fun visits =>
      Nat.not_lt.mpr (Nat.le_mul_of_pos_right _ step) visits.2
    exact ReliableBoot.exists_end stops
  · have stops : ¬boot.Visits file i := fun visits => visits.1 i (Nat.le_refl _) last
    exact ReliableBoot.exists_end stops

/-- A file that is read completely comes from sectors of 512 bytes, or from one of them. -/
theorem Bounded.standard (bounded : boot.Bounded file) (nonempty : 0 < file.fileSize.toNat)
    (small : file.fileSize.toNat < 2 ^ 31) {n : Nat} (visited : ∀ i < n, boot.Visits file i)
    (full : file.fileSize.toNat ≤ n * clusterBytes boot.bootSector) :
    512 ≤ boot.bootSector.bytesPerSector.toNat ∧
      (boot.bootSector.bytesPerSector.toNat = 512 ∨ file.fileSize.toNat ≤ 512) := by
  have large : 512 ≤ boot.bootSector.bytesPerSector.toNat := by
    obtain ⟨last, rfl⟩ : ∃ last, n = last + 1 := Nat.exists_eq_succ_of_ne_zero (by
      rintro rfl
      omega)
    rcases bounded.data last (visited last (Nat.lt_succ_self _)) with large | inside
    · exact large
    · rw [Nat.succ_mul] at full
      have wide : boot.bootSector.sectorsPerCluster.toNat * 512 ≤
          boot.bootSector.sectorsPerCluster.toNat * boot.bootSector.bytesPerSector.toNat := by
        rw [← clusterBytes_eq]
        omega
      refine Nat.le_of_mul_le_mul_left wide (Nat.pos_of_ne_zero fun none => ?_)
      have step := clusterBytes_eq boot.bootSector
      rw [none, Nat.zero_mul] at step
      have visits := (visited last (Nat.lt_succ_self _)).2
      omega
  refine ⟨large, ?_⟩
  rcases bounded.whole with short | narrow | big | ⟨i, inside, last⟩
  · exact .inr short
  · exact .inl (by omega)
  · omega
  · have before : i < n := by
      by_contra after
      have monotone := Nat.mul_le_mul_right (clusterBytes boot.bootSector) (Nat.not_lt.mp after)
      omega
    exact absurd last ((visited i before).1 i (Nat.le_refl _))

theorem Bounded.endsWith (up : boot.board.storageReady = true) (found : boot.image = some file)
    (bounded : boot.Bounded file) : ∃ exit enough loaded, boot.EndsWith exit enough loaded := by
  obtain ⟨n, visited, ends⟩ := bounded.exists_end
  obtain ⟨after, written, effect⟩ := turns bounded.sectorSize fun i before =>
    turnFits (visited i before) (bounded.entry i (visited i before))
      (bounded.data i (visited i before))
  have size := fileSize_eq found
  have ran (fuel : Nat) (more : n < fuel) (stale : Nat → Block) (memory : Memory 32) :
      boot.run fuel stale memory =
        if min (n * clusterBytes boot.bootSector) file.fileSize.toNat = file.fileSize.toNat ∧
            file.fileSize.toNat < 2 ^ 31 then
          .ok (.handlerRun boot.board.programStart,
            after.withMemory ((written stale).apply memory))
        else .ok (.error, after.withMemory ((written stale).apply memory)) := by
    rw [run_eq up, found]
    dsimp only
    rw [read_turns bounded.sectorSize effect ends more,
      finish_whole file.fileSize.isLt _ _ (Nat.min_le_right _ _)]
  have outside (stale : Nat → Block) (memory : Memory 32) (addr : BitVec 32)
      (beyond : boot.fileSize ≤ offset boot.board.programStart addr) :
      (written stale).apply memory addr = memory addr := by
    rw [size] at beyond
    exact Footprint.apply_of_none ((effect.within stale).untouched (.inr beyond))
  by_cases complete : min (n * clusterBytes boot.bootSector) file.fileSize.toNat =
      file.fileSize.toNat ∧ file.fileSize.toNat < 2 ^ 31
  · obtain ⟨large, standard⟩ := bounded.standard (fileSize_pos found) complete.2 visited (by omega)
    obtain ⟨covered, same⟩ := effect.covers large standard
    rw [Nat.zero_add, complete.1] at covered
    refine ⟨.handlerRun boot.board.programStart, n,
      fun i => (written (fun _ _ => 0) (boot.board.programStart + BitVec.ofNat 32 i)).getD 0, ?_⟩
    intro stale memory
    refine ⟨_, fun fuel more => (ran fuel more stale memory).trans (if_pos complete),
      outside stale memory, .inr ⟨rfl, fun i inside => ?_⟩⟩
    rw [size] at inside
    have place : offset boot.board.programStart (boot.board.programStart + BitVec.ofNat 32 i) = i :=
      offset_add _ (by have := file.fileSize.isLt; omega)
    obtain ⟨byte, touched⟩ := Option.isSome_iff_exists.mp
      (covered stale (boot.board.programStart + BitVec.ofNat 32 i) (Nat.zero_le _) (by omega))
    rw [same (fun _ _ => 0) stale]
    change (written stale).apply memory _ =
      (written stale (boot.board.programStart + BitVec.ofNat 32 i)).getD 0
    rw [Footprint.apply, touched]
    rfl
  · refine ⟨.error, n, fun _ => 0, ?_⟩
    intro stale memory
    exact ⟨_, fun fuel more => (ran fuel more stale memory).trans (if_neg complete),
      outside stale memory, .inl rfl⟩

section Ends

variable {exit : BootExit} {enough : Nat} {loaded : Block}

/-- The result of the reading in a command that ends. -/
theorem EndsWith.read (ends : boot.EndsWith exit enough loaded)
    (up : boot.board.storageReady = true) (found : boot.image = some file) (more : enough < fuel)
    (stale : Nat → Block) (memory : Memory 32) :
    ∃ n after, boot.read file fuel stale memory = .ok (n, after) ∧
      finish boot.board.programStart file.fileSize.toNat (.ok (n, after)) = .ok (exit, after) ∧
      (∀ addr, file.fileSize.toNat ≤ offset boot.board.programStart addr →
        after.memory addr = memory addr) ∧
      (exit = .error ∨ exit = .handlerRun boot.board.programStart ∧
        ∀ i < file.fileSize.toNat, after.memory.load boot.board.programStart i = loaded i) := by
  obtain ⟨after, ran, outside, exits⟩ := ends stale memory
  rw [fileSize_eq found] at outside exits
  have result := ran fuel more
  rw [run_eq up, found] at result
  dsimp only at result
  cases read : boot.read file fuel stale memory with
  | error stop =>
      rw [read] at result
      cases result
  | ok outcome =>
      obtain ⟨n, last⟩ := outcome
      rw [read] at result
      have same : last = after := by
        rw [finish] at result
        split at result
        · cases result
          rfl
        · cases result
          rfl
      subst same
      exact ⟨n, last, rfl, result, outside, exits⟩

theorem EndsWith.not_error (ends : boot.EndsWith exit enough loaded)
    (up : boot.board.storageReady = true) (found : boot.image = some file) (more : enough < fuel)
    {stop : Stop} : boot.read file fuel stale memory ≠ .error stop := by
  intro stops
  obtain ⟨n, after, read, -⟩ := ends.read up found more stale memory
  rw [read] at stops
  cases stops

theorem EndsWith.sectorSize (ends : boot.EndsWith exit enough loaded)
    (up : boot.board.storageReady = true) (found : boot.image = some file) :
    boot.bootSector.bytesPerSector.toNat ≠ 0 := by
  intro zero
  have divides : boot.read file (enough + 1) (fun _ _ => 0) (fun _ => 0) = .error .divideByZero := by
    rw [ReliableBoot.read, fat16ReadFile, if_pos (BitVec.eq_of_toNat_eq zero)]
  exact ends.not_error up found (Nat.lt_succ_self _) divides

/-- A run that writes the byte after the file gives it away for some memory. -/
theorem EndsWith.not_overrun (ends : boot.EndsWith exit enough loaded)
    (up : boot.board.storageReady = true) (found : boot.image = some file) (more : enough < fuel)
    {n : Int} {after : State} {written : Footprint 32}
    (touched : (written (boot.board.programStart + BitVec.ofNat 32 file.fileSize.toNat)).isSome)
    (ran : ∀ memory, boot.read file fuel stale memory =
      .ok (n, after.withMemory (written.apply memory))) : False := by
  obtain ⟨byte, wrote⟩ := Option.isSome_iff_exists.mp touched
  have place : offset boot.board.programStart
      (boot.board.programStart + BitVec.ofNat 32 file.fileSize.toNat) = file.fileSize.toNat :=
    offset_add _ file.fileSize.isLt
  obtain ⟨m, last, read, -, outside, -⟩ := ends.read up found more stale fun _ => byte + 1
  rw [ran, Except.ok.injEq, Prod.mk.injEq] at read
  have kept : written.apply (fun _ => byte + 1)
      (boot.board.programStart + BitVec.ofNat 32 file.fileSize.toNat) = byte + 1 := by
    have same := outside _ (Nat.le_of_eq place.symm)
    rw [← read.2] at same
    exact same
  rw [Footprint.apply, wrote] at kept
  have different : byte ≠ byte + 1 := by
    intro same
    have zero : (1 : Byte) = 0 := BitVec.self_eq_add_right.mp same
    exact absurd zero (by decide)
  exact different kept

/-- Every visited cluster keeps to the buffers. -/
theorem EndsWith.fits (ends : boot.EndsWith exit enough loaded)
    (up : boot.board.storageReady = true) (found : boot.image = some file) (i : Nat)
    (visits : boot.Visits file i) :
    EntryFits boot.bootSector (boot.cluster file i) ∧
      DataFits boot.bootSector file.fileSize.toNat (i * clusterBytes boot.bootSector) := by
  induction i using Nat.strong_induction_on with
  | _ i induction_hypothesis =>
      have nonzero := ends.sectorSize up found
      have earlier : ∀ j < i, TurnFits boot.bootSector file.fileSize.toNat (boot.cluster file j)
          (0 + j * clusterBytes boot.bootSector) := by
        intro j before
        have visited := visits.before (Nat.le_of_lt before)
        have fits := induction_hypothesis j before visited
        exact turnFits visited fits.1 fits.2
      obtain ⟨middle, written, effect⟩ := turns nonzero earlier
      have start : min (0 + i * clusterBytes boot.bootSector) file.fileSize.toNat =
          i * clusterBytes boot.bootSector := by
        have inside := visits.2
        omega
      have cluster : (fatChain boot.disk boot.bootSector boot.opened.partLba
          (file.firstClusterLow, boot.opened.cache) i).1 = boot.cluster file i := rfl
      have reading (fuel : Nat) (stale : Nat → Block) (memory : Memory 32) :
          boot.read file (i + fuel) stale memory =
            readClusters (boot.disk.reliable stale) boot.bootSector boot.board.programStart
              file.fileSize.toNat fuel (boot.cluster file i) (i * clusterBytes boot.bootSector)
              (middle.withMemory ((written stale).apply memory)) := by
        rw [read_eq nonzero, effect.ran, start, cluster]
      rcases @readClusters_turnEffect boot.disk boot.bootSector boot.board.programStart
        file.fileSize.toNat (i * clusterBytes boot.bootSector) (boot.cluster file i) middle
        file.fileSize.isLt nonzero ⟨visits.1 i (Nat.le_refl _), visits.2⟩ with
        ⟨-, stops⟩ | ⟨entry, index, next, turn, step⟩
      · have stopped := (reading (enough + 1) (fun _ _ => 0) (fun _ => 0)).trans (stops _ _ _)
        exact absurd stopped (ends.not_error up found (by omega))
      · refine ⟨entry, ?_⟩
        by_contra exceeds
        have touched := step.writes.overrun exceeds fun _ _ => 0
        rcases @readClusters_effect boot.disk boot.bootSector boot.board.programStart
          file.fileSize.toNat index
          (fatLookup boot.disk boot.bootSector middle.partLba (boot.cluster file i, middle.cache)).1
          next file.fileSize.isLt nonzero enough with ⟨stop, stops⟩ | ⟨n, last, rest, ran⟩
        · have stopped := (reading (enough + 1) (fun _ _ => 0) (fun _ => 0)).trans
            ((step.ran enough _ _).trans (stops _ _))
          exact ends.not_error up found (by omega) stopped
        · have total (memory : Memory 32) : boot.read file (i + (enough + 1)) (fun _ _ => 0) memory =
              .ok (n, last.withMemory (((written.andThen turn).andThen rest
                (fun _ _ => 0)).apply memory)) := by
            rw [reading, step.ran, ran, Written.andThen, Written.andThen, Footprint.apply_andThen,
              Footprint.apply_andThen]
          refine ends.not_overrun up found (by omega) ?_ total
          rw [Written.andThen, Written.andThen, Footprint.isSome_andThen, Footprint.isSome_andThen,
            touched, Bool.true_or, Bool.or_true]

theorem EndsWith.ends (ends : boot.EndsWith exit enough loaded)
    (up : boot.board.storageReady = true) (found : boot.image = some file) :
    boot.bootSector.sectorsPerCluster.toNat ≠ 0 ∨ ∃ i, boot.cluster file i = 0xFFFF := by
  by_contra endless
  simp only [not_or, not_not, not_exists] at endless
  have step : clusterBytes boot.bootSector = 0 := by
    rw [clusterBytes_eq, endless.1, Nat.zero_mul]
  have visits (i : Nat) : boot.Visits file i := by
    refine ⟨fun j _ => endless.2 j, ?_⟩
    rw [step, Nat.mul_zero]
    exact fileSize_pos found
  have nonzero := ends.sectorSize up found
  have fits : ∀ i < enough + 1, TurnFits boot.bootSector file.fileSize.toNat (boot.cluster file i)
      (0 + i * clusterBytes boot.bootSector) := fun i _ =>
    turnFits (visits i) (ends.fits up found i (visits i)).1 (ends.fits up found i (visits i)).2
  obtain ⟨after, written, effect⟩ := turns nonzero fits
  have spent : boot.read file (enough + 1) (fun _ _ => 0) (fun _ => 0) = .error .outOfFuel :=
    (read_eq nonzero).trans (effect.ran 0 _ _)
  exact ends.not_error up found (Nat.lt_succ_self _) spent

theorem EndsWith.bounded (ends : boot.EndsWith exit enough loaded)
    (up : boot.board.storageReady = true) (found : boot.image = some file) : boot.Bounded file where
  sectorSize := ends.sectorSize up found
  entry i visits := (ends.fits up found i visits).1
  data i visits := (ends.fits up found i visits).2
  ends := ends.ends up found
  whole := by
    by_contra left_out
    simp only [not_or, not_exists, not_and, Nat.not_le] at left_out
    obtain ⟨long, wide, small, goes_on⟩ := left_out
    have nonzero := ends.sectorSize up found
    have some : boot.bootSector.sectorsPerCluster.toNat ≠ 0 := by
      rcases ends.ends up found with some | ⟨i, last⟩
      · exact some
      · intro none
        apply goes_on i _ last
        rw [clusterBytes_eq, none, Nat.zero_mul, Nat.mul_zero]
        omega
    have step : 0 < clusterBytes boot.bootSector := by
      rw [clusterBytes_eq]
      exact Nat.mul_pos (Nat.pos_of_ne_zero some) (Nat.pos_of_ne_zero nonzero)
    have stops : ¬boot.Visits file file.fileSize.toNat := fun visits =>
      Nat.not_lt.mpr (Nat.le_mul_of_pos_right _ step) visits.2
    obtain ⟨n, visited, last⟩ := exists_end stops
    have full : file.fileSize.toNat ≤ n * clusterBytes boot.bootSector := by
      by_contra inside
      rcases last with last | full
      · exact goes_on n (by omega) last
      · exact inside full
    have fits : ∀ i < n, TurnFits boot.bootSector file.fileSize.toNat (boot.cluster file i)
        (0 + i * clusterBytes boot.bootSector) := fun i before =>
      turnFits (visited i before) (ends.fits up found i (visited i before)).1
        (ends.fits up found i (visited i before)).2
    obtain ⟨after, written, effect⟩ := turns nonzero fits
    have read (stale : Nat → Block) (memory : Memory 32) :=
      @read_turns boot file (n + enough + 1) stale memory nonzero n after written effect last
        (by omega)
    -- any byte can be left at the place that no block fills, but the file has one byte there
    obtain ⟨k, inside, free⟩ := effect.gap (by rintro rfl; omega) wide (by omega) some
    obtain ⟨stale, memory, differs⟩ := free (loaded k + 1)
    have late : enough < n + enough + 1 := by omega
    obtain ⟨m, result, same, finished, -, exits⟩ := ends.read up found late stale memory
    rw [read stale memory, Except.ok.injEq, Prod.mk.injEq] at same
    have whole : min (n * clusterBytes boot.bootSector) file.fileSize.toNat =
        file.fileSize.toNat := by omega
    rw [← same.1, finish_whole file.fileSize.isLt _ _ (Nat.min_le_right _ _),
      if_pos ⟨whole, small⟩, Except.ok.injEq, Prod.mk.injEq] at finished
    rcases exits with failed | ⟨-, contents⟩
    · rw [failed] at finished
      cases finished.1
    · have byte := contents k inside
      rw [← same.2] at byte
      have equal : loaded k = loaded k + 1 := byte.symm.trans differs
      have zero : (1 : Byte) = 0 := BitVec.self_eq_add_right.mp equal
      exact absurd zero (by decide)

end Ends

theorem listed_le (stale : Nat → Block) (s : State) :
    (s.fat16ListFiles (boot.disk.reliable stale) boot.bootSector
      (List.replicate 16 (.overlay fun _ => 0))).1 ≤ 16 := by
  rw [State.fat16ListFiles]
  dsimp only
  rw [listEntries_count, Nat.zero_add]
  refine Nat.le_trans (List.length_filter_le _ _) ?_
  rw [List.length_map, List.length_range]

theorem pctStep_ne_zero (bufferSize : Nat) : pctStep bufferSize ≠ 0 := by
  unfold pctStep
  split
  · decide
  · assumption

end ReliableBoot

/-- The boot command is safe on a disk with any contents exactly if its boot sector and the chain of
    IMAGE.BIN are bounded. -/
theorem boot_safe_iff (boot : ReliableBoot) :
    boot.Safe ↔ (boot.board.storageReady = true →
      ∀ file, boot.image = some file → boot.Bounded file) := by
  constructor
  · rintro ⟨-, -, exit, enough, loaded, ends⟩ up file found
    exact ends.bounded up found
  · intro bounded
    refine ⟨ReliableBoot.listed_le, ReliableBoot.pctStep_ne_zero _, ?_⟩
    cases up : boot.board.storageReady with
    | false =>
        exact ⟨.error, 0, fun _ => 0, fun stale memory =>
          ⟨_, fun fuel _ => ReliableBoot.run_down up, fun _ _ => rfl, .inl rfl⟩⟩
    | true =>
        cases found : boot.image with
        | none =>
            refine ⟨.error, 0, fun _ => 0, fun stale memory =>
              ⟨boot.opened.withMemory memory, fun fuel _ => ?_, fun _ _ => rfl, .inl rfl⟩⟩
            rw [ReliableBoot.run_eq up, found]
        | some file => exact (bounded up file found).endsWith up found

/-- The entry of cluster 512 is at byte 1024 of a sector of the FAT. -/
def largeSectors : ReliableBoot where
  board := { programStart := 0x400, storageReady := true }
  disk := fun sector i =>
    if sector = 2048 then if i = 12 then 8 else if i = 13 ∨ i = 14 then 1 else 0
    else if sector = 2049 then
      if i < 11 then (cString "IMAGE   BIN").getD i 0
      else if i = 27 then 2
      else if i = 29 then 16
      else 0
    else 0
  before := { memory := fun _ => 0, cache := .empty, partLba := 2048, reads := [] }

theorem large_sectors_not_safe :
    largeSectors.bootSector.bytesPerSector = 2048 ∧ ¬largeSectors.Safe := by
  refine ⟨by decide, ?_⟩
  rintro ⟨-, -, exit, enough, loaded, ends⟩
  have found : largeSectors.image =
      some (directoryEntry (largeSectors.disk 2049) 0) := by decide +kernel
  have visits : largeSectors.Visits (directoryEntry (largeSectors.disk 2049) 0) 0 := by
    refine ⟨fun j first => ?_, by decide +kernel⟩
    obtain rfl := Nat.le_zero.mp first
    decide +kernel
  exact absurd (ends.fits rfl found 0 visits).1 (by decide +kernel)

end Mackerel.Bootloader
