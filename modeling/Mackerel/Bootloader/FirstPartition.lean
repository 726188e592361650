import Mackerel.Bootloader.Autoboot
import Mackerel.Fat16.Addresses
import Mackerel.Fat16.Partition
import Mackerel.Bootloader.Sessions

namespace Mackerel.Bootloader

open Bytes Bytes.Memory Fat16

/-- `handler_boot`, or `autoboot` with the results of its polls for a key. -/
inductive Way where
  | handlerBoot
  | autoboot (keys : Nat → Bool)

def Way.cancelled : Way → Bool
  | handlerBoot => false
  | autoboot keys => countdownCancelled keys

/-- The address to which an ended command jumps. -/
def BootExit.target : BootExit → Option (BitVec 32)
  | error => none
  | handlerRun addr => some addr

def AutobootExit.target : AutobootExit → Option (BitVec 32)
  | handlerRun addr => some addr
  | _ => none

structure DiskBoot where
  way : Way
  board : Board
  medium : Medium

namespace DiskBoot

def run (boot : DiskBoot) (fuel : Nat) (before : State) :
    Except Stop (Option (BitVec 32) × State) :=
  match boot.way with
  | .handlerBoot =>
      (handlerBoot boot.board boot.medium fuel before).map fun (exit, s) => (exit.target, s)
  | .autoboot keys =>
      (autoboot boot.board boot.medium fuel keys before).map fun (exit, s) => (exit.target, s)

end DiskBoot

/-- The variables of `fat16.c` at power-up. -/
def powerUp (memory : Memory 32) : State where
  memory
  cache := .empty
  partLba := 2048
  reads := []

/-- The states in which a command can begin, after commands with some media. What runs in between
    leaves the static variables alone. -/
inductive Reachable : List Medium → State → Prop where
  | powerUp (memory : Memory 32) : Reachable [] (powerUp memory)
  | again {media : List Medium} {before after : State} {boot : DiskBoot} {fuel : Nat}
      {target : Option (BitVec 32)} (memory : Memory 32) (reachable : Reachable media before)
      (ran : boot.run fuel before = .ok (target, after)) :
      Reachable (boot.medium :: media) { after with memory, reads := [] }

/-- IMAGE.BIN on the FAT16 volume in the partition that starts at `p`. -/
structure PartitionImage (disk : Disk) (p : BitVec 32) where
  volume : Volume
  entry : DirEntry
  chain : List (BitVec 16)
  partLba : volume.partLba = p
  bootSector : volume.bootSector = bswapBootSector (.overlay (disk p.toNat))
  found : (directory (disk (rootDirSector volume.bootSector p))).find? isImage = some entry
  chained : volume.Chain disk chain entry.firstClusterLow entry.fileSize.toNat
  small : entry.fileSize.toNat < 2 ^ 31

namespace DiskBoot

variable (boot : DiskBoot)

/-- The boot sector of a partition, as its read delivers it. -/
def bootSectorAt (p : BitVec 32) : BootSector :=
  bswapBootSector (.overlay
    (boot.medium.disk.transfer (boot.medium.faults 0) p.toNat 1 (boot.medium.stale 0)))

/-- The disk is the only one so far, and every read has succeeded. -/
def Undisturbed (media : List Medium) : Prop :=
  ∀ medium ∈ boot.medium :: media,
    medium.disk = boot.medium.disk ∧ ∀ call, medium.faults call = none

/-- A boot from the partition that starts at `p`. -/
structure FromPartition (p : BitVec 32) (media : List Medium) (before : State) : Prop where
  bootSector : ∀ fuel target after, boot.run fuel before = .ok (target, after) →
    ∃ ok rest, after.reads = { purpose := .bootSector, lba := p.toNat, count := 1, ok } :: rest
  relative : ∀ fuel target after, boot.run fuel before = .ok (target, after) →
    ∀ call ∈ after.reads, RelativeTo p (boot.bootSectorAt p) call
  image : boot.Undisturbed media → boot.way.cancelled = false →
    ∀ image : PartitionImage boot.medium.disk p, ∃ after enough,
      (∀ fuel, enough < fuel →
        boot.run fuel before = .ok (some boot.board.programStart, after)) ∧
      ∀ i, i < image.entry.fileSize.toNat →
        after.memory.load boot.board.programStart i =
          image.volume.chainByte boot.medium.disk image.chain i

variable {boot}

theorem run_eq (up : boot.board.storageReady = true) (fuel : Nat) (before : State) :
    boot.run fuel before =
      match (directory (directoryRead boot.medium before)).find? isImage with
      | none => .ok (none, afterDirectory boot.medium before)
      | some file =>
          if boot.way.cancelled then .ok (none, afterDirectory boot.medium before)
          else
            (finish boot.board.programStart file.fileSize.toNat
              (fat16ReadFile boot.medium (bootSectorRead boot.medium before) boot.board.programStart
                file.fileSize.toNat fuel file.firstClusterLow
                (afterDirectory boot.medium before))).map fun (exit, s) => (exit.target, s) := by
  have manual := handlerBoot_eq boot.medium before up fuel
  unfold run
  cases way : boot.way with
  | handlerBoot =>
      dsimp only
      rw [manual]
      cases (directory (directoryRead boot.medium before)).find? isImage with
      | none => rfl
      | some file => rfl
  | autoboot keys =>
      have cancels : (Way.autoboot keys).cancelled = countdownCancelled keys := rfl
      dsimp only
      rw [autoboot_eq boot.medium before up, manual, cancels]
      cases (directory (directoryRead boot.medium before)).find? isImage with
      | none => rfl
      | some file =>
          dsimp only
          by_cases cancelled : countdownCancelled keys = true
          · rw [if_pos cancelled, if_pos cancelled]
            rfl
          · rw [if_neg cancelled, if_neg cancelled]
            rcases finish _ _ _ with stop | ⟨exit, s⟩
            · rfl
            · cases exit <;> rfl

theorem run_down (down : boot.board.storageReady = false) {fuel : Nat} {before after : State}
    {target : Option (BitVec 32)} (ran : boot.run fuel before = .ok (target, after)) :
    target = none ∧ after = before := by
  unfold run at ran
  cases way : boot.way with
  | handlerBoot =>
      rw [way] at ran
      simp only [handlerBoot, down, Bool.not_false, if_true] at ran
      cases ran
      exact ⟨rfl, rfl⟩
  | autoboot keys =>
      rw [way] at ran
      simp only [autoboot, down, Bool.not_false, if_true] at ran
      cases ran
      exact ⟨rfl, rfl⟩

/-- What a command adds to the log and does with the FAT cache, on a board whose storage is up. -/
theorem run_cases (up : boot.board.storageReady = true) {fuel : Nat} {before after : State}
    {target : Option (BitVec 32)} (ran : boot.run fuel before = .ok (target, after)) :
    Extends (Served boot.medium before.partLba (bootSectorRead boot.medium before))
        (afterDirectory boot.medium before) after ∧
      ((∀ call, boot.medium.faults call = none) →
        after.cache = before.cache ∨ after.cache.Mirrors boot.medium.disk) := by
  rw [run_eq up] at ran
  cases found : (directory (directoryRead boot.medium before)).find? isImage with
  | none =>
      rw [found] at ran
      cases ran
      exact ⟨.refl _, fun _ => .inl rfl⟩
  | some file =>
      rw [found] at ran
      dsimp only at ran
      by_cases cancelled : boot.way.cancelled = true
      · rw [if_pos cancelled] at ran
        cases ran
        exact ⟨.refl _, fun _ => .inl rfl⟩
      · rw [if_neg cancelled] at ran
        cases ended : finish boot.board.programStart file.fileSize.toNat
            (fat16ReadFile boot.medium (bootSectorRead boot.medium before) boot.board.programStart
              file.fileSize.toNat fuel file.firstClusterLow
              (afterDirectory boot.medium before)) with
        | error stop =>
            rw [ended] at ran
            cases ran
        | ok outcome =>
            obtain ⟨exit, last⟩ := outcome
            rw [ended] at ran
            cases ran
            obtain ⟨n, read⟩ := finish_ok ended
            exact ⟨fat16ReadFile_extends read, fun reliable => fat16ReadFile_cache reliable read⟩

end DiskBoot

/-- No command changes where the partition is taken to start. -/
theorem Reachable.mounted {media : List Medium} {before : State}
    (reachable : Reachable media before) : before.partLba = 2048 ∧ before.reads = [] := by
  induction reachable with
  | powerUp memory => exact ⟨rfl, rfl⟩
  | @again media before after boot fuel target memory _ ran induction_hypothesis =>
      refine ⟨?_, rfl⟩
      dsimp only
      by_cases up : boot.board.storageReady = true
      · exact (DiskBoot.run_cases up ran).1.partLba.trans induction_hypothesis.1
      · rw [Bool.not_eq_true] at up
        rw [(DiskBoot.run_down up ran).2, induction_hypothesis.1]

/-- On one disk without a failed read the cache never holds anything else. -/
theorem Reachable.ready {media : List Medium} {before : State} {disk : Disk}
    (reachable : Reachable media before)
    (undisturbed : ∀ medium ∈ media, medium.disk = disk ∧ ∀ call, medium.faults call = none) :
    before.cache.Ready disk := by
  induction reachable with
  | powerUp memory => exact .inl rfl
  | @again media before after boot fuel target memory _ ran induction_hypothesis =>
      rw [List.forall_mem_cons] at undisturbed
      have earlier := induction_hypothesis undisturbed.2
      by_cases up : boot.board.storageReady = true
      · rcases (DiskBoot.run_cases up ran).2 undisturbed.1.2 with kept | mirrors
        · rw [← kept] at earlier
          exact earlier
        · rw [undisturbed.1.1] at mirrors
          exact .inr mirrors
      · rw [Bool.not_eq_true] at up
        rw [(DiskBoot.run_down up ran).2]
        exact earlier

namespace DiskBoot

variable {boot : DiskBoot} {media : List Medium} {before : State}

theorem run_log (up : boot.board.storageReady = true) (reachable : Reachable media before)
    {fuel : Nat} {target : Option (BitVec 32)} {after : State}
    (ran : boot.run fuel before = .ok (target, after)) :
    ∃ calls, after.reads =
        { purpose := .bootSector, lba := 2048, count := 1, ok := (boot.medium.faults 0).isNone } ::
          { purpose := .rootDirectory, lba := rootDirSector (boot.bootSectorAt 2048) 2048, count := 1
            ok := (boot.medium.faults 1).isNone } :: calls ∧
      ∀ call ∈ calls, Served boot.medium 2048 (boot.bootSectorAt 2048) call := by
  obtain ⟨mounted, fresh⟩ := reachable.mounted
  have opening : bootSectorRead boot.medium before = boot.bootSectorAt 2048 := by
    unfold bootSectorRead bootSectorAt
    rw [fresh]
    rfl
  obtain ⟨calls, log, served⟩ := (run_cases up ran).1.log
  rw [mounted, opening] at served
  refine ⟨calls, ?_, served⟩
  rw [log, afterDirectory, afterBootSector, mounted, opening, fresh]
  rfl

/-- The image of the partition is loaded if the partition is where the commands look for it. -/
theorem run_image (up : boot.board.storageReady = true) (reachable : Reachable media before)
    (undisturbed : boot.Undisturbed media) (counted : boot.way.cancelled = false)
    (image : PartitionImage boot.medium.disk 2048) :
    ∃ after enough,
      (∀ fuel, enough < fuel →
        boot.run fuel before = .ok (some boot.board.programStart, after)) ∧
      ∀ i, i < image.entry.fileSize.toNat →
        after.memory.load boot.board.programStart i =
          image.volume.chainByte boot.medium.disk image.chain i := by
  obtain ⟨mounted, fresh⟩ := reachable.mounted
  unfold Undisturbed at undisturbed
  rw [List.forall_mem_cons] at undisturbed
  have ready := reachable.ready undisturbed.2
  have reliable := undisturbed.1.2
  have sectorSize := image.volume.sectorSize
  rw [image.bootSector] at sectorSize
  let volume : BootVolume := ⟨boot.medium.disk, sectorSize⟩
  have bootSector : bootSectorRead boot.medium before = volume.fat.bootSector :=
    volume.bootSectorRead_present rfl (reliable _)
  have directoryFound : directory (directoryRead boot.medium before) =
      directory (volume.disk volume.rootSector) :=
    volume.directoryRead_present rfl mounted (reliable _) (reliable _)
  have same : volume.fat.bootSector = image.volume.bootSector := image.bootSector.symm
  have found : (directory (volume.disk volume.rootSector)).find? isImage = some image.entry := by
    unfold BootVolume.rootSector
    rw [same]
    exact image.found
  obtain ⟨result, after, calls, walked, walk⟩ :=
    readClusters_walk boot.medium boot.board.programStart image.entry.fileSize.isLt
      (afterDirectory boot.medium before) (Nat.zero_le _) image.chained
      (mounted.trans image.partLba.symm) ready
  have read (fuel : Nat) (enough : image.chain.length + 1 < fuel) :
      fat16ReadFile boot.medium image.volume.bootSector boot.board.programStart
        image.entry.fileSize.toNat fuel image.entry.firstClusterLow
        (afterDirectory boot.medium before) = .ok (returned result, after) := by
    rw [fat16ReadFile_eq]
    exact walked fuel enough
  have succeeded : ∀ call ∈ calls, call.ok = true := by
    obtain ⟨served, log, all⟩ := (fat16ReadFile_extends (read _ (Nat.lt_succ_self _))).log
    intro call member
    rw [walk.log, List.append_cancel_left_eq] at log
    by_contra failed
    obtain ⟨k, fault⟩ := (all call (log ▸ member)).outcome (Bool.eq_false_iff.mpr failed)
    exact fault (reliable k)
  obtain rfl := walk.ending.complete_of_ok succeeded
  refine ⟨after, image.chain.length + 1, ?_, ?_⟩
  · intro fuel enough
    rw [run_eq up, directoryFound, found, bootSector, same]
    dsimp only
    have whole : returned (some image.entry.fileSize.toNat) = int32 image.entry.fileSize.toNat := rfl
    have positive := int32_of_le image.small (Nat.le_refl _)
    rw [if_neg (ne_true_of_eq_false counted), read fuel enough, whole, finish,
      if_pos ⟨rfl, by omega⟩]
    rfl
  · intro i inside
    exact walk.load image.entry.fileSize.isLt inside

end DiskBoot

/-- A boot command that returns is a boot from the first FAT16 partition exactly if that partition
    starts at LBA 2048. -/
theorem boot_first_partition_iff {boot : DiskBoot} {media : List Medium} {before : State}
    {p : BitVec 32} (partition : FirstFat16 (boot.medium.disk 0) p)
    (reachable : Reachable media before) (up : boot.board.storageReady = true)
    (returns : ∃ fuel outcome, boot.run fuel before = .ok outcome) :
    boot.FromPartition p media before ↔ p = 2048 := by
  constructor
  · intro from_
    obtain ⟨fuel, ⟨target, after⟩, ran⟩ := returns
    obtain ⟨ok, rest, log⟩ := from_.bootSector fuel target after ran
    obtain ⟨calls, actual, -⟩ := DiskBoot.run_log up reachable ran
    rw [actual, List.cons.injEq] at log
    have lba := congrArg ReadCall.lba log.1
    apply BitVec.eq_of_toNat_eq
    exact lba.symm
  · rintro rfl
    refine ⟨?_, ?_, fun undisturbed counted image =>
      DiskBoot.run_image up reachable undisturbed counted image⟩
    · intro fuel target after ran
      obtain ⟨calls, log, -⟩ := DiskBoot.run_log up reachable ran
      exact ⟨_, _, log⟩
    · intro fuel target after ran
      obtain ⟨calls, log, served⟩ := DiskBoot.run_log up reachable ran
      rw [log, List.forall_mem_cons, List.forall_mem_cons]
      exact ⟨rfl, rfl, fun call member => (served call member).relative⟩

/-- The volume of `twoClusters` in a partition that starts below LBA 65536. -/
def partitioned (p : Nat) : Disk := fun sector i =>
  if sector = 0 then
    if i = 0x1C2 then 0x06
    else if i = 0x1C6 then BitVec.ofNat 8 p
    else if i = 0x1C7 then BitVec.ofNat 8 (p / 256)
    else if i = 510 then 0x55
    else if i = 511 then 0xAA
    else 0
  else if p ≤ sector then twoClusters 4 (sector - p + 2048) i
  else 0

def bootPartitioned (p : Nat) : DiskBoot where
  way := .handlerBoot
  board := { programStart := 0x400, storageReady := true }
  medium := { disk := partitioned p, faults := fun _ => none, stale := fun _ _ => 0 }

theorem partitioned_first {p : Nat} (start : p = 63 ∨ p = 2048) :
    FirstFat16 (partitioned p 0) (BitVec.ofNat 32 p) := by
  rcases start with rfl | rfl
  · exact ⟨⟨by decide, by decide⟩, 0, by decide, by decide, by decide, by decide⟩
  · exact ⟨⟨by decide, by decide⟩, 0, by decide, by decide, by decide, by decide⟩

theorem partition_booted :
    (bootPartitioned 2048).FromPartition 2048 [] (powerUp fun _ => 0) := by
  refine (boot_first_partition_iff (partitioned_first (.inr rfl)) (.powerUp _) rfl ?_).mpr rfl
  have evaluated : ((bootPartitioned 2048).run 3 (powerUp fun _ => 0)).toOption.isSome = true := by
    decide +kernel
  cases ran : (bootPartitioned 2048).run 3 (powerUp fun _ => 0) with
  | error stop =>
      rw [ran] at evaluated
      cases evaluated
  | ok outcome => exact ⟨3, outcome, ran⟩

def partitionedVolume : Volume where
  bootSector := bswapBootSector (.overlay (partitioned 63 63))
  partLba := 63
  sectorSize := by decide

theorem partitionedVolume_chain :
    partitionedVolume.Chain (partitioned 63) [2, 4] secondEntry.firstClusterLow
      secondEntry.fileSize.toNat where
  starts := by
    intro cluster member
    cases member
    decide +kernel
  fits := by
    intro cluster member
    rcases List.mem_pair.mp member with rfl | rfl
    · exact ⟨by decide, by decide, by decide +kernel, by decide +kernel⟩
    · exact ⟨by decide, by decide, by decide +kernel, by decide +kernel⟩
  linked := by
    rw [List.isChain_cons_cons]
    exact ⟨by decide +kernel, .singleton _⟩
  enough := by decide +kernel

def partitionedImage : PartitionImage (partitioned 63) 63 where
  volume := partitionedVolume
  entry := secondEntry
  chain := [2, 4]
  partLba := rfl
  bootSector := rfl
  found := by decide +kernel
  chained := partitionedVolume_chain
  small := by decide +kernel

/-- With the partition at LBA 63 the command finds no image. -/
theorem other_partition_not_booted :
    FirstFat16 (partitioned 63 0) 63 ∧ Nonempty (PartitionImage (partitioned 63) 63) ∧
      ¬(bootPartitioned 63).FromPartition 63 [] (powerUp fun _ => 0) := by
  refine ⟨partitioned_first (.inl rfl), ⟨partitionedImage⟩, ?_⟩
  intro from_
  have undisturbed : (bootPartitioned 63).Undisturbed [] := by
    intro medium member
    rw [List.mem_singleton.mp member]
    exact ⟨rfl, fun _ => rfl⟩
  obtain ⟨after, enough, runs, -⟩ := from_.image undisturbed rfl partitionedImage
  have ran := runs (enough + 1) (Nat.lt_succ_self _)
  have absent : (directory (directoryRead (bootPartitioned 63).medium
      (powerUp fun _ => 0))).find? isImage = none := by decide +kernel
  rw [DiskBoot.run_eq rfl, absent] at ran
  cases ran

end Mackerel.Bootloader
