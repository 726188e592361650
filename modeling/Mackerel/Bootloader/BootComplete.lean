import Mackerel.Bootloader.ImageFile

namespace Mackerel.Bootloader

open Bytes Bytes.Memory Fat16

/-- A disk with a FAT16 volume at the sector that `handler_boot` reads. -/
structure BootVolume where
  disk : Disk
  sectorSize : (bswapBootSector (.overlay (disk 2048))).bytesPerSector = 512

namespace BootVolume

variable (volume : BootVolume)

def fat : Volume where
  bootSector := bswapBootSector (.overlay (volume.disk 2048))
  partLba := 2048
  sectorSize := volume.sectorSize

def rootSector : Nat := rootDirSector volume.fat.bootSector 2048

/-- The entry of IMAGE.BIN in the root-directory sector. -/
def image : Option DirEntry := (directory (volume.disk volume.rootSector)).find? isImage

end BootVolume

/-- The clusters of IMAGE.BIN, if the disk has the file. -/
structure BootDisk extends BootVolume where
  chain : List (BitVec 16)
  linked : ∀ entry, toBootVolume.image = some entry →
    toBootVolume.fat.Chain disk chain entry.firstClusterLow entry.fileSize.toNat

/-- One `boot` command. The FAT cache is as at power-up or holds the sector of its tag. -/
structure BootCommand where
  board : Board
  disk : BootDisk
  faults : Nat → Option Garbage
  stale : Nat → Block
  before : State
  mounted : before.partLba = 2048
  ready : before.cache.Ready disk.disk

namespace BootCommand

def medium (boot : BootCommand) : Medium where
  disk := boot.disk.disk
  faults := boot.faults
  stale := boot.stale

def fails (boot : BootCommand) (k : Nat) : Bool := (boot.faults (boot.before.reads.length + k)).isSome

/-- The image has been read completely and correctly. A FAT lookup that follows the last needed
    sector is not used. -/
structure ImageRead (boot : BootCommand) (entry : DirEntry) (memory : Memory 32)
    (used unused : List ReadCall) : Prop where
  image : boot.disk.image = some entry
  bootSector : ∃ call ∈ used, call.purpose = .bootSector ∧ call.lba = 2048
  directory : ∃ call ∈ used, call.purpose = .rootDirectory ∧ call.lba = boot.disk.rootSector
  succeeded : ∀ call ∈ used, call.ok = true
  whole : entry.fileSize.toNat ≤ 512 * sectorsRead used
  lookup : unused.length ≤ 1 ∧ ∀ call ∈ unused, call.purpose = .fat
  contents : ∀ i, i < entry.fileSize.toNat →
    memory.load boot.board.programStart i = boot.disk.fat.chainByte boot.disk.disk boot.disk.chain i

/-- The command ends in an error return, or in the image, completely read. -/
def Correct (boot : BootCommand) : Prop :=
  ∃ exit after calls enough,
    (∀ fuel, enough < fuel →
      handlerBoot boot.board boot.medium fuel boot.before = .ok (exit, after)) ∧
    after.reads = boot.before.reads ++ calls ∧
    (exit = .error ∨
      exit = .handlerRun boot.board.programStart ∧
        ∃ entry used unused, calls = used ++ unused ∧
          boot.ImageRead entry after.memory used unused)

end BootCommand

section Loading

variable {board : Board} {medium : Medium} {before : State}

/-- What `fat16_read_boot_sector` leaves in `boot_sector`. -/
def bootSectorRead (medium : Medium) (before : State) : BootSector :=
  let call := before.reads.length
  bswapBootSector (.overlay (medium.disk.transfer (medium.faults call) 2048 1 (medium.stale call)))

/-- What `fat16_list_files` reads the root directory into. -/
def directoryRead (medium : Medium) (before : State) : Block :=
  let call := before.reads.length + 1
  medium.disk.transfer (medium.faults call)
    (rootDirSector (bootSectorRead medium before) before.partLba) 1 (medium.stale call)

/-- The state after the first read, and after both. -/
def afterBootSector (medium : Medium) (before : State) : State :=
  { before with
    reads := before.reads ++
      [{ purpose := .bootSector, lba := 2048, count := 1
         ok := (medium.faults before.reads.length).isNone }] }

def afterDirectory (medium : Medium) (before : State) : State :=
  { before with
    reads := (afterBootSector medium before).reads ++
      [{ purpose := .rootDirectory
         lba := rootDirSector (bootSectorRead medium before) before.partLba, count := 1
         ok := (medium.faults (before.reads.length + 1)).isNone }] }

theorem fat16ReadBootSector_eq :
    before.fat16ReadBootSector medium 2048 =
      (bootSectorRead medium before, afterBootSector medium before) := rfl

theorem fat16ListFiles_eq (filesList : List DirEntry) :
    (afterBootSector medium before).fat16ListFiles medium (bootSectorRead medium before) filesList =
      let listed := listEntries (directory (directoryRead medium before)) 0 filesList
      (listed.1, listed.2, afterDirectory medium before) := by
  have call : (afterBootSector medium before).reads.length = before.reads.length + 1 := by
    simp [afterBootSector]
  unfold State.fat16ListFiles State.readLocal
  rw [call]
  rfl

/-- The end of the command, from the result of `fat16_read_file`. -/
def finish (programStart : BitVec 32) (size : Nat) :
    Except Stop (Int × State) → Except Stop (BootExit × State)
  | .error stop => .error stop
  | .ok (n, s) =>
      if n = int32 size ∧ 0 ≤ n then .ok (.handlerRun programStart, s) else .ok (.error, s)

/-- `load_named_file` on the entry that it takes, and the check of its result. -/
theorem loadNamedFile_selected {bootSector : BootSector} {fuel : Nat} {file : DirEntry} {s : State}
    (selected : selects (cString "IMAGE   .BIN") file = true) :
    (match loadNamedFile medium bootSector fuel (cString "IMAGE   .BIN") board.programStart [file] s with
      | .error stop => .error stop
      | .ok (n, s) =>
          if n < 0 then .ok (.error, s) else .ok (.handlerRun board.programStart, s)) =
      finish board.programStart file.fileSize.toNat
        (fat16ReadFile medium bootSector board.programStart file.fileSize.toNat fuel
          file.firstClusterLow s) := by
  rw [selects, Bool.and_eq_true, decide_eq_true_eq] at selected
  rw [loadNamedFile, if_neg selected.1, if_neg (not_not_intro selected.2)]
  rcases fat16ReadFile medium bootSector board.programStart file.fileSize.toNat fuel
    file.firstClusterLow s with stop | ⟨n, after⟩
  · rfl
  · dsimp only [finish]
    by_cases full : n = int32 file.fileSize.toNat
    · rw [if_neg (not_not_intro full)]
      by_cases negative : n < 0
      · rw [if_neg (by omega)]
        dsimp only
        rw [if_pos negative]
      · rw [if_pos (by omega)]
        dsimp only
        rw [if_neg negative]
    · rw [if_pos full, if_neg (fun both => full both.1)]
      rfl

theorem handlerBoot_eq (medium : Medium) (before : State) (up : board.storageReady = true)
    (fuel : Nat) :
    handlerBoot board medium fuel before =
      match (directory (directoryRead medium before)).find? isImage with
      | none => .ok (.error, afterDirectory medium before)
      | some file =>
          finish board.programStart file.fileSize.toNat
            (fat16ReadFile medium (bootSectorRead medium before) board.programStart
              file.fileSize.toNat fuel file.firstClusterLow (afterDirectory medium before)) := by
  have listed := find_listed (directoryRead medium before)
  have loaded := loadNamedFile_find medium (bootSectorRead medium before) fuel
    (cString "IMAGE   .BIN") board.programStart
    (listEntries (directory (directoryRead medium before)) 0
      (List.replicate 16 (.overlay fun _ => 0))).2 (afterDirectory medium before)
  rw [listed] at loaded
  unfold handlerBoot
  rw [up, fat16ReadBootSector_eq]
  dsimp only
  rw [fat16ListFiles_eq]
  dsimp only
  rw [loaded]
  cases found : (directory (directoryRead medium before)).find? isImage with
  | none => rfl
  | some file =>
      have selected : selects (cString "IMAGE   .BIN") file = true :=
        List.find?_some (listed.trans found)
      exact loadNamedFile_selected selected

/-- A command that runs the image has read as many bytes as its entry says. -/
theorem finish_run {programStart addr : BitVec 32} {size : Nat}
    {outcome : Except Stop (Int × State)} {after : State}
    (ran : finish programStart size outcome = .ok (.handlerRun addr, after)) :
    ∃ n, outcome = .ok (n, after) ∧ n = int32 size ∧ 0 ≤ n := by
  rcases outcome with stop | ⟨n, s⟩
  · cases ran
  · dsimp only [finish] at ran
    by_cases whole : n = int32 size ∧ 0 ≤ n
    · rw [if_pos whole] at ran
      cases ran
      exact ⟨n, rfl, whole⟩
    · rw [if_neg whole] at ran
      cases ran

theorem bootSectorRead_eq (succeeded : medium.faults before.reads.length = none) :
    bootSectorRead medium before = bswapBootSector (.overlay (medium.disk 2048)) := by
  unfold bootSectorRead
  dsimp only
  rw [succeeded]
  refine congrArg bswapBootSector (BootSector.overlay_congr ?_)
  intro i inside
  rw [Disk.transfer_ok (by omega), Nat.div_eq_of_lt inside, Nat.mod_eq_of_lt inside]

theorem directoryRead_eq (succeeded : medium.faults (before.reads.length + 1) = none) :
    directory (directoryRead medium before) =
      directory (medium.disk (rootDirSector (bootSectorRead medium before) before.partLba)) := by
  unfold directoryRead
  dsimp only
  rw [succeeded]
  apply directory_congr
  intro i inside
  rw [Disk.transfer_ok (by omega), Nat.div_eq_of_lt inside, Nat.mod_eq_of_lt inside]
  rfl

section Present

variable (volume : BootVolume)

theorem BootVolume.bootSectorRead_present (present : medium.disk = volume.disk)
    (succeeded : medium.faults before.reads.length = none) :
    bootSectorRead medium before = volume.fat.bootSector := by
  rw [bootSectorRead_eq succeeded, present]
  rfl

theorem BootVolume.directoryRead_present (present : medium.disk = volume.disk)
    (mounted : before.partLba = 2048) (bootSector : medium.faults before.reads.length = none)
    (succeeded : medium.faults (before.reads.length + 1) = none) :
    directory (directoryRead medium before) = directory (volume.disk volume.rootSector) := by
  rw [directoryRead_eq succeeded, volume.bootSectorRead_present present bootSector, mounted, present]
  rfl

end Present

end Loading

/-- A file of which the first read fails is not loaded, whatever its entry says. -/
theorem readCluster_fails {medium : Medium} (volume : Volume) (buffer : BitVec 32) {size : Nat}
    (cluster : BitVec 16) {s : State} (nonempty : 0 < size)
    (failed : (medium.faults s.reads.length).isSome = true) :
    ∃ after calls,
      readCluster medium volume.bootSector buffer size cluster 0 s = .ok (none, after) ∧
      after.reads = s.reads ++ calls := by
  obtain ⟨garbage, fault⟩ := Option.isSome_iff_exists.mp failed
  unfold readCluster
  rw [Volume.clusterBytes_eq]
  by_cases whole : volume.clusterSize ≤ size - 0
  · rw [if_pos whole]
    simp only [State.readSector, fault, Option.isNone_some]
    exact ⟨_, _, rfl, rfl⟩
  · have sectors : volume.bootSector.sectorsPerCluster.toNat ≠ 0 := by
      intro none_left
      rw [Volume.clusterSize, none_left] at whole
      omega
    obtain ⟨left, shape⟩ := Nat.exists_eq_succ_of_ne_zero sectors
    rw [if_neg whole, shape, readSectors, if_pos nonempty, volume.bytesPerSector_toNat]
    by_cases long : 512 ≤ size - 0
    · rw [if_pos long]
      simp only [State.readSector, fault, Option.isNone_some]
      exact ⟨_, _, rfl, rfl⟩
    · rw [if_neg long, if_neg (by omega)]
      simp only [State.readLocal, fault, Option.isNone_some]
      exact ⟨_, _, rfl, rfl⟩

theorem fat16ReadFile_fails {medium : Medium} (volume : Volume) (buffer : BitVec 32) {size : Nat}
    {s : State} (cluster : BitVec 16) (nonempty : 0 < size) (bound : size < 2 ^ 32)
    (failed : (medium.faults s.reads.length).isSome = true) :
    ∃ n after calls,
      (∀ fuel, 0 < fuel →
        fat16ReadFile medium volume.bootSector buffer size fuel cluster s = .ok (n, after)) ∧
      after.reads = s.reads ++ calls ∧ ¬(n = int32 size ∧ 0 ≤ n) := by
  by_cases ended : cluster = 0xFFFF
  · refine ⟨int32 0, s, [], ?_, by simp, ?_⟩
    · intro fuel enough
      obtain ⟨fuel, rfl⟩ := Nat.exists_eq_succ_of_ne_zero (by omega : fuel ≠ 0)
      rw [fat16ReadFile_eq, readClusters, if_neg (fun both => both.1 ended)]
    · rintro ⟨same, -⟩
      have zero := int32_injective (by omega) bound same
      omega
  · obtain ⟨after, calls, read, log⟩ := readCluster_fails volume buffer cluster nonempty failed
    refine ⟨-1, after, calls, ?_, log, by omega⟩
    intro fuel enough
    obtain ⟨fuel, rfl⟩ := Nat.exists_eq_succ_of_ne_zero (by omega : fuel ≠ 0)
    rw [fat16ReadFile_eq, readClusters, if_pos ⟨ended, nonempty⟩, read]

namespace BootCommand

variable (boot : BootCommand)

theorem bootSectorRead_ok (succeeded : boot.fails 0 = false) :
    bootSectorRead boot.medium boot.before = boot.disk.fat.bootSector := by
  apply boot.disk.bootSectorRead_present rfl
  simpa [fails, medium] using succeeded

theorem directoryRead_ok (bootSector : boot.fails 0 = false) (succeeded : boot.fails 1 = false) :
    directory (directoryRead boot.medium boot.before) =
      directory (boot.disk.disk boot.disk.rootSector) := by
  apply boot.disk.directoryRead_present rfl boot.mounted
  · simpa [fails, medium] using bootSector
  · simpa [fails, medium] using succeeded

def openingCalls : List ReadCall :=
  [{ purpose := .bootSector, lba := 2048, count := 1, ok := !boot.fails 0 },
   { purpose := .rootDirectory
     lba := rootDirSector (bootSectorRead boot.medium boot.before) 2048, count := 1
     ok := !boot.fails 1 }]

theorem afterDirectory_reads :
    (afterDirectory boot.medium boot.before).reads = boot.before.reads ++ boot.openingCalls := by
  unfold afterDirectory afterBootSector openingCalls fails
  rw [boot.mounted]
  simp [medium]

theorem imageRead_of_walk {entry : DirEntry} {result : Option Nat} {after : State}
    {calls : List ReadCall} (bootSector : boot.fails 0 = false) (rootDirectory : boot.fails 1 = false)
    (found : boot.disk.image = some entry)
    (walk : Walk boot.disk.disk boot.disk.fat boot.disk.chain boot.board.programStart
      entry.fileSize.toNat 0 (afterDirectory boot.medium boot.before) result after calls)
    (full : returned result = int32 entry.fileSize.toNat) (positive : 0 ≤ returned result) :
    ∃ used unused, boot.openingCalls ++ calls = used ++ unused ∧
      boot.ImageRead entry after.memory used unused := by
  obtain rfl := walk.ending.whole_of_returned entry.fileSize.isLt full positive
  obtain ⟨good, last, split, succeeded, single, fat, whole⟩ := walk.ending.parts
  refine ⟨boot.openingCalls ++ good, last, by rw [split, List.append_assoc], ?_⟩
  refine ⟨found, ⟨_, .head _, rfl, rfl⟩, ⟨_, .tail _ (.head _), rfl, ?_⟩, ?_, ?_, ⟨single, fat⟩, ?_⟩
  · dsimp only
    rw [boot.bootSectorRead_ok bootSector]
    rfl
  · intro call member
    rcases List.mem_append.mp member with opening | walked
    · simp only [openingCalls, bootSector, rootDirectory, List.mem_cons, List.not_mem_nil,
        or_false] at opening
      rcases opening with rfl | rfl <;> rfl
    · exact succeeded call walked
  · rw [sectorsRead_append]
    omega
  · intro i inside
    exact walk.load entry.fileSize.isLt inside

theorem correct_of_down (down : ¬boot.board.storageReady = true) : boot.Correct := by
  refine ⟨.error, boot.before, [], 0, ?_, by simp, .inl rfl⟩
  intro fuel _
  unfold handlerBoot
  rw [Bool.not_eq_true] at down
  rw [down]
  rfl

/-- The first read after the root directory fails: nothing runs, whatever the directory says. -/
theorem correct_of_firstData (bootSector : boot.fails 0 = false) (firstData : boot.fails 2 = true) :
    boot.Correct := by
  by_cases up : boot.board.storageReady = true
  · have start (fuel : Nat) := handlerBoot_eq boot.medium boot.before up fuel
    rw [boot.bootSectorRead_ok bootSector] at start
    cases found : (directory (directoryRead boot.medium boot.before)).find? isImage with
    | none =>
        rw [found] at start
        exact ⟨.error, _, _, 0, fun fuel _ => start fuel, boot.afterDirectory_reads, .inl rfl⟩
    | some entry =>
        rw [found] at start
        dsimp only at start
        have nonempty : entry.fileSize.toNat ≠ 0 := by
          have selected := List.find?_some found
          simp only [isImage, Bool.and_eq_true, bne_iff_ne] at selected
          intro zero
          exact selected.2 (BitVec.eq_of_toNat_eq zero)
        have failed : (boot.medium.faults
            (afterDirectory boot.medium boot.before).reads.length).isSome = true := by
          rw [boot.afterDirectory_reads, List.length_append]
          exact firstData
        obtain ⟨n, after, calls, read, log, short⟩ := fat16ReadFile_fails boot.disk.fat
          boot.board.programStart entry.firstClusterLow (by omega) entry.fileSize.isLt failed
        refine ⟨.error, after, boot.openingCalls ++ calls, 0, ?_, ?_, .inl rfl⟩
        · intro fuel enough
          rw [start, read fuel enough, finish, if_neg short]
        · rw [log, boot.afterDirectory_reads, List.append_assoc]
  · exact boot.correct_of_down up

/-- Both reads succeed: the outcome is decided by the walk of the image's chain. -/
theorem correct_of_directory (bootSector : boot.fails 0 = false)
    (rootDirectory : boot.fails 1 = false) : boot.Correct := by
  by_cases up : boot.board.storageReady = true
  · have start (fuel : Nat) := handlerBoot_eq boot.medium boot.before up fuel
    rw [boot.directoryRead_ok bootSector rootDirectory, boot.bootSectorRead_ok bootSector] at start
    cases found : boot.disk.image with
    | none =>
        change List.find? _ _ = none at found
        rw [found] at start
        exact ⟨.error, _, _, 0, fun fuel _ => start fuel, boot.afterDirectory_reads, .inl rfl⟩
    | some entry =>
        have linked := boot.disk.linked entry found
        have listed : (directory (boot.disk.disk boot.disk.rootSector)).find? isImage = some entry :=
          found
        rw [listed] at start
        dsimp only at start
        obtain ⟨result, after, calls, walked, walk⟩ :=
          readClusters_walk boot.medium boot.board.programStart entry.fileSize.isLt
            (afterDirectory boot.medium boot.before) (Nat.zero_le _) linked boot.mounted boot.ready
        have read (fuel : Nat) (enough : boot.disk.chain.length + 1 < fuel) :
            fat16ReadFile boot.medium boot.disk.fat.bootSector boot.board.programStart
              entry.fileSize.toNat fuel entry.firstClusterLow
              (afterDirectory boot.medium boot.before) = .ok (returned result, after) := by
          rw [fat16ReadFile_eq]
          exact walked fuel enough
        have log : after.reads = boot.before.reads ++ (boot.openingCalls ++ calls) := by
          rw [walk.log, boot.afterDirectory_reads, List.append_assoc]
        by_cases full : returned result = int32 entry.fileSize.toNat ∧ 0 ≤ returned result
        · refine ⟨_, after, _, boot.disk.chain.length + 1, ?_, log, .inr ⟨rfl, entry, ?_⟩⟩
          · intro fuel enough
            rw [start, read fuel enough, finish, if_pos full]
          · exact boot.imageRead_of_walk bootSector rootDirectory found walk full.1 full.2
        · refine ⟨.error, after, _, boot.disk.chain.length + 1, ?_, log, .inl rfl⟩
          intro fuel enough
          rw [start, read fuel enough, finish, if_neg full]
  · exact boot.correct_of_down up

end BootCommand

/-- A directory with a file of one byte in cluster 2. -/
def imageDirectory : Block := fun i =>
  if i < 11 then (cString "IMAGE   BIN").getD i 0
  else if i = 26 then 2
  else if i = 28 then 1
  else 0

def imageEntry : DirEntry := directoryEntry imageDirectory 0

theorem imageDirectory_find : (directory imageDirectory).find? isImage = some imageEntry := by decide

/-- The root directory is empty; sector 2053, which is not part of it, looks like one. -/
def emptyVolume : BootVolume where
  disk := fun sector i =>
    if sector = 2048 then if i = 12 then 2 else if i = 13 ∨ i = 14 then 1 else 0
    else if sector = 2053 then imageDirectory i
    else 0
  sectorSize := by decide

theorem emptyVolume_image : emptyVolume.image = none := by decide

def emptyDisk : BootDisk where
  toBootVolume := emptyVolume
  chain := []
  linked entry found := by
    rw [emptyVolume_image] at found
    cases found

/-- Five reserved sectors, and sectors of zero bytes. -/
def brokenBootSector : Block := fun i => if i = 14 then 5 else 0

def misled (fails : Nat → Bool) : BootCommand where
  board := { programStart := 0x400, storageReady := true }
  disk := emptyDisk
  faults k :=
    if fails k then some fun i => some (if k = 0 then brokenBootSector i else imageDirectory i)
    else none
  stale _ _ := 0
  before := { memory := fun _ => 0, cache := .empty, partLba := 2048, reads := [] }
  mounted := rfl
  ready := .inl rfl

section Misled

variable {fails : Nat → Bool}

theorem misled_fails : (misled fails).fails = fails := by
  funext k
  change (if fails (0 + k) then some _ else none : Option Garbage).isSome = fails k
  rw [Nat.zero_add]
  cases fails k <;> rfl

theorem misled_start (fuel : Nat) :
    handlerBoot (misled fails).board (misled fails).medium fuel (misled fails).before =
      match (directory (directoryRead (misled fails).medium (misled fails).before)).find? isImage with
      | none => .ok (.error, afterDirectory (misled fails).medium (misled fails).before)
      | some file =>
          finish 0x400 file.fileSize.toNat
            (fat16ReadFile (misled fails).medium
              (bootSectorRead (misled fails).medium (misled fails).before) 0x400
              file.fileSize.toNat fuel file.firstClusterLow
              (afterDirectory (misled fails).medium (misled fails).before)) :=
  handlerBoot_eq _ _ rfl fuel

/-- A failed read of the boot sector ends in a division by zero. -/
theorem misled_bootSector (failed : fails 0 = true) (fuel : Nat) :
    handlerBoot (misled fails).board (misled fails).medium fuel (misled fails).before =
      .error .divideByZero := by
  have bootSector : bootSectorRead (misled fails).medium (misled fails).before =
      bswapBootSector (.overlay brokenBootSector) := by
    refine congrArg bswapBootSector (BootSector.overlay_congr ?_)
    intro i inside
    change (misled fails).disk.disk.transfer (if fails 0 then _ else none) 2048 1 _ i = _
    rw [if_pos failed, Disk.transfer, if_pos (by omega)]
    rfl
  have buffer : directory (directoryRead (misled fails).medium (misled fails).before) =
      directory imageDirectory := by
    apply directory_congr
    intro i inside
    unfold directoryRead
    rw [bootSector]
    change (misled fails).disk.disk.transfer (if fails 1 then _ else none) 2053 1 _ i = _
    cases fails 1 with
    | true =>
        rw [if_pos rfl, Disk.transfer, if_pos (by omega)]
        rfl
    | false =>
        rw [if_neg Bool.false_ne_true, Disk.transfer_ok (by omega), Nat.div_eq_of_lt inside,
          Nat.mod_eq_of_lt inside]
        rfl
  rw [misled_start, buffer, imageDirectory_find, bootSector]
  rfl

theorem emptyVolume_fits : emptyVolume.fat.Fits 2 := ⟨by decide, by decide, by decide, by decide⟩

theorem readCluster_oneByte {medium : Medium} {s : State}
    (fault : medium.faults s.reads.length = none) :
    ∃ middle, readCluster medium emptyVolume.fat.bootSector 0x400 1 2 0 s = .ok (some 1, middle) ∧
      middle.partLba = s.partLba ∧ middle.cache = s.cache := by
  have bytes : clusterBytes emptyVolume.fat.bootSector = 512 := by decide
  have sectors : emptyVolume.fat.bootSector.sectorsPerCluster.toNat = 0 + 1 := by decide
  have size : emptyVolume.fat.bootSector.bytesPerSector.toNat = 512 := by decide
  unfold readCluster
  rw [bytes, if_neg (by decide), sectors, readSectors, if_pos (by decide), size,
    if_neg (by decide), if_neg (by decide)]
  simp only [State.readLocal, fault]
  exact ⟨_, rfl, rfl, rfl⟩

/-- A failed read of the root directory ends in running a file that the disk does not have. -/
theorem misled_rootDirectory (bootSector : fails 0 = false) (failed : fails 1 = true)
    (firstData : fails 2 = false) :
    ∃ after, ∀ fuel, 2 ≤ fuel →
      handlerBoot (misled fails).board (misled fails).medium fuel (misled fails).before =
        .ok (.handlerRun 0x400, after) := by
  have opening : (misled fails).fails 0 = false := by rw [misled_fails, bootSector]
  have buffer : directory (directoryRead (misled fails).medium (misled fails).before) =
      directory imageDirectory := by
    apply directory_congr
    intro i inside
    unfold directoryRead
    change (misled fails).disk.disk.transfer (if fails 1 then _ else none) _ 1 _ i = _
    rw [if_pos failed, Disk.transfer, if_pos (by omega)]
    rfl
  have fault : (misled fails).medium.faults
      (afterDirectory (misled fails).medium (misled fails).before).reads.length = none := by
    change (if fails 2 then _ else none) = none
    rw [firstData, if_neg Bool.false_ne_true]
  obtain ⟨middle, read, sameLba, sameCache⟩ := readCluster_oneByte fault
  have ready : middle.cache.Ready (misled fails).medium.disk :=
    .inl (congrArg FatCache.cachedSector sameCache)
  obtain ⟨⟨next, after⟩, calls, found, -⟩ := State.getFatEntry_lookup emptyVolume_fits sameLba ready
  refine ⟨after, ?_⟩
  intro fuel enough
  obtain ⟨fuel, rfl⟩ := Nat.exists_eq_add_of_le enough
  have size : imageEntry.fileSize.toNat = 1 := by decide
  have cluster : imageEntry.firstClusterLow = 2 := by decide
  have turn := readClusters_turn (fuel + 1) (by decide) Nat.one_pos read found
  rw [misled_start, buffer, imageDirectory_find, (misled fails).bootSectorRead_ok opening]
  dsimp only
  rw [size, cluster]
  change finish 0x400 1 (fat16ReadFile _ emptyVolume.fat.bootSector _ _ _ _ _) = _
  rw [fat16ReadFile_eq, Nat.add_comm 2]
  have last : readClusters (misled fails).medium emptyVolume.fat.bootSector 0x400 1 (fuel + 1) next 1
      after = .ok (int32 1, after) := by
    rw [readClusters, if_neg (fun both => absurd both.2 (by decide))]
  exact (congrArg (finish 0x400 1) (turn.trans last)).trans rfl

theorem misled_not_correct (bootSector : fails 0 = false) (failed : fails 1 = true)
    (firstData : fails 2 = false) : ¬(misled fails).Correct := by
  intro ⟨exit, after, calls, enough, runs, log, ending⟩
  obtain ⟨other, ran⟩ := misled_rootDirectory bootSector failed firstData
  have run := runs (enough + 2) (by omega)
  rw [ran (enough + 2) (by omega)] at run
  cases run
  rcases ending with returned | ⟨-, entry, used, unused, -, image⟩
  · cases returned
  · have found := image.image
    change emptyVolume.image = some entry at found
    rw [emptyVolume_image] at found
    cases found

end Misled

/-- The boot command is correct for a pattern of failing block reads, on every disk and whatever
    the failed reads leave behind, exactly if the read of the boot sector succeeds, and the read of
    the root directory succeeds or the read after it fails. -/
theorem handler_boot_correct_iff (fails : Nat → Bool) :
    (∀ boot : BootCommand, boot.fails = fails → boot.Correct) ↔
      fails 0 = false ∧ (fails 1 = false ∨ fails 2 = true) := by
  constructor
  · intro correct
    obtain ⟨exit, after, calls, enough, runs, log, ending⟩ := correct (misled fails) misled_fails
    have bootSector : fails 0 = false := by
      by_contra failed
      rw [Bool.not_eq_false] at failed
      have run := runs (enough + 1) (Nat.lt_succ_self _)
      rw [misled_bootSector failed] at run
      cases run
    refine ⟨bootSector, ?_⟩
    by_contra neither
    rw [not_or, Bool.not_eq_false, Bool.not_eq_true] at neither
    exact misled_not_correct bootSector neither.1 neither.2 (correct (misled fails) misled_fails)
  · rintro ⟨bootSector, rootDirectory | firstData⟩ boot rfl
    · exact boot.correct_of_directory bootSector rootDirectory
    · exact boot.correct_of_firstData bootSector firstData

theorem failed_directory_read_boots_garbage : ¬(misled fun k => k == 1).Correct :=
  misled_not_correct rfl rfl rfl

end Mackerel.Bootloader
