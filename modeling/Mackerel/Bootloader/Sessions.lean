import Mackerel.Bootloader.BootComplete
import Mackerel.Fat16.Runs

namespace Mackerel.Bootloader

open Bytes Bytes.Memory Fat16

/-- One `boot` command: the medium that is present, and what memory and stack hold before it. -/
structure Command where
  board : Board
  disk : Disk
  stale : Nat → Block
  memory : Memory 32

namespace Command

/-- No read fails. -/
def medium (command : Command) : Medium where
  disk := command.disk
  faults _ := none
  stale := command.stale

/-- Of the static variables of `fat16.c` a command writes only the cache and the pointer to
    `block_read`, which is the same each time. -/
def start (command : Command) (cache : FatCache) : State where
  memory := command.memory
  cache
  partLba := 2048
  reads := []

/-- No entry that is needed of the chain of IMAGE.BIN is taken from the cache with another value
    than it has on the medium. -/
def Fresh (command : Command) (cache : FatCache) : Prop :=
  ∀ present : BootDisk, present.disk = command.disk → ∀ entry, present.image = some entry →
    present.fat.Fresh present.disk cache present.chain entry.fileSize.toNat

end Command

structure Done where
  command : Command
  cache : FatCache
  exit : BootExit
  after : State

/-- An image that has been loaded is IMAGE.BIN of the medium. -/
def Done.LoadsPresent (done : Done) : Prop :=
  ∀ present : BootDisk, present.disk = done.command.disk →
    done.exit = .handlerRun done.command.board.programStart →
      ∃ entry, present.image = some entry ∧
        ∀ i, i < entry.fileSize.toNat →
          done.after.memory.load done.command.board.programStart i =
            present.fat.chainByte present.disk present.chain i

/-- The commands of one power-on session; the cache is all that one leaves to the next. -/
def bootAll (fuel : Nat) (cache : FatCache) : List Command → Except Stop (List Done)
  | [] => .ok []
  | command :: rest =>
      match handlerBoot command.board command.medium fuel (command.start cache) with
      | .error stop => .error stop
      | .ok (exit, after) =>
          match bootAll fuel after.cache rest with
          | .error stop => .error stop
          | .ok later => .ok ({ command, cache, exit, after } :: later)

theorem finish_ok {programStart : BitVec 32} {size : Nat} {outcome : Except Stop (Int × State)}
    {exit : BootExit} {after : State}
    (ended : finish programStart size outcome = .ok (exit, after)) :
    ∃ n, outcome = .ok (n, after) := by
  rcases outcome with stop | ⟨n, s⟩
  · cases ended
  · dsimp only [finish] at ended
    split at ended
    · cases ended
      exact ⟨n, rfl⟩
    · cases ended
      exact ⟨n, rfl⟩

/-- A command without a failed read keeps the cache or loads it from its medium. -/
theorem handlerBoot_cache {board : Board} {medium : Medium} {fuel : Nat} {before after : State}
    {exit : BootExit} (reliable : ∀ call, medium.faults call = none)
    (ran : handlerBoot board medium fuel before = .ok (exit, after)) :
    after.cache = before.cache ∨ after.cache.Mirrors medium.disk := by
  by_cases up : board.storageReady = true
  · rw [handlerBoot_eq medium before up] at ran
    cases found : (directory (directoryRead medium before)).find? isImage with
    | none =>
        rw [found] at ran
        cases ran
        exact .inl rfl
    | some file =>
        rw [found] at ran
        obtain ⟨n, read⟩ := finish_ok ran
        exact fat16ReadFile_cache reliable read
  · rw [Bool.not_eq_true] at up
    simp only [handlerBoot, up] at ran
    cases ran
    exact .inl rfl

theorem BootDisk.loaded (present : BootDisk) {board : Board} {medium : Medium} {fuel : Nat}
    {before after : State} {addr : BitVec 32} (same : medium.disk = present.disk)
    (reliable : ∀ call, medium.faults call = none) (mounted : before.partLba = 2048)
    (fresh : ∀ entry, present.image = some entry →
      present.fat.Fresh present.disk before.cache present.chain entry.fileSize.toNat)
    (ran : handlerBoot board medium fuel before = .ok (.handlerRun addr, after)) :
    ∃ entry, present.image = some entry ∧
      ∀ i, i < entry.fileSize.toNat →
        after.memory.load board.programStart i =
          present.fat.chainByte present.disk present.chain i := by
  by_cases up : board.storageReady = true
  · rw [handlerBoot_eq medium before up,
      present.directoryRead_present same mounted (reliable _) (reliable _),
      present.bootSectorRead_present same (reliable _)] at ran
    cases found : present.image with
    | none =>
        change List.find? _ _ = none at found
        rw [found] at ran
        cases ran
    | some entry =>
        have linked := present.linked entry found
        have needed := fresh entry found
        rw [← same] at linked needed
        change List.find? _ _ = some entry at found
        rw [found] at ran
        obtain ⟨n, read, full, positive⟩ := finish_run ran
        rw [fat16ReadFile_eq] at read
        obtain ⟨result, final, calls, walked, walk⟩ :=
          readClusters_walk_fresh medium board.programStart entry.fileSize.isLt
            (afterDirectory medium before) (Nat.zero_le _) linked mounted needed
        have longer := readClusters_fuel (Nat.le_add_right fuel (present.chain.length + 2)) read
        rw [walked _ (by omega)] at longer
        cases longer
        obtain rfl := walk.ending.whole_of_returned entry.fileSize.isLt full positive
        refine ⟨entry, rfl, ?_⟩
        intro i inside
        rw [walk.load entry.fileSize.isLt inside, same]
  · rw [Bool.not_eq_true] at up
    simp only [handlerBoot, up] at ran
    cases ran

section Sessions

variable {fuel : Nat} {cache : FatCache} {commands : List Command} {dones : List Done}

theorem bootAll_cons {command : Command} {rest : List Command}
    (ran : bootAll fuel cache (command :: rest) = .ok dones) :
    ∃ exit after later,
      handlerBoot command.board command.medium fuel (command.start cache) = .ok (exit, after) ∧
        bootAll fuel after.cache rest = .ok later ∧
          dones = { command, cache, exit, after } :: later := by
  rw [bootAll] at ran
  rcases first : handlerBoot command.board command.medium fuel (command.start cache) with
    stop | ⟨exit, after⟩
  · simp [first] at ran
  · rw [first] at ran
    dsimp only at ran
    cases others : bootAll fuel after.cache rest with
    | error stop => simp [others] at ran
    | ok later =>
        rw [others] at ran
        cases ran
        exact ⟨exit, after, later, rfl, others, rfl⟩

theorem bootAll_commands (ran : bootAll fuel cache commands = .ok dones) :
    dones.map Done.command = commands := by
  induction commands generalizing cache dones with
  | nil =>
      cases ran
      rfl
  | cons command rest induction_hypothesis =>
      obtain ⟨exit, after, later, -, others, rfl⟩ := bootAll_cons ran
      rw [List.map_cons, induction_hypothesis others]

/-- What a command finds in the cache: what the session began with, or a sector of the medium of
    an earlier command. -/
theorem bootAll_cache (ran : bootAll fuel cache commands = .ok dones) {earlier later : List Done}
    {done : Done} (split : dones = earlier ++ done :: later) :
    done.cache = cache ∨ ∃ source ∈ earlier, done.cache.Mirrors source.command.disk := by
  induction commands generalizing cache dones earlier with
  | nil =>
      cases ran
      simp at split
  | cons command rest induction_hypothesis =>
      obtain ⟨exit, after, others, first, rest_ran, rfl⟩ := bootAll_cons ran
      cases earlier with
      | nil =>
          cases split
          exact .inl rfl
      | cons source earlier =>
          obtain ⟨rfl, tails⟩ := List.cons.inj split
          rcases induction_hypothesis rest_ran tails with kept | ⟨source, member, mirrors⟩
          · rcases handlerBoot_cache (fun _ => rfl) first with same | loaded
            · exact .inl (kept.trans same)
            · exact .inr ⟨_, List.mem_cons_self, kept ▸ loaded⟩
          · exact .inr ⟨source, List.mem_cons_of_mem _ member, mirrors⟩

/-- Media that agree about the chain of IMAGE.BIN cannot spoil each other. -/
theorem fresh_of_agreement (ran : bootAll fuel .empty commands = .ok dones)
    {earlier later : List Done} {done : Done} (split : dones = earlier ++ done :: later)
    (agree : ∀ present : BootDisk, present.disk = done.command.disk → ∀ source ∈ earlier,
      ∀ cluster ∈ present.chain, present.fat.fatEntry source.command.disk cluster =
        present.fat.fatEntry present.disk cluster) :
    done.command.Fresh done.cache := by
  intro present same entry found
  have linked := present.linked entry found
  rcases bootAll_cache ran split with powerUp | ⟨source, member, mirrors⟩
  · have ready : done.cache.Ready present.disk := .inl (congrArg FatCache.cachedSector powerUp)
    exact ready.fresh linked.fits _
  · have ready : done.cache.Ready source.command.disk := .inr mirrors
    exact ready.fresh_of_agreement linked.fits (agree present same source member) _

/-- In every session without a failed read, if no command takes a needed FAT entry from the cache
    with another value than it has on the medium, every image loaded is IMAGE.BIN of the medium
    that is present. -/
theorem session_loads_present (fuel : Nat) (commands : List Command) {dones : List Done}
    (ran : bootAll fuel .empty commands = .ok dones)
    (fresh : ∀ done ∈ dones, done.command.Fresh done.cache) :
    ∀ done ∈ dones, done.LoadsPresent := by
  generalize FatCache.empty = cache at ran
  induction commands generalizing cache dones with
  | nil =>
      cases ran
      simp
  | cons command rest induction_hypothesis =>
      obtain ⟨exit, after, later, first, others, rfl⟩ := bootAll_cons ran
      rw [List.forall_mem_cons] at fresh ⊢
      refine ⟨?_, induction_hypothesis fresh.2 after.cache others⟩
      intro present same loaded
      dsimp only at loaded
      rw [loaded] at first
      refine present.loaded same.symm (fun _ => rfl) rfl ?_ first
      exact fresh.1 present same

end Sessions

/-- The FAT starts at sector 2049, the root directory is sector 2081, and cluster `n` is
    sector `2080 + n`. -/
def twoClusters (second : Byte) : Disk := fun sector i =>
  if sector = 2048 then
    if i = 12 then 2 else if i = 17 then 16 else if i = 20 ∨ i = 22 then 32
    else if i = 13 ∨ i = 14 ∨ i = 16 then 1 else 0
  else if sector = 2049 then
    if i = 4 then second else if i / 2 = second.toNat then 0xFF else 0
  else if sector = 2081 then if i = 28 then 0 else if i = 29 then 4 else imageDirectory i
  else BitVec.ofNat 8 sector

def bootFrom (disk : Disk) : Command where
  board := { programStart := 0x400, storageReady := true }
  disk
  stale _ _ := 0
  memory _ := 0

/-- How a command has ended, and the first byte of the image's second cluster. -/
def summary (done : Done) : BootExit × Byte := (done.exit, done.after.memory.load 0x400 512)

def secondVolume : BootVolume where
  disk := twoClusters 4
  sectorSize := by decide

def secondEntry : DirEntry := directoryEntry (twoClusters 4 2081) 0

theorem secondVolume_image : secondVolume.image = some secondEntry := by decide +kernel

theorem secondVolume_chain :
    secondVolume.fat.Chain (twoClusters 4) [2, 4] secondEntry.firstClusterLow
      secondEntry.fileSize.toNat where
  starts := by
    intro cluster member
    cases member
    decide +kernel
  fits := by
    intro cluster member
    rcases List.mem_pair.mp member with rfl | rfl
    · exact ⟨by decide, by decide, by decide +kernel, by decide +kernel⟩
    · exact ⟨by decide, by decide, by decide +kernel, by decide +kernel⟩
  linked := by
    rw [List.isChain_cons_cons]
    exact ⟨by decide +kernel, .singleton _⟩
  enough := by decide +kernel

def secondMedium : BootDisk where
  toBootVolume := secondVolume
  chain := [2, 4]
  linked entry found := by
    rw [secondVolume_image] at found
    cases found
    exact secondVolume_chain

theorem unchanged_medium_boots :
    (bootAll 3 .empty [bootFrom (twoClusters 4), bootFrom (twoClusters 4)]).toOption.map
      (List.map Done.exit) = some [.handlerRun 0x400, .handlerRun 0x400] := by
  decide +kernel

theorem unchanged_medium_loads_present :
    ∃ dones, bootAll 3 .empty [bootFrom (twoClusters 4), bootFrom (twoClusters 4)] = .ok dones ∧
      dones.map Done.exit = [.handlerRun 0x400, .handlerRun 0x400] ∧
      ∀ done ∈ dones, done.LoadsPresent := by
  have evaluated := unchanged_medium_boots
  cases ran : bootAll 3 .empty [bootFrom (twoClusters 4), bootFrom (twoClusters 4)] with
  | error stop =>
      rw [ran] at evaluated
      cases evaluated
  | ok dones =>
      rw [ran] at evaluated
      have alike (done : Done) (member : done ∈ dones) : done.command = bootFrom (twoClusters 4) := by
        have command := List.mem_map_of_mem (f := Done.command) member
        rw [bootAll_commands ran] at command
        simpa using command
      refine ⟨dones, rfl, Option.some.inj evaluated, session_loads_present 3 _ ran ?_⟩
      intro done member
      obtain ⟨earlier, later, split⟩ := List.append_of_mem member
      apply fresh_of_agreement ran split
      intro present same source before cluster _
      have earlierMember : source ∈ dones := by simp [split, before]
      rw [same, alike done member, alike source earlierMember]

/-- The second command follows the cached FAT of the first medium, to cluster 3 of its own. -/
theorem second_boot_follows_first :
    (bootAll 3 .empty [bootFrom (twoClusters 3), bootFrom (twoClusters 4)]).toOption.map
      (List.map summary) = some [(.handlerRun 0x400, 35), (.handlerRun 0x400, 35)] := by
  decide +kernel

theorem changed_medium_loads_other_cluster :
    ¬ ∀ (fuel : Nat) (commands : List Command) (dones : List Done),
      bootAll fuel .empty commands = .ok dones → ∀ done ∈ dones, done.LoadsPresent := by
  intro loads
  have evaluated := second_boot_follows_first
  cases ran : bootAll 3 .empty [bootFrom (twoClusters 3), bootFrom (twoClusters 4)] with
  | error stop =>
      rw [ran] at evaluated
      cases evaluated
  | ok dones =>
      rw [ran] at evaluated
      have summaries := Option.some.inj evaluated
      have booted := bootAll_commands ran
      rcases dones with - | ⟨first, - | ⟨second, - | ⟨third, rest⟩⟩⟩
      all_goals simp only [List.map_cons, List.map_nil, List.cons.injEq, reduceCtorEq, and_true,
        and_false] at summaries booted
      have command := booted.2
      have exit := congrArg Prod.fst summaries.2
      have byte := congrArg Prod.snd summaries.2
      have present := loads 3 _ _ ran second (by simp) secondMedium
      rw [command] at present
      obtain ⟨entry, found, contents⟩ := present rfl exit
      change secondVolume.image = some entry at found
      rw [secondVolume_image] at found
      cases found
      have same := contents 512 (by decide +kernel)
      change second.after.memory.load 0x400 512 = _ at same
      change second.after.memory.load 0x400 512 = _ at byte
      rw [byte] at same
      revert same
      decide +kernel

end Mackerel.Bootloader
