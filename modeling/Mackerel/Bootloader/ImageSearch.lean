import Mackerel.Bootloader.BootComplete

namespace Mackerel.Bootloader

open Bytes Fat16

section Windows

variable {α : Type} {kept wanted : α → Bool} {E : Nat → α} {window count : Nat}

theorem filter_eq_of_iff {first : List α} (implied : ∀ a ∈ first, wanted a → kept a)
    (only : ∀ a ∈ first, kept a → wanted a) : first.filter kept = first.filter wanted := by
  apply List.filter_congr
  intro a member
  exact Bool.eq_iff_iff.mpr ⟨only a member, implied a member⟩

theorem filter_prefix_iff {first rest : List α} (implied : ∀ a ∈ first, wanted a → kept a) :
    (first ++ rest).filter kept = first.filter wanted ↔
      (∀ a ∈ first, kept a → wanted a) ∧ ∀ a ∈ rest, kept a = false := by
  rw [List.filter_append]
  constructor
  · intro same
    have only (a : α) (member : a ∈ first) (keeps : kept a) : wanted a := by
      have listed : a ∈ first.filter wanted := by
        rw [← same, List.mem_append, List.mem_filter]
        exact .inl ⟨member, keeps⟩
      exact (List.mem_filter.mp listed).2
    rw [filter_eq_of_iff implied only, List.append_right_eq_self] at same
    refine ⟨only, fun a member => ?_⟩
    rw [List.filter_eq_nil_iff] at same
    exact Bool.eq_false_iff.mpr (same a member)
  · rintro ⟨only, none⟩
    have empty : rest.filter kept = [] := by
      rw [List.filter_eq_nil_iff]
      intro a member
      exact Bool.eq_false_iff.mp (none a member)
    rw [filter_eq_of_iff implied only, empty, List.append_nil]

theorem filter_extended_iff {first rest : List α} (implied : ∀ a ∈ first, wanted a → kept a) :
    first.filter kept = (first ++ rest).filter wanted ↔
      (∀ a ∈ first, kept a → wanted a) ∧ ∀ a ∈ rest, wanted a = false := by
  rw [List.filter_append]
  constructor
  · intro same
    have only (a : α) (member : a ∈ first) (keeps : kept a) : wanted a := by
      have listed : a ∈ first.filter wanted ++ rest.filter wanted := by
        rw [← same, List.mem_filter]
        exact ⟨member, keeps⟩
      rw [← List.filter_append] at listed
      exact (List.mem_filter.mp listed).2
    rw [filter_eq_of_iff implied only, List.self_eq_append_right] at same
    refine ⟨only, fun a member => ?_⟩
    rw [List.filter_eq_nil_iff] at same
    exact Bool.eq_false_iff.mpr (same a member)
  · rintro ⟨only, none⟩
    have empty : rest.filter wanted = [] := by
      rw [List.filter_eq_nil_iff]
      intro a member
      exact Bool.eq_false_iff.mp (none a member)
    rw [filter_eq_of_iff implied only, empty, List.append_nil]

theorem forall_mem_range_map {P : α → Prop} :
    (∀ a ∈ (List.range count).map E, P a) ↔ ∀ i < count, P (E i) := by
  simp

/-- A filter over a window of a sequence against another filter over its first elements. -/
theorem filter_window_iff (implied : ∀ i < count, wanted (E i) → kept (E i)) :
    ((List.range window).map E).filter kept = ((List.range count).map E).filter wanted ↔
      (∀ i < window, count ≤ i → kept (E i) = false) ∧
      (∀ i < window, i < count → kept (E i) → wanted (E i)) ∧
      ∀ i < count, window ≤ i → wanted (E i) = false := by
  rcases Nat.le_total count window with shorter | longer
  · obtain ⟨more, rfl⟩ := Nat.exists_eq_add_of_le shorter
    rw [List.range_add, List.map_append, List.map_map,
      filter_prefix_iff (forall_mem_range_map.mpr implied), forall_mem_range_map,
      forall_mem_range_map]
    constructor
    · rintro ⟨only, none⟩
      refine ⟨?_, fun i _ inside => only i inside, fun i inside beyond => by omega⟩
      intro i inside beyond
      obtain ⟨k, rfl⟩ := Nat.exists_eq_add_of_le beyond
      exact none k (by omega)
    · rintro ⟨none, only, -⟩
      exact ⟨fun i inside => only i (by omega) inside,
        fun k inside => none (count + k) (by omega) (by omega)⟩
  · obtain ⟨more, rfl⟩ := Nat.exists_eq_add_of_le longer
    have within : ∀ i < window, wanted (E i) → kept (E i) := fun i inside => implied i (by omega)
    rw [List.range_add, List.map_append, List.map_map,
      filter_extended_iff (forall_mem_range_map.mpr within), forall_mem_range_map,
      forall_mem_range_map]
    constructor
    · rintro ⟨only, none⟩
      refine ⟨fun i inside beyond => by omega, fun i inside _ => only i inside, ?_⟩
      intro i inside beyond
      obtain ⟨k, rfl⟩ := Nat.exists_eq_add_of_le beyond
      exact none k (by omega)
    · rintro ⟨-, only, none⟩
      exact ⟨fun i inside => only i inside (by omega),
        fun k inside => none (window + k) (by omega) (by omega)⟩

/-- Finding with one more condition, if what is found first meets it. -/
theorem find?_and_of_first {entries : List α}
    (first : ∀ a, entries.find? wanted = some a → kept a = true) :
    entries.find? (fun a => kept a && wanted a) = entries.find? wanted := by
  induction entries with
  | nil => rfl
  | cons a entries induction_hypothesis =>
      by_cases found : wanted a = true
      · rw [List.find?_cons_of_pos found] at first ⊢
        rw [List.find?_cons_of_pos]
        rw [first a rfl, found]
        rfl
      · rw [List.find?_cons_of_neg found] at first ⊢
        rw [List.find?_cons_of_neg, induction_hypothesis first]
        rw [Bool.and_eq_true]
        exact fun both => found both.2

end Windows

/-- Entry `i` of the root directory that starts at `sector`. -/
def rootEntry (disk : Disk) (sector i : Nat) : DirEntry :=
  directoryEntry (disk (u32 (sector + i / 16 : Nat))) (i % 16)

def isEnd (entry : DirEntry) : Bool := entry.name.headD 0 == 0x00

/-- A file that is not deleted; a directory has attribute 0x10, a label or a part of a long name
    has attribute 0x08. -/
def isLiveFile (entry : DirEntry) : Bool :=
  entry.name.headD 0 != 0xE5 && entry.attributes &&& 0x18 == 0

def isNamedImage (entry : DirEntry) : Bool := entry.name == cString "IMAGE   BIN"

/-- A root directory on a disk. -/
structure RootDirectory where
  disk : Disk
  bootSector : BootSector
  partLba : BitVec 32

namespace RootDirectory

variable (root : RootDirectory)

def entry (i : Nat) : DirEntry := rootEntry root.disk (rootDirSector root.bootSector root.partLba) i

/-- The entries before the end mark. -/
def entries : List DirEntry :=
  ((List.range root.bootSector.rootEntries.toNat).map root.entry).takeWhile fun e => !isEnd e

def liveFiles : List DirEntry := root.entries.filter isLiveFile

/-- What `fat16_list_files` does with the zeroed list of `handler_boot`. -/
def listing (stale : Nat → Block) (s : State) : Nat × List DirEntry × State :=
  { s with partLba := root.partLba }.fat16ListFiles
    { disk := root.disk, faults := fun _ => none, stale } root.bootSector
    (List.replicate 16 (.overlay fun _ => 0))

end RootDirectory

/-- `load_named_file` from the entry on that has the name. -/
def loadEntry (medium : Medium) (bootSector : BootSector) (fuel : Nat) (addr : BitVec 32)
    (file : DirEntry) (s : State) : Except Stop (Int × State) :=
  match fat16ReadFile medium bootSector addr file.fileSize.toNat fuel file.firstClusterLow s with
  | .error stop => .error stop
  | .ok (n, s) => if n ≠ int32 file.fileSize.toNat then .ok (-1, s) else .ok (n, s)

namespace RootDirectory

/-- The live files are listed, in order, and the one named IMAGE.BIN is loaded if there is one. -/
structure FindsImage (root : RootDirectory) (stale : Nat → Block) (s : State) : Prop where
  count : (root.listing stale s).1 = root.liveFiles.length
  files : (root.listing stale s).2.1.take (root.listing stale s).1 = root.liveFiles
  image : ∀ medium bootSector fuel addr before,
    loadNamedFile medium bootSector fuel (cString "IMAGE   .BIN") addr
        (root.listing stale s).2.1 before =
      match root.liveFiles.find? isNamedImage with
      | none => .ok (-1, before)
      | some file => loadEntry medium bootSector fuel addr file before

/-- Nothing of the directory is outside the sixteen entries of its first sector, and these hold
    nothing that only looks like a file. -/
structure FirstSectorSuffices (root : RootDirectory) : Prop where
  stale : ∀ i < 16, root.entries.length ≤ i → isFile (root.entry i) = false
  plain : ∀ i < 16, i < root.entries.length → isFile (root.entry i) → isLiveFile (root.entry i)
  rest : ∀ i < root.entries.length, 16 ≤ i → isLiveFile (root.entry i) = false
  image : ∀ file, root.liveFiles.find? isNamedImage = some file → file.fileSize ≠ 0

variable (root : RootDirectory)

theorem firstSector_eq :
    directory (root.disk (rootDirSector root.bootSector root.partLba)) =
      (List.range 16).map root.entry := by
  apply List.map_congr_left
  intro i member
  have inside := List.mem_range.mp member
  have sector : rootDirSector root.bootSector root.partLba < 2 ^ 32 := u32_lt _
  rw [entry, rootEntry, Nat.div_eq_of_lt inside, Nat.mod_eq_of_lt inside, Nat.add_zero,
    u32_of_lt sector]

theorem entries_eq : root.entries = (List.range root.entries.length).map root.entry := by
  have start : root.entries <+: (List.range root.bootSector.rootEntries.toNat).map root.entry :=
    List.takeWhile_prefix _
  have short := start.length_le
  rw [List.length_map, List.length_range] at short
  rw [List.prefix_iff_eq_take, ← List.map_take, List.take_range, Nat.min_eq_left short] at start
  exact start

theorem isFile_of_isLiveFile {entry : DirEntry} (before : isEnd entry = false)
    (live : isLiveFile entry = true) : isFile entry = true := by
  simp only [isLiveFile, Bool.and_eq_true, bne_iff_ne, beq_iff_eq] at live
  simp only [isEnd, beq_eq_false_iff_ne] at before
  have plain : entry.attributes &&& 0x10 = 0 := by
    have part : entry.attributes &&& 0x10 = entry.attributes &&& 0x18 &&& 0x10 := by
      rw [BitVec.and_assoc]
      rfl
    rw [part, live.2]
    rfl
  rw [isFile, plain, beq_false_of_ne before, beq_false_of_ne live.1]
  rfl

theorem isEnd_entry {i : Nat} (inside : i < root.entries.length) : isEnd (root.entry i) = false := by
  have member : root.entry i ∈ root.entries := by
    rw [root.entries_eq]
    exact List.mem_map_of_mem (List.mem_range.mpr inside)
  simpa using List.mem_takeWhile_imp member

theorem entry_name_length (i : Nat) : (root.entry i).name.length = 11 := by
  simp [entry, rootEntry, directoryEntry, bswapDirEntry, DirEntry.overlay]

/-- The listed entries of the first sector. -/
def listed : List DirEntry := ((List.range 16).map root.entry).filter isFile

theorem listing_eq (stale : Nat → Block) (s : State) :
    (root.listing stale s).1 = root.listed.length ∧
      (root.listing stale s).2.1 =
        root.listed ++ (List.replicate 16 (DirEntry.overlay fun _ => 0)).drop root.listed.length := by
  have buffer : directory (root.disk.transfer none (rootDirSector root.bootSector root.partLba) 1
      (stale s.reads.length)) = (List.range 16).map root.entry := by
    rw [← root.firstSector_eq]
    apply directory_congr
    intro i inside
    rw [Disk.transfer_ok (by omega), Nat.div_eq_of_lt inside, Nat.mod_eq_of_lt inside,
      Nat.add_zero]
  have kept := listEntries_eq ((List.range 16).map root.entry) []
    (List.replicate 16 (.overlay fun _ => 0)) (by simp)
  have count := listEntries_count ((List.range 16).map root.entry)
    (List.replicate 16 (.overlay fun _ => 0)) 0
  rw [List.length_nil, List.nil_append, List.nil_append] at kept
  rw [Nat.zero_add] at count
  rw [← buffer] at kept count
  rw [listed, ← buffer]
  exact ⟨count, kept⟩

theorem listed_eq_iff : root.listed = root.liveFiles ↔
    (∀ i < 16, root.entries.length ≤ i → isFile (root.entry i) = false) ∧
    (∀ i < 16, i < root.entries.length → isFile (root.entry i) → isLiveFile (root.entry i)) ∧
    ∀ i < root.entries.length, 16 ≤ i → isLiveFile (root.entry i) = false := by
  have live : root.liveFiles =
      ((List.range root.entries.length).map root.entry).filter isLiveFile :=
    congrArg (List.filter isLiveFile) root.entries_eq
  rw [listed, live]
  exact filter_window_iff fun i inside => isFile_of_isLiveFile (root.isEnd_entry inside)

theorem name_length {entry : DirEntry} (member : entry ∈ root.liveFiles) :
    entry.name.length = 11 := by
  have kept := List.mem_of_mem_filter member
  rw [root.entries_eq] at kept
  obtain ⟨i, -, rfl⟩ := List.mem_map.mp kept
  exact root.entry_name_length i

theorem selects_eq {entry : DirEntry} (full : entry.name.length = 11) :
    selects (cString "IMAGE   .BIN") entry =
      (decide (entry.fileSize ≠ 0) && isNamedImage entry) := by
  have named : strncmpEqual 12 (fat16GetFileName entry) (cString "IMAGE   .BIN") =
      isNamedImage entry := by
    rw [Bool.eq_iff_iff, strncmpEqual_fileName full, isNamedImage, beq_iff_eq]
  rw [selects, named]

theorem loadNamedFile_loadEntry {medium : Medium} {bootSector : BootSector} {fuel : Nat}
    {addr : BitVec 32} {file : DirEntry} {s : State}
    (selected : selects (cString "IMAGE   .BIN") file = true) :
    loadNamedFile medium bootSector fuel (cString "IMAGE   .BIN") addr [file] s =
      loadEntry medium bootSector fuel addr file s := by
  rw [selects, Bool.and_eq_true, decide_eq_true_eq] at selected
  rw [loadNamedFile, if_neg selected.1, if_neg (not_not_intro selected.2)]
  rfl

/-- What `load_named_file` does with the list is what it does with the first non-empty live file
    of the name. -/
theorem loadNamedFile_listing (same : root.listed = root.liveFiles) (stale : Nat → Block)
    (s : State) (medium : Medium) (bootSector : BootSector) (fuel : Nat) (addr : BitVec 32)
    (before : State) :
    loadNamedFile medium bootSector fuel (cString "IMAGE   .BIN") addr
        (root.listing stale s).2.1 before =
      match root.liveFiles.find? fun e => decide (e.fileSize ≠ 0) && isNamedImage e with
      | none => .ok (-1, before)
      | some file => loadEntry medium bootSector fuel addr file before := by
  have found : (root.listing stale s).2.1.find? (selects (cString "IMAGE   .BIN")) =
      root.liveFiles.find? fun e => decide (e.fileSize ≠ 0) && isNamedImage e := by
    rw [(root.listing_eq stale s).2, List.find?_append, find_unfilled, Option.or_none, same]
    apply List.find?_congr
    intro entry member
    exact selects_eq (root.name_length member)
  rw [loadNamedFile_find, found]
  cases first : root.liveFiles.find? fun e => decide (e.fileSize ≠ 0) && isNamedImage e with
  | none => rfl
  | some file =>
      have wanted := List.find?_some first
      apply loadNamedFile_loadEntry
      rw [selects_eq (root.name_length (List.mem_of_find?_eq_some first))]
      exact wanted

/-- A loaded entry of a file that is not empty gives no result of an empty file. -/
theorem loadEntry_ne {medium : Medium} {bootSector : BootSector} {fuel : Nat} {addr : BitVec 32}
    {file : DirEntry} {s after : State} (nonempty : file.fileSize ≠ 0) :
    loadEntry medium bootSector fuel addr file s ≠ .ok (0, after) := by
  intro loaded
  rw [loadEntry] at loaded
  rcases read : fat16ReadFile medium bootSector addr file.fileSize.toNat fuel file.firstClusterLow s
    with stop | ⟨n, next⟩
  · rw [read] at loaded
    cases loaded
  · rw [read] at loaded
    dsimp only at loaded
    by_cases whole : n = int32 file.fileSize.toNat
    · rw [if_neg (not_not_intro whole), Except.ok.injEq, Prod.mk.injEq] at loaded
      have zero : file.fileSize.toNat = 0 :=
        int32_injective file.fileSize.isLt (by decide) (whole.symm.trans loaded.1)
      exact nonempty (BitVec.eq_of_toNat_eq zero)
    · rw [if_pos whole, Except.ok.injEq, Prod.mk.injEq] at loaded
      exact absurd loaded.1 (by decide)

theorem loadEntry_empty (medium : Medium) {bootSector : BootSector} {addr : BitVec 32}
    {file : DirEntry} (s : State) (empty : file.fileSize = 0)
    (sectorSize : bootSector.bytesPerSector ≠ 0) :
    loadEntry medium bootSector 1 addr file s = .ok (0, s) := by
  have read : fat16ReadFile medium bootSector addr file.fileSize.toNat 1 file.firstClusterLow s =
      .ok (0, s) := by
    rw [fat16ReadFile, if_neg sectorSize, readClusters, empty, if_neg fun both => by
      exact absurd both.2 (Nat.not_lt_zero _)]
    rfl
  rw [loadEntry, read, empty]
  rfl

end RootDirectory

/-- Boot finds the live files and IMAGE.BIN of a root directory exactly if the first sector of the
    directory has all of them and nothing that looks like another file, and no first IMAGE.BIN is
    empty. -/
theorem root_directory_found_iff (root : RootDirectory) (stale : Nat → Block) (s : State) :
    root.FindsImage stale s ↔ root.FirstSectorSuffices := by
  obtain ⟨count, files⟩ := root.listing_eq stale s
  constructor
  · intro finds
    have same : root.listed = root.liveFiles := by
      rw [← finds.files, count, files, List.take_left]
    obtain ⟨beyond, plain, rest⟩ := root.listed_eq_iff.mp same
    refine ⟨beyond, plain, rest, ?_⟩
    intro file first empty
    -- with an empty first file the specification returns 0, which the code never does
    let bootSector : BootSector := { root.bootSector with bytesPerSector := 512 }
    let medium : Medium := { disk := root.disk, faults := fun _ => none, stale }
    have loaded := finds.image medium bootSector 1 0 s
    have sectorSize : (512 : BitVec 16) ≠ 0 := by decide
    rw [first] at loaded
    dsimp only at loaded
    rw [root.loadNamedFile_listing same, RootDirectory.loadEntry_empty medium s empty sectorSize] at loaded
    cases other : root.liveFiles.find? fun e => decide (e.fileSize ≠ 0) && isNamedImage e with
    | none =>
        rw [other] at loaded
        cases loaded
    | some taken =>
        rw [other] at loaded
        have nonempty := List.find?_some other
        rw [Bool.and_eq_true, decide_eq_true_eq] at nonempty
        exact RootDirectory.loadEntry_ne nonempty.1 loaded
  · intro suffices_
    have same := root.listed_eq_iff.mpr ⟨suffices_.stale, suffices_.plain, suffices_.rest⟩
    refine ⟨by rw [count, same], ?_, ?_⟩
    · rw [count, files, List.take_left, same]
    · intro medium bootSector fuel addr before
      rw [root.loadNamedFile_listing same, find?_and_of_first]
      intro file first
      exact decide_eq_true (suffices_.image file first)

/-- Sixteen files, and IMAGE.BIN behind them in the second sector of the directory. -/
def seventeenFiles : RootDirectory where
  disk := fun sector i =>
    if sector = 2049 then if i % 32 = 0 then 0x41 else 0
    else if sector = 2050 then imageDirectory i
    else 0
  bootSector := bswapBootSector (.overlay fun i => if i = 14 then 1 else if i = 17 then 32 else 0)
  partLba := 2048

theorem seventeenth_file_not_found :
    seventeenFiles.liveFiles.find? isNamedImage = some imageEntry ∧
      ¬seventeenFiles.FindsImage (fun _ _ => 0)
        { memory := fun _ => 0, cache := .empty, partLba := 2048, reads := [] } := by
  refine ⟨by decide +kernel, fun finds => ?_⟩
  have count := finds.count
  rw [(seventeenFiles.listing_eq _ _).1] at count
  exact absurd count (by decide +kernel)

end Mackerel.Bootloader
