import Mackerel.Bootloader.Boot
import Mackerel.Fat16.ReadFileExact
import Mathlib.Data.List.Find
import Mathlib.Data.List.TakeWhile

namespace Mackerel.Bootloader

open Bytes Fat16

section Names

theorem strncmpEqual_iff (text name : List Byte) (nonzero : ∀ byte ∈ text, byte ≠ 0)
    (long : text.length ≤ name.length) :
    strncmpEqual text.length name text = true ↔ name.take text.length = text := by
  induction text generalizing name with
  | nil => simp [strncmpEqual]
  | cons byte text induction_hypothesis =>
      cases name with
      | nil => simp at long
      | cons first name =>
          have later := induction_hypothesis name
            (fun other member => nonzero other (List.mem_cons_of_mem _ member)) (by simpa using long)
          have head := nonzero byte List.mem_cons_self
          simp only [List.length_cons, strncmpEqual, List.headD_cons, List.tail_cons,
            Bool.and_eq_true, Bool.or_eq_true, beq_iff_eq, later, List.take_succ_cons,
            List.cons.injEq]
          constructor
          · rintro ⟨rfl, zero | same⟩
            · exact (head zero).elim
            · exact ⟨rfl, same⟩
          · rintro ⟨rfl, same⟩
            exact ⟨rfl, .inr same⟩

/-- A field without a zero is copied as it is, and no other field gives its text. -/
theorem strncpy_eq_iff (text name : List Byte) (nonzero : ∀ byte ∈ text, byte ≠ 0)
    (same : name.length = text.length) :
    strncpy name text.length = text ↔ name = text := by
  constructor
  · intro copied
    unfold strncpy at copied
    dsimp only at copied
    have full : text.length - ((name.takeWhile (· ≠ 0)).take text.length).length = 0 := by
      by_contra padded
      obtain ⟨count, padding⟩ := Nat.exists_eq_succ_of_ne_zero padded
      apply nonzero 0
      · rw [← copied, padding]
        simp
      · rfl
    rw [full, List.replicate_zero, List.append_nil] at copied
    have whole : (name.takeWhile (· ≠ 0)).length = name.length := by
      have short := (List.takeWhile_prefix (fun byte : Byte => decide (byte ≠ 0)) (l := name)).length_le
      rw [List.length_take] at full
      omega
    have kept := (List.takeWhile_prefix (fun byte : Byte => decide (byte ≠ 0)) (l := name)).eq_of_length
      whole
    rw [kept, List.take_of_length_le (by omega)] at copied
    exact copied
  · rintro rfl
    have kept : name.takeWhile (· ≠ 0) = name := by
      rw [List.takeWhile_eq_self_iff]
      intro byte member
      simpa using nonzero byte member
    unfold strncpy
    rw [kept]
    simp

theorem strncpy_length (name : List Byte) (count : Nat) : (strncpy name count).length = count := by
  simp [strncpy]

/-- The comparison of `load_named_file` on the eleven bytes of an entry. -/
theorem strncmpEqual_fileName {entry : DirEntry} (full : entry.name.length = 11) :
    strncmpEqual 12 (fat16GetFileName entry) (cString "IMAGE   .BIN") = true ↔
      entry.name = cString "IMAGE   BIN" := by
  have stem : (strncpy (entry.name.take 8) 8).length = (cString "IMAGE   ").length :=
    strncpy_length _ _
  have extension : (strncpy (entry.name.drop 8) 3).length = 3 := strncpy_length _ _
  have kept : (fat16GetFileName entry).take 12 =
      strncpy (entry.name.take 8) 8 ++ (cString "." ++ strncpy (entry.name.drop 8) 3) := by
    rw [fat16GetFileName, List.append_assoc (strncpy (entry.name.take 8) 8), List.take_append_of_le_length]
    · rw [List.take_of_length_le]
      simp [strncpy_length, cString]
    · simp [strncpy_length, cString]
  have parts : cString "IMAGE   .BIN" = cString "IMAGE   " ++ (cString "." ++ cString "BIN") := by decide
  have whole : cString "IMAGE   BIN" = cString "IMAGE   " ++ cString "BIN" := by decide
  have compared := strncmpEqual_iff (cString "IMAGE   .BIN") (fat16GetFileName entry)
    (by decide) (by simp [fat16GetFileName, strncpy_length, cString])
  have stemIff := strncpy_eq_iff (cString "IMAGE   ") (entry.name.take 8) (by decide)
    (by rw [List.length_take, full]; rfl)
  have extensionIff := strncpy_eq_iff (cString "BIN") (entry.name.drop 8) (by decide)
    (by rw [List.length_drop, full]; rfl)
  change strncmpEqual 12 _ _ = true ↔ (fat16GetFileName entry).take 12 = _ at compared
  change strncpy _ 8 = _ ↔ _ at stemIff
  change strncpy _ 3 = _ ↔ _ at extensionIff
  rw [compared, kept, parts, whole]
  constructor
  · intro same
    obtain ⟨stemSame, rest⟩ := List.append_inj same stem
    obtain ⟨-, extensionSame⟩ := List.append_inj rest rfl
    rw [← List.take_append_drop 8 entry.name, stemIff.mp stemSame, extensionIff.mp extensionSame]
  · intro same
    have split := List.take_append_drop 8 entry.name
    rw [same] at split
    obtain ⟨stemSame, extensionSame⟩ := List.append_inj split (by rw [← same, List.length_take, full]; rfl)
    rw [stemIff.mpr (by rw [same]; exact stemSame), extensionIff.mpr (by rw [same]; exact extensionSame)]

end Names

/-- An entry that `fat16_list_files` keeps. -/
def isFile (entry : DirEntry) : Bool :=
  !(entry.name.headD 0 == 0x00 || entry.name.headD 0 == 0xE5) && entry.attributes &&& 0x10 == 0

theorem listEntries_cons (entry : DirEntry) (rest : List DirEntry) (validFiles : Nat)
    (filesList : List DirEntry) :
    listEntries (entry :: rest) validFiles filesList =
      if isFile entry then listEntries rest (validFiles + 1) (filesList.set validFiles entry)
      else listEntries rest validFiles filesList := by
  rw [listEntries]
  by_cases unused : entry.name.headD 0 = 0x00 ∨ entry.name.headD 0 = 0xE5
  · have skipped : isFile entry = false := by
      rcases unused with free | deleted
      · rw [isFile, free]
        rfl
      · rw [isFile, deleted]
        rfl
    rw [if_pos unused, skipped, if_neg Bool.false_ne_true]
  · rw [if_neg unused]
    rw [not_or] at unused
    by_cases directory : entry.attributes &&& 0x10 ≠ 0
    · have skipped : isFile entry = false := by
        rw [isFile, beq_false_of_ne directory, Bool.and_false]
      rw [if_pos directory, skipped, if_neg Bool.false_ne_true]
    · have kept : isFile entry = true := by
        rw [not_not] at directory
        rw [isFile, directory, beq_false_of_ne unused.1, beq_false_of_ne unused.2]
        rfl
      rw [if_neg directory, if_pos kept]

/-- The kept entries go to the front of the list, in their order. -/
theorem listEntries_eq (entries kept free : List DirEntry) (room : entries.length ≤ free.length) :
    (listEntries entries kept.length (kept ++ free)).2 =
      kept ++ entries.filter isFile ++ free.drop (entries.filter isFile).length := by
  induction entries generalizing kept free with
  | nil => simp [listEntries]
  | cons entry rest induction_hypothesis =>
      rw [List.length_cons] at room
      rw [listEntries_cons]
      by_cases file : isFile entry = true
      · cases free with
        | nil => simp at room
        | cons slot free =>
            have later := induction_hypothesis (kept ++ [entry]) free (by simpa using room)
            rw [if_pos file, List.filter_cons_of_pos file]
            simpa [List.append_assoc] using later
      · rw [if_neg file, List.filter_cons_of_neg file]
        exact induction_hypothesis kept free (by omega)

theorem listEntries_count (entries filesList : List DirEntry) (validFiles : Nat) :
    (listEntries entries validFiles filesList).1 = validFiles + (entries.filter isFile).length := by
  induction entries generalizing validFiles filesList with
  | nil => rfl
  | cons entry rest induction_hypothesis =>
      rw [listEntries_cons]
      by_cases file : isFile entry = true
      · rw [if_pos file, induction_hypothesis, List.filter_cons_of_pos file, List.length_cons]
        omega
      · rw [if_neg file, induction_hypothesis, List.filter_cons_of_neg file]

/-- An entry that `load_named_file` takes. -/
def selects (name12 : List Byte) (file : DirEntry) : Bool :=
  decide (file.fileSize ≠ 0) && strncmpEqual 12 (fat16GetFileName file) name12

theorem loadNamedFile_find (medium : Medium) (bootSector : BootSector) (fuel : Nat)
    (name12 : List Byte) (addr : BitVec 32) (files : List DirEntry) (s : State) :
    loadNamedFile medium bootSector fuel name12 addr files s =
      match files.find? (selects name12) with
      | none => .ok (-1, s)
      | some file => loadNamedFile medium bootSector fuel name12 addr [file] s := by
  induction files with
  | nil => rfl
  | cons file rest induction_hypothesis =>
      by_cases empty : file.fileSize = 0
      · rw [loadNamedFile, if_pos empty, induction_hypothesis, List.find?_cons_of_neg]
        simp [selects, empty]
      · by_cases same : strncmpEqual 12 (fat16GetFileName file) name12 = true
        · have taken : selects name12 file = true := by
            rw [selects, decide_eq_true empty, same]
            rfl
          rw [List.find?_cons_of_pos taken]
          dsimp only
          rw [loadNamedFile, loadNamedFile, if_neg empty, if_neg empty,
            if_neg (not_not_intro same), if_neg (not_not_intro same)]
        · rw [loadNamedFile, if_neg empty, if_pos same, induction_hypothesis, List.find?_cons_of_neg]
          rw [selects, Bool.and_eq_true]
          exact fun both => same both.2

def directory (buffer : Block) : List DirEntry := (List.range 16).map (directoryEntry buffer)

/-- A file named IMAGE.BIN that is not empty. -/
def isImage (entry : DirEntry) : Bool :=
  entry.name == cString "IMAGE   BIN" && entry.attributes &&& 0x10 == 0 && entry.fileSize != 0

theorem directory_name_length {buffer : Block} {entry : DirEntry} (member : entry ∈ directory buffer) :
    entry.name.length = 11 := by
  obtain ⟨i, -, rfl⟩ := List.mem_map.mp member
  simp [directoryEntry, bswapDirEntry, DirEntry.overlay]

theorem directory_congr {first second : Block} (same : ∀ i, i < 512 → first i = second i) :
    directory first = directory second := by
  apply List.map_congr_left
  intro i member
  have bound := List.mem_range.mp member
  unfold directoryEntry
  rw [DirEntry.overlay_congr fun j inside => same (i * 32 + j) (by omega)]

theorem directory_find_first {buffer : Block} (image : isImage (directoryEntry buffer 0) = true) :
    (directory buffer).find? isImage = some (directoryEntry buffer 0) := by
  rw [directory, List.range_succ_eq_map, List.map_cons]
  exact List.find?_cons_of_pos image

/-- The filters of `fat16_list_files` and `load_named_file` together. -/
theorem isFile_and_selects {entry : DirEntry} (full : entry.name.length = 11) :
    (isFile entry && selects (cString "IMAGE   .BIN") entry) = isImage entry := by
  have named := strncmpEqual_fileName full
  have first : entry.name = cString "IMAGE   BIN" →
      entry.name.headD 0 ≠ 0x00 ∧ entry.name.headD 0 ≠ 0xE5 := by
    intro same
    rw [same]
    decide
  rw [Bool.eq_iff_iff]
  simp only [isFile, selects, isImage, Bool.and_eq_true, Bool.not_eq_true', Bool.or_eq_false_iff,
    beq_eq_false_iff_ne, beq_iff_eq, decide_eq_true_eq, bne_iff_ne, named]
  constructor
  · rintro ⟨⟨-, plain⟩, nonempty, same⟩
    exact ⟨⟨same, plain⟩, nonempty⟩
  · intro ⟨⟨same, plain⟩, nonempty⟩
    exact ⟨⟨first same, plain⟩, nonempty, same⟩

/-- A slot that `list_entries` has not filled names no file. -/
theorem find_unfilled (count : Nat) :
    ((List.replicate 16 (DirEntry.overlay fun _ => 0)).drop count).find?
      (selects (cString "IMAGE   .BIN")) = none := by
  rw [List.find?_eq_none]
  intro entry member
  obtain ⟨-, rfl⟩ := List.mem_replicate.mp (List.mem_of_mem_drop member)
  simp [selects, DirEntry.overlay, wordAt]

theorem find_listed (buffer : Block) :
    (listEntries (directory buffer) 0 (List.replicate 16 (.overlay fun _ => 0))).2.find?
        (selects (cString "IMAGE   .BIN")) =
      (directory buffer).find? isImage := by
  have listed := listEntries_eq (directory buffer) [] (List.replicate 16 (.overlay fun _ => 0))
    (by simp [directory])
  rw [List.length_nil, List.nil_append, List.nil_append] at listed
  rw [listed, List.find?_append, find_unfilled, Option.or_none, List.find?_filter]
  apply List.find?_congr
  intro entry member
  rw [← isFile_and_selects (directory_name_length member)]
  simp

end Mackerel.Bootloader
