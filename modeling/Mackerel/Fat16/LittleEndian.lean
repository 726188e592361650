import Mackerel.Fat16.Layouts

namespace Mackerel.Fat16

open Bytes

section Stores

variable {block : Block} {at_ : Nat}

theorem storeHalf_bytes (first second : Byte) (i : Nat) : storeHalf block at_ (first ++ second) i =
    if i = at_ then first else if i = at_ + 1 then second else block i := by
  have high : (first ++ second).extractLsb' 8 8 = first := BitVec.extractLsb'_append_eq_left
  have low : (first ++ second).extractLsb' 0 8 = second := BitVec.extractLsb'_append_eq_right
  rw [storeHalf, high, low]

theorem storeWord_bytes (first second third fourth : Byte) (i : Nat) :
    storeWord block at_ (first ++ second ++ third ++ fourth) i =
      if i = at_ then first else if i = at_ + 1 then second else if i = at_ + 2 then third
      else if i = at_ + 3 then fourth else block i := by
  have byte3 : (first ++ second ++ third ++ fourth).extractLsb' (0 + 8 + 8 + 8) 8 = first := by
    rw [extract_append, extract_append, extract_append]
    exact BitVec.extractLsb'_eq_self
  have byte2 : (first ++ second ++ third ++ fourth).extractLsb' (0 + 8 + 8) 8 = second := by
    rw [extract_append, extract_append]
    exact BitVec.extractLsb'_append_eq_right
  have byte1 : (first ++ second ++ third ++ fourth).extractLsb' (0 + 8) 8 = third := by
    rw [extract_append]
    exact BitVec.extractLsb'_append_eq_right
  have byte0 : (first ++ second ++ third ++ fourth).extractLsb' 0 8 = fourth :=
    BitVec.extractLsb'_append_eq_right
  rw [storeWord, byte3, byte2, byte1, byte0]

theorem swap16_eq : swap16 at_ block = Span.reverse ⟨at_, 2⟩ block := by
  have swapped : bswap16 (halfAt block at_) = block (at_ + 1) ++ block at_ := bswap16_bytes _ _
  funext i
  rw [swap16, swapped, storeHalf_bytes, Span.reverse]
  by_cases here : Span.Has ⟨at_, 2⟩ i
  · obtain ⟨j, rfl⟩ := Nat.exists_eq_add_of_le here.1
    have within : j < 2 := Nat.lt_of_add_lt_add_left here.2
    rw [Span.mirror_add ⟨at_, 2⟩ within]
    have place : j = 0 ∨ j = 1 := by omega
    cases place with
    | inl first => simp [first]
    | inr second => simp [second]
  · rw [Span.mirror_of_not_has here]
    simp only [Span.Has] at here
    rw [if_neg (by omega), if_neg (by omega)]

theorem swap32_eq : swap32 at_ block = Span.reverse ⟨at_, 4⟩ block := by
  have swapped : bswap32 (wordAt block at_) =
      block (at_ + 3) ++ block (at_ + 2) ++ block (at_ + 1) ++ block at_ := bswap32_bytes _ _ _ _
  funext i
  rw [swap32, swapped, storeWord_bytes, Span.reverse]
  by_cases here : Span.Has ⟨at_, 4⟩ i
  · obtain ⟨j, rfl⟩ := Nat.exists_eq_add_of_le here.1
    have within : j < 4 := Nat.lt_of_add_lt_add_left here.2
    rw [Span.mirror_add ⟨at_, 4⟩ within]
    have place : j = 0 ∨ j = 1 ∨ j = 2 ∨ j = 3 := by omega
    rcases place with rfl | rfl | rfl | rfl <;> simp
  · rw [Span.mirror_of_not_has here]
    simp only [Span.Has] at here
    rw [if_neg (by omega), if_neg (by omega), if_neg (by omega), if_neg (by omega)]

end Stores

namespace FieldType

variable {block after : Block} {at_ : Nat} {type : FieldType}

/-- The load from a number whose bytes are in the opposite order. -/
theorem load_of_mirrored (number : type.multiByte = true)
    (mirrored : ∀ i, Span.Has ⟨at_, type.size⟩ i → after i = block (Span.mirror ⟨at_, type.size⟩ i)) :
    type.load after at_ = type.littleEndian block at_ := by
  have byte (j : Nat) (within : j < type.size) : after (at_ + j) = block (at_ + (type.size - 1 - j)) := by
    rw [mirrored _ (Span.has_add within), Span.mirror_add ⟨at_, type.size⟩ within]
  cases type with
  | uint8 => cases number
  | array count => cases number
  | uint16 =>
      have first : after at_ = block (at_ + 1) := byte 0 (by decide)
      have second : after (at_ + 1) = block at_ := byte 1 (by decide)
      apply BitVec.eq_of_toNat_eq
      change (after at_ ++ after (at_ + 1)).toNat = (BitVec.ofNat 16 _).toNat
      rw [first, second, append_toNat, BitVec.toNat_ofNat]
      omega
  | uint32 =>
      have first : after at_ = block (at_ + 3) := byte 0 (by decide)
      have second : after (at_ + 1) = block (at_ + 2) := byte 1 (by decide)
      have third : after (at_ + 2) = block (at_ + 1) := byte 2 (by decide)
      have fourth : after (at_ + 3) = block at_ := byte 3 (by decide)
      apply BitVec.eq_of_toNat_eq
      change (after at_ ++ after (at_ + 1) ++ after (at_ + 2) ++ after (at_ + 3)).toNat =
        (BitVec.ofNat 32 _).toNat
      rw [first, second, third, fourth, append_toNat, append_toNat, append_toNat, BitVec.toNat_ofNat]
      omega

theorem load_of_kept (text : type.multiByte = false)
    (kept : ∀ i, Span.Has ⟨at_, type.size⟩ i → after i = block i) :
    type.load after at_ = type.littleEndian block at_ := by
  cases type with
  | uint8 => exact kept at_ ⟨Nat.le_refl _, Nat.lt_succ_self _⟩
  | uint16 => cases text
  | uint32 => cases text
  | array count =>
      apply List.map_congr_left
      intro i member
      exact kept _ (Span.has_add (List.mem_range.mp member))

end FieldType

/-- A packed structure, and its fields in the order in which they are swapped. -/
structure SwappedLayout (φ : Type) where
  layout : Layout φ
  type : φ → FieldType
  sizes : ∀ field, layout.size field = (type field).size
  swaps : List φ
  distinct : swaps.Nodup
  numbers : ∀ field, field ∈ swaps ↔ (type field).multiByte = true

namespace SwappedLayout

variable {φ : Type} [DecidableEq φ] (swapped : SwappedLayout φ)

def apply (base : Nat) (block : Block) : Block :=
  Span.reverseAll (swapped.swaps.map (swapped.layout.span base)) block

variable {base i : Nat} {block : Block} {field : φ}

theorem apply_number (number : (swapped.type field).multiByte = true)
    (here : (swapped.layout.span base field).Has i) :
    swapped.apply base block i = block ((swapped.layout.span base field).mirror i) :=
  Span.reverseAll_of_has (swapped.layout.spans_pairwise base swapped.distinct)
    (List.mem_map_of_mem ((swapped.numbers field).mpr number)) here

theorem apply_text (text : (swapped.type field).multiByte = false)
    (here : (swapped.layout.span base field).Has i) : swapped.apply base block i = block i := by
  apply Span.reverseAll_of_not_has
  intro span member
  obtain ⟨other, listed, rfl⟩ := List.mem_map.mp member
  have distinct : field ≠ other := by
    intro same
    subst same
    exact ne_true_of_eq_false text ((swapped.numbers field).mp listed)
  exact (swapped.layout.span_apart base distinct).not_has here

/-- Every field gets its value. -/
theorem load_apply (base : Nat) (block : Block) (field : φ) :
    (swapped.type field).load (swapped.apply base block) (base + swapped.layout.offset field) =
      (swapped.type field).littleEndian block (base + swapped.layout.offset field) := by
  have place : swapped.layout.span base field =
      ⟨base + swapped.layout.offset field, (swapped.type field).size⟩ := by
    rw [Layout.span, swapped.sizes]
  cases kind : (swapped.type field).multiByte with
  | true =>
      apply FieldType.load_of_mirrored kind
      rw [← place]
      exact fun i here => swapped.apply_number kind here
  | false =>
      apply FieldType.load_of_kept kind
      rw [← place]
      exact fun i here => swapped.apply_text kind here

/-- Nothing outside of the structure changes. -/
theorem apply_outside (outside : i < base ∨ base + swapped.layout.total ≤ i) :
    swapped.apply base block i = block i := by
  apply Span.reverseAll_of_not_has
  intro span member here
  obtain ⟨field, -, rfl⟩ := List.mem_map.mp member
  have inside := swapped.layout.inside_of_has here
  omega

theorem apply_apply : swapped.apply base (swapped.apply base block) = block :=
  Span.reverseAll_reverseAll (swapped.layout.spans_pairwise base swapped.distinct)

end SwappedLayout

/-- What `bswap_boot_sector` swaps. -/
def bootSectorSwaps : SwappedLayout BootSectorField where
  layout := bootSectorLayout
  type := BootSectorField.type
  sizes _ := rfl
  swaps := [.bytesPerSector, .reservedSectors, .rootEntries, .totalSectors16, .fatSize16, .sectorsPerTrack,
    .heads, .hiddenSectors, .totalSectors32, .volumeId, .bootSectorSignature]
  distinct := by decide
  numbers field := by cases field <;> decide

/-- What `bswap_dir_entry` swaps. -/
def dirEntrySwaps : SwappedLayout DirEntryField where
  layout := dirEntryLayout
  type := DirEntryField.type
  sizes _ := rfl
  swaps := [.creationTime, .creationDate, .lastAccessDate, .firstClusterHigh, .modificationTime,
    .modificationDate, .firstClusterLow, .fileSize]
  distinct := by decide
  numbers field := by cases field <;> decide

theorem bswapBootSectorAt_eq (b : Nat) (block : Block) :
    bswapBootSectorAt b block = bootSectorSwaps.apply b block := by
  simp only [bswapBootSectorAt, swap16_eq, swap32_eq]
  rfl

theorem bswapDirEntryAt_eq (d : Nat) (block : Block) :
    bswapDirEntryAt d block = dirEntrySwaps.apply d block := by
  simp only [bswapDirEntryAt, swap16_eq, swap32_eq]
  rfl

theorem bswapDirEntryAt_outside {d place : Nat} {block : Block} (outside : place < d ∨ d + 32 ≤ place) :
    bswapDirEntryAt d block place = block place := by
  rw [bswapDirEntryAt_eq]
  exact dirEntrySwaps.apply_outside outside

theorem bswapDirEntryAt_load (d : Nat) (block : Block) (field : DirEntryField) :
    field.type.load (bswapDirEntryAt d block) (d + dirEntryLayout.offset field) =
      field.type.littleEndian block (d + field.fat16Offset) := by
  rw [bswapDirEntryAt_eq, ← dirEntryLayout_offset]
  exact dirEntrySwaps.load_apply d block field

theorem bswapDirEntryAt_text {d j : Nat} {block : Block} (field : DirEntryField)
    (text : field.type.multiByte = false) (low : field.fat16Offset ≤ j)
    (high : j < field.fat16Offset + field.type.size) : bswapDirEntryAt d block (d + j) = block (d + j) := by
  have here : (dirEntryLayout.span d field).Has (d + j) := by
    have size : dirEntryLayout.size field = field.type.size := rfl
    simp only [Span.Has, Layout.span, dirEntryLayout_offset, size]
    omega
  rw [bswapDirEntryAt_eq]
  exact dirEntrySwaps.apply_text text here

theorem bswapDirEntryAt_twice (d : Nat) (block : Block) : bswapDirEntryAt d (bswapDirEntryAt d block) = block := by
  rw [bswapDirEntryAt_eq, bswapDirEntryAt_eq]
  exact dirEntrySwaps.apply_apply

section Values

variable {block after : Block} {at_ : Nat}

theorem halfAt_of_load
    (value : FieldType.uint16.load after at_ = FieldType.uint16.littleEndian block at_) :
    halfAt after at_ = bswap16 (halfAt block at_) := by
  have swapped : BitVec.ofNat 16 ((block at_).toNat + 2 ^ 8 * (block (at_ + 1)).toNat) =
      bswap16 (halfAt block at_) := by
    rw [halfAt, bswap16_bytes]
    apply BitVec.eq_of_toNat_eq
    rw [append_toNat, BitVec.toNat_ofNat]
    omega
  exact Eq.trans value swapped

theorem wordAt_of_load
    (value : FieldType.uint32.load after at_ = FieldType.uint32.littleEndian block at_) :
    wordAt after at_ = bswap32 (wordAt block at_) := by
  have swapped : BitVec.ofNat 32 ((block at_).toNat + 2 ^ 8 * (block (at_ + 1)).toNat +
      2 ^ 16 * (block (at_ + 2)).toNat + 2 ^ 24 * (block (at_ + 3)).toNat) = bswap32 (wordAt block at_) := by
    rw [wordAt, bswap32_bytes]
    apply BitVec.eq_of_toNat_eq
    rw [append_toNat, append_toNat, append_toNat, BitVec.toNat_ofNat]
    omega
  exact Eq.trans value swapped

end Values

theorem overlay_bswapBootSectorAt (sector : Block) :
    BootSector.overlay (bswapBootSectorAt 0 sector) = bswapBootSector (.overlay sector) := by
  have value (field : BootSectorField) := bootSectorSwaps.load_apply 0 sector field
  rw [bswapBootSectorAt_eq, bswapBootSector, BootSector.overlay, BootSector.mk.injEq]
  exact ⟨halfAt_of_load (value .bytesPerSector), value .sectorsPerCluster,
    halfAt_of_load (value .reservedSectors), value .numFats, halfAt_of_load (value .rootEntries),
    halfAt_of_load (value .totalSectors16), value .mediaDescriptor, halfAt_of_load (value .fatSize16),
    halfAt_of_load (value .sectorsPerTrack), halfAt_of_load (value .heads),
    wordAt_of_load (value .hiddenSectors), wordAt_of_load (value .totalSectors32), value .driveNumber,
    value .bootSignature, wordAt_of_load (value .volumeId), halfAt_of_load (value .bootSectorSignature)⟩

theorem halfAt_shift (block : Block) (base at_ : Nat) :
    halfAt (fun j => block (base + j)) at_ = halfAt block (base + at_) := rfl

theorem wordAt_shift (block : Block) (base at_ : Nat) :
    wordAt (fun j => block (base + j)) at_ = wordAt block (base + at_) := rfl

theorem overlay_bswapDirEntryAt (buffer : Block) (i : Nat) :
    (DirEntry.overlay fun j => bswapDirEntryAt (i * 32) buffer (i * 32 + j)) = directoryEntry buffer i := by
  generalize base : i * 32 = d
  have value (field : DirEntryField) : field.type.load (bswapDirEntryAt d buffer) (d + field.fat16Offset) =
      field.type.littleEndian buffer (d + field.fat16Offset) := by
    rw [← bswapDirEntryAt_load, dirEntryLayout_offset]
  have name : (List.range 11).map (fun j => bswapDirEntryAt d buffer (d + j)) =
      (List.range 11).map fun j => buffer (d + j) := by
    apply List.map_congr_left
    intro j member
    have bound := List.mem_range.mp member
    by_cases short : j < 8
    · exact bswapDirEntryAt_text .filename rfl (Nat.zero_le j) short
    · exact bswapDirEntryAt_text .extension rfl (Nat.le_of_not_lt short) bound
  rw [directoryEntry, base, bswapDirEntry, DirEntry.overlay, DirEntry.mk.injEq]
  simp only [DirEntry.overlay, halfAt_shift, wordAt_shift]
  exact ⟨name, value .attributes, halfAt_of_load (value .creationTime),
    halfAt_of_load (value .creationDate), halfAt_of_load (value .lastAccessDate),
    halfAt_of_load (value .firstClusterHigh), halfAt_of_load (value .modificationTime),
    halfAt_of_load (value .modificationDate), halfAt_of_load (value .firstClusterLow),
    wordAt_of_load (value .fileSize)⟩

section Listing

variable {directory : Block} {filesList : List DirEntry}

theorem listTurn_buffer (i : Nat) (s : Listing) : (listTurn i s).buffer = bswapDirEntryAt (i * 32) s.buffer := by
  unfold listTurn
  dsimp only
  split
  · rfl
  · split <;> rfl

/-- The entries that the loop has not come to are as they were read. -/
theorem listing_buffer_later {count place : Nat} (later : count * 32 ≤ place) :
    (listing directory filesList count).buffer place = directory place := by
  induction count with
  | zero => rfl
  | succ count ih =>
      rw [listing, listTurn_buffer, bswapDirEntryAt_outside (by omega), ih (by omega)]

theorem listing_buffer_earlier {i count place : Nat} (passed : i < count) (inside : place < i * 32 + 32) :
    (listing directory filesList count).buffer place = (listing directory filesList (i + 1)).buffer place := by
  obtain ⟨more, rfl⟩ := Nat.exists_eq_add_of_le passed
  induction more with
  | zero => rfl
  | succ more ih =>
      rw [← Nat.add_assoc, listing, listTurn_buffer, bswapDirEntryAt_outside (by omega), ih (by omega)]

theorem listEntries_append (first second : List DirEntry) (validFiles : Nat) :
    listEntries (first ++ second) validFiles filesList =
      listEntries second (listEntries first validFiles filesList).1
        (listEntries first validFiles filesList).2 := by
  induction first generalizing validFiles filesList with
  | nil => rfl
  | cons entry rest ih =>
      rw [List.cons_append, listEntries, listEntries]
      split
      · exact ih _
      · split
        · exact ih _
        · exact ih _

theorem directoryEntry_listing (i : Nat) :
    directoryEntry (listing directory filesList i).buffer i = directoryEntry directory i := by
  unfold directoryEntry
  rw [DirEntry.overlay_congr fun j _ => listing_buffer_later (Nat.le_add_right (i * 32) j)]

/-- The loop over the buffer lists the decoded entries of the sector. -/
theorem listEntries_eq (directory : Block) (filesList : List DirEntry) (count : Nat) :
    listEntries ((List.range count).map (directoryEntry directory)) 0 filesList =
      ((listing directory filesList count).validFiles, (listing directory filesList count).filesList) := by
  induction count with
  | zero => rfl
  | succ i ih =>
      have entry := overlay_bswapDirEntryAt (listing directory filesList i).buffer i
      rw [directoryEntry_listing] at entry
      rw [List.range_succ, List.map_append, listEntries_append, ih, listing, listTurn, List.map_singleton]
      dsimp only
      rw [entry, listEntries]
      split
      · rfl
      · split <;> rfl

end Listing

theorem FieldType.values_congr {first second : Block} {at_ : Nat} (type : FieldType)
    (same : ∀ j, j < type.size → first (at_ + j) = second (at_ + j)) :
    type.load first at_ = type.load second at_ ∧
      type.littleEndian first at_ = type.littleEndian second at_ := by
  cases type with
  | uint8 => exact ⟨same 0 Nat.one_pos, same 0 Nat.one_pos⟩
  | uint16 =>
      have byte0 : first at_ = second at_ := same 0 (by decide)
      have byte1 := same 1 (by decide)
      simp only [load, littleEndian, halfAt, byte0, byte1]
      exact ⟨rfl, rfl⟩
  | uint32 =>
      have byte0 : first at_ = second at_ := same 0 (by decide)
      have byte1 := same 1 (by decide)
      have byte2 := same 2 (by decide)
      have byte3 := same 3 (by decide)
      simp only [load, littleEndian, wordAt, byte0, byte1, byte2, byte3]
      exact ⟨rfl, rfl⟩
  | array count =>
      have text := List.map_congr_left fun j member => same j (List.mem_range.mp member)
      exact ⟨text, text⟩

theorem bswapBootSectorAt_load (b : Nat) (block : Block) (field : BootSectorField) :
    field.type.load (bswapBootSectorAt b block) (b + bootSectorLayout.offset field) =
      field.type.littleEndian block (b + field.fat16Offset) := by
  rw [bswapBootSectorAt_eq, ← bootSectorLayout_offset]
  exact bootSectorSwaps.load_apply b block field

theorem bswapBootSectorAt_twice (b : Nat) (block : Block) :
    bswapBootSectorAt b (bswapBootSectorAt b block) = block := by
  rw [bswapBootSectorAt_eq, bswapBootSectorAt_eq]
  exact bootSectorSwaps.apply_apply

/-- From its turn on an entry has the values that the sector was read with. -/
theorem listing_load (directory : Block) (filesList : List DirEntry) {i count : Nat} (passed : i < count)
    (field : DirEntryField) :
    field.type.load (listing directory filesList count).buffer (i * 32 + dirEntryLayout.offset field) =
      field.type.littleEndian directory (i * 32 + field.fat16Offset) := by
  have inside : field.fat16Offset + field.type.size ≤ 32 := by cases field <;> decide
  have swapped := bswapDirEntryAt_load (i * 32) (listing directory filesList i).buffer field
  rw [dirEntryLayout_offset] at swapped ⊢
  have before : field.type.littleEndian (listing directory filesList i).buffer (i * 32 + field.fat16Offset) =
      field.type.littleEndian directory (i * 32 + field.fat16Offset) :=
    (field.type.values_congr fun j _ => listing_buffer_later (by omega)).2
  have later : field.type.load (listing directory filesList count).buffer (i * 32 + field.fat16Offset) =
      field.type.load (listing directory filesList (i + 1)).buffer (i * 32 + field.fat16Offset) :=
    (field.type.values_congr fun j within => listing_buffer_earlier passed (by omega)).1
  rw [later, listing, listTurn_buffer, swapped, before]

/-- Every field of the boot sector and of the directory entries has its little-endian value once it is
    swapped; an entry is swapped alone, and a second swap gives the bytes back. -/
theorem structures_little_endian :
    (∀ (sector : Block) (b : Nat),
      (∀ field : BootSectorField,
        field.type.load (bswapBootSectorAt b sector) (b + bootSectorLayout.offset field) =
          field.type.littleEndian sector (b + field.fat16Offset)) ∧
      bswapBootSectorAt b (bswapBootSectorAt b sector) = sector) ∧
    ∀ (directory : Block) (filesList : List DirEntry) (i : Nat),
      (∀ count, i < count → ∀ field : DirEntryField,
        field.type.load (listing directory filesList count).buffer
            (i * 32 + dirEntryLayout.offset field) =
          field.type.littleEndian directory (i * 32 + field.fat16Offset)) ∧
      (∀ place, place < i * 32 ∨ i * 32 + 32 ≤ place →
        (listing directory filesList (i + 1)).buffer place =
          (listing directory filesList i).buffer place) ∧
      bswapDirEntryAt (i * 32) (listing directory filesList (i + 1)).buffer =
        (listing directory filesList i).buffer := by
  constructor
  · exact fun sector b => ⟨bswapBootSectorAt_load b sector, bswapBootSectorAt_twice b sector⟩
  · intro directory filesList i
    have turned : (listing directory filesList (i + 1)).buffer =
        bswapDirEntryAt (i * 32) (listing directory filesList i).buffer := listTurn_buffer i _
    rw [turned, bswapDirEntryAt_twice]
    exact ⟨fun count passed field => listing_load directory filesList passed field,
      fun place outside => bswapDirEntryAt_outside outside, rfl⟩

end Mackerel.Fat16
