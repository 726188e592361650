import Mackerel.Bytes.Packed
import Mackerel.Fat16.Directory

namespace Mackerel.Fat16

open Bytes

/-! The packed structures of `fat16.h` in the bytes of a sector, and the swaps of their fields in
place. -/

/-- The types of the fields; `array` is an array of `uint8_t`. -/
inductive FieldType where
  | uint8
  | uint16
  | uint32
  | array (count : Nat)

namespace FieldType

def size : FieldType → Nat
  | uint8 => 1
  | uint16 => 2
  | uint32 => 4
  | array count => count

def multiByte : FieldType → Bool
  | uint8 | array _ => false
  | uint16 | uint32 => true

def Value : FieldType → Type
  | uint8 => BitVec 8
  | uint16 => BitVec 16
  | uint32 => BitVec 32
  | array _ => List Byte

/-- What the big-endian target loads from a field. -/
def load (block : Block) (at_ : Nat) : (type : FieldType) → type.Value
  | uint8 => block at_
  | uint16 => halfAt block at_
  | uint32 => wordAt block at_
  | array count => (List.range count).map fun i => block (at_ + i)

/-- What the field means in the file system: the least significant byte of a number is the first. -/
def littleEndian (block : Block) (at_ : Nat) : (type : FieldType) → type.Value
  | uint8 => block at_
  | uint16 => BitVec.ofNat 16 ((block at_).toNat + 2 ^ 8 * (block (at_ + 1)).toNat)
  | uint32 => BitVec.ofNat 32 ((block at_).toNat + 2 ^ 8 * (block (at_ + 1)).toNat +
      2 ^ 16 * (block (at_ + 2)).toNat + 2 ^ 24 * (block (at_ + 3)).toNat)
  | array count => (List.range count).map fun i => block (at_ + i)

end FieldType

inductive BootSectorField where
  | jumpInstruction | oemName | bytesPerSector | sectorsPerCluster | reservedSectors | numFats
  | rootEntries | totalSectors16 | mediaDescriptor | fatSize16 | sectorsPerTrack | heads
  | hiddenSectors | totalSectors32 | driveNumber | reserved1 | bootSignature | volumeId | volumeLabel
  | fsType | bootCode | bootSectorSignature
deriving DecidableEq

inductive DirEntryField where
  | filename | extension | attributes | reserved | creationTimeTenth | creationTime | creationDate
  | lastAccessDate | firstClusterHigh | modificationTime | modificationDate | firstClusterLow
  | fileSize
deriving DecidableEq

namespace BootSectorField

def type : BootSectorField → FieldType
  | jumpInstruction => .array 3
  | oemName => .array 8
  | bytesPerSector => .uint16
  | sectorsPerCluster => .uint8
  | reservedSectors => .uint16
  | numFats => .uint8
  | rootEntries => .uint16
  | totalSectors16 => .uint16
  | mediaDescriptor => .uint8
  | fatSize16 => .uint16
  | sectorsPerTrack => .uint16
  | heads => .uint16
  | hiddenSectors => .uint32
  | totalSectors32 => .uint32
  | driveNumber => .uint8
  | reserved1 => .uint8
  | bootSignature => .uint8
  | volumeId => .uint32
  | volumeLabel => .array 11
  | fsType => .array 8
  | bootCode => .array 448
  | bootSectorSignature => .uint16

/-- The place in the boot sector of a FAT16 volume. -/
def fat16Offset : BootSectorField → Nat
  | jumpInstruction => 0
  | oemName => 3
  | bytesPerSector => 11
  | sectorsPerCluster => 13
  | reservedSectors => 14
  | numFats => 16
  | rootEntries => 17
  | totalSectors16 => 19
  | mediaDescriptor => 21
  | fatSize16 => 22
  | sectorsPerTrack => 24
  | heads => 26
  | hiddenSectors => 28
  | totalSectors32 => 32
  | driveNumber => 36
  | reserved1 => 37
  | bootSignature => 38
  | volumeId => 39
  | volumeLabel => 43
  | fsType => 54
  | bootCode => 62
  | bootSectorSignature => 510

end BootSectorField

namespace DirEntryField

def type : DirEntryField → FieldType
  | filename => .array 8
  | extension => .array 3
  | attributes => .uint8
  | reserved => .uint8
  | creationTimeTenth => .uint8
  | creationTime => .uint16
  | creationDate => .uint16
  | lastAccessDate => .uint16
  | firstClusterHigh => .uint16
  | modificationTime => .uint16
  | modificationDate => .uint16
  | firstClusterLow => .uint16
  | fileSize => .uint32

/-- The place in a directory entry of a FAT16 volume. -/
def fat16Offset : DirEntryField → Nat
  | filename => 0
  | extension => 8
  | attributes => 11
  | reserved => 12
  | creationTimeTenth => 13
  | creationTime => 14
  | creationDate => 16
  | lastAccessDate => 18
  | firstClusterHigh => 20
  | modificationTime => 22
  | modificationDate => 24
  | firstClusterLow => 26
  | fileSize => 28

end DirEntryField

/-- `fat16_boot_sector_t`. -/
def bootSectorLayout : Layout BootSectorField where
  declared := [.jumpInstruction, .oemName, .bytesPerSector, .sectorsPerCluster, .reservedSectors,
    .numFats, .rootEntries, .totalSectors16, .mediaDescriptor, .fatSize16, .sectorsPerTrack, .heads,
    .hiddenSectors, .totalSectors32, .driveNumber, .reserved1, .bootSignature, .volumeId,
    .volumeLabel, .fsType, .bootCode, .bootSectorSignature]
  size field := field.type.size
  complete field := by cases field <;> simp

/-- `fat16_dir_entry_t`. -/
def dirEntryLayout : Layout DirEntryField where
  declared := [.filename, .extension, .attributes, .reserved, .creationTimeTenth, .creationTime,
    .creationDate, .lastAccessDate, .firstClusterHigh, .modificationTime, .modificationDate,
    .firstClusterLow, .fileSize]
  size field := field.type.size
  complete field := by cases field <;> simp

theorem bootSectorLayout_offset (field : BootSectorField) :
    bootSectorLayout.offset field = field.fat16Offset := by
  cases field <;> rfl

theorem dirEntryLayout_offset (field : DirEntryField) : dirEntryLayout.offset field = field.fat16Offset := by
  cases field <;> rfl

example : bootSectorLayout.total = 512 := rfl

example : dirEntryLayout.total = 32 := rfl

def storeHalf (block : Block) (at_ : Nat) (value : BitVec 16) : Block := fun i =>
  if i = at_ then value.extractLsb' 8 8
  else if i = at_ + 1 then value.extractLsb' 0 8
  else block i

def storeWord (block : Block) (at_ : Nat) (value : BitVec 32) : Block := fun i =>
  if i = at_ then value.extractLsb' 24 8
  else if i = at_ + 1 then value.extractLsb' 16 8
  else if i = at_ + 2 then value.extractLsb' 8 8
  else if i = at_ + 3 then value.extractLsb' 0 8
  else block i

def swap16 (at_ : Nat) (block : Block) : Block := storeHalf block at_ (bswap16 (halfAt block at_))

def swap32 (at_ : Nat) (block : Block) : Block := storeWord block at_ (bswap32 (wordAt block at_))

/-- `bswap_boot_sector` on the structure at `b`. -/
def bswapBootSectorAt (b : Nat) (block : Block) : Block :=
  let field := fun name => b + bootSectorLayout.offset name
  let block := swap16 (field .bytesPerSector) block
  let block := swap16 (field .reservedSectors) block
  let block := swap16 (field .rootEntries) block
  let block := swap16 (field .totalSectors16) block
  let block := swap16 (field .fatSize16) block
  let block := swap16 (field .sectorsPerTrack) block
  let block := swap16 (field .heads) block
  let block := swap32 (field .hiddenSectors) block
  let block := swap32 (field .totalSectors32) block
  let block := swap32 (field .volumeId) block
  swap16 (field .bootSectorSignature) block

/-- `bswap_dir_entry` on the structure at `d`. -/
def bswapDirEntryAt (d : Nat) (block : Block) : Block :=
  let field := fun name => d + dirEntryLayout.offset name
  let block := swap16 (field .creationTime) block
  let block := swap16 (field .creationDate) block
  let block := swap16 (field .lastAccessDate) block
  let block := swap16 (field .firstClusterHigh) block
  let block := swap16 (field .modificationTime) block
  let block := swap16 (field .modificationDate) block
  let block := swap16 (field .firstClusterLow) block
  swap32 (field .fileSize) block

/-- The variables of the loop of `fat16_list_files`. -/
structure Listing where
  buffer : Block
  validFiles : Nat
  filesList : List DirEntry

/-- One turn of the loop; `entry` points into the buffer, where the entry is swapped. -/
def listTurn (i : Nat) (s : Listing) : Listing :=
  let buffer := bswapDirEntryAt (i * 32) s.buffer
  let entry := DirEntry.overlay fun j => buffer (i * 32 + j)
  if entry.name.headD 0 = 0x00 ∨ entry.name.headD 0 = 0xE5 then { s with buffer }
  else if entry.attributes &&& 0x10 ≠ 0 then { s with buffer }
  else
    { buffer
      validFiles := s.validFiles + 1
      filesList := s.filesList.set s.validFiles entry }

/-- The loop after `count` of its 16 turns. -/
def listing (directory : Block) (filesList : List DirEntry) : (count : Nat) → Listing
  | 0 => { buffer := directory, validFiles := 0, filesList }
  | i + 1 => listTurn i (listing directory filesList i)

end Mackerel.Fat16
