import Mackerel.Fat16.ReadFile

namespace Mackerel.Fat16

open Bytes

/-- `strncpy`: up to `count` bytes of the source, padded with zeros after its end. -/
def strncpy (source : List Byte) (count : Nat) : List Byte :=
  let text := (source.takeWhile (· ≠ 0)).take count
  text ++ List.replicate (count - text.length) 0

/-- `strncmp` with result 0. -/
def strncmpEqual : Nat → List Byte → List Byte → Bool
  | 0, _, _ => true
  | count + 1, first, second =>
      first.headD 0 == second.headD 0 &&
        (first.headD 0 == 0 || strncmpEqual count first.tail second.tail)

def cString (text : String) : List Byte := text.toList.map fun c => BitVec.ofNat 8 c.toNat

namespace State

/-- `fat16_read_boot_sector`; the outcome of the read is dropped. -/
def fat16ReadBootSector (medium : Medium) (startingSector : Nat) (s : State) : BootSector × State :=
  let (_, buffer, s) := s.readLocal medium .bootSector startingSector
  (bswapBootSector (.overlay buffer), s)

end State

def directoryEntry (buffer : Block) (i : Nat) : DirEntry :=
  bswapDirEntry (.overlay fun j => buffer (i * 32 + j))

/-- The loop of `fat16_list_files` over the entries of the sector. -/
def listEntries : List DirEntry → Nat → List DirEntry → Nat × List DirEntry
  | [], validFiles, filesList => (validFiles, filesList)
  | entry :: rest, validFiles, filesList =>
      if entry.name.headD 0 = 0x00 ∨ entry.name.headD 0 = 0xE5 then
        listEntries rest validFiles filesList
      else if entry.attributes &&& 0x10 ≠ 0 then listEntries rest validFiles filesList
      else listEntries rest (validFiles + 1) (filesList.set validFiles entry)

def rootDirSector (bootSector : BootSector) (partLba : BitVec 32) : Nat :=
  u32 (partLba.toNat + bootSector.reservedSectors.toNat +
    bootSector.numFats.toNat * bootSector.fatSize16.toNat)

/-- `fat16_list_files`; the outcome of the read is dropped. -/
def State.fat16ListFiles (medium : Medium) (bootSector : BootSector) (filesList : List DirEntry)
    (s : State) : Nat × List DirEntry × State :=
  let (_, buffer, s) := s.readLocal medium .rootDirectory (rootDirSector bootSector s.partLba)
  let (validFiles, filesList) := listEntries ((List.range 16).map (directoryEntry buffer)) 0 filesList
  (validFiles, filesList, s)

def fat16GetFileName (entry : DirEntry) : List Byte :=
  strncpy (entry.name.take 8) 8 ++ cString "." ++ strncpy (entry.name.drop 8) 3 ++ [0]

end Mackerel.Fat16
