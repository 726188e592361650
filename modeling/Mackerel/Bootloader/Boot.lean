import Mackerel.Fat16.Directory

namespace Mackerel.Bootloader

open Bytes Fat16

/-! The `boot` command of `bootloader.c`, without its console output. -/

/-- `PROGRAM_START`, and whether the storage of the board came up (`sd_init`, `sd_spi_init`). -/
structure Board where
  programStart : BitVec 32
  storageReady : Bool

/-- How `handler_boot` ends: with a message and a return, or in `handler_run`. -/
inductive BootExit where
  | error
  | handlerRun (addr : BitVec 32)
deriving DecidableEq

/-- `load_named_file`, from an index of the list on. -/
def loadNamedFile (medium : Medium) (bootSector : BootSector) (fuel : Nat) (name12 : List Byte)
    (addr : BitVec 32) : List DirEntry → State → Except Stop (Int × State)
  | [], s => .ok (-1, s)
  | file :: rest, s =>
      if file.fileSize = 0 then loadNamedFile medium bootSector fuel name12 addr rest s
      else if ¬strncmpEqual 12 (fat16GetFileName file) name12 then
        loadNamedFile medium bootSector fuel name12 addr rest s
      else
        match fat16ReadFile medium bootSector addr file.fileSize.toNat fuel file.firstClusterLow s with
        | .error stop => .error stop
        | .ok (n, s) => if n ≠ int32 file.fileSize.toNat then .ok (-1, s) else .ok (n, s)

def handlerBoot (board : Board) (medium : Medium) (fuel : Nat) (s : State) :
    Except Stop (BootExit × State) :=
  if !board.storageReady then .ok (.error, s)
  else
    let (bootSector, s) := s.fat16ReadBootSector medium 2048
    let (_, filesList, s) :=
      s.fat16ListFiles medium bootSector (List.replicate 16 (.overlay fun _ => 0))
    match loadNamedFile medium bootSector fuel (cString "IMAGE   .BIN") board.programStart
      filesList s with
    | .error stop => .error stop
    | .ok (n, s) =>
        if n < 0 then .ok (.error, s) else .ok (.handlerRun board.programStart, s)

end Mackerel.Bootloader
