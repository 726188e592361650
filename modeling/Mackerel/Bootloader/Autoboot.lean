import Mackerel.Bootloader.BootComplete

namespace Mackerel.Bootloader

open Bytes Fat16

/-! `autoboot` of Mackerel-F, without its messages and its LEDs. -/

/-- How `autoboot` ends: with nothing to boot, cancelled by a key, with a message, or in
    `handler_run`. -/
inductive AutobootExit where
  | skipped
  | cancelled
  | error
  | handlerRun (addr : BitVec 32)
deriving DecidableEq

/-- The countdown of six positions with 55 polls each; `keys` are the results of
    `uart_rx_ready`. -/
def countdownCancelled (keys : Nat → Bool) : Bool := (List.range (6 * 55)).any keys

def autoboot (board : Board) (medium : Medium) (fuel : Nat) (keys : Nat → Bool) (s : State) :
    Except Stop (AutobootExit × State) :=
  if !board.storageReady then .ok (.skipped, s)
  else
    let (bootSector, s) := s.fat16ReadBootSector medium 2048
    let (_, files, s) :=
      s.fat16ListFiles medium bootSector (List.replicate 16 (.overlay fun _ => 0))
    let haveImage := files.any fun file =>
      decide (file.fileSize ≠ 0) &&
        strncmpEqual 12 (fat16GetFileName file) (cString "IMAGE   .BIN")
    if !haveImage then .ok (.skipped, s)
    else if countdownCancelled keys then .ok (.cancelled, s)
    else
      match loadNamedFile medium bootSector fuel (cString "IMAGE   .BIN") board.programStart
        files s with
      | .error stop => .error stop
      | .ok (n, s) =>
          if n < 0 then .ok (.error, s) else .ok (.handlerRun board.programStart, s)

def BootExit.automatic : BootExit → AutobootExit
  | error => .error
  | handlerRun addr => .handlerRun addr

variable {board : Board}

/-- With an image and without a key, `autoboot` is the `boot` command. -/
theorem autoboot_eq (medium : Medium) (before : State) (up : board.storageReady = true)
    (fuel : Nat) (keys : Nat → Bool) :
    autoboot board medium fuel keys before =
      match (directory (directoryRead medium before)).find? isImage with
      | none => .ok (.skipped, afterDirectory medium before)
      | some _ =>
          if countdownCancelled keys then .ok (.cancelled, afterDirectory medium before)
          else (handlerBoot board medium fuel before).map fun (exit, s) => (exit.automatic, s) := by
  have listed := find_listed (directoryRead medium before)
  unfold autoboot handlerBoot
  rw [up, fat16ReadBootSector_eq]
  dsimp only
  rw [fat16ListFiles_eq]
  dsimp only
  rw [Bool.not_true, if_neg Bool.false_ne_true, if_neg Bool.false_ne_true]
  have any : (listEntries (directory (directoryRead medium before)) 0
      (List.replicate 16 (.overlay fun _ => 0))).2.any (selects (cString "IMAGE   .BIN")) =
        ((directory (directoryRead medium before)).find? isImage).isSome := by
    rw [← listed, List.isSome_find?]
  change (if (!List.any _ (selects (cString "IMAGE   .BIN"))) = true then _ else _) = _
  rw [any]
  cases (directory (directoryRead medium before)).find? isImage with
  | none => rfl
  | some file =>
      dsimp only
      rw [Option.isSome_some, Bool.not_true, if_neg Bool.false_ne_true]
      by_cases cancelled : countdownCancelled keys = true
      · rw [if_pos cancelled, if_pos cancelled]
      · rw [if_neg cancelled, if_neg cancelled]
        generalize loadNamedFile _ _ _ _ _ _ _ = loaded
        rcases loaded with stop | ⟨n, s⟩
        · rfl
        · dsimp only
          by_cases negative : n < 0
          · rw [if_pos negative, if_pos negative]
            rfl
          · rw [if_neg negative, if_neg negative]
            rfl

end Mackerel.Bootloader
