import Mackerel.Loading.Boots
import Mackerel.Loading.Netboots
import Mackerel.Loading.Transfers

namespace Mackerel.Loading

open Bytes Bytes.Memory Fat16

variable {target : Target} {load : Load} {before after : Memory 32}

/-- A load writes only as far as its extent, and only where it has one. -/
theorem moment_kept (moment : Moment target load before after) :
    Kept target.programStart 0 (target.extent load) before after := by
  cases load with
  | boot fileSize => exact boot_kept moment
  | netboot length =>
      have kept := netboot_kept moment
      cases moment with
      | netboot available announced =>
          rw [Target.extent, if_pos available]
          exact kept
  | ymodem announced => exact ymodem_kept moment

/-- Some card, server or sender makes a load write as far as its extent. -/
theorem extent_written (target : Target) (load : Load) (some_bytes : 0 < target.extent load) :
    ∃ after, Moment target load (fun _ => 0) after ∧
      ∀ addr, offset target.programStart addr < target.extent load → after addr = 1 := by
  cases load with
  | boot fileSize =>
      have nonzero : fileSize ≠ 0 := by
        rintro rfl
        exact absurd some_bytes (Nat.lt_irrefl _)
      exact EndlessChain.overwrites target nonzero
  | netboot length =>
      cases available : target.hasNetboot with
      | false =>
          rw [Target.extent, available] at some_bytes
          exact absurd some_bytes (Nat.lt_irrefl _)
      | true =>
          rw [Target.extent, if_pos available]
          exact SlowServer.overwrites available
  | ymodem announced => exact LongFile.overwrites target announced

/-- A load that does not fit can overwrite the first byte of the bootloader. -/
theorem not_spared (large : ¬Fits target load) : ¬Spares target load := by
  intro spares
  have inside := first_inside large
  obtain ⟨after, moment, ones⟩ := extent_written target load (Nat.zero_lt_of_lt inside)
  have same := spares _ _ moment _ (first_reserved target)
  rw [ones _ inside] at same
  exact absurd same (by decide)

/-- A load leaves the bootloader alone, whatever is on the card or comes over the wire, exactly if
    what it may write ends below the memory that the bootloader keeps. -/
theorem loading_spares_iff (target : Target) (load : Load) : Spares target load ↔ Fits target load := by
  constructor
  · intro spares
    by_contra large
    exact not_spared large spares
  · intro fits before after moment addr reserved
    exact moment_kept moment addr (.inr (fits.behind reserved))

/-- An image of 8 MB on Mackerel-F, by card or by YMODEM, and one of 15 MB from the server of
    Mackerel-10. -/
theorem large_images_not_spared : ¬Spares .mackerelF (.boot 0x800000) ∧
    ¬Spares .mackerelF (.ymodem 0x800000) ∧ ¬Spares .mackerel10 (.netboot 0xF00000) :=
  ⟨not_spared (by decide), not_spared (by decide), not_spared (by decide)⟩

end Mackerel.Loading
