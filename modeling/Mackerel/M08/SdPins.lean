import Mackerel.Duart.SpiPort
import Mackerel.M08.SdReads

namespace Mackerel.M08

open Bytes Device Duart

/-- The level of the chip select, and what the card has seen: a level that stays is no event. -/
def observe (seen : Bool × List Event) : Event → Bool × List Event
  | .cs low => if seen.1 = low then seen else (low, seen.2 ++ [.cs low])
  | .byte mosi => (seen.1, seen.2 ++ [.byte mosi])

def observed (events : List Event) : List Event := (events.foldl observe (false, [])).2

/-- The port among the events of the byte functions. -/
structure Sees (p : Port) (events : List Event) : Prop where
  seen : p.events = observed events
  selected : p.selected = (events.foldl observe (false, [])).1
  mosi : p.mosi = mosiHigh events

/-- A card that sees the pins. -/
abbrev pinned (card : Card) : Card := fun events => card (observed events)

variable {card : Card} {p : Port} {events : List Event}

theorem Sees.setCs (sees : Sees p events) (low : Bool) : Sees (p.cs low) (events ++ [.cs low]) := by
  have mosi : mosiHigh (events ++ [.cs low]) = mosiHigh events := by simp [mosiHigh]
  have next : (events ++ [Event.cs low]).foldl observe (false, []) =
      observe (events.foldl observe (false, [])) (.cs low) := by
    rw [List.foldl_append, List.foldl_cons, List.foldl_nil]
  have selected := sees.selected
  have seen := sees.seen
  rw [observed] at seen
  by_cases same : p.selected = low
  · rw [Port.cs, if_pos same]
    have still : observe (events.foldl observe (false, [])) (.cs low) = events.foldl observe (false, []) :=
      if_pos (selected.symm.trans same)
    exact ⟨by rw [observed, next, still, seen], by rw [next, still, selected], sees.mosi.trans mosi.symm⟩
  · rw [Port.cs, if_neg same]
    have changed : observe (events.foldl observe (false, [])) (.cs low) =
        (low, (events.foldl observe (false, [])).2 ++ [.cs low]) :=
      if_neg fun equal => same (selected.trans equal)
    exact ⟨by rw [observed, next, changed, seen], by rw [next, changed], sees.mosi.trans mosi.symm⟩

theorem Sees.setByte (sees : Sees p events) (b : Byte) :
    Sees { p with events := p.events ++ [.byte b], mosi := b.getLsbD 0 } (events ++ [.byte b]) := by
  have next : (events ++ [Event.byte b]).foldl observe (false, []) =
      ((events.foldl observe (false, [])).1, (events.foldl observe (false, [])).2 ++ [.byte b]) := by
    rw [List.foldl_append, List.foldl_cons, List.foldl_nil]
    rfl
  have seen := sees.seen
  rw [observed] at seen
  exact ⟨by rw [observed, next, seen], by rw [next, sees.selected], by simp [mosiHigh]⟩

theorem port_simulates (card : Card) : Simulates Sees (Port.transfer card) (onCard (pinned card)) := by
  intro op p events sees
  have same : card p.events = pinned card events := congrArg card sees.seen
  cases op with
  | csLow => exact ⟨rfl, sees.setCs true⟩
  | csHigh => exact ⟨rfl, sees.setCs false⟩
  | byte b => exact ⟨same, sees.setByte b⟩
  | recv =>
      refine ⟨same, ?_⟩
      have bit : (level p.mosi).getLsbD 0 = p.mosi := getLsbD_level _ (by decide)
      have next := sees.setByte (level p.mosi)
      rw [bit] at next
      have sent : (if mosiHigh events then 0xFF else 0x00 : Byte) = level p.mosi := by
        rw [level, sees.mosi]
      simp only [onCard, spiRecv, Port.transfer, sent]
      exact next

/-- The pins stand where the byte functions stand: the card has seen the same, the clock is low
    between two bytes, and the pins that are not for SPI are as they were. -/
def Stands (card : Card) (others : Byte) (w : World) (events : List Event) : Prop :=
  ∃ p, Aligned card others w p ∧ Sees p events

/-- A program of byte functions runs on the pins as it runs on the card's bytes. -/
theorem pins_run {α : Type} (r tmp : Byte) (x : Bool) (inputs : Nat → Byte) {others : Byte} {w : World}
    (program : ByteCode α) (stands : Stands card others w events) :
    let pins := (program.compile (transfers r tmp x)).run (duart card inputs) w
    let bytes := program.run (onCard (pinned card)) events
    pins.1 = bytes.1 ∧ Stands card others pins.2 bytes.2 := by
  obtain ⟨p, aligned, sees⟩ := stands
  obtain ⟨first, pinsLater⟩ := (transfers_simulate r tmp x card inputs others).run program aligned
  obtain ⟨second, portLater⟩ := (port_simulates card).run program sees
  dsimp only
  rw [Program.run_compile]
  exact ⟨first.trans second, _, pinsLater, portLater⟩

/-- `sd_read` and `sd_read_blocks` with every write to the pins and every sample of MISO: what they
    return is what they return on the card's bytes, and the other pins keep their levels. -/
theorem sd_reads_on_pins (r tmp : Byte) (x : Bool) (card : Card) (inputs : Nat → Byte) (others : Byte)
    (w : World) (events : List Event) (stands : Stands card others w events) (memory : Memory 32) :
    (∀ blockNum block : BitVec 32,
      let pins := ((Code.sdRead blockNum block memory).compile (transfers r tmp x)).run (duart card inputs) w
      let bytes := sdRead (pinned card) blockNum block memory events
      pins.1 = bytes.1 ∧ Stands card others pins.2 bytes.2) ∧
    (∀ startBlock numBlocks buf : BitVec 32,
      let pins := ((Code.sdReadBlocks buf startBlock numBlocks memory).compile (transfers r tmp x)).run
        (duart card inputs) w
      let bytes := sdReadBlocks (pinned card) buf startBlock numBlocks memory events
      pins.1 = bytes.1 ∧ Stands card others pins.2 bytes.2) := by
  constructor
  · intro blockNum block
    exact pins_run r tmp x inputs (Code.sdRead blockNum block memory) stands
  · intro startBlock numBlocks buf
    exact pins_run r tmp x inputs (Code.sdReadBlocks buf startBlock numBlocks memory) stands

theorem quietWorld_stands : Stands zeroCard 0x77 (quietWorld zeroCard) [] :=
  ⟨⟨[], false, true⟩, quietWorld_aligned zeroCard, ⟨rfl, rfl, rfl⟩⟩

theorem zeroCard_on_pins :
    (((Code.sdReadBlocks 0x10000 2048 3 fun _ => 0x55).compile (transfers 1 2 true)).run
      (duart zeroCard fun _ => 0xEF) (quietWorld zeroCard)).1 =
        (sdReadBlocks (pinned zeroCard) 0x10000 2048 3 (fun _ => 0x55) []).1 :=
  ((sd_reads_on_pins 1 2 true zeroCard (fun _ => 0xEF) 0x77 (quietWorld zeroCard) [] quietWorld_stands
    (fun _ => 0x55)).2 2048 3 0x10000).1

end Mackerel.M08
