import Mackerel.Duart.SpiBytes

namespace Mackerel.Duart

open Bytes Device M08

/-! The SPI port of Mackerel-08 with the SD card as bytes and chip select edges, and the functions
of `spi.c` on the pins as its implementation. -/

/-- The setup functions besides. -/
inductive SpiOp where
  | transfer (op : ByteOp)
  | init
  | loopClk

abbrev SpiOp.Result : SpiOp → Type
  | .transfer op => op.Result
  | .init | .loopClk => Unit

def CS_SD : Nat := CS2

/-- The functions of Mackerel-08, whose `spi_recv` is the inline assembly. -/
def transfers (r tmp : Byte) (x : Bool) : (op : ByteOp) → Code op.Result
  | .csLow => spi_cs_low CS_SD
  | .csHigh => spi_cs_high CS_SD
  | .byte b => spi_byte b
  | .recv => spi_recv_asm r tmp x

/-- What the card has seen, and the levels of its chip select and of MOSI. -/
structure Port where
  events : List Event
  selected : Bool
  mosi : Bool

namespace Port

def cs (low : Bool) (p : Port) : Port :=
  if p.selected = low then p else { p with events := p.events ++ [.cs low], selected := low }

variable (card : Card)

def transfer : Handler ByteOp ByteOp.Result Port
  | .csLow, p => ((), p.cs true)
  | .csHigh, p => ((), p.cs false)
  | .byte b, p => (card p.events, { p with events := p.events ++ [.byte b], mosi := b.getLsbD 0 })
  | .recv, p => (card p.events, { p with events := p.events ++ [.byte (level p.mosi)] })

def handler : Handler SpiOp SpiOp.Result Port
  | .transfer op, p => transfer card op p
  | .init, p => ((), { p.cs false with mosi := true })
  | .loopClk, p => ((), { p with events := p.events ++ List.replicate 10 (.byte (level p.mosi)) })

end Port

/-- The pins are as the port says, and the pins that are not for SPI as they were. -/
structure Aligned (card : Card) (others : Byte) (w : World) (p : Port) : Prop where
  idle : Idle card p.events w
  mosi : w.pins.getLsbD MOSI = p.mosi
  cs : w.pins.getLsbD CS_SD = !p.selected
  others : ∀ pin < 8, pin ≠ SCLK → pin ≠ MOSI → pin ≠ CS_SD → w.pins.getLsbD pin = others.getLsbD pin

variable {card : Card} {inputs : Nat → Byte} {others : Byte} {w : World} {p : Port} (aligned : Aligned card others w p)

include aligned

theorem Aligned.setCs (low : Bool) : Aligned card others (w.set card CS_SD (!low)) (p.cs low) := by
  have cs := aligned.cs
  by_cases same : p.selected = low
  · rw [Port.cs, if_pos same, set_same (cs.trans (by rw [same]))]
    exact aligned
  · have other : w.pins.getLsbD CS2 = low := by
      refine cs.trans ?_
      cases low <;> cases selected : p.selected <;> simp_all
    have slave : w.slave.select card low = ready card (p.events ++ [.cs low]) := by
      rw [aligned.idle.slave]
      rfl
    rw [Port.cs, if_neg same]
    rw [show w.set card CS_SD (!low) = _ from set_cs other, slave]
    refine ⟨⟨(setPin_sclk _ w.pins (by decide)).trans aligned.idle.sclk, rfl⟩,
      (setPin_mosi _ w.pins (by decide)).trans aligned.mosi,
      (getLsbD_setPin _ w.pins (by decide)).trans (if_pos rfl), fun pin inside sclk mosi cs => ?_⟩
    exact ((getLsbD_setPin _ w.pins inside).trans (if_neg cs)).trans
      (aligned.others pin inside sclk mosi cs)

theorem Aligned.setMosi (level : Bool) {slave : Slave} {reads : Nat} {events : List Event}
    (ready : slave = Duart.ready card events) :
    Aligned card others { pins := setPin MOSI level w.pins, slave := slave, reads := reads }
      { p with events := events, mosi := level } :=
  ⟨⟨(setPin_sclk _ w.pins (by decide)).trans aligned.idle.sclk, ready⟩,
    (getLsbD_setPin _ w.pins (by decide)).trans (if_pos rfl),
    (setPin_cs _ w.pins (by decide)).trans aligned.cs,
    fun pin inside sclk mosi cs => ((getLsbD_setPin _ w.pins inside).trans (if_neg mosi)).trans
      (aligned.others pin inside sclk mosi cs)⟩

theorem Aligned.see {events : List Event} {slave : Slave} {reads : Nat} (ready : slave = Duart.ready card events) :
    Aligned card others { w with slave := slave, reads := reads } { p with events := events } :=
  ⟨⟨aligned.idle.sclk, ready⟩, aligned.mosi, aligned.cs, aligned.others⟩

omit aligned in
/-- Each byte function does on the pins what it says. -/
theorem transfers_simulate (r tmp : Byte) (x : Bool) (card : Card) (inputs : Nat → Byte) (others : Byte) :
    Simulates (Aligned card others) (fun op => (transfers r tmp x op).run (duart card inputs))
      (Port.transfer card) := by
  intro op w p aligned
  cases op with
  | csLow => exact ⟨rfl, aligned.setCs true⟩
  | csHigh => exact ⟨rfl, aligned.setCs false⟩
  | byte b =>
      have run := spi_byte_run inputs b aligned.idle
      simp only [transfers, run]
      exact ⟨rfl, aligned.setMosi _ rfl⟩
  | recv =>
      have run := spi_recv_run inputs aligned.idle
      simp only [transfers, spi_recv_asm_eq, run, aligned.mosi]
      exact ⟨rfl, aligned.see rfl⟩

/-- The pins behind `spi_init`, from the reset of the DUART. -/
def quietWorld (card : Card) : World where
  pins := 0x77
  slave := ready card []
  reads := 0

omit aligned in
theorem quietWorld_aligned (card : Card) : Aligned card 0x77 (quietWorld card) ⟨[], false, true⟩ := by
  have sclk : (0x77 : Byte).getLsbD SCLK = false := by decide
  have mosi : (0x77 : Byte).getLsbD MOSI = true := by decide
  have cs : (0x77 : Byte).getLsbD CS_SD = true := by decide
  exact ⟨⟨sclk, rfl⟩, mosi, cs, fun _ _ _ _ _ => rfl⟩

end Mackerel.Duart
