import Mackerel.M08.SdRequests

namespace Mackerel.M08

open Bytes Device Duart

/-! From the reset of the DUART to the blocks in memory: `sd_init` and reads behind it, on the pins,
with the state machine of a card at the other end. -/

/-- Calls of `sd_read` and of `sd_read_blocks`. -/
inductive Request where
  | block (blockNum buf : BitVec 32)
  | blocks (startBlock numBlocks buf : BitVec 32)

/-- What a call leaves in memory. `sd_read` refuses NULL. -/
def Request.effect (contents : Contents) (memory : Memory 32) : Request → Memory 32
  | .block blockNum buf => if buf = 0 then memory else memory.storeBytes buf (contents blockNum).toList
  | .blocks startBlock numBlocks buf => placed contents startBlock buf numBlocks.toNat 0 memory

namespace Code

def request (memory : Memory 32) : Request → ByteCode ReadResult
  | .block blockNum buf => do
      let memory ← sdRead blockNum buf memory
      pure ⟨true, memory⟩
  | .blocks startBlock numBlocks buf => sdReadBlocks buf startBlock numBlocks memory

/-- What the calls return, and the memory behind them. -/
def requests : List Request → Memory 32 → ByteCode (List Bool × Memory 32)
  | [], memory => pure ([], memory)
  | first :: rest, memory => do
      let result ← request memory first
      let later ← requests rest result.memory
      pure (result.ok :: later.1, later.2)

end Code

variable {c : SdCard} {p : Port} {events : List Event} {polls commands : Nat}

structure Hears (c : SdCard) (p : Port) (events : List Event) : Prop where
  state : c.run p.events = c.run events
  selected : p.selected = (c.run events).selected
  mosi : p.mosi = mosiHigh events

theorem Hears.setCs (hears : Hears c p events) (low : Bool) : Hears c (p.cs low) (events ++ [.cs low]) := by
  have mosi : mosiHigh (events ++ [.cs low]) = mosiHigh events := by simp [mosiHigh]
  have next : c.run (events ++ [.cs low]) = { c.run events with selected := low } := by
    rw [run_append]
    rfl
  by_cases same : p.selected = low
  · rw [Port.cs, if_pos same]
    have still : ({ c.run events with selected := low } : SdState) = c.run events := by
      rw [← same, hears.selected]
    exact ⟨by rw [next, still, hears.state], by rw [next, still, hears.selected], hears.mosi.trans mosi.symm⟩
  · rw [Port.cs, if_neg same]
    refine ⟨?_, by rw [next], hears.mosi.trans mosi.symm⟩
    rw [next, run_append, hears.state]
    rfl

theorem Hears.setByte (hears : Hears c p events) (b : Byte) :
    Hears c { p with events := p.events ++ [.byte b], mosi := b.getLsbD 0 } (events ++ [.byte b]) := by
  refine ⟨?_, ?_, by simp [mosiHigh]⟩
  · rw [run_append, run_append, hears.state]
  · rw [run_append]
    exact hears.selected.trans (receive_selected _ b).symm

end Mackerel.M08
