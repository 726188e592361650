import Mackerel.M08.SdCard

namespace Mackerel.M08

open Bytes Device Duart

abbrev SpiCode := Program SpiOp SpiOp.Result

/-- The lines that they print. -/
inductive Report where
  | firstByteFailed (b : Byte)
  | cmd0Failed (b : Byte)
  | cmd8Failed (b : Byte)
  | cmd58Failed (b : Byte)
  | sending
  | cmd55Failed (b : Byte)
  | cardReady
  | initFailed
deriving DecidableEq

/-- The format of a line and its argument. -/
def Report.format : Report → String × Option Byte
  | .firstByteFailed b => ("First SD byte read failed: %02X\r\n", some b)
  | .cmd0Failed b => ("CMD0 failed: %02X\r\n", some b)
  | .cmd8Failed b => ("CMD8 failed %02X\r\n", some b)
  | .cmd58Failed b => ("CMD58 failed %02X\r\n", some b)
  | .sending => ("Sending SD init command...\r\n", none)
  | .cmd55Failed b => ("CMD55 failed %02X\r\n", some b)
  | .cardReady => ("SD card ready!\r\n", none)
  | .initFailed => ("Failed to initialize SD card\r\n", none)

/-- The lines tell what they report. -/
theorem Report.format_injective : Function.Injective Report.format := by
  intro first second same
  cases first <;> cases second <;> simp_all [format]

namespace Code

def spiTransfer (b : Byte) : SpiCode Byte := do
  Program.perform (SpiOp.transfer .csLow)
  let recv ← Program.perform (SpiOp.transfer (.byte b))
  Program.perform (SpiOp.transfer .csHigh)
  pure recv

end Code

/-- The state of the card and the level of MOSI. -/
structure Bench where
  state : SdState
  mosi : Bool

/-- The bench is where the card on the port is. -/
structure Stays (c : SdCard) (p : Port) (s : Bench) : Prop where
  state : s.state = c.run p.events
  selected : p.selected = s.state.selected
  mosi : p.mosi = s.mosi

variable {c : SdCard} {p : Port} {s : Bench}

theorem shiftOut_selected (state : SdState) : (c.shiftOut state).selected = state.selected := by
  rw [SdCard.shiftOut]
  split <;> rfl

theorem execute_selected (state : SdState) (index : Nat) (arg : BitVec 32) :
    (c.execute state index arg).selected = state.selected := by
  unfold SdCard.execute
  split <;> (repeat' split) <;> rfl

theorem receive_selected (state : SdState) (b : Byte) : (c.receive state b).selected = state.selected := by
  rw [SdCard.receive]
  split
  · rfl
  · have shifted := shiftOut_selected (c := c) state
    dsimp only
    split
    · split <;> exact shifted
    · exact (execute_selected _ _ _).trans shifted
    · exact shifted

theorem Stays.setCs (stays : Stays c p s) (low : Bool) :
    Stays c (p.cs low) { s with state := { s.state with selected := low } } := by
  by_cases same : p.selected = low
  · rw [Port.cs, if_pos same, ← same, stays.selected]
    exact stays
  · rw [Port.cs, if_neg same]
    refine ⟨?_, rfl, stays.mosi⟩
    rw [SdCard.run, List.foldl_append, stays.state]
    rfl

theorem Stays.setByte (stays : Stays c p s) (b : Byte) (mosi : Bool) :
    Stays c { p with events := p.events ++ [.byte b], mosi := mosi } ⟨c.receive s.state b, mosi⟩ := by
  refine ⟨?_, ?_, rfl⟩
  · rw [SdCard.run, List.foldl_append, stays.state]
    rfl
  · rw [receive_selected]
    exact stays.selected

/-- A card that has nothing more to say. -/
def between (ready app : Bool) (polls commands : Nat) : SdState :=
  ⟨false, [], [], none, ready, app, polls, commands⟩

variable {ready app ready' app' mosi : Bool} {polls commands polls' commands' : Nat}

end Mackerel.M08
