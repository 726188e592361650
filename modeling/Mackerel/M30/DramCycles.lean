import Mathlib.Tactic.FinCases
import Mackerel.Clocked.Execution
import Mackerel.M30.DramController

namespace Mackerel.M30.DramController

open Clocked Dram

/-- The SIMM by side, row, column and lane. -/
abbrev Cells := Bool → BitVec 12 → BitVec 12 → Fin 4 → BitVec 8

def State.casN (s : State) : Fin 4 → Bool
  | 0 => s.cas0N
  | 1 => s.cas1N
  | 2 => s.cas2N
  | 3 => s.cas3N

/-- A side has two row strobe lines; it is open when both are low. -/
def State.rasN (s : State) (side : Bool) : Bool :=
  if side then s.ras1N || s.ras3N else s.ras0N || s.ras2N

def State.pins (s : State) (side : Bool) : Pins (BitVec 12) (Fin 4) where
  rasN := s.rasN side
  casN := s.casN
  wrN := s.dramWrN
  addr := s.addrDram

/-- The lanes of a cycle: those from offset `A1`, `A0` on, as many as `SIZ` says or as are
    left in the long word. -/
def transfers (bus : Bus) (lane : Fin 4) : Bool :=
  let offset := (bus.addr.extractLsb' 0 2).toNat
  let size := if bus.siz = 0 then 4 else bus.siz.toNat
  decide (offset ≤ 3 - lane.val ∧ 3 - lane.val < offset + min size (4 - offset))

/-- The column access that a cycle asks for. A read strobes every lane. -/
def addressed (bus : Bus) : Bool × Strobe (BitVec 12) (Fin 4) :=
  (bus.side, {
    row := some bus.row
    column := bus.column
    lanes := fun lane => bus.rw || transfers bus lane
    write := !bus.rw })

def store (bus : Bus) (data : Fin 4 → BitVec 8) (cells : Cells) : Cells :=
  fun side row column lane =>
    if bus.rw = false ∧ bus.side = side ∧ bus.row = row ∧ bus.column = column ∧
      transfers bus lane = true then data lane
    else cells side row column lane

/-- A bus master: its signals, its write data, and for how many clocks `AS_n` has been as
    it is. -/
structure Master where
  bus : Bus
  data : Fin 4 → BitVec 8
  since : Nat

/-- A master at two consecutive clocks, with the DSACK level it sees at each. -/
structure Master.Step (dsackBefore dsackAfter : Bool) (before after : Master) : Prop where
  since : after.since = if after.bus.asN = before.bus.asN then before.since + 1 else 0
  gap : before.bus.asN = true → after.bus.asN = false → 2 ≤ before.since
  strobe : after.bus.asN = true → after.bus.dsN = true
  read : after.bus.asN = false → after.bus.rw = true → after.bus.dsN = false
  stable : before.bus.asN = false → after.bus.asN = false → after.bus.csN = before.bus.csN ∧
    after.bus.rw = before.bus.rw ∧ after.bus.siz = before.bus.siz ∧
    after.bus.addr = before.bus.addr
  data : before.bus.asN = false → before.bus.dsN = false → after.bus.asN = false →
    after.bus.dsN = false ∧ after.data = before.data
  held : before.bus.asN = false → before.bus.csN = false → dsackBefore = true →
    dsackAfter = true → after.bus.asN = false

/-- The system. `seen` are the column accesses since `AS_n` fell. -/
structure Assembly where
  master : Master
  ctrl : State
  simm : Bool → Bank (BitVec 12) (Fin 4) (BitVec 8)
  seen : List (Bool × Strobe (BitVec 12) (Fin 4))

namespace Assembly

def bus (s : Assembly) : Bus := s.master.bus

/-- The column access that one side of the SIMM sees at a clock edge. -/
def strobe (before after : Assembly) (side : Bool) : Option (Strobe (BitVec 12) (Fin 4)) :=
  (before.simm side).strobe (before.ctrl.pins side) (after.ctrl.pins side)

def strobes (before after : Assembly) : List (Bool × Strobe (BitVec 12) (Fin 4)) :=
  [false, true].filterMap fun side => (before.strobe after side).map (side, ·)

structure Step (before after : Assembly) : Prop where
  ctrl : after.ctrl = before.ctrl.posedge true before.bus
  simm : ∀ side, after.simm side = (before.simm side).edge (before.ctrl.pins side)
    (after.ctrl.pins side) before.master.data
  master : Master.Step before.ctrl.dsackN after.ctrl.dsackN before.master after.master
  seen : after.seen = if after.bus.asN then [] else before.seen ++ before.strobes after

variable {before after : Assembly}

theorem strobe_of_casN
    (quiet : ∀ lane, before.ctrl.casN lane = true → after.ctrl.casN lane = true) (side : Bool) :
    before.strobe after side = none :=
  Bank.strobe_of_casN fun lane falls => absurd falls.2 (ne_false_of_eq_true (quiet lane falls.1))

theorem strobe_of_rasN {side : Bool} (high : before.ctrl.rasN side = true) :
    before.strobe after side = none :=
  Bank.strobe_of_rasN (.inl high)

theorem strobes_eq_nil (none : ∀ side, before.strobe after side = .none) :
    before.strobes after = [] := by
  simp [strobes, none]

/-- The levels of the strobes: of each side's two row lines, of each lane, of the two
    acknowledge lines. -/
structure Levels (c : State) (ras : Bool → Bool) (cas : Fin 4 → Bool) (dsack : Bool) : Prop where
  ras : (c.ras0N, c.ras1N, c.ras2N, c.ras3N) = (ras false, ras true, ras false, ras true)
  cas : c.casN = cas
  dsack : (c.dsack0N, c.dsack1N) = (dsack, dsack)

def high {ι : Type} : ι → Bool := fun _ => true

def low {ι : Type} : ι → Bool := fun _ => false

theorem Levels.rasN {c : State} {ras : Bool → Bool} {cas : Fin 4 → Bool} {dsack : Bool}
    (levels : Levels c ras cas dsack) (side : Bool) : c.rasN side = ras side := by
  have lines := levels.ras
  simp only [Prod.mk.injEq] at lines
  cases side <;> simp [State.rasN, lines]

theorem Levels.dsackN {c : State} {ras : Bool → Bool} {cas : Fin 4 → Bool} {dsack : Bool}
    (levels : Levels c ras cas dsack) : c.dsackN = dsack := by
  have lines := levels.dsack
  simp only [Prod.mk.injEq] at lines
  simp [State.dsackN, lines]

/-- What the input flip-flops and the lane decode hold after an edge. -/
structure Sampled (before after : Assembly) : Prop where
  as1N : after.ctrl.as1N = before.bus.asN
  as2N : after.ctrl.as2N = before.ctrl.as1N
  ds1N : after.ctrl.ds1N = before.bus.dsN
  ds2N : after.ctrl.ds2N = before.ctrl.ds1N
  cs1N : after.ctrl.cs1N = before.bus.csN
  cs2N : after.ctrl.cs2N = before.ctrl.cs1N
  cas : after.ctrl.cas = decodeCas before.bus.cycleType

theorem Step.sampled (step : Step before after) : Sampled before after := by
  have same : ∀ s : State, ∀ bus : Bus,
      (s.posedge true bus).as1N = bus.asN ∧ (s.posedge true bus).as2N = s.as1N ∧
      (s.posedge true bus).ds1N = bus.dsN ∧ (s.posedge true bus).ds2N = s.ds1N ∧
      (s.posedge true bus).cs1N = bus.csN ∧ (s.posedge true bus).cs2N = s.cs1N ∧
      (s.posedge true bus).cas = decodeCas bus.cycleType := by
    intro s bus
    unfold State.posedge
    cases s.state <;> dsimp only <;> repeat' split
    all_goals exact ⟨rfl, rfl, rfl, rfl, rfl, rfl, rfl⟩
  obtain ⟨as1N, as2N, ds1N, ds2N, cs1N, cs2N, cas⟩ := same before.ctrl before.bus
  rw [← step.ctrl] at *
  exact ⟨as1N, as2N, ds1N, ds2N, cs1N, cs2N, cas⟩

end Assembly

end Mackerel.M30.DramController
