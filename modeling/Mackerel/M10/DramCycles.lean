import Mackerel.M10.DramController

namespace Mackerel.M10.DramController

open Dram

/-! The controller between a 68000 bus master and two banks of memory. Bank A and the lane
of `LDS` and `CAS0` are `false`, bank B and the lane of `UDS` and `CAS1` are `true`. -/

abbrev Cells := Bool → BitVec 11 → BitVec 11 → Bool → BitVec 8

def State.ras (s : State) (bank : Bool) : Bool := if bank then s.rasB else s.rasA

def State.cas (s : State) (bank lane : Bool) : Bool :=
  match bank, lane with
  | false, false => s.casA0
  | false, true => s.casA1
  | true, false => s.casB0
  | true, true => s.casB1

def State.wr (s : State) (bank : Bool) : Bool := if bank then s.wrB else s.wrA

def State.pins (s : State) (bank : Bool) : Pins (BitVec 11) Bool where
  rasN := s.ras bank
  casN := s.cas bank
  wrN := s.wr bank
  addr := s.addrOut

/-- A bus master: its signals, its write data, the lanes that its cycle transfers, and for
    how many clocks `AS` has been as it is. -/
structure Master where
  bus : Bus
  data : Bool → BitVec 8
  lanes : Bool → Bool
  since : Nat

/-- The column access that a cycle asks for. -/
def addressed (master : Master) : Bool × Strobe (BitVec 11) Bool :=
  (master.bus.bank, {
    row := some master.bus.row
    column := master.bus.column
    lanes := master.lanes
    write := !master.bus.rw })

def store (master : Master) (cells : Cells) : Cells :=
  fun bank row column lane =>
    if master.bus.rw = false ∧ master.bus.bank = bank ∧ master.bus.row = row ∧
      master.bus.column = column ∧ master.lanes lane = true then master.data lane
    else cells bank row column lane

/-- A master at two consecutive clocks, with the DTACK level it sees at each. From four
    clocks after `AS` until DTACK exactly the data strobes of the cycle's lanes are low. -/
structure Master.Step (dtackBefore dtackAfter : Bool) (before after : Master) : Prop where
  since : after.since = if after.bus.as = before.bus.as then before.since + 1 else 0
  gap : before.bus.as = true → after.bus.as = false → 1 ≤ before.since
  stable : before.bus.as = false → after.bus.as = false → after.bus.cs = before.bus.cs ∧
    after.bus.rw = before.bus.rw ∧ after.bus.addrIn = before.bus.addrIn ∧
    after.lanes = before.lanes
  used : after.bus.as = false → ∃ lane, after.lanes lane = true
  strobes : after.bus.as = false → after.bus.cs = false → 4 ≤ after.since →
    dtackBefore = true → dtackAfter = true → ∀ lane, after.bus.ds lane = !after.lanes lane
  held : before.bus.as = false → before.bus.cs = false → dtackBefore = true →
    dtackAfter = true → after.bus.as = false

/-- The system. `seen` are the column accesses since `AS` fell. -/
structure Assembly where
  master : Master
  ctrl : State
  banks : Bool → Bank (BitVec 11) Bool (BitVec 8)
  seen : List (Bool × Strobe (BitVec 11) Bool)

namespace Assembly

abbrev bus (s : Assembly) : Bus := s.master.bus

/-- The column access that one bank sees at a clock edge. -/
def strobe (before after : Assembly) (bank : Bool) : Option (Strobe (BitVec 11) Bool) :=
  (before.banks bank).strobe (before.ctrl.pins bank) (after.ctrl.pins bank)

def strobes (before after : Assembly) : List (Bool × Strobe (BitVec 11) Bool) :=
  [false, true].filterMap fun bank => (before.strobe after bank).map (bank, ·)

structure Step (before after : Assembly) : Prop where
  ctrl : after.ctrl = before.ctrl.posedge true before.bus
  banks : ∀ bank, after.banks bank = (before.banks bank).edge (before.ctrl.pins bank)
    (after.ctrl.pins bank) before.master.data
  master : Master.Step before.ctrl.dtackDram after.ctrl.dtackDram before.master after.master
  seen : after.seen = if after.bus.as then [] else before.seen ++ before.strobes after

variable {before after : Assembly}

theorem strobe_of_cas {bank : Bool}
    (quiet : ∀ lane, before.ctrl.cas bank lane = true → after.ctrl.cas bank lane = true) :
    before.strobe after bank = none := by
  apply Bank.strobe_of_casN
  intro lane falls
  exact absurd falls.2 (ne_false_of_eq_true (quiet lane falls.1))

theorem strobe_of_ras {bank : Bool} (high : before.ctrl.ras bank = true) :
    before.strobe after bank = none :=
  Bank.strobe_of_rasN (.inl high)

theorem strobes_eq_nil (none : ∀ bank, before.strobe after bank = .none) :
    before.strobes after = [] := by
  simp [strobes, none]

theorem seen_of_quiet (step : Step before after) (unserved : before.seen = [])
    (quiet : ∀ bank, before.strobe after bank = none) : after.seen = [] := by
  rw [step.seen, unserved, strobes_eq_nil quiet]
  split <;> rfl

/-- What the input flip-flops hold after an edge. -/
structure Sampled (before after : Assembly) : Prop where
  as1 : after.ctrl.as1 = before.bus.as
  as2 : after.ctrl.as2 = before.ctrl.as1
  cs1 : after.ctrl.cs1 = before.bus.cs
  cs2 : after.ctrl.cs2 = before.ctrl.cs1

theorem Step.sampled (step : Step before after) : Sampled before after := by
  obtain ⟨as1, as2, cs1, cs2⟩ := before.ctrl.posedge_sampled before.bus
  rw [← step.ctrl] at as1 as2 cs1 cs2
  exact ⟨as1, as2, cs1, cs2⟩

theorem Step.held (step : Step before after) (as : before.bus.as = false)
    (cs : before.bus.cs = false) (dtackBefore : before.ctrl.dtackDram = true)
    (dtackAfter : after.ctrl.dtackDram = true) : after.bus.as = false :=
  step.master.held as cs dtackBefore dtackAfter

structure SameCycle (before after : Master) : Prop where
  as : after.bus.as = false
  cs : after.bus.cs = before.bus.cs
  rw : after.bus.rw = before.bus.rw
  addrIn : after.bus.addrIn = before.bus.addrIn
  lanes : after.lanes = before.lanes
  since : after.since = before.since + 1

theorem Step.sameCycle (step : Step before after) (as : before.bus.as = false)
    (still : after.bus.as = false) : SameCycle before.master after.master := by
  obtain ⟨cs, rw, addrIn, lanes⟩ := step.master.stable as still
  have since := step.master.since
  rw [if_pos (still.trans as.symm)] at since
  exact ⟨still, cs, rw, addrIn, lanes, since⟩

namespace SameCycle

variable {before after : Master} (same : SameCycle before after)

include same

theorem row : after.bus.row = before.bus.row := by
  rw [Bus.row, Bus.row, same.addrIn]

theorem column : after.bus.column = before.bus.column := by
  rw [Bus.column, Bus.column, same.addrIn]

theorem bank : after.bus.bank = before.bus.bank := by
  rw [Bus.bank, Bus.bank, Bus.bankA, Bus.bankA, same.addrIn]

theorem addressed : addressed after = addressed before := by
  simp only [DramController.addressed, same.row, same.column, same.bank, same.rw, same.lanes]

end SameCycle

end Assembly

end Mackerel.M10.DramController
