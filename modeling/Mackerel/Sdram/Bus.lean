import Mackerel.Sdram.Lines

namespace Mackerel.Sdram

/-- The 68000 side of the SDRAM path as one clock samples it. `true` is a high level,
    so the selects and strobes, whose names end in `n`, are asserted at `false`. -/
structure Bus where
  csN : Bool
  addr : WordAddress
  rwn : Bool
  udsn : Bool
  ldsn : Bool
  wdata : BitVec 16
deriving DecidableEq

namespace Bus

def strobed (bus : Bus) : Bool := !bus.udsn || !bus.ldsn

/-- The condition `~cs_n & (~udsn | ~ldsn)` under which both state machines start. -/
def start (bus : Bus) : Bool := !bus.csN && bus.strobed

/-- What a master keeps stable from one clock to the next inside a cycle: the strobes may
    still fall after the select, and from then on they and the write data stay too. -/
structure Holds (before after : Bus) : Prop where
  csN : after.csN = before.csN
  addr : after.addr = before.addr
  rwn : after.rwn = before.rwn
  strobes : before.strobed = true → after = before

/-- A 68000 bus master seen at two consecutive clocks, with the acknowledge it sees at each:
    an open cycle is held until the acknowledge is asserted. Between cycles, and after
    the acknowledge, nothing is promised. -/
def Step (dtackBefore dtackAfter : Bool) (before after : Bus) : Prop :=
  before.csN = false → dtackBefore = true → dtackAfter = true → Holds before after

theorem Holds.of_start {before after : Bus} (held : Holds before after)
    (started : before.start = true) : after = before :=
  held.strobes (by simp only [start, Bool.and_eq_true] at started; exact started.2)

theorem start_selected {bus : Bus} (started : bus.start = true) : bus.csN = false := by
  simp only [start, Bool.and_eq_true, Bool.not_eq_true'] at started
  exact started.1

end Bus

end Mackerel.Sdram
