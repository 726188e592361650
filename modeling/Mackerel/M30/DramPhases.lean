import Mathlib.Tactic.FinCases
import Mackerel.M30.DramCycles

namespace Mackerel.M30.DramController

open Dram

/-! What holds in each state of the controller: how far the open cycle is, and what the
flip-flops still know of the cycle before it. -/

namespace Assembly

variable {before after : Assembly}

/-- A cycle on the DRAM, seen by both input flip-flops and the lane decode. -/
structure Open (s : Assembly) : Prop where
  asN : s.bus.asN = false
  csN : s.bus.csN = false
  as1N : s.ctrl.as1N = false
  cs1N : s.ctrl.cs1N = false
  as2N : s.ctrl.as2N = false
  cs2N : s.ctrl.cs2N = false
  cas : s.ctrl.cas = decodeCas s.bus.cycleType

structure Fresh (s : Assembly) : Prop where
  first : s.ctrl.as1N = false → s.ctrl.cs1N = false → s.bus.asN = false ∧ s.bus.csN = false
  second : s.ctrl.as2N = false → s.ctrl.cs2N = false →
    s.ctrl.as1N = false ∧ s.ctrl.cs1N = false

/-- What the flip-flops know of how long `AS_n` has been high. -/
structure History (s : Assembly) : Prop where
  first : s.bus.asN = true → 1 ≤ s.master.since → s.ctrl.as1N = true
  second : s.bus.asN = true → 2 ≤ s.master.since → s.ctrl.as1N = true ∧ s.ctrl.as2N = true
  strobe : s.bus.asN = true → s.bus.dsN = true
  ds1N : s.ctrl.ds1N = false → s.bus.asN = false → s.bus.dsN = false
  ds2N : s.ctrl.ds2N = false → s.ctrl.as1N = false → s.ctrl.ds1N = false
  seen : s.bus.asN = true → s.seen = []

/-- Where a cycle may be while the controller waits for its end: `AS_n` is low, or has been
    high for one, two or three clocks. -/
inductive Ending (s : Assembly) : Prop where
  | open_ : Open s → s.bus.dsN = false → s.ctrl.ds1N = false → s.ctrl.ds2N = false → Ending s
  | first : s.bus.asN = true → s.ctrl.as1N = false → s.ctrl.cs1N = false → s.ctrl.ds1N = false →
      s.ctrl.as2N = false → s.ctrl.cs2N = false → s.ctrl.ds2N = false → Ending s
  | second : s.bus.asN = true → s.ctrl.as1N = true → s.ctrl.ds1N = true →
      s.ctrl.as2N = false → s.ctrl.cs2N = false → s.ctrl.ds2N = false → Ending s
  | third : s.ctrl.dramWrN = false → s.bus.asN = true → s.ctrl.as1N = true →
      s.ctrl.as2N = true → Ending s

def openRow (bus : Bus) : Bool → Bool := fun side => side != bus.side

def columns (bus : Bus) : Fin 4 → Bool := fun lane => !(bus.rw || transfers bus lane)

inductive PhaseInvariant (s : Assembly) : FsmState → Prop where
  | IDLE : Levels s.ctrl high high true → Fresh s → s.seen = [] → PhaseInvariant s .IDLE
  | RW1 : Levels s.ctrl high high true → Open s → s.seen = [] → PhaseInvariant s .RW1
  | RW2 : Levels s.ctrl high high true → Open s → s.seen = [] → s.ctrl.addrDram = s.bus.row →
      PhaseInvariant s .RW2
  | RW2A : Levels s.ctrl (openRow s.bus) high true → Open s → s.seen = [] →
      (s.simm s.bus.side).row = some s.bus.row → PhaseInvariant s .RW2A
  | RW3 : Levels s.ctrl (openRow s.bus) high true → Open s → s.seen = [] →
      (s.simm s.bus.side).row = some s.bus.row → PhaseInvariant s .RW3
  | RW4 : Levels s.ctrl (openRow s.bus) high true → Open s → s.seen = [] →
      (s.simm s.bus.side).row = some s.bus.row → s.ctrl.addrDram = s.bus.column →
      s.ctrl.dramWrN = s.bus.rw → PhaseInvariant s .RW4
  | RW4A : Levels s.ctrl (openRow s.bus) (columns s.bus) true → Open s →
      s.seen = [addressed s.bus] → s.ctrl.dramWrN = s.bus.rw → s.bus.dsN = false →
      s.ctrl.ds1N = false → s.ctrl.ds2N = false → PhaseInvariant s .RW4A
  | RW5 (ras : Bool → Bool) (cas : Fin 4 → Bool) (dsack : Bool) : Levels s.ctrl ras cas dsack →
      Ending s → (s.bus.asN = false → ras = openRow s.bus ∧ cas = columns s.bus ∧
        s.ctrl.dramWrN = s.bus.rw ∧ s.seen = [addressed s.bus]) → PhaseInvariant s .RW5
  | REFRESH1 : Levels s.ctrl high high true → Fresh s → s.seen = [] → PhaseInvariant s .REFRESH1
  | REFRESH2 : Levels s.ctrl high low true → Fresh s → s.seen = [] → PhaseInvariant s .REFRESH2
  | REFRESH3 : Levels s.ctrl low low true → Fresh s → s.seen = [] → PhaseInvariant s .REFRESH3
  | REFRESH4 : Levels s.ctrl low high true → Fresh s → s.seen = [] → PhaseInvariant s .REFRESH4
  | PRECHARGE (ras : Bool → Bool) (cas : Fin 4 → Bool) : Levels s.ctrl ras cas true → Fresh s →
      s.seen = [] → PhaseInvariant s .PRECHARGE

/-- The clock edge of a column access: the first one of an open cycle on the DRAM, and the
    one that the cycle asks for. -/
structure Access (before after : Assembly) : Prop where
  opened : before.bus.asN = false
  still : after.bus.asN = false
  csN : before.bus.csN = false
  first : before.seen = []
  strobe : ∀ side, before.strobe after side =
    if side = before.bus.side then some (addressed before.bus).2 else none
  data : after.master.data = before.master.data

theorem History.step (history : History before) (step : Step before after) : History after := by
  have sampled := step.sampled
  have since := step.master.since
  constructor
  · intro high long
    rw [sampled.as1N]
    by_contra fell
    rw [if_neg (by rw [show after.master.bus.asN = true from high]; exact Ne.symm fell)] at since
    omega
  · intro high long
    rw [sampled.as1N, sampled.as2N]
    by_cases level : after.master.bus.asN = before.master.bus.asN
    · rw [if_pos level] at since
      have before : before.bus.asN = true := level.symm.trans high
      exact ⟨before, history.first before (by omega)⟩
    · rw [if_neg level] at since
      omega
  · exact step.master.strobe
  · intro low still
    rw [sampled.ds1N] at low
    have asN : before.bus.asN = false := by
      by_contra closed
      have quiet := history.strobe (Bool.not_eq_false _ ▸ closed)
      exact absurd low (ne_false_of_eq_true quiet)
    exact (step.master.data asN low still).1
  · intro low as1N
    rw [sampled.ds2N] at low
    rw [sampled.as1N] at as1N
    rw [sampled.ds1N]
    exact history.ds1N low as1N
  · intro high
    rw [step.seen, if_pos high]

theorem Step.same (step : Step before after) (open_ : before.bus.asN = false)
    (still : after.bus.asN = false) : after.bus.csN = before.bus.csN ∧
    after.bus.rw = before.bus.rw ∧ after.bus.siz = before.bus.siz ∧
    after.bus.addr = before.bus.addr :=
  step.master.stable open_ still

theorem Step.held (step : Step before after) (asN : before.bus.asN = false)
    (csN : before.bus.csN = false) (dsackBefore : before.ctrl.dsackN = true)
    (dsackAfter : after.ctrl.dsackN = true) : after.bus.asN = false :=
  step.master.held asN csN dsackBefore dsackAfter

theorem Fresh.step (fresh : Fresh before) (step : Step before after)
    (dsackBefore : before.ctrl.dsackN = true) (dsackAfter : after.ctrl.dsackN = true) :
    Fresh after := by
  have sampled := step.sampled
  constructor
  · intro as1N cs1N
    rw [sampled.as1N] at as1N
    rw [sampled.cs1N] at cs1N
    have still := step.held as1N cs1N dsackBefore dsackAfter
    exact ⟨still, (step.same as1N still).1.trans cs1N⟩
  · intro as2N cs2N
    rw [sampled.as2N] at as2N
    rw [sampled.cs2N] at cs2N
    rw [sampled.as1N, sampled.cs1N]
    exact fresh.first as2N cs2N

/-- The parts of a cycle that the controller uses. -/
structure SameCycle (before after : Bus) : Prop where
  asN : after.asN = false
  csN : after.csN = false
  rw : after.rw = before.rw
  row : after.row = before.row
  column : after.column = before.column
  side : after.side = before.side
  addressed : addressed after = addressed before
  openRow : openRow after = openRow before
  columns : columns after = columns before
  cycleType : after.cycleType = before.cycleType

theorem Step.sameCycle (step : Step before after) (asN : before.bus.asN = false)
    (csN : before.bus.csN = false) (still : after.bus.asN = false) :
    SameCycle before.bus after.bus := by
  obtain ⟨selected, rw, siz, addr⟩ := step.same asN still
  constructor
  · exact still
  · exact selected.trans csN
  · exact rw
  · simp only [Bus.row, addr]
  · simp only [Bus.column, addr]
  · simp only [Bus.side, addr]
  · simp only [addressed, Bus.row, Bus.column, Bus.side, transfers, rw, siz, addr]
  · unfold openRow
    simp only [Bus.side, addr]
  · unfold columns transfers
    simp only [rw, siz, addr]
  · simp only [Bus.cycleType, siz, addr]

theorem Open.step (opened : Open before) (step : Step before after)
    (still : after.bus.asN = false) : Open after := by
  have sampled := step.sampled
  have same := step.sameCycle opened.asN opened.csN still
  constructor
  · exact still
  · exact same.csN
  · exact sampled.as1N.trans opened.asN
  · exact sampled.cs1N.trans opened.csN
  · exact sampled.as2N.trans opened.as1N
  · exact sampled.cs2N.trans opened.cs1N
  · rw [sampled.cas, same.cycleType]

theorem Open.of_fresh (fresh : Fresh before) (step : Step before after)
    (active : before.ctrl.activeN = false)
    (dsackBefore : before.ctrl.dsackN = true) (dsackAfter : after.ctrl.dsackN = true) :
    Open after := by
  simp only [State.activeN, Bool.or_eq_false_iff] at active
  have sampled := step.sampled
  obtain ⟨as1N, cs1N⟩ := fresh.second active.1 active.2
  obtain ⟨asN, csN⟩ := fresh.first as1N cs1N
  have still := step.held asN csN dsackBefore dsackAfter
  have same := step.sameCycle asN csN still
  constructor
  · exact still
  · exact same.csN
  · exact sampled.as1N.trans asN
  · exact sampled.cs1N.trans csN
  · exact sampled.as2N.trans as1N
  · exact sampled.cs2N.trans cs1N
  · rw [sampled.cas, same.cycleType]

/-- What a clock does: it makes no column access, or the one that a cycle asks for. -/
inductive Outcome (before after : Assembly) : Prop where
  | quiet : (∀ side, before.strobe after side = none) →
      PhaseInvariant after after.ctrl.state → Outcome before after
  | access : Access before after → PhaseInvariant after after.ctrl.state → Outcome before after

theorem Outcome.of_quiet {next : FsmState} (quiet : ∀ side, before.strobe after side = none)
    (state : after.ctrl.state = next) (invariant : PhaseInvariant after next) :
    Outcome before after :=
  .quiet quiet (state ▸ invariant)

theorem seen_of_quiet (step : Step before after) (unserved : before.seen = [])
    (quiet : ∀ side, before.strobe after side = none) : after.seen = [] := by
  rw [step.seen, unserved, strobes_eq_nil quiet]
  split <;> rfl

theorem step_IDLE (step : Step before after) (state : before.ctrl.state = .IDLE)
    (levels : Levels before.ctrl high high true) (fresh : Fresh before)
    (unserved : before.seen = []) : Outcome before after := by
  have quiet (side : Bool) : before.strobe after side = none :=
    strobe_of_rasN (levels.rasN side)
  have silent := seen_of_quiet step unserved quiet
  have ctrl := step.ctrl
  have still : Levels after.ctrl high high true := by
    rw [ctrl]
    simp only [State.posedge, Bool.not_true, Bool.false_eq_true, if_false, state]
    repeat' split
    all_goals exact ⟨levels.ras, levels.cas, levels.dsack⟩
  have next := fresh.step step levels.dsackN still.dsackN
  simp only [State.posedge, Bool.not_true, Bool.false_eq_true, if_false, state] at ctrl
  split at ctrl
  · exact .of_quiet quiet (by rw [ctrl]; exact state) (.IDLE still next silent)
  · split at ctrl
    · exact .of_quiet quiet (by rw [ctrl]) (.REFRESH1 still next silent)
    · split at ctrl
      · rename_i active
        have opened := Open.of_fresh fresh step (by simpa [State.activeN] using active)
          levels.dsackN still.dsackN
        exact .of_quiet quiet (by rw [ctrl]) (.RW1 still opened silent)
      · exact .of_quiet quiet (by rw [ctrl]; exact state) (.IDLE still next silent)

theorem step_RW1 (step : Step before after) (state : before.ctrl.state = .RW1)
    (levels : Levels before.ctrl high high true) (opened : Open before)
    (unserved : before.seen = []) : Outcome before after := by
  have quiet (side : Bool) : before.strobe after side = none :=
    strobe_of_rasN (levels.rasN side)
  have ctrl := step.ctrl
  simp only [State.posedge, Bool.not_true, Bool.false_eq_true, if_false, state] at ctrl
  have still : Levels after.ctrl high high true := by
    rw [ctrl]
    exact ⟨levels.ras, levels.cas, levels.dsack⟩
  have asN := step.held opened.asN opened.csN levels.dsackN still.dsackN
  have same := step.sameCycle opened.asN opened.csN asN
  refine .of_quiet quiet (by rw [ctrl]) (.RW2 still (opened.step step asN)
    (seen_of_quiet step unserved quiet) ?_)
  rw [ctrl, same.row]

theorem step_RW2 (step : Step before after) (state : before.ctrl.state = .RW2)
    (levels : Levels before.ctrl high high true) (opened : Open before)
    (unserved : before.seen = []) (row : before.ctrl.addrDram = before.bus.row) :
    Outcome before after := by
  have quiet (side : Bool) : before.strobe after side = none :=
    strobe_of_rasN (levels.rasN side)
  have ctrl := step.ctrl
  simp only [State.posedge, Bool.not_true, Bool.false_eq_true, if_false, state] at ctrl
  have still : Levels after.ctrl (openRow before.bus) high true := by
    rw [ctrl]
    refine ⟨?_, levels.cas, levels.dsack⟩
    simp [openRow]
  have asN := step.held opened.asN opened.csN levels.dsackN still.dsackN
  have same := step.sameCycle opened.asN opened.csN asN
  have opens : (after.simm before.bus.side).row = some before.bus.row := by
    rw [step.simm, Bank.edge_row_open]
    · rw [← row, ctrl]
      rfl
    · exact ⟨levels.rasN _, (still.rasN _).trans (by simp [openRow])⟩
    · exact fun lane => congrFun levels.cas lane
    · exact fun lane => congrFun still.cas lane
  refine .of_quiet quiet (by rw [ctrl]) (.RW2A ?_ (opened.step step asN)
    (seen_of_quiet step unserved quiet) ?_)
  · rw [same.openRow]
    exact still
  · rw [same.side, same.row, opens]

/-- The open row stays open while its row lines stay low. -/
theorem row_held {cas next : Fin 4 → Bool} {dsack : Bool} (step : Step before after)
    (levels : Levels before.ctrl (openRow before.bus) cas true)
    (still : Levels after.ctrl (openRow before.bus) next dsack) :
    (after.simm before.bus.side).row = (before.simm before.bus.side).row := by
  rw [step.simm]
  apply Bank.edge_row_held
  exact ⟨(levels.rasN _).trans (by simp [openRow]), (still.rasN _).trans (by simp [openRow])⟩

/-- A row that is open for a cycle whose column is still to be strobed. -/
structure RowOpen (s : Assembly) : Prop where
  levels : Levels s.ctrl (openRow s.bus) high true
  opened : Open s
  unserved : s.seen = []
  row : (s.simm s.bus.side).row = some s.bus.row

/-- While the controller keeps its strobes, the row stays open and no column is strobed. -/
theorem RowOpen.held (rowOpen : RowOpen before) (step : Step before after)
    (still : Levels after.ctrl (openRow before.bus) high true) :
    RowOpen after ∧ SameCycle before.bus after.bus ∧ ∀ side, before.strobe after side = none := by
  have quiet (side : Bool) : before.strobe after side = none :=
    strobe_of_casN (fun lane _ => congrFun still.cas lane) side
  have asN := step.held rowOpen.opened.asN rowOpen.opened.csN rowOpen.levels.dsackN still.dsackN
  have same := step.sameCycle rowOpen.opened.asN rowOpen.opened.csN asN
  refine ⟨⟨?_, rowOpen.opened.step step asN, seen_of_quiet step rowOpen.unserved quiet, ?_⟩, same, quiet⟩
  · rw [same.openRow]
    exact still
  · rw [same.side, same.row, row_held step rowOpen.levels still, rowOpen.row]

theorem step_RW2A (step : Step before after) (state : before.ctrl.state = .RW2A)
    (levels : Levels before.ctrl (openRow before.bus) high true) (opened : Open before)
    (unserved : before.seen = []) (row : (before.simm before.bus.side).row = some before.bus.row) :
    Outcome before after := by
  have ctrl := step.ctrl
  simp only [State.posedge, Bool.not_true, Bool.false_eq_true, if_false, state] at ctrl
  have still : Levels after.ctrl (openRow before.bus) high true := by
    rw [ctrl]
    exact ⟨levels.ras, levels.cas, levels.dsack⟩
  obtain ⟨held, -, quiet⟩ := RowOpen.held ⟨levels, opened, unserved, row⟩ step still
  exact .of_quiet quiet (by rw [ctrl]) (.RW3 held.levels held.opened held.unserved held.row)

theorem step_RW3 (step : Step before after) (state : before.ctrl.state = .RW3)
    (levels : Levels before.ctrl (openRow before.bus) high true) (opened : Open before)
    (unserved : before.seen = []) (row : (before.simm before.bus.side).row = some before.bus.row) :
    Outcome before after := by
  have ctrl := step.ctrl
  simp only [State.posedge, Bool.not_true, Bool.false_eq_true, if_false, state] at ctrl
  have still : Levels after.ctrl (openRow before.bus) high true := by
    rw [ctrl]
    exact ⟨levels.ras, levels.cas, levels.dsack⟩
  obtain ⟨held, same, quiet⟩ := RowOpen.held ⟨levels, opened, unserved, row⟩ step still
  refine .of_quiet quiet (by rw [ctrl]) (.RW4 held.levels held.opened held.unserved held.row ?_ ?_)
  · rw [ctrl, same.column]
  · rw [ctrl, same.rw]

/-- The lane decode is the arithmetic of the bus size and the offset. -/
theorem decodeCas_eq (bus : Bus) (lane : Fin 4) :
    (decodeCas bus.cycleType).getLsbD lane = transfers bus lane := by
  have table : ∀ siz low : BitVec 2, ∀ lane : Fin 4,
      (decodeCas (siz ++ low)).getLsbD lane =
        decide (low.toNat ≤ 3 - lane.val ∧ 3 - lane.val < low.toNat +
          min (if siz = 0 then 4 else siz.toNat) (4 - low.toNat)) := by
    decide
  exact table bus.siz (bus.addr.extractLsb' 0 2) lane

theorem transfers_nonempty (bus : Bus) : ∃ lane, transfers bus lane = true := by
  have table : ∀ siz low : BitVec 2, ∃ lane : Fin 4,
      decide (low.toNat ≤ 3 - lane.val ∧ 3 - lane.val < low.toNat +
        min (if siz = 0 then 4 else siz.toNat) (4 - low.toNat)) = true := by
    decide
  exact table bus.siz (bus.addr.extractLsb' 0 2)

theorem posedge_of_strobed {s : State} (bus : Bus) (state : s.state = .RW4)
    (active : s.activeN = false) (strobed : s.ds2N = false) :
    (s.posedge true bus).state = .RW4A ∧ (s.posedge true bus).dramWrN = s.dramWrN ∧
    (s.posedge true bus).addrDram = s.addrDram ∧
    (s.posedge true bus).casN = (fun lane : Fin 4 => !(s.dramWrN || s.cas.getLsbD lane)) ∧
    ((s.posedge true bus).ras0N, (s.posedge true bus).ras1N, (s.posedge true bus).ras2N,
      (s.posedge true bus).ras3N) = (s.ras0N, s.ras1N, s.ras2N, s.ras3N) ∧
    ((s.posedge true bus).dsack0N, (s.posedge true bus).dsack1N) = (s.dsack0N, s.dsack1N) := by
  simp only [State.posedge, Bool.not_true, Bool.false_eq_true, if_false, state, active, strobed,
    Bool.not_false, if_true]
  cases direction : s.dramWrN with
  | true =>
      refine ⟨rfl, direction, rfl, ?_, rfl, rfl⟩
      funext lane
      fin_cases lane <;> rfl
  | false =>
      refine ⟨rfl, direction, rfl, ?_, rfl, rfl⟩
      funext lane
      fin_cases lane <;> rfl

/-- The edge of state RW4 that lowers the column strobes. -/
structure Strobes (before after : Assembly) : Prop where
  levels : Levels after.ctrl (openRow before.bus) (columns before.bus) true
  addrDram : after.ctrl.addrDram = before.ctrl.addrDram
  dramWrN : after.ctrl.dramWrN = before.ctrl.dramWrN
  state : after.ctrl.state = .RW4A

theorem Strobes.strobe (strobes : Strobes before after)
    (levels : Levels before.ctrl (openRow before.bus) high true)
    (row : (before.simm before.bus.side).row = some before.bus.row)
    (column : before.ctrl.addrDram = before.bus.column)
    (direction : before.ctrl.dramWrN = before.bus.rw) (side : Bool) :
    before.strobe after side = if side = before.bus.side then some (addressed before.bus).2 else none := by
  split
  · rename_i selected
    subst selected
    obtain ⟨lane, transferred⟩ := transfers_nonempty before.bus
    have low : (before.ctrl.pins before.bus.side).rasN = false ∧
        (after.ctrl.pins before.bus.side).rasN = false :=
      ⟨(levels.rasN _).trans (by simp [openRow]), (strobes.levels.rasN _).trans (by simp [openRow])⟩
    have casBefore (lane : Fin 4) : before.ctrl.casN lane = true := congrFun levels.cas lane
    have casAfter (lane : Fin 4) : after.ctrl.casN lane = columns before.bus lane :=
      congrFun strobes.levels.cas lane
    rw [Assembly.strobe, Bank.strobe_of_falls low lane]
    · simp [State.pins, addressed, row, strobes.addrDram, column, strobes.dramWrN, direction,
        casBefore, casAfter, columns]
    · exact ⟨casBefore lane, (casAfter lane).trans (by simp [columns, transferred])⟩
  · rename_i other
    exact strobe_of_rasN ((levels.rasN side).trans (by simpa [openRow] using other))

theorem Access.strobes (access : Access before after) :
    before.strobes after = [addressed before.bus] := by
  simp only [Assembly.strobes, access.strobe]
  cases side : before.bus.side <;> simp [addressed, side]

theorem step_RW4 (step : Step before after) (history : History before)
    (state : before.ctrl.state = .RW4)
    (levels : Levels before.ctrl (openRow before.bus) high true) (opened : Open before)
    (unserved : before.seen = []) (row : (before.simm before.bus.side).row = some before.bus.row)
    (column : before.ctrl.addrDram = before.bus.column)
    (direction : before.ctrl.dramWrN = before.bus.rw) : Outcome before after := by
  have active : before.ctrl.activeN = false := by
    simp [State.activeN, opened.as2N, opened.cs2N]
  cases ds2N : before.ctrl.ds2N with
  | true =>
      -- the data strobe of a slow write is still to come
      have ctrl := step.ctrl
      simp only [State.posedge, Bool.not_true, Bool.false_eq_true, if_false, state, active,
        ds2N] at ctrl
      have still : Levels after.ctrl (openRow before.bus) high true := by
        rw [ctrl]
        exact ⟨levels.ras, levels.cas, levels.dsack⟩
      obtain ⟨held, same, quiet⟩ := RowOpen.held ⟨levels, opened, unserved, row⟩ step still
      refine .of_quiet quiet (by rw [ctrl]; exact state)
        (.RW4 held.levels held.opened held.unserved held.row ?_ ?_)
      · rw [ctrl, same.column]
        exact column
      · rw [ctrl, same.rw]
        exact direction
  | false =>
      have ds1N := history.ds2N ds2N opened.as1N
      have dsN := history.ds1N ds1N opened.asN
      have strobes : Strobes before after := by
        obtain ⟨next, dramWrN, addrDram, cas, ras, dsack⟩ :=
          posedge_of_strobed before.bus state active ds2N
        rw [← step.ctrl] at next dramWrN addrDram cas ras dsack
        refine ⟨⟨ras.trans levels.ras, cas.trans ?_, dsack.trans levels.dsack⟩, addrDram, dramWrN,
          next⟩
        funext lane
        rw [direction, opened.cas, decodeCas_eq]
        rfl
      have asN := step.held opened.asN opened.csN levels.dsackN strobes.levels.dsackN
      have same := step.sameCycle opened.asN opened.csN asN
      have sampled := step.sampled
      obtain ⟨stays, data⟩ := step.master.data opened.asN dsN asN
      have access : Access before after := ⟨opened.asN, asN, opened.csN, unserved,
        strobes.strobe levels row column direction, data⟩
      refine .access access ?_
      rw [strobes.state]
      refine .RW4A ?_ (opened.step step asN) ?_ ?_ stays (sampled.ds1N.trans dsN)
        (sampled.ds2N.trans ds1N)
      · rw [same.openRow, same.columns]
        exact strobes.levels
      · rw [step.seen, asN, unserved, same.addressed, access.strobes]
        rfl
      · rw [strobes.dramWrN, direction, same.rw]

theorem step_RW4A (step : Step before after) (state : before.ctrl.state = .RW4A)
    (levels : Levels before.ctrl (openRow before.bus) (columns before.bus) true)
    (opened : Open before) (served : before.seen = [addressed before.bus])
    (direction : before.ctrl.dramWrN = before.bus.rw) (dsN : before.bus.dsN = false)
    (ds1N : before.ctrl.ds1N = false) : Outcome before after := by
  have ctrl := step.ctrl
  simp only [State.posedge, Bool.not_true, Bool.false_eq_true, if_false, state] at ctrl
  have still : Levels after.ctrl (openRow before.bus) (columns before.bus) true := by
    rw [ctrl]
    exact ⟨levels.ras, levels.cas, levels.dsack⟩
  have quiet (side : Bool) : before.strobe after side = none :=
    strobe_of_casN (fun lane up => by rw [still.cas, ← levels.cas, up]) side
  have asN := step.held opened.asN opened.csN levels.dsackN still.dsackN
  have same := step.sameCycle opened.asN opened.csN asN
  have sampled := step.sampled
  obtain ⟨stays, _⟩ := step.master.data opened.asN dsN asN
  refine .of_quiet quiet (by rw [ctrl]) (.RW5 _ _ _ still (.open_ (opened.step step asN) stays
    (sampled.ds1N.trans dsN) (sampled.ds2N.trans ds1N)) fun _ => ⟨?_, ?_, ?_, ?_⟩)
  · rw [same.openRow]
  · rw [same.columns]
  · rw [ctrl, same.rw]
    exact direction
  · rw [step.seen, asN, served, same.addressed, strobes_eq_nil quiet]
    simp

/-- The controller's test for the end of a cycle: a read ends one flip-flop earlier. -/
def ended (c : State) : Bool := c.activeN || if c.dramWrN then c.ds1N else c.ds2N

theorem Ending.of_ended (ending : Ending before) (ended : ended before.ctrl = true) :
    before.bus.asN = true ∧ before.ctrl.as1N = true := by
  cases ending with
  | open_ opened _ ds1N ds2N =>
      simp [Assembly.ended, State.activeN, opened.as2N, opened.cs2N, ds1N, ds2N] at ended
  | first _ _ _ ds1N as2N cs2N ds2N =>
      simp [Assembly.ended, State.activeN, as2N, cs2N, ds1N, ds2N] at ended
  | second asN as1N => exact ⟨asN, as1N⟩
  | third _ asN as1N => exact ⟨asN, as1N⟩

theorem History.closed (history : History before) (step : Step before after)
    (asN : before.bus.asN = true) (recent : before.ctrl.as2N = false) : after.bus.asN = true := by
  cases falls : after.bus.asN with
  | false =>
      have long := step.master.gap asN falls
      exact absurd recent (ne_false_of_eq_true (history.second asN long).2)
  | true => rfl

theorem Ending.of_low (ending : Ending before) (history : History before)
    (step : Step before after) (waiting : ended before.ctrl = false)
    (low : after.bus.asN = false) : Open before := by
  have reopened (asN : before.bus.asN = true) (recent : before.ctrl.as2N = false) : False :=
    absurd low (ne_false_of_eq_true (history.closed step asN recent))
  cases ending with
  | open_ opened => exact opened
  | first asN _ _ _ as2N => exact (reopened asN as2N).elim
  | second asN _ _ as2N => exact (reopened asN as2N).elim
  | third _ _ _ as2N => simp [ended, State.activeN, as2N] at waiting

/-- A cycle that the controller still waits for stays the same one, or moves on in its end. -/
theorem Ending.step (ending : Ending before) (history : History before) (step : Step before after)
    (direction : after.ctrl.dramWrN = before.ctrl.dramWrN) (waiting : ended before.ctrl = false) :
    Ending after := by
  have sampled := step.sampled
  cases ending with
  | open_ opened dsN ds1N ds2N =>
      cases asN : after.bus.asN with
      | false =>
          obtain ⟨stays, _⟩ := step.master.data opened.asN dsN asN
          exact .open_ (opened.step step asN) stays (sampled.ds1N.trans dsN)
            (sampled.ds2N.trans ds1N)
      | true =>
          exact .first asN (sampled.as1N.trans opened.asN) (sampled.cs1N.trans opened.csN)
            (sampled.ds1N.trans dsN) (sampled.as2N.trans opened.as1N)
            (sampled.cs2N.trans opened.cs1N) (sampled.ds2N.trans ds1N)
  | first asN as1N cs1N ds1N as2N cs2N ds2N =>
      exact .second (history.closed step asN as2N) (sampled.as1N.trans asN)
        (sampled.ds1N.trans (history.strobe asN)) (sampled.as2N.trans as1N)
        (sampled.cs2N.trans cs1N) (sampled.ds2N.trans ds1N)
  | second asN as1N ds1N as2N cs2N ds2N =>
      have write : before.ctrl.dramWrN = false := by
        by_contra read
        simp [ended, read, ds1N] at waiting
      exact .third (direction.trans write) (history.closed step asN as2N) (sampled.as1N.trans asN)
        (sampled.as2N.trans as1N)
  | third _ _ _ as2N => simp [ended, State.activeN, as2N] at waiting

theorem posedge_of_waiting {c : State} {bus : Bus} (state : c.state = .RW5)
    (waiting : ended c = false) : c.posedge true bus = (c.clockInputs true bus).setDsack false := by
  simp only [ended, Bool.or_eq_false_iff] at waiting
  simp only [State.posedge, Bool.not_true, Bool.false_eq_true, if_false, state, waiting.1,
    Bool.false_or]
  by_cases read : c.dramWrN = true
  · rw [if_pos read] at waiting ⊢
    rw [if_neg (by simp [waiting.2])]
  · rw [if_neg read] at waiting ⊢
    rw [if_neg (by simp [waiting.2])]

theorem posedge_of_ended {c : State} (bus : Bus) (state : c.state = .RW5)
    (ends : ended c = true) :
    (c.posedge true bus).state = .PRECHARGE ∧
    ((c.posedge true bus).ras0N, (c.posedge true bus).ras1N, (c.posedge true bus).ras2N,
      (c.posedge true bus).ras3N) = (c.ras0N, c.ras1N, c.ras2N, c.ras3N) ∧
    ((c.posedge true bus).dsack0N, (c.posedge true bus).dsack1N) = (true, true) ∧
    ∀ lane, c.casN lane = true → (c.posedge true bus).casN lane = true := by
  simp only [State.posedge, Bool.not_true, Bool.false_eq_true, if_false, state]
  by_cases read : c.dramWrN = true
  · simp only [ended, read, if_true] at ends ⊢
    rw [if_pos ends]
    refine ⟨rfl, rfl, rfl, fun lane _ => ?_⟩
    fin_cases lane <;> rfl
  · simp only [ended, read, Bool.false_eq_true, if_false] at ends ⊢
    rw [if_pos ends]
    refine ⟨rfl, rfl, rfl, fun lane up => ?_⟩
    exact up

theorem step_RW5 (step : Step before after) (history : History before)
    (state : before.ctrl.state = .RW5) {ras : Bool → Bool} {cas : Fin 4 → Bool} {dsack : Bool}
    (levels : Levels before.ctrl ras cas dsack) (ending : Ending before)
    (served : before.bus.asN = false → ras = openRow before.bus ∧ cas = columns before.bus ∧
      before.ctrl.dramWrN = before.bus.rw ∧ before.seen = [addressed before.bus]) :
    Outcome before after := by
  have ctrl := step.ctrl
  cases ends : ended before.ctrl with
  | false =>
      rw [posedge_of_waiting state ends] at ctrl
      have still : Levels after.ctrl ras cas false := by
        rw [ctrl]
        exact ⟨levels.ras, levels.cas, rfl⟩
      have quiet (side : Bool) : before.strobe after side = none :=
        strobe_of_casN (fun lane up => by rw [still.cas, ← levels.cas, up]) side
      refine .of_quiet quiet (by rw [ctrl]; exact state) (.RW5 _ _ _ still
        (ending.step history step (by rw [ctrl]; rfl) ends) fun asN => ?_)
      have opened := ending.of_low history step ends asN
      have same := step.sameCycle opened.asN opened.csN asN
      obtain ⟨openRow, columns, direction, seen⟩ := served opened.asN
      refine ⟨?_, ?_, ?_, ?_⟩
      · rw [openRow, same.openRow]
      · rw [columns, same.columns]
      · rw [ctrl, same.rw]
        exact direction
      · rw [step.seen, asN, seen, same.addressed, strobes_eq_nil quiet]
        simp
  | true =>
      obtain ⟨next, lines, dsacks, lanes⟩ := posedge_of_ended before.bus state ends
      rw [← ctrl] at next lines dsacks lanes
      have quiet (side : Bool) : before.strobe after side = none := strobe_of_casN lanes side
      have sampled := step.sampled
      obtain ⟨asN, as1N⟩ := ending.of_ended ends
      have clear : Fresh after := by
        constructor
        · intro recent
          exact absurd recent (ne_false_of_eq_true (sampled.as1N.trans asN))
        · intro recent
          exact absurd recent (ne_false_of_eq_true (sampled.as2N.trans as1N))
      exact .of_quiet quiet next (.PRECHARGE ras after.ctrl.casN
        ⟨lines.trans levels.ras, rfl, dsacks⟩ clear
        (seen_of_quiet step (history.seen asN) quiet))

theorem step_REFRESH1 (step : Step before after) (state : before.ctrl.state = .REFRESH1)
    (levels : Levels before.ctrl high high true) (fresh : Fresh before)
    (unserved : before.seen = []) : Outcome before after := by
  have quiet (side : Bool) : before.strobe after side = none :=
    strobe_of_rasN (levels.rasN side)
  have ctrl := step.ctrl
  simp only [State.posedge, Bool.not_true, Bool.false_eq_true, if_false, state] at ctrl
  have still : Levels after.ctrl high low true := by
    rw [ctrl]
    refine ⟨levels.ras, ?_, levels.dsack⟩
    funext lane
    fin_cases lane <;> rfl
  exact .of_quiet quiet (by rw [ctrl]) (.REFRESH2 still
    (fresh.step step levels.dsackN still.dsackN) (seen_of_quiet step unserved quiet))

theorem step_REFRESH2 (step : Step before after) (state : before.ctrl.state = .REFRESH2)
    (levels : Levels before.ctrl high low true) (fresh : Fresh before)
    (unserved : before.seen = []) : Outcome before after := by
  have quiet (side : Bool) : before.strobe after side = none :=
    strobe_of_rasN (levels.rasN side)
  have ctrl := step.ctrl
  simp only [State.posedge, Bool.not_true, Bool.false_eq_true, if_false, state] at ctrl
  have still : Levels after.ctrl low low true := by
    rw [ctrl]
    exact ⟨rfl, levels.cas, levels.dsack⟩
  exact .of_quiet quiet (by rw [ctrl]) (.REFRESH3 still
    (fresh.step step levels.dsackN still.dsackN) (seen_of_quiet step unserved quiet))

theorem step_REFRESH3 (step : Step before after) (state : before.ctrl.state = .REFRESH3)
    (levels : Levels before.ctrl low low true) (fresh : Fresh before)
    (unserved : before.seen = []) : Outcome before after := by
  have ctrl := step.ctrl
  simp only [State.posedge, Bool.not_true, Bool.false_eq_true, if_false, state] at ctrl
  have still : Levels after.ctrl low high true := by
    rw [ctrl]
    refine ⟨levels.ras, ?_, levels.dsack⟩
    funext lane
    fin_cases lane <;> rfl
  have quiet (side : Bool) : before.strobe after side = none :=
    strobe_of_casN (fun lane _ => congrFun still.cas lane) side
  exact .of_quiet quiet (by rw [ctrl]) (.REFRESH4 still
    (fresh.step step levels.dsackN still.dsackN) (seen_of_quiet step unserved quiet))

theorem step_REFRESH4 (step : Step before after) (state : before.ctrl.state = .REFRESH4)
    (levels : Levels before.ctrl low high true) (fresh : Fresh before)
    (unserved : before.seen = []) : Outcome before after := by
  have ctrl := step.ctrl
  simp only [State.posedge, Bool.not_true, Bool.false_eq_true, if_false, state] at ctrl
  have still : Levels after.ctrl high high true := by
    rw [ctrl]
    exact ⟨rfl, levels.cas, levels.dsack⟩
  have quiet (side : Bool) : before.strobe after side = none :=
    strobe_of_casN (fun lane _ => congrFun still.cas lane) side
  exact .of_quiet quiet (by rw [ctrl]) (.PRECHARGE high high still
    (fresh.step step levels.dsackN still.dsackN) (seen_of_quiet step unserved quiet))

theorem step_PRECHARGE (step : Step before after) (state : before.ctrl.state = .PRECHARGE)
    {ras : Bool → Bool} {cas : Fin 4 → Bool} (levels : Levels before.ctrl ras cas true)
    (fresh : Fresh before) (unserved : before.seen = []) : Outcome before after := by
  have ctrl := step.ctrl
  simp only [State.posedge, Bool.not_true, Bool.false_eq_true, if_false, state] at ctrl
  have still : Levels after.ctrl high high true := by
    rw [ctrl]
    refine ⟨rfl, ?_, rfl⟩
    funext lane
    fin_cases lane <;> rfl
  have quiet (side : Bool) : before.strobe after side = none :=
    strobe_of_casN (fun lane _ => congrFun still.cas lane) side
  exact .of_quiet quiet (by rw [ctrl]) (.IDLE still
    (fresh.step step levels.dsackN still.dsackN) (seen_of_quiet step unserved quiet))

theorem PhaseInvariant.step {state : FsmState} (invariant : PhaseInvariant before state)
    (current : before.ctrl.state = state) (history : History before) (step : Step before after) :
    Outcome before after := by
  cases invariant with
  | IDLE levels fresh unserved => exact step_IDLE step current levels fresh unserved
  | RW1 levels opened unserved => exact step_RW1 step current levels opened unserved
  | RW2 levels opened unserved row => exact step_RW2 step current levels opened unserved row
  | RW2A levels opened unserved row => exact step_RW2A step current levels opened unserved row
  | RW3 levels opened unserved row => exact step_RW3 step current levels opened unserved row
  | RW4 levels opened unserved row column direction =>
      exact step_RW4 step history current levels opened unserved row column direction
  | RW4A levels opened served direction dsN ds1N =>
      exact step_RW4A step current levels opened served direction dsN ds1N
  | RW5 ras cas dsack levels ending served =>
      exact step_RW5 step history current levels ending served
  | REFRESH1 levels fresh unserved => exact step_REFRESH1 step current levels fresh unserved
  | REFRESH2 levels fresh unserved => exact step_REFRESH2 step current levels fresh unserved
  | REFRESH3 levels fresh unserved => exact step_REFRESH3 step current levels fresh unserved
  | REFRESH4 levels fresh unserved => exact step_REFRESH4 step current levels fresh unserved
  | PRECHARGE ras cas levels fresh unserved =>
      exact step_PRECHARGE step current levels fresh unserved

theorem PhaseInvariant.levels {s : Assembly} {state : FsmState} (invariant : PhaseInvariant s state) :
    ∃ ras cas dsack, Levels s.ctrl ras cas dsack := by
  cases invariant <;> exact ⟨_, _, _, by assumption⟩

/-- DSACK belongs to the one state that waits for the end of the cycle. -/
theorem PhaseInvariant.acknowledged {s : Assembly} {state : FsmState}
    (invariant : PhaseInvariant s state) (asN : s.bus.asN = false) (dsackN : s.ctrl.dsackN = false) :
    Levels s.ctrl (openRow s.bus) (columns s.bus) false ∧ s.bus.csN = false ∧
      s.ctrl.dramWrN = s.bus.rw ∧ s.seen = [addressed s.bus] := by
  have unasserted {ras : Bool → Bool} {cas : Fin 4 → Bool} {P : Prop}
      (levels : Levels s.ctrl ras cas true) : P :=
    absurd dsackN (ne_false_of_eq_true levels.dsackN)
  cases invariant with
  | RW5 ras cas dsack levels ending served =>
      obtain ⟨rfl, rfl, direction, seen⟩ := served asN
      obtain rfl : dsack = false := levels.dsackN.symm.trans dsackN
      have csN : s.bus.csN = false := by
        cases ending with
        | open_ opened => exact opened.csN
        | first closed => exact absurd asN (ne_false_of_eq_true closed)
        | second closed => exact absurd asN (ne_false_of_eq_true closed)
        | third _ closed => exact absurd asN (ne_false_of_eq_true closed)
      exact ⟨levels, csN, direction, seen⟩
  | IDLE levels => exact unasserted levels
  | RW1 levels => exact unasserted levels
  | RW2 levels => exact unasserted levels
  | RW2A levels => exact unasserted levels
  | RW3 levels => exact unasserted levels
  | RW4 levels => exact unasserted levels
  | RW4A levels => exact unasserted levels
  | REFRESH1 levels => exact unasserted levels
  | REFRESH2 levels => exact unasserted levels
  | REFRESH3 levels => exact unasserted levels
  | REFRESH4 levels => exact unasserted levels
  | PRECHARGE _ _ levels => exact unasserted levels

end Assembly

end Mackerel.M30.DramController
