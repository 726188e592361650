import Mackerel.M10.DramCycles

namespace Mackerel.M10.DramController

open Dram

namespace Assembly

variable {before after : Assembly}

/-- The levels of the strobes by bank and lane, and of the acknowledge. -/
structure Levels (c : State) (ras : Bool → Bool) (cas : Bool → Bool → Bool) (dtack : Bool) :
    Prop where
  ras : ∀ bank, c.ras bank = ras bank
  cas : ∀ bank lane, c.cas bank lane = cas bank lane
  dtack : c.dtackDram = dtack

def rasHigh : Bool → Bool := fun _ => true

def rasLow : Bool → Bool := fun _ => false

def casHigh : Bool → Bool → Bool := fun _ _ => true

def casLow : Bool → Bool → Bool := fun _ _ => false

def openRow (master : Master) (bank : Bool) : Bool := bank != master.bus.bank

def columns (master : Master) (bank lane : Bool) : Bool :=
  bank != master.bus.bank || !master.lanes lane

theorem SameCycle.openRow {before after : Master} (same : SameCycle before after) :
    openRow after = openRow before := by
  funext bank
  simp only [Assembly.openRow, same.bank]

theorem SameCycle.columns {before after : Master} (same : SameCycle before after) :
    columns after = columns before := by
  funext bank lane
  simp only [Assembly.columns, same.bank, same.lanes]

/-- A cycle on the DRAM that both input flip-flops have seen, `age` clocks or more after its
    start. -/
structure Open (s : Assembly) (age : Nat) : Prop where
  as : s.bus.as = false
  cs : s.bus.cs = false
  since : age ≤ s.master.since

structure Fresh (s : Assembly) : Prop where
  first : s.ctrl.as1 = false → s.ctrl.cs1 = false → s.bus.as = false ∧ s.bus.cs = false
  second : s.ctrl.as2 = false → s.ctrl.cs2 = false → s.ctrl.as1 = false ∧ s.ctrl.cs1 = false

/-- What is known of an open cycle in every state: how long the flip-flops have seen `AS`
    low, and that it transfers some lane. -/
structure History (s : Assembly) : Prop where
  first : s.bus.as = false → s.ctrl.as1 = false → 1 ≤ s.master.since
  second : s.bus.as = false → s.ctrl.as1 = false → s.ctrl.as2 = false → 2 ≤ s.master.since
  used : s.bus.as = false → ∃ lane, s.master.lanes lane = true

inductive PhaseInvariant (s : Assembly) : FsmState → Prop where
  | IDLE : Levels s.ctrl rasHigh casHigh true → Fresh s → s.seen = [] → PhaseInvariant s .IDLE
  | RW1 : Levels s.ctrl rasHigh casHigh true → Open s 3 → s.seen = [] → PhaseInvariant s .RW1
  | RW2 : Levels s.ctrl rasHigh casHigh true → Open s 4 → s.seen = [] →
      s.ctrl.addrOut = s.bus.row → PhaseInvariant s .RW2
  | RW3 : Levels s.ctrl (openRow s.master) casHigh true → Open s 5 → s.seen = [] →
      (s.banks s.bus.bank).row = some s.bus.row → PhaseInvariant s .RW3
  | RW4 : Levels s.ctrl (openRow s.master) casHigh true → Open s 6 →
      (∀ lane, s.bus.ds lane = !s.master.lanes lane) → s.seen = [] →
      (s.banks s.bus.bank).row = some s.bus.row → s.ctrl.addrOut = s.bus.column →
      s.ctrl.wr s.bus.bank = s.bus.rw → PhaseInvariant s .RW4
  | RW5 (ras : Bool → Bool) (cas : Bool → Bool → Bool) (dtack : Bool) :
      Levels s.ctrl ras cas dtack → (s.bus.as = true → s.master.since = 0 ∧ s.seen = []) →
      (s.bus.as = false → s.bus.cs = false ∧ ras = openRow s.master ∧ cas = columns s.master ∧
        s.ctrl.wr s.bus.bank = s.bus.rw ∧ s.seen = [addressed s.master]) →
      PhaseInvariant s .RW5
  | REFRESH1 : Levels s.ctrl rasHigh casHigh true → Fresh s → s.seen = [] →
      PhaseInvariant s .REFRESH1
  | REFRESH2 : Levels s.ctrl rasHigh casLow true → Fresh s → s.seen = [] →
      PhaseInvariant s .REFRESH2
  | REFRESH3 : Levels s.ctrl rasLow casLow true → Fresh s → s.seen = [] →
      PhaseInvariant s .REFRESH3
  | REFRESH4 : Levels s.ctrl rasLow casHigh true → Fresh s → s.seen = [] →
      PhaseInvariant s .REFRESH4
  | PRECHARGE (ras : Bool → Bool) (cas : Bool → Bool → Bool) (dtack : Bool) :
      Levels s.ctrl ras cas dtack →
      ((dtack = true ∧ Fresh s) ∨ (s.bus.as = true ∧ s.ctrl.as1 = true)) → s.seen = [] →
      PhaseInvariant s .PRECHARGE

/-- The clock edge of a column access: the first one of an open cycle on the DRAM, and the
    one that the cycle asks for. -/
structure Access (before after : Assembly) : Prop where
  as : before.bus.as = false
  cs : before.bus.cs = false
  ds : ∀ lane, before.bus.ds lane = !before.master.lanes lane
  first : before.seen = []
  strobe : ∀ bank, before.strobe after bank =
    if bank = before.bus.bank then some (addressed before.master).2 else none

inductive Outcome (before after : Assembly) : Prop where
  | quiet : (∀ bank, before.strobe after bank = none) →
      PhaseInvariant after after.ctrl.state → Outcome before after
  | access : Access before after → PhaseInvariant after after.ctrl.state → Outcome before after

theorem Outcome.of_quiet {next : FsmState} (quiet : ∀ bank, before.strobe after bank = none)
    (state : after.ctrl.state = next) (invariant : PhaseInvariant after next) :
    Outcome before after :=
  .quiet quiet (state ▸ invariant)

theorem History.step (history : History before) (step : Step before after) : History after := by
  have sampled := step.sampled
  constructor
  · intro as as1
    have same := step.sameCycle (sampled.as1 ▸ as1) as
    have since := same.since
    omega
  · intro as as1 as2
    have was : before.bus.as = false := sampled.as1 ▸ as1
    have since := (step.sameCycle was as).since
    have earlier := history.first was (sampled.as2 ▸ as2)
    omega
  · exact step.master.used

theorem Fresh.step (fresh : Fresh before) (step : Step before after)
    (dtackBefore : before.ctrl.dtackDram = true) (dtackAfter : after.ctrl.dtackDram = true) :
    Fresh after := by
  have sampled := step.sampled
  constructor
  · intro as1 cs1
    have as : before.bus.as = false := sampled.as1 ▸ as1
    have cs : before.bus.cs = false := sampled.cs1 ▸ cs1
    have still := step.held as cs dtackBefore dtackAfter
    exact ⟨still, (step.sameCycle as still).cs.trans cs⟩
  · intro as2 cs2
    rw [sampled.as1, sampled.cs1]
    exact fresh.first (sampled.as2 ▸ as2) (sampled.cs2 ▸ cs2)

theorem Open.step {age : Nat} (opened : Open before age) (step : Step before after)
    (dtackBefore : before.ctrl.dtackDram = true) (dtackAfter : after.ctrl.dtackDram = true) :
    Open after (age + 1) ∧ SameCycle before.master after.master := by
  have still := step.held opened.as opened.cs dtackBefore dtackAfter
  have same := step.sameCycle opened.as still
  have since := same.since
  have older := opened.since
  exact ⟨⟨still, same.cs.trans opened.cs, by omega⟩, same⟩

theorem Open.of_fresh (fresh : Fresh before) (history : History before)
    (as2 : before.ctrl.as2 = false) (cs2 : before.ctrl.cs2 = false) : Open before 2 := by
  obtain ⟨as1, cs1⟩ := fresh.second as2 cs2
  obtain ⟨as, cs⟩ := fresh.first as1 cs1
  exact ⟨as, cs, history.second as as1 as2⟩

theorem step_IDLE (step : Step before after) (history : History before)
    (state : before.ctrl.state = .IDLE) (levels : Levels before.ctrl rasHigh casHigh true)
    (fresh : Fresh before) (unserved : before.seen = []) : Outcome before after := by
  have quiet (bank : Bool) : before.strobe after bank = none := strobe_of_ras (levels.ras bank)
  have silent := seen_of_quiet step unserved quiet
  have ctrl := step.ctrl
  simp only [State.posedge, Bool.not_true, Bool.false_eq_true, if_false, state] at ctrl
  have still : Levels after.ctrl rasHigh casHigh true := by
    rw [ctrl]
    repeat' split
    all_goals exact ⟨levels.ras, levels.cas, levels.dtack⟩
  have next := fresh.step step levels.dtack still.dtack
  split at ctrl
  · exact .of_quiet quiet (by rw [ctrl]) (.REFRESH1 still next silent)
  · split at ctrl
    · rename_i selected
      simp only [Bool.and_eq_true, Bool.not_eq_true'] at selected
      have opened := Open.of_fresh fresh history selected.2 selected.1
      exact .of_quiet quiet (by rw [ctrl])
        (.RW1 still (opened.step step levels.dtack still.dtack).1 silent)
    · exact .of_quiet quiet (by rw [ctrl]; exact state) (.IDLE still next silent)

theorem step_RW1 (step : Step before after) (state : before.ctrl.state = .RW1)
    (levels : Levels before.ctrl rasHigh casHigh true) (opened : Open before 3)
    (unserved : before.seen = []) : Outcome before after := by
  have quiet (bank : Bool) : before.strobe after bank = none := strobe_of_ras (levels.ras bank)
  have ctrl := step.ctrl
  simp only [State.posedge, Bool.not_true, Bool.false_eq_true, if_false, state] at ctrl
  have still : Levels after.ctrl rasHigh casHigh true := by
    rw [ctrl]
    exact ⟨levels.ras, levels.cas, levels.dtack⟩
  obtain ⟨next, same⟩ := opened.step step levels.dtack still.dtack
  refine .of_quiet quiet (by rw [ctrl]) (.RW2 still next (seen_of_quiet step unserved quiet) ?_)
  rw [ctrl, same.row]

theorem step_RW2 (step : Step before after) (state : before.ctrl.state = .RW2)
    (levels : Levels before.ctrl rasHigh casHigh true) (opened : Open before 4)
    (unserved : before.seen = []) (row : before.ctrl.addrOut = before.bus.row) :
    Outcome before after := by
  have quiet (bank : Bool) : before.strobe after bank = none := strobe_of_ras (levels.ras bank)
  have ctrl := step.ctrl
  simp only [State.posedge, Bool.not_true, Bool.false_eq_true, if_false, state] at ctrl
  have rasA : before.ctrl.rasA = true := levels.ras false
  have rasB : before.ctrl.rasB = true := levels.ras true
  have still : Levels after.ctrl (openRow before.master) casHigh true := by
    rw [ctrl]
    cases bankA : before.bus.bankA with
    | true =>
        refine ⟨fun bank => ?_, levels.cas, levels.dtack⟩
        cases bank <;> simp [State.ras, openRow, Bus.bank, bankA, State.clockInputs, rasB]
    | false =>
        refine ⟨fun bank => ?_, levels.cas, levels.dtack⟩
        cases bank <;> simp [State.ras, openRow, Bus.bank, bankA, State.clockInputs, rasA]
  have next : after.ctrl.state = .RW3 ∧ after.ctrl.addrOut = before.ctrl.addrOut := by
    rw [ctrl]
    split <;> exact ⟨rfl, rfl⟩
  obtain ⟨later, same⟩ := opened.step step levels.dtack still.dtack
  have opens : (after.banks before.bus.bank).row = some before.bus.row := by
    rw [step.banks, Bank.edge_row_open]
    · rw [← row, ← next.2]
      rfl
    · exact ⟨levels.ras _, (still.ras _).trans (by simp [openRow])⟩
    · exact levels.cas _
    · exact still.cas _
  refine .of_quiet quiet next.1 (.RW3 ?_ later (seen_of_quiet step unserved quiet) ?_)
  · rw [same.openRow]
    exact still
  · rw [same.bank, same.row, opens]

/-- The open row stays open while its row strobe stays low. -/
theorem row_held {cas next : Bool → Bool → Bool} {dtack : Bool} (step : Step before after)
    (levels : Levels before.ctrl (openRow before.master) cas true)
    (still : Levels after.ctrl (openRow before.master) next dtack) :
    (after.banks before.bus.bank).row = (before.banks before.bus.bank).row := by
  rw [step.banks]
  apply Bank.edge_row_held
  exact ⟨(levels.ras _).trans (by simp [openRow]), (still.ras _).trans (by simp [openRow])⟩

theorem step_RW3 (step : Step before after) (state : before.ctrl.state = .RW3)
    (levels : Levels before.ctrl (openRow before.master) casHigh true) (opened : Open before 5)
    (unserved : before.seen = []) (row : (before.banks before.bus.bank).row = some before.bus.row) :
    Outcome before after := by
  have ctrl := step.ctrl
  simp only [State.posedge, Bool.not_true, Bool.false_eq_true, if_false, state] at ctrl
  have still : Levels after.ctrl (openRow before.master) casHigh true := by
    rw [ctrl]
    split <;> exact ⟨levels.ras, levels.cas, levels.dtack⟩
  have next : after.ctrl.state = .RW4 ∧ after.ctrl.addrOut = before.bus.column ∧
      after.ctrl.wr before.bus.bank = before.bus.rw := by
    rw [ctrl]
    cases bankA : before.bus.bankA <;> simp [State.wr, Bus.bank, bankA]
  have quiet (bank : Bool) : before.strobe after bank = none :=
    strobe_of_cas fun lane _ => still.cas bank lane
  obtain ⟨later, same⟩ := opened.step step levels.dtack still.dtack
  have long := later.since
  have settled := step.master.strobes later.as later.cs (by omega) levels.dtack still.dtack
  refine .of_quiet quiet next.1 (.RW4 ?_ later settled (seen_of_quiet step unserved quiet)
    ?_ ?_ ?_)
  · rw [same.openRow]
    exact still
  · rw [same.bank, same.row, row_held step levels still, row]
  · rw [next.2.1, same.column]
  · rw [same.bank, next.2.2, same.rw]

/-- The edge of state RW4 lowers the strobes of the lanes whose data strobe is low. -/
structure Strobes (before after : Assembly) : Prop where
  levels : Levels after.ctrl (openRow before.master) (columns before.master) true
  addrOut : after.ctrl.addrOut = before.ctrl.addrOut
  wr : after.ctrl.wr before.bus.bank = before.ctrl.wr before.bus.bank
  state : after.ctrl.state = .RW5

theorem Strobes.of_step (step : Step before after) (state : before.ctrl.state = .RW4)
    (levels : Levels before.ctrl (openRow before.master) casHigh true)
    (settled : ∀ lane, before.bus.ds lane = !before.master.lanes lane) : Strobes before after := by
  have lds : before.bus.lds = !before.master.lanes false := settled false
  have uds : before.bus.uds = !before.master.lanes true := settled true
  have ctrl := step.ctrl
  simp only [State.posedge, Bool.not_true, Bool.false_eq_true, if_false, state] at ctrl
  cases bankA : before.bus.bankA with
  | true =>
      have casB0 : before.ctrl.casB0 = true := levels.cas true false
      have casB1 : before.ctrl.casB1 = true := levels.cas true true
      rw [if_pos bankA] at ctrl
      have lowered : Levels after.ctrl (openRow before.master) (columns before.master) true := by
        rw [ctrl]
        refine ⟨levels.ras, fun bank lane => ?_, levels.dtack⟩
        cases bank <;> cases lane <;>
          simp [State.cas, columns, Bus.bank, bankA, lds, uds, State.clockInputs, casB0, casB1]
      exact ⟨lowered, by rw [ctrl]; rfl, by rw [ctrl]; rfl, by rw [ctrl]⟩
  | false =>
      have casA0 : before.ctrl.casA0 = true := levels.cas false false
      have casA1 : before.ctrl.casA1 = true := levels.cas false true
      rw [if_neg (by simp [bankA])] at ctrl
      have lowered : Levels after.ctrl (openRow before.master) (columns before.master) true := by
        rw [ctrl]
        refine ⟨levels.ras, fun bank lane => ?_, levels.dtack⟩
        cases bank <;> cases lane <;>
          simp [State.cas, columns, Bus.bank, bankA, lds, uds, State.clockInputs, casA0, casA1]
      exact ⟨lowered, by rw [ctrl]; rfl, by rw [ctrl]; rfl, by rw [ctrl]⟩

theorem Strobes.strobe (strobes : Strobes before after)
    (used : ∃ lane, before.master.lanes lane = true)
    (levels : Levels before.ctrl (openRow before.master) casHigh true)
    (row : (before.banks before.bus.bank).row = some before.bus.row)
    (column : before.ctrl.addrOut = before.bus.column)
    (direction : before.ctrl.wr before.bus.bank = before.bus.rw) (bank : Bool) :
    before.strobe after bank =
      if bank = before.bus.bank then some (addressed before.master).2 else none := by
  split
  · rename_i selected
    subst selected
    obtain ⟨lane, used⟩ := used
    have low : (before.ctrl.pins before.bus.bank).rasN = false ∧
        (after.ctrl.pins before.bus.bank).rasN = false :=
      ⟨(levels.ras _).trans (by simp [openRow]), (strobes.levels.ras _).trans (by simp [openRow])⟩
    rw [Assembly.strobe, Bank.strobe_of_falls low lane]
    · simp [State.pins, addressed, row, strobes.addrOut, column, strobes.wr, direction,
        levels.cas, strobes.levels.cas, columns, casHigh]
    · exact ⟨levels.cas _ lane, (strobes.levels.cas _ lane).trans (by simp [columns, used])⟩
  · rename_i other
    exact strobe_of_ras ((levels.ras bank).trans (by simpa [openRow] using other))

theorem Access.strobes (access : Access before after) :
    before.strobes after = [addressed before.master] := by
  simp only [Assembly.strobes, access.strobe]
  cases bank : before.bus.bank <;> simp [addressed, bank]

theorem step_RW4 (step : Step before after) (history : History before)
    (state : before.ctrl.state = .RW4)
    (levels : Levels before.ctrl (openRow before.master) casHigh true) (opened : Open before 6)
    (settled : ∀ lane, before.bus.ds lane = !before.master.lanes lane)
    (unserved : before.seen = []) (row : (before.banks before.bus.bank).row = some before.bus.row)
    (column : before.ctrl.addrOut = before.bus.column)
    (direction : before.ctrl.wr before.bus.bank = before.bus.rw) : Outcome before after := by
  have strobes := Strobes.of_step step state levels settled
  obtain ⟨later, same⟩ := opened.step step levels.dtack strobes.levels.dtack
  have access : Access before after := ⟨opened.as, opened.cs, settled, unserved,
    strobes.strobe (history.used opened.as) levels row column direction⟩
  refine .access access ?_
  rw [strobes.state]
  refine .RW5 _ _ _ strobes.levels (fun closed => ?_) (fun _ => ⟨later.cs, ?_, ?_, ?_, ?_⟩)
  · exact absurd later.as (ne_false_of_eq_true closed)
  · rw [same.openRow]
  · rw [same.columns]
  · rw [same.bank, strobes.wr, direction, same.rw]
  · rw [step.seen, later.as, unserved, same.addressed, access.strobes]
    rfl

theorem step_RW5 (step : Step before after) (state : before.ctrl.state = .RW5)
    {ras : Bool → Bool} {cas : Bool → Bool → Bool} {dtack : Bool}
    (levels : Levels before.ctrl ras cas dtack)
    (closed : before.bus.as = true → before.master.since = 0 ∧ before.seen = [])
    (served : before.bus.as = false → before.bus.cs = false ∧ ras = openRow before.master ∧
      cas = columns before.master ∧ before.ctrl.wr before.bus.bank = before.bus.rw ∧
      before.seen = [addressed before.master]) : Outcome before after := by
  have ctrl := step.ctrl
  simp only [State.posedge, Bool.not_true, Bool.false_eq_true, if_false, state] at ctrl
  have still : Levels after.ctrl ras cas false := by
    rw [ctrl]
    split <;> exact ⟨levels.ras, levels.cas, rfl⟩
  have quiet (bank : Bool) : before.strobe after bank = none :=
    strobe_of_cas fun lane up => by rw [still.cas, ← levels.cas, up]
  cases as : before.bus.as with
  | true =>
      -- the first clock of the gap; `AS` stays high for another one
      obtain ⟨recent, unserved⟩ := closed as
      have gap : after.bus.as = true := by
        by_contra falls
        have long := step.master.gap as (by simpa using falls)
        omega
      rw [if_pos as] at ctrl
      exact .of_quiet quiet (by rw [ctrl]) (.PRECHARGE ras cas false still
        (.inr ⟨gap, step.sampled.as1.trans as⟩) (seen_of_quiet step unserved quiet))
  | false =>
      obtain ⟨cs, opens, lanes, direction, seen⟩ := served as
      rw [if_neg (by simp [as])] at ctrl
      refine .of_quiet quiet (by rw [ctrl]; exact state) (.RW5 ras cas false still
        (fun ends => ?_) (fun low => ?_))
      · have since := step.master.since
        rw [if_neg (by simp [as, ends])] at since
        exact ⟨since, by rw [step.seen, if_pos ends]⟩
      · have same := step.sameCycle as low
        refine ⟨same.cs.trans cs, ?_, ?_, ?_, ?_⟩
        · rw [opens, same.openRow]
        · rw [lanes, same.columns]
        · rw [same.bank, same.rw, ← direction, ctrl]
          rfl
        · rw [step.seen, low, seen, same.addressed, strobes_eq_nil quiet]
          simp

theorem step_REFRESH1 (step : Step before after) (state : before.ctrl.state = .REFRESH1)
    (levels : Levels before.ctrl rasHigh casHigh true) (fresh : Fresh before)
    (unserved : before.seen = []) : Outcome before after := by
  have quiet (bank : Bool) : before.strobe after bank = none := strobe_of_ras (levels.ras bank)
  have ctrl := step.ctrl
  simp only [State.posedge, Bool.not_true, Bool.false_eq_true, if_false, state] at ctrl
  have still : Levels after.ctrl rasHigh casLow true := by
    rw [ctrl]
    refine ⟨levels.ras, fun bank lane => ?_, levels.dtack⟩
    cases bank <;> cases lane <;> rfl
  exact .of_quiet quiet (by rw [ctrl]) (.REFRESH2 still
    (fresh.step step levels.dtack still.dtack) (seen_of_quiet step unserved quiet))

theorem step_REFRESH2 (step : Step before after) (state : before.ctrl.state = .REFRESH2)
    (levels : Levels before.ctrl rasHigh casLow true) (fresh : Fresh before)
    (unserved : before.seen = []) : Outcome before after := by
  have quiet (bank : Bool) : before.strobe after bank = none := strobe_of_ras (levels.ras bank)
  have ctrl := step.ctrl
  simp only [State.posedge, Bool.not_true, Bool.false_eq_true, if_false, state] at ctrl
  have still : Levels after.ctrl rasLow casLow true := by
    rw [ctrl]
    refine ⟨fun bank => ?_, levels.cas, levels.dtack⟩
    cases bank <;> rfl
  exact .of_quiet quiet (by rw [ctrl]) (.REFRESH3 still
    (fresh.step step levels.dtack still.dtack) (seen_of_quiet step unserved quiet))

theorem step_REFRESH3 (step : Step before after) (state : before.ctrl.state = .REFRESH3)
    (levels : Levels before.ctrl rasLow casLow true) (fresh : Fresh before)
    (unserved : before.seen = []) : Outcome before after := by
  have ctrl := step.ctrl
  simp only [State.posedge, Bool.not_true, Bool.false_eq_true, if_false, state] at ctrl
  have still : Levels after.ctrl rasLow casHigh true := by
    rw [ctrl]
    refine ⟨levels.ras, fun bank lane => ?_, levels.dtack⟩
    cases bank <;> cases lane <;> rfl
  have quiet (bank : Bool) : before.strobe after bank = none :=
    strobe_of_cas fun lane _ => still.cas bank lane
  exact .of_quiet quiet (by rw [ctrl]) (.REFRESH4 still
    (fresh.step step levels.dtack still.dtack) (seen_of_quiet step unserved quiet))

theorem step_REFRESH4 (step : Step before after) (state : before.ctrl.state = .REFRESH4)
    (levels : Levels before.ctrl rasLow casHigh true) (fresh : Fresh before)
    (unserved : before.seen = []) : Outcome before after := by
  have ctrl := step.ctrl
  simp only [State.posedge, Bool.not_true, Bool.false_eq_true, if_false, state] at ctrl
  have still : Levels after.ctrl rasHigh casHigh true := by
    rw [ctrl]
    refine ⟨fun bank => ?_, levels.cas, levels.dtack⟩
    cases bank <;> rfl
  have quiet (bank : Bool) : before.strobe after bank = none :=
    strobe_of_cas fun lane _ => still.cas bank lane
  exact .of_quiet quiet (by rw [ctrl]) (.PRECHARGE rasHigh casHigh true still
    (.inl ⟨rfl, fresh.step step levels.dtack still.dtack⟩) (seen_of_quiet step unserved quiet))

theorem step_PRECHARGE (step : Step before after) (state : before.ctrl.state = .PRECHARGE)
    {ras : Bool → Bool} {cas : Bool → Bool → Bool} {dtack : Bool}
    (levels : Levels before.ctrl ras cas dtack)
    (clear : (dtack = true ∧ Fresh before) ∨ (before.bus.as = true ∧ before.ctrl.as1 = true))
    (unserved : before.seen = []) : Outcome before after := by
  have ctrl := step.ctrl
  simp only [State.posedge, Bool.not_true, Bool.false_eq_true, if_false, state] at ctrl
  have still : Levels after.ctrl rasHigh casHigh true := by
    rw [ctrl]
    refine ⟨fun bank => ?_, fun bank lane => ?_, rfl⟩
    · cases bank <;> rfl
    · cases bank <;> cases lane <;> rfl
  have quiet (bank : Bool) : before.strobe after bank = none :=
    strobe_of_cas fun lane _ => still.cas bank lane
  have sampled := step.sampled
  have fresh : Fresh after := by
    rcases clear with ⟨rfl, fresh⟩ | ⟨as, as1⟩
    · exact fresh.step step levels.dtack still.dtack
    · constructor
      · intro low
        exact absurd low (ne_false_of_eq_true (sampled.as1.trans as))
      · intro low
        exact absurd low (ne_false_of_eq_true (sampled.as2.trans as1))
  exact .of_quiet quiet (by rw [ctrl]) (.IDLE still fresh (seen_of_quiet step unserved quiet))

theorem PhaseInvariant.step {state : FsmState} (invariant : PhaseInvariant before state)
    (current : before.ctrl.state = state) (history : History before) (step : Step before after) :
    Outcome before after := by
  cases invariant with
  | IDLE levels fresh unserved => exact step_IDLE step history current levels fresh unserved
  | RW1 levels opened unserved => exact step_RW1 step current levels opened unserved
  | RW2 levels opened unserved row => exact step_RW2 step current levels opened unserved row
  | RW3 levels opened unserved row => exact step_RW3 step current levels opened unserved row
  | RW4 levels opened settled unserved row column direction =>
      exact step_RW4 step history current levels opened settled unserved row column direction
  | RW5 ras cas dtack levels closed served => exact step_RW5 step current levels closed served
  | REFRESH1 levels fresh unserved => exact step_REFRESH1 step current levels fresh unserved
  | REFRESH2 levels fresh unserved => exact step_REFRESH2 step current levels fresh unserved
  | REFRESH3 levels fresh unserved => exact step_REFRESH3 step current levels fresh unserved
  | REFRESH4 levels fresh unserved => exact step_REFRESH4 step current levels fresh unserved
  | PRECHARGE ras cas dtack levels clear unserved =>
      exact step_PRECHARGE step current levels clear unserved

/-- DTACK in a cycle belongs to the one state that waits for its end. -/
theorem PhaseInvariant.acknowledged {s : Assembly} {state : FsmState}
    (invariant : PhaseInvariant s state) (as : s.bus.as = false) (low : s.ctrl.dtackDram = false) :
    s.bus.cs = false ∧ s.seen = [addressed s.master] ∧
      (∀ bank, s.ctrl.ras bank = openRow s.master bank) ∧
      (∀ bank lane, s.ctrl.cas bank lane = columns s.master bank lane) ∧
      s.ctrl.wr s.bus.bank = s.bus.rw := by
  have unasserted {ras : Bool → Bool} {cas : Bool → Bool → Bool} {P : Prop}
      (levels : Levels s.ctrl ras cas true) : P :=
    absurd low (ne_false_of_eq_true levels.dtack)
  cases invariant with
  | RW5 ras cas dtack levels _ served =>
      obtain ⟨cs, rfl, rfl, direction, seen⟩ := served as
      exact ⟨cs, seen, levels.ras, levels.cas, direction⟩
  | IDLE levels => exact unasserted levels
  | RW1 levels => exact unasserted levels
  | RW2 levels => exact unasserted levels
  | RW3 levels => exact unasserted levels
  | RW4 levels => exact unasserted levels
  | REFRESH1 levels => exact unasserted levels
  | REFRESH2 levels => exact unasserted levels
  | REFRESH3 levels => exact unasserted levels
  | REFRESH4 levels => exact unasserted levels
  | PRECHARGE ras cas dtack levels clear =>
      rcases clear with ⟨rfl, _⟩ | ⟨closed, _⟩
      · exact unasserted levels
      · exact absurd as (ne_false_of_eq_true closed)

/-- Only two states lower a row strobe. -/
theorem posedge_ras {c : State} {bus : Bus} {bank : Bool} (high : c.ras bank = true)
    (low : (c.posedge true bus).ras bank = false) :
    c.state = .REFRESH2 ∨ (c.state = .RW2 ∧ bank = bus.bank ∧
      (c.posedge true bus).addrOut = c.addrOut ∧
      (c.posedge true bus).ras (!bank) = c.ras (!bank)) := by
  unfold State.posedge at low ⊢
  cases state : c.state <;> simp only [state] at low ⊢
  case REFRESH2 => exact .inl trivial
  case RW2 =>
    right
    cases bankA : bus.bankA <;> cases bank <;>
      simp_all [State.ras, State.clockInputs, Bus.bank]
  all_goals
    exfalso
    revert low
    cases bank <;>
      simp only [State.ras] at high ⊢ <;> (repeat' split) <;>
        simp_all [State.setRas, State.setCas, State.clockInputs]

end Assembly

end Mackerel.M10.DramController
