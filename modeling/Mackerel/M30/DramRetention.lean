import Mackerel.Dram.RefreshRetention
import Mackerel.M30.DramAccess

namespace Mackerel.M30.DramController

open Clocked Dram Refresh

namespace State

theorem drives (s : State) (side : Bool) : Drives s.view (s.pins side) := by
  constructor <;> simp only [AllHigh, AllLow, view, pins, List.forall_mem_cons] <;> intro lines
  · cases side <;> simp [rasN, lines]
  · cases side <;> simp [rasN, lines]
  · intro lane
    fin_cases lane <;> simp [casN, lines]
  · exact lines.1

end State

namespace Run

variable (run : Run)

/-- The run starts at power-up, and the master strobes its data and ends every cycle in time. -/
structure Served : Prop where
  powerUp : ∃ s idle, PowerUp s ∧ run.ctrl 0 = s.posedge false idle
  strobes : ∀ n, (run.bus n).asN = false →
    ∃ k ≤ 300, (run.bus (n + k)).asN = true ∨ (run.bus (n + k)).dsN = false
  ends : ∀ n, (run.ctrl n).dsackN = false → ∃ k ≤ 300, (run.bus (n + k)).asN = true

theorem ctrl_driven (n : Nat) :
    run.ctrl n = refreshController.run (run.ctrl 0) (fun _ => true) run.bus n := by
  induction n with
  | zero => rfl
  | succ n ih => rw [ctrl_succ, ih]; rfl

theorem view_driven :
    (fun n => (run.ctrl n).view) = refreshController.views (run.ctrl 0) (fun _ => true) run.bus := by
  funext n
  rw [ctrl_driven]
  rfl

variable {run} {n : Nat}

/-- Once `AS_n` is high RW5 lasts for three clocks at most. -/
theorem closes_of_RW5 (state : (run.ctrl n).state = .RW5) (closed : (run.bus n).asN = true) :
    ∃ k ≤ 3, (run.ctrl (n + k)).phase ≠ .access := by
  by_contra long
  push Not at long
  have stays (k : Nat) (within : k < 3) (here : (run.ctrl (n + k)).state = .RW5) :
      (run.ctrl (n + k)).activeN = false ∧ (run.ctrl (n + (k + 1))).state = .RW5 := by
    obtain ⟨next, ended, _⟩ := State.posedge_RW5 (run.bus (n + k)) here
    have access := long (k + 1) within
    rw [← Nat.add_assoc, ctrl_succ] at access ⊢
    refine ⟨?_, next.resolve_right fun ended => absurd (access.symm.trans ended) (by decide)⟩
    by_contra active
    exact absurd (access.symm.trans (ended (by simpa using active))) (by decide)
  have second := stays 0 (by omega) state
  have third := stays 1 (by omega) second.2
  have last := stays 2 (by omega) third.2
  -- two clocks behind `AS_n` the first flip-flops show its end, three behind it the second ones
  have as1N : (run.ctrl (n + 1)).as1N = true := (run.sampled n).as1N.trans closed
  have as2N : (run.ctrl (n + 2)).as2N = true := (run.sampled (n + 1)).as2N.trans as1N
  simp [State.activeN, as2N] at last

theorem ends_of_RW5 (ends : ∀ n, (run.ctrl n).dsackN = false → ∃ k ≤ 300, (run.bus (n + k)).asN = true)
    (state : (run.ctrl n).state = .RW5) : ∃ k ≤ 304, (run.ctrl (n + k)).phase ≠ .access := by
  by_contra long
  push Not at long
  have last (k : Nat) (within : k ≤ 304) : (run.ctrl (n + k)).state = .RW5 := by
    induction k with
    | zero => exact state
    | succ k ih =>
        have next := (State.posedge_RW5 (run.bus (n + k)) (ih (by omega))).1
        have access := long (k + 1) within
        rw [← Nat.add_assoc, ctrl_succ] at access ⊢
        exact next.resolve_right fun ended => absurd (access.symm.trans ended) (by decide)
  have closed : ∃ k ≤ 301, (run.bus (n + k)).asN = true := by
    cases asN : (run.bus n).asN with
    | true => exact ⟨0, Nat.zero_le _, asN⟩
    | false =>
        cases ending_of_RW5 state with
        | open_ opened _ ds1N ds2N =>
            have answer := (State.posedge_RW5 (run.bus n) state).2.2 (active_of_open opened) ds1N ds2N
            rw [← ctrl_succ] at answer
            obtain ⟨k, soon, closed⟩ := ends (n + 1) answer
            exact ⟨1 + k, by omega, by rwa [← Nat.add_assoc]⟩
        | first closed | second closed | third _ closed => exact absurd (asN.symm.trans closed) (by decide)
  obtain ⟨k, soon, closed⟩ := closed
  obtain ⟨j, few, ended⟩ := closes_of_RW5 (last k (by omega)) closed
  exact ended (by rw [Nat.add_assoc]; exact long (k + j) (by omega))

/-- RW4 lasts until the data strobe has come through its flip-flops. -/
theorem ends_of_RW4 (strobes : ∀ n, (run.bus n).asN = false →
      ∃ k ≤ 300, (run.bus (n + k)).asN = true ∨ (run.bus (n + k)).dsN = false)
    (state : (run.ctrl n).state = .RW4) : ∃ k ≤ 303, (run.ctrl (n + k)).state ≠ .RW4 := by
  by_contra long
  push Not at long
  obtain ⟨k, soon, strobed⟩ := strobes n (open_of_RW4 state).asN
  have opened (j : Nat) (within : j ≤ 303) : (run.bus (n + j)).asN = false := (open_of_RW4 (long j within)).asN
  have low := strobed.resolve_left (by simp [opened k (by omega)])
  have still : (run.bus (n + k + 1)).dsN = false :=
    ((run.exec.step (n + k)).master.data (opened k (by omega)) low (opened (k + 1) (by omega))).1
  have ds1N : (run.ctrl (n + k + 1)).ds1N = false := (run.sampled (n + k)).ds1N.trans low
  have ds2N : (run.ctrl (n + k + 2)).ds2N = false := (run.sampled (n + k + 1)).ds2N.trans ds1N
  have here := long (k + 2) (by omega)
  have active := active_of_open (open_of_RW4 here)
  have next := (State.posedge_access (run.bus (n + (k + 2))) (by simp [State.phase, here])
    (by simp [here]) fun _ => ⟨active, ds2N⟩).2
  have later := long (k + 3) (by omega)
  rw [show n + (k + 3) = n + (k + 2) + 1 by omega, ctrl_succ] at later
  simp [State.left, later, here] at next

/-- The access of clock `n`, if there is one, ends within so many clocks. -/
def Ends (run : Run) (limit n : Nat) : Prop := ∃ k ≤ limit, (run.ctrl (n + k)).phase ≠ .access

theorem Ends.mono {limit wider : Nat} (ends : run.Ends limit n) (le : limit ≤ wider) : run.Ends wider n := by
  obtain ⟨k, soon, ended⟩ := ends
  exact ⟨k, by omega, ended⟩

theorem Ends.later {limit k : Nat} (ends : run.Ends limit (n + k)) : run.Ends (k + limit) n := by
  obtain ⟨j, soon, ended⟩ := ends
  exact ⟨k + j, by omega, by rwa [← Nat.add_assoc]⟩

section Served

variable (strobes : ∀ n, (run.bus n).asN = false →
    ∃ k ≤ 300, (run.bus (n + k)).asN = true ∨ (run.bus (n + k)).dsN = false)
  (ends : ∀ n, (run.ctrl n).dsackN = false → ∃ k ≤ 300, (run.bus (n + k)).asN = true)

include strobes ends

theorem ends_from_RW4 (state : (run.ctrl n).state = .RW4) : run.Ends 608 n := by
  classical
  have leaves := ends_of_RW4 strobes state
  have found := Nat.find_spec leaves
  have first := fun k => @Nat.find_min _ _ leaves k
  generalize Nat.find leaves = k at found first
  cases k with
  | zero => exact absurd state found.2
  | succ k =>
      have here : (run.ctrl (n + k)).state = .RW4 := by
        by_contra other
        exact first k (Nat.lt_succ_self k) ⟨by omega, other⟩
      have active := active_of_open (open_of_RW4 here)
      have next := run.ctrl_succ (n + k)
      cases strobe : (run.ctrl (n + k)).ds2N with
      | true => exact absurd (next ▸ State.posedge_RW4 _ here active strobe) found.2
      | false =>
          have lowers : (run.ctrl (n + k + 1)).state = .RW4A := by
            rw [next]
            cases write : (run.ctrl (n + k)).dramWrN <;>
              simp [State.posedge, here, active, strobe, write]
          have last : (run.ctrl (n + k + 1 + 1)).state = .RW5 := by
            rw [ctrl_succ]
            simp [State.posedge, lowers]
          have ended : run.Ends 304 (n + k + 1 + 1) := ends_of_RW5 ends last
          have total : run.Ends (k + 1 + 1 + 304) n := Ends.later (by simpa only [← Nat.add_assoc] using ended)
          exact total.mono (by omega)

theorem bounded : Bounded fun n => (run.ctrl n).view := by
  intro n
  have early : run.Ends 700 n := by
    have next (k : Nat) := run.ctrl_succ (n + k)
    have wait {k : Nat} (few : k ≤ 4) (state : (run.ctrl (n + k)).state = .RW4) : run.Ends 700 n :=
      ((ends_from_RW4 strobes ends state).later).mono (by omega)
    have last {k : Nat} (few : k ≤ 4) (state : (run.ctrl (n + k)).state = .RW5) : run.Ends 700 n := by
      have ended : run.Ends 304 (n + k) := ends_of_RW5 ends state
      exact ended.later.mono (by omega)
    have third {k : Nat} (few : k ≤ 3) (state : (run.ctrl (n + k)).state = .RW3) : run.Ends 700 n :=
      wait (k := k + 1) (by omega) (by rw [← Nat.add_assoc, next]; simp [State.posedge, state])
    have second {k : Nat} (few : k ≤ 2) (state : (run.ctrl (n + k)).state = .RW2A) : run.Ends 700 n :=
      third (k := k + 1) (by omega) (by rw [← Nat.add_assoc, next]; simp [State.posedge, state])
    have first {k : Nat} (few : k ≤ 1) (state : (run.ctrl (n + k)).state = .RW2) : run.Ends 700 n :=
      second (k := k + 1) (by omega) (by rw [← Nat.add_assoc, next]; simp [State.posedge, state])
    cases state : (run.ctrl n).state with
    | RW1 => exact first (k := 1) (by omega) (by rw [ctrl_succ]; simp [State.posedge, state])
    | RW2 => exact first (k := 0) (by omega) state
    | RW2A => exact second (k := 0) (by omega) state
    | RW3 => exact third (k := 0) (by omega) state
    | RW4 => exact wait (k := 0) (by omega) state
    | RW4A => exact last (k := 1) (by omega) (by rw [ctrl_succ]; simp [State.posedge, state])
    | RW5 => exact last (k := 0) (by omega) state
    | IDLE =>
        refine ⟨0, by omega, ?_⟩
        rw [Nat.add_zero, State.phase, state]
        dsimp only
        split <;> decide
    | REFRESH1 | REFRESH2 | REFRESH3 | REFRESH4 | PRECHARGE =>
        exact ⟨0, by omega, by simp [State.phase, state]⟩
  exact early

end Served

variable (served : run.Served)

include served

theorem powered : Controller.PowerUp (run.ctrl 0).view ∧ Released (run.ctrl 0).view := by
  obtain ⟨s, idle, powerUp, start⟩ := served.powerUp
  have released := refreshController.reset s idle
  have ack := refreshController.reset_refreshAck s idle
  have request := refreshController.reset_request s idle
  rw [start]
  exact ⟨⟨released.phase, ack.trans powerUp.view.refreshAck, request.trans powerUp.view.request,
    released.count⟩, released⟩

theorem sound (n : Nat) : Sound (run.ctrl n).view (Refresh.busy run.views n) := by
  obtain ⟨powerUp, released⟩ := powered served
  refine @Refresh.sound run.views (released.sound fun ack => ?_)
    (bounded served.strobes served.ends) n
  exact absurd powerUp.refreshAck (ne_false_of_eq_true ack)

theorem retains (side : Bool) (rows first : Nat) :
    Retains rows first (fun n => (run.ctrl n).pins side) (retention rows) 0 := by
  obtain ⟨powerUp, released⟩ := powered served
  have within := bounded served.strobes served.ends
  rw [view_driven] at within
  have kept := Controller.retains_of_released (fun s => s.pins side)
    (fun s => s.drives side) rows first released powerUp within
  simpa only [← ctrl_driven] using kept

theorem Waits.advance (waits : run.Waits n) :
    (run.ctrl (n + 1)).dsackN = false ∨
      (run.Waits (n + 1) ∧ run.rank View.wait (n + 1) < run.rank View.wait n) :=
  waits.advance_of fun access =>
    have state := sound served n
    state.timely.wait_step state.counts (@busy_le run.views (bounded served.strobes served.ends) n)
      (run.views.step n) (run.ctrl n).flops_le access begins

/-- The memory by side and row. -/
def byRow (cells : Cells) : Bool × BitVec 12 → BitVec 12 → Fin 4 → BitVec 8 :=
  fun row => cells row.1 row.2

variable (run) in
/-- What the column accesses of a clock make of the memory. -/
def update (n : Nat) (content : Bool × BitVec 12 → BitVec 12 → Fin 4 → BitVec 8) :
    Bool × BitVec 12 → BitVec 12 → Fin 4 → BitVec 8 :=
  if run.strobes n = [] then content
  else byRow (store (run.bus n) (run.data n) fun side row column => content (side, row) column)

omit served in
theorem update_cells (n : Nat) : run.update n (byRow (run.cells n)) = byRow (run.cells (n + 1)) := by
  cases run.outcome n with
  | quiet none _ =>
      have silent : run.strobes n = [] := Assembly.strobes_eq_nil none
      rw [update, if_pos silent, run.cells_of_none none]
  | access access _ =>
      have strobed : run.strobes n ≠ [] := by simp [Run.strobes, access.strobes]
      rw [update, if_neg strobed, run.cells_of_access access]
      rfl

variable (run) in
/-- The row of a side is refreshed. The chip has so many rows and begins its count anywhere. -/
def Refreshed (rows first : Nat) (rowOf : BitVec 12 → Nat) (row : Bool × BitVec 12) (n : Nat) : Prop :=
  RowRefreshed rows first (fun n => (run.ctrl n).pins row.1) (rowOf row.2) n

variable (run) in
/-- Every cycle on the DRAM has its DSACK within 25 clocks of its data strobe, refresh or not; no
    row is without a refresh for longer than the chips allow; and chips that forget rows after
    that time hold what chips that never forget hold. -/
structure Dependable (rows first : Nat) : Prop where
  answered : ∀ n, run.Waits n → Within 25 run.Waits (fun m => (run.ctrl m).dsackN = false) n
  refreshed : ∀ side, Retains rows first (fun n => (run.ctrl n).pins side) (retention rows) 0
  kept : ∀ (rowOf : BitVec 12 → Nat)
    (content : Nat → Bool × BitVec 12 → BitVec 12 → Fin 4 → BitVec 8),
    (∀ row, rowOf row < rows) →
    Leaky (run.Refreshed rows first rowOf) (retention rows) run.update content →
    content 0 = byRow (run.cells 0) → ∀ n, content n = byRow (run.cells n)

theorem kept {rows first : Nat} {rowOf : BitVec 12 → Nat}
    {content : Nat → Bool × BitVec 12 → BitVec 12 → Fin 4 → BitVec 8} (inside : ∀ row, rowOf row < rows)
    (leaky : Leaky (run.Refreshed rows first rowOf) (retention rows) run.update content)
    (start : content 0 = byRow (run.cells 0)) (n : Nat) : content n = byRow (run.cells n) := by
  have exact := leaky.exact fun n row =>
    retains served row.1 rows first n (Nat.zero_le n) _ (inside row.2)
  induction n with
  | zero => exact start
  | succ n ih => rw [exact, ih, update_cells]

end Run

/-- The Mackerel-30 DRAM is a memory that answers and does not forget. -/
theorem mackerel30_dram_dependable (run : Run) (served : run.Served) (rows first : Nat) :
    run.Dependable rows first where
  answered _ waits :=
    (within_of_rank (run.rank View.wait) (fun _ here => here.advance served) waits).mono
      (Nat.succ_le_succ (Run.rank_le fun soon => View.wait_le _ soon))
  refreshed side := Run.retains served side rows first
  kept _ _ inside leaky start n := Run.kept served inside leaky start n

/-- A master that reads one long word again and again, three clocks after each DSACK. -/
def reader (asN : Bool) (since : Nat) : Master where
  bus := { asN := asN, dsN := asN, csN := false, rw := true, siz := 0, addr := 0 }
  data := fun _ => 0
  since := since

def readerNext (asN : Bool) (since : Nat) (dsackN : Bool) : Master :=
  if asN then if since < 2 then reader true (since + 1) else reader false 0
  else if dsackN then reader false (since + 1) else reader true 0

theorem readerNext_step (asN : Bool) (since : Nat) (dsackN dsackAfter : Bool) :
    Master.Step dsackN dsackAfter (reader asN since) (readerNext asN since dsackN) := by
  cases asN with
  | false => cases dsackN <;> constructor <;> simp [readerNext, reader]
  | true =>
      by_cases early : since < 2
      · constructor <;> simp [readerNext, reader, early]
      · have late : 2 ≤ since := Nat.not_lt.mp early
        constructor <;> simp [readerNext, reader, early, late]

def readerStep (s : Assembly) : Assembly :=
  let after : Assembly := {
    master := readerNext s.bus.asN s.master.since s.ctrl.dsackN
    ctrl := s.ctrl.posedge true s.bus
    simm := fun side => (s.simm side).edge (s.ctrl.pins side)
      ((s.ctrl.posedge true s.bus).pins side) s.master.data
    seen := [] }
  { after with seen := if after.bus.asN then [] else s.seen ++ s.strobes after }

def readerStart : Assembly where
  master := reader true 0
  ctrl := (powerUp true 0).posedge false quietBus
  simm := fun _ => { row := none, cells := fun _ _ _ => 0 }
  seen := []

theorem reader_master (n : Nat) : ∃ asN since,
    (driven (fun _ => readerStep) readerStart n).master = reader asN since := by
  cases n with
  | zero => exact ⟨true, 0, rfl⟩
  | succ n =>
      simp only [driven_succ, readerStep, readerNext]
      repeat' split
      all_goals exact ⟨_, _, rfl⟩

def readerRun : Run where
  exec := {
    state := driven (fun _ => readerStep) readerStart
    step := by
      intro n
      obtain ⟨asN, since, master⟩ := reader_master n
      refine ⟨rfl, fun _ => rfl, ?_, rfl⟩
      rw [driven_succ]
      generalize driven (fun _ => readerStep) readerStart n = s at *
      have advanced : (readerStep s).master = readerNext asN since s.ctrl.dsackN := by
        simp only [readerStep, Assembly.bus, master]
        rfl
      rw [advanced, master]
      exact readerNext_step _ _ _ _ }
  reset := ⟨powerUp true 0, quietBus, rfl, rfl, rfl, rfl, rfl⟩
  idle := ⟨rfl, rfl⟩
  unserved := rfl

theorem readerRun_served : readerRun.Served where
  powerUp := ⟨powerUp true 0, quietBus, powerUp_spec true 0, rfl⟩
  strobes n asN := by
    obtain ⟨level, since, master⟩ := reader_master n
    have here : (readerRun.bus n).asN = level := congrArg (fun m => m.bus.asN) master
    have strobe : (readerRun.bus n).dsN = level := congrArg (fun m => m.bus.dsN) master
    exact ⟨0, Nat.zero_le _, .inr (strobe.trans (here.symm.trans asN))⟩
  ends n dsackN := by
    cases asN : (readerRun.bus n).asN with
    | true => exact ⟨0, Nat.zero_le _, asN⟩
    | false =>
        refine ⟨1, by decide, ?_⟩
        have next : readerRun.bus (n + 1) = (readerNext (readerRun.bus n).asN
            (readerRun.exec.state n).master.since (readerRun.ctrl n).dsackN).bus := rfl
        rw [next, asN, dsackN]
        rfl

theorem mackerel30_reader_dependable : readerRun.Dependable 4096 0 :=
  mackerel30_dram_dependable readerRun readerRun_served 4096 0

end Mackerel.M30.DramController
