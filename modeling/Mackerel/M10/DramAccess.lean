import Mackerel.Clocked.Deadlines
import Mackerel.Clocked.Execution
import Mackerel.Dram.RefreshWait
import Mackerel.M10.DramPhases
import Mackerel.M10.DramRefresh

namespace Mackerel.M10.DramController

open Clocked Dram Refresh

namespace State

/-- The clocks from an RW state to RW5. -/
def left (s : State) : Nat :=
  match s.state with
  | .RW1 => 4
  | .RW2 => 3
  | .RW3 => 2
  | .RW4 => 1
  | _ => 0

/-- The clocks until the second pair of input flip-flops shows an open cycle. -/
def flops (s : State) : Nat :=
  if s.as1 || s.cs1 then 2 else if s.as2 || s.cs2 then 1 else 0

theorem flops_le (s : State) : s.flops ≤ 2 := by
  rw [flops]
  split
  · exact Nat.le_refl 2
  · split <;> omega

theorem left_le (s : State) : s.left ≤ 4 := by
  cases state : s.state <;> simp [left, state]

variable {s : State} (bus : Bus)

theorem posedge_access (access : s.phase = .access) (unfinished : s.state ≠ .RW5) :
    (s.posedge true bus).phase = .access ∧ (s.posedge true bus).left + 1 = s.left := by
  cases state : s.state <;> simp [phase, state] at access unfinished <;>
    cases bank : bus.bankA <;> simp [posedge, phase, left, state, bank]

theorem posedge_RW5 (state : s.state = .RW5) : (s.posedge true bus).dtackDram = false ∧
    (bus.as = true → (s.posedge true bus).phase = .precharge) ∧
    (bus.as = false → (s.posedge true bus).state = .RW5) := by
  cases as : bus.as <;> simp [posedge, phase, state, as, clockInputs]

theorem flops_posedge_open (as : bus.as = false) (cs : bus.cs = false) :
    (s.posedge true bus).flops = s.flops - 1 := by
  obtain ⟨as1, as2, cs1, cs2⟩ := s.posedge_sampled bus
  simp only [flops, as1, as2, cs1, cs2, as, cs]
  cases s.as1 <;> cases s.cs1 <;> cases s.as2 <;> cases s.cs2 <;> decide

theorem active_of_flops (seen : s.flops = 0) : s.active = true := by
  simp only [flops] at seen
  cases as2 : s.as2 <;> cases cs2 : s.cs2 <;> simp [active, as2, cs2] at seen ⊢
  all_goals split at seen <;> omega

end State

/-- A behaviour of the system from a reset while no bus cycle is open. -/
structure Run where
  exec : Execution Assembly.Step
  reset : ∃ powerUp : State, ∃ idle : Bus, (exec.state 0).ctrl = powerUp.posedge false idle ∧
    powerUp.as1 = true ∧ idle.as = true
  idle : (exec.state 0).bus.as = true
  unserved : (exec.state 0).seen = []

namespace Run

variable (run : Run)

def master (n : Nat) : Master := (run.exec.state n).master
def bus (n : Nat) : Bus := (run.master n).bus
def ctrl (n : Nat) : State := (run.exec.state n).ctrl
def cells (n : Nat) : Cells := fun bank => ((run.exec.state n).banks bank).cells

def strobes (n : Nat) : List (Bool × Strobe (BitVec 11) Bool) :=
  (run.exec.state n).strobes (run.exec.state (n + 1))

/-- The column accesses of the open cycle up to clock `n`. -/
def seen (n : Nat) : List (Bool × Strobe (BitVec 11) Bool) := (run.exec.state n).seen

/-- A cycle on the DRAM that waits for its DTACK. -/
def Waits (n : Nat) : Prop :=
  (run.bus n).as = false ∧ (run.bus n).cs = false ∧ (run.ctrl n).dtackDram = true

/-- The controller makes exactly the accesses that the bus cycles on the DRAM ask for. -/
structure Exact : Prop where
  /-- A row is opened once in an open cycle on the DRAM, in its bank alone, or all row strobes
      fall after all column strobes for a refresh. -/
  rows : ∀ n bank, (run.ctrl n).ras bank = true → (run.ctrl (n + 1)).ras bank = false →
    (∀ other lane, (run.ctrl n).cas other lane = false) ∨
    ((run.bus n).as = false ∧ (run.bus n).cs = false ∧ run.seen n = [] ∧
      bank = (run.bus n).bank ∧ (run.ctrl (n + 1)).addrOut = (run.bus n).row ∧
      (run.ctrl (n + 1)).ras (!bank) = true)
  /-- A column access is the one that an open cycle on the DRAM asks for, and its first. -/
  addressed : ∀ n, run.strobes n = [] ∨ ((run.bus n).as = false ∧ (run.bus n).cs = false ∧
    (∀ lane, (run.bus n).ds lane = !(run.master n).lanes lane) ∧ run.seen n = [] ∧
    run.strobes n = [addressed (run.master n)])
  unchanged : ∀ n, run.strobes n = [] → run.cells (n + 1) = run.cells n
  stored : ∀ n, run.strobes n ≠ [] → run.cells (n + 1) = store (run.master n) (run.cells n)
  /-- DTACK in a cycle comes only after the cycle's own access, whose strobes are still low
      and those of the other bank high. -/
  acknowledged : ∀ n, (run.bus n).as = false → (run.ctrl n).dtackDram = false →
    (run.bus n).cs = false ∧ run.seen n = [DramController.addressed (run.master n)] ∧
    (∀ bank, (run.ctrl n).ras bank = (bank != (run.bus n).bank)) ∧
    (∀ bank lane, (run.ctrl n).cas bank lane =
      (bank != (run.bus n).bank || !(run.master n).lanes lane)) ∧
    (run.ctrl n).wr (run.bus n).bank = (run.bus n).rw
  /-- Every cycle on the DRAM has its DTACK, two refreshes later at most. -/
  answered : ∀ n, run.Waits n → Within 28 run.Waits (fun m => (run.ctrl m).dtackDram = false) n

theorem clear : (run.ctrl 0).as1 = true ∧ (run.ctrl 0).as2 = true := by
  obtain ⟨powerUp, idle, ctrl, as1, as⟩ := run.reset
  rw [Run.ctrl, ctrl]
  exact ⟨as, as1⟩

theorem history (n : Nat) : (run.exec.state n).History := by
  refine run.exec.invariant ?_ (fun history step => history.step step) n
  obtain ⟨as1, as2⟩ := run.clear
  constructor
  · exact fun _ low => absurd low (ne_false_of_eq_true as1)
  · exact fun _ low => absurd low (ne_false_of_eq_true as1)
  · exact fun low => absurd low (ne_false_of_eq_true run.idle)

theorem phase (n : Nat) : Assembly.PhaseInvariant (run.exec.state n) (run.ctrl n).state := by
  induction n with
  | zero =>
      obtain ⟨as1, as2⟩ := run.clear
      obtain ⟨powerUp, idle, ctrl, _⟩ := run.reset
      have state : (run.ctrl 0).state = .IDLE := by
        rw [Run.ctrl, ctrl]
        rfl
      rw [state]
      refine .IDLE ?_ ?_ run.unserved
      · rw [ctrl]
        refine ⟨fun bank => ?_, fun bank lane => ?_, rfl⟩
        · cases bank <;> rfl
        · cases bank <;> cases lane <;> rfl
      · constructor
        · exact fun low => absurd low (ne_false_of_eq_true as1)
        · exact fun low => absurd low (ne_false_of_eq_true as2)
  | succ n ih =>
      cases ih.step rfl (run.history n) (run.exec.step n) with
      | quiet _ next => exact next
      | access _ next => exact next

theorem outcome (n : Nat) : Assembly.Outcome (run.exec.state n) (run.exec.state (n + 1)) :=
  (run.phase n).step rfl (run.history n) (run.exec.step n)

theorem cells_of_none {n : Nat}
    (none : ∀ bank, (run.exec.state n).strobe (run.exec.state (n + 1)) bank = .none) :
    run.cells (n + 1) = run.cells n := by
  funext bank
  rw [cells, (run.exec.step n).banks]
  exact Bank.edge_cells (none bank)

theorem cells_of_access {n : Nat}
    (access : Assembly.Access (run.exec.state n) (run.exec.state (n + 1))) :
    run.cells (n + 1) = store (run.master n) (run.cells n) := by
  funext bank row column lane
  have strobe := access.strobe bank
  rw [cells, (run.exec.step n).banks]
  by_cases selected : bank = (run.exec.state n).bus.bank
  · rw [if_pos selected] at strobe
    rw [Bank.edge_cells_of_strobe strobe]
    simp [Strobe.store, DramController.addressed, store, Run.master, selected, cells]
  · rw [if_neg selected] at strobe
    rw [Bank.edge_cells strobe]
    simp [store, Run.master, Ne.symm selected, cells]

theorem rows {n : Nat} {bank : Bool} (high : (run.ctrl n).ras bank = true)
    (low : (run.ctrl (n + 1)).ras bank = false) :
    (∀ other lane, (run.ctrl n).cas other lane = false) ∨
    ((run.bus n).as = false ∧ (run.bus n).cs = false ∧ run.seen n = [] ∧
      bank = (run.bus n).bank ∧ (run.ctrl (n + 1)).addrOut = (run.bus n).row ∧
      (run.ctrl (n + 1)).ras (!bank) = true) := by
  have phase := run.phase n
  have ctrl : run.ctrl (n + 1) = (run.ctrl n).posedge true (run.bus n) := (run.exec.step n).ctrl
  rw [ctrl] at low ⊢
  rcases Assembly.posedge_ras high low with state | ⟨state, selected, addrOut, other⟩
  · left
    rw [state] at phase
    cases phase with
    | REFRESH2 levels => exact levels.cas
  · right
    rw [state] at phase
    cases phase with
    | RW2 levels opened unserved row =>
        exact ⟨opened.as, opened.cs, unserved, selected, addrOut.trans row, other.trans (levels.ras _)⟩

theorem ctrl_succ (n : Nat) : run.ctrl (n + 1) = (run.ctrl n).posedge true (run.bus n) :=
  (run.exec.step n).ctrl

def views : Execution View.Step where
  state n := (run.ctrl n).view
  step n := run.ctrl_succ n ▸ State.view_step _ _

theorem counts (n : Nat) : (run.ctrl n).view.count ≤ 781 := by
  induction n with
  | zero =>
      obtain ⟨powerUp, idle, ctrl, _⟩ := run.reset
      have released := refreshController.reset powerUp idle
      have start : (run.ctrl 0).view.count = 0 := by
        rw [Run.ctrl, ctrl]
        exact released.count
      omega
  | succ n ih =>
      have next := (run.views.step n).count ih
      change (run.ctrl (n + 1)).view.count =
        if (run.ctrl n).view.count = 781 then 0 else (run.ctrl n).view.count + 1 at next
      by_cases last : (run.ctrl n).view.count = 781
      · rw [next, if_pos last]
        exact Nat.zero_le _
      · rw [next, if_neg last]
        omega

theorem acknowledges (n : Nat) : (run.ctrl n).view.Acknowledges := by
  cases n with
  | zero =>
      obtain ⟨powerUp, idle, ctrl, _⟩ := run.reset
      have released := refreshController.reset powerUp idle
      intro second
      rw [Run.ctrl, ctrl] at second
      exact absurd (released.phase.symm.trans second) (by decide)
  | succ n => exact View.Acknowledges.step (run.views.step n)

section Waiting

variable {run} {n : Nat}

theorem flops_succ (as : (run.bus n).as = false) (cs : (run.bus n).cs = false) :
    (run.ctrl (n + 1)).flops = (run.ctrl n).flops - 1 := by
  rw [ctrl_succ]
  exact State.flops_posedge_open _ as cs

/-- A cycle that the flip-flops show begins its access, if no refresh is due. -/
theorem begins (idle : (run.ctrl n).phase = .idle) (request : (run.ctrl n).refresh.refreshRequest = false)
    (seen : (run.ctrl n).flops = 0) : (run.ctrl (n + 1)).phase = .access := by
  have next := State.idle_posedge (run.bus n) idle request
  rw [← ctrl_succ, if_pos (State.active_of_flops seen)] at next
  exact next

variable (run) in
/-- The clocks that a cycle may still wait, by what a wait for a refresh takes. -/
def rank (wait : View → Nat → Nat) (n : Nat) : Nat :=
  if (run.ctrl n).phase = .access then (run.ctrl n).left
  else 5 + wait (run.ctrl n).view (run.ctrl n).flops

theorem rank_le {wait : View → Nat → Nat} {limit : Nat}
    (bound : ∀ {v flops}, flops ≤ 2 → wait v flops ≤ limit) : run.rank wait n ≤ 5 + limit := by
  have left := (run.ctrl n).left_le
  have within : wait (run.ctrl n).view (run.ctrl n).flops ≤ limit := bound (run.ctrl n).flops_le
  rw [rank]
  split <;> omega

theorem Waits.held (waits : run.Waits n) (unanswered : (run.ctrl (n + 1)).dtackDram = true) :
    run.Waits (n + 1) := by
  obtain ⟨as, cs, dtack⟩ := waits
  have step := run.exec.step n
  have still := step.held as cs dtack unanswered
  exact ⟨still, (step.sameCycle as still).cs.trans cs, unanswered⟩

theorem Waits.advance_of {wait : View → Nat → Nat} (waits : run.Waits n)
    (nearer : (run.ctrl n).phase ≠ .access → (run.ctrl (n + 1)).phase = .access ∨
      wait (run.ctrl (n + 1)).view ((run.ctrl n).flops - 1) < wait (run.ctrl n).view (run.ctrl n).flops) :
    (run.ctrl (n + 1)).dtackDram = false ∨
      (run.Waits (n + 1) ∧ run.rank wait (n + 1) < run.rank wait n) := by
  cases answer : (run.ctrl (n + 1)).dtackDram with
  | false => exact .inl rfl
  | true =>
      refine .inr ⟨waits.held answer, ?_⟩
      by_cases access : (run.ctrl n).phase = .access
      · have unfinished : (run.ctrl n).state ≠ .RW5 := by
          intro last
          have low := (State.posedge_RW5 (run.bus n) last).1
          rw [← ctrl_succ, answer] at low
          contradiction
        obtain ⟨still, nearer⟩ := State.posedge_access (run.bus n) access unfinished
        rw [← ctrl_succ] at still nearer
        rw [rank, rank, if_pos still, if_pos access]
        omega
      · have here : run.rank wait n = 5 + wait (run.ctrl n).view (run.ctrl n).flops := if_neg access
        have left := (run.ctrl (n + 1)).left_le
        rcases nearer access with begins | nearer
        · have first : run.rank wait (n + 1) = (run.ctrl (n + 1)).left := if_pos begins
          omega
        · have next : run.rank wait (n + 1) ≤ 5 + wait (run.ctrl (n + 1)).view (run.ctrl (n + 1)).flops := by
            rw [rank]
            split <;> omega
          rw [flops_succ waits.1 waits.2.1] at next
          omega

theorem answered (waits : run.Waits n) :
    Within 28 run.Waits (fun m => (run.ctrl m).dtackDram = false) n := by
  refine (within_of_rank (run.rank View.longest) (fun k here => here.advance_of fun outside => ?_) waits).mono
    (Nat.succ_le_succ (rank_le fun soon => View.longest_le _ soon))
  exact (run.views.step k).longest_lt (run.counts k) (run.acknowledges k) (run.ctrl k).flops_le outside begins

end Waiting

end Run

/-- The Mackerel-10 DRAM controller performs exactly the addressed access. -/
theorem mackerel10_dram_exact (run : Run) : run.Exact where
  rows n bank high low := run.rows high low
  addressed n := by
    cases run.outcome n with
    | quiet none _ => exact .inl (Assembly.strobes_eq_nil none)
    | access access _ =>
        exact .inr ⟨access.as, access.cs, access.ds, access.first, access.strobes⟩
  unchanged n none := by
    cases run.outcome n with
    | quiet none _ => exact run.cells_of_none none
    | access access _ => simp [Run.strobes, access.strobes] at none
  stored n some := by
    cases run.outcome n with
    | quiet none _ => exact absurd (Assembly.strobes_eq_nil none) some
    | access access _ => exact run.cells_of_access access
  acknowledged n as low := (run.phase n).acknowledged as low
  answered _ := Run.answered

end Mackerel.M10.DramController
