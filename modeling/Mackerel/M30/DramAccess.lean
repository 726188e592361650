import Mackerel.Clocked.Deadlines
import Mackerel.Clocked.Execution
import Mackerel.Dram.RefreshWait
import Mackerel.M30.DramPhases
import Mackerel.M30.DramRefresh

namespace Mackerel.M30.DramController

open Clocked Dram Refresh

namespace State

/-- The clocks from an RW state to RW5, apart from the wait for the data strobe. -/
def left (s : State) : Nat :=
  match s.state with
  | .RW1 => 6
  | .RW2 => 5
  | .RW2A => 4
  | .RW3 => 3
  | .RW4 => 2
  | .RW4A => 1
  | _ => 0

/-- The clocks until the second pair of input flip-flops shows an open cycle. -/
def flops (s : State) : Nat :=
  if s.as1N || s.cs1N then 2 else if s.as2N || s.cs2N then 1 else 0

/-- The clocks until the second flip-flop shows the data strobe. -/
def strobeFlops (s : State) : Nat := if s.ds1N then 2 else if s.ds2N then 1 else 0

theorem flops_le (s : State) : s.flops ≤ 2 := by
  rw [flops]
  split
  · exact Nat.le_refl 2
  · split <;> omega

theorem strobeFlops_le (s : State) : s.strobeFlops ≤ 2 := by
  rw [strobeFlops]
  split
  · exact Nat.le_refl 2
  · split <;> omega

theorem left_le (s : State) : s.left ≤ 6 := by
  cases state : s.state <;> simp [left, state]

variable {s : State} (bus : Bus)

theorem posedge_access (access : s.phase = .access) (unfinished : s.state ≠ .RW5)
    (ready : s.state = .RW4 → s.activeN = false ∧ s.ds2N = false) :
    (s.posedge true bus).phase = .access ∧ (s.posedge true bus).left + 1 = s.left := by
  cases state : s.state <;> simp [phase, state] at access unfinished ready
  case IDLE =>
      split at access <;> contradiction
  case RW4 =>
      obtain ⟨active, strobe⟩ := ready
      cases write : s.dramWrN <;> simp [posedge, phase, left, state, active, strobe, write]
  all_goals simp [posedge, phase, left, state]

theorem posedge_RW4 (state : s.state = .RW4) (active : s.activeN = false) (strobe : s.ds2N = true) :
    (s.posedge true bus).state = .RW4 := by
  simp [posedge, state, active, strobe, clockInputs]

/-- RW5 ends with the cycle, and acknowledges until then. -/
theorem posedge_RW5 (state : s.state = .RW5) :
    ((s.posedge true bus).state = .RW5 ∨ (s.posedge true bus).phase = .precharge) ∧
    (s.activeN = true → (s.posedge true bus).phase = .precharge) ∧
    (s.activeN = false → s.ds1N = false → s.ds2N = false → (s.posedge true bus).dsackN = false) := by
  cases active : s.activeN <;> cases write : s.dramWrN <;> cases first : s.ds1N <;>
    cases second : s.ds2N <;>
    simp [posedge, phase, state, active, write, first, second, setDsack, setCas, dsackN, clockInputs]

theorem flops_posedge_open (as : bus.asN = false) (cs : bus.csN = false) :
    (s.posedge true bus).flops = s.flops - 1 := by
  obtain ⟨as1, as2, cs1, cs2⟩ := s.flops_posedge true bus
  simp only [flops, as1, as2, cs1, cs2, as, cs]
  cases s.as1N <;> cases s.cs1N <;> cases s.as2N <;> cases s.cs2N <;> decide

theorem active_of_flops (seen : s.flops = 0) : s.activeN = false := by
  simp only [flops] at seen
  cases as2 : s.as2N <;> cases cs2 : s.cs2N <;> simp [activeN, as2, cs2] at seen ⊢
  all_goals split at seen <;> omega

end State

structure Run where
  exec : Execution Assembly.Step
  reset : ∃ powerUp : State, ∃ idle : Bus, (exec.state 0).ctrl = powerUp.posedge false idle ∧
    powerUp.as1N = true ∧ powerUp.ds1N = true ∧ idle.asN = true ∧ idle.dsN = true
  idle : (exec.state 0).bus.asN = true ∧ (exec.state 0).bus.dsN = true
  unserved : (exec.state 0).seen = []

namespace Run

variable (run : Run)

def bus (n : Nat) : Bus := (run.exec.state n).bus
def data (n : Nat) : Fin 4 → BitVec 8 := (run.exec.state n).master.data
def ctrl (n : Nat) : State := (run.exec.state n).ctrl
def cells (n : Nat) : Cells := fun side => ((run.exec.state n).simm side).cells

def strobes (n : Nat) : List (Bool × Strobe (BitVec 12) (Fin 4)) :=
  (run.exec.state n).strobes (run.exec.state (n + 1))

def seen (n : Nat) : List (Bool × Strobe (BitVec 12) (Fin 4)) := (run.exec.state n).seen

/-- A cycle on the DRAM, with its data strobe, that waits for its DSACK. -/
structure Waits (n : Nat) : Prop where
  asN : (run.bus n).asN = false
  csN : (run.bus n).csN = false
  dsN : (run.bus n).dsN = false
  dsackN : (run.ctrl n).dsackN = true

structure Exact : Prop where
  paired : ∀ n, (run.ctrl n).ras0N = (run.ctrl n).ras2N ∧ (run.ctrl n).ras1N = (run.ctrl n).ras3N ∧
    (run.ctrl n).dsack0N = (run.ctrl n).dsack1N
  /-- A column access is the one that an open cycle on the DRAM asks for, and its first. -/
  addressed : ∀ n, run.strobes n = [] ∨ ((run.bus n).asN = false ∧ (run.bus n).csN = false ∧
    run.seen n = [] ∧ run.strobes n = [addressed (run.bus n)])
  /-- Only these accesses change the memory, and only in the lanes that a write transfers. -/
  unchanged : ∀ n, run.strobes n = [] → run.cells (n + 1) = run.cells n
  stored : ∀ n, run.strobes n ≠ [] → run.cells (n + 1) =
    store (run.bus n) (run.data n) (run.cells n)
  /-- DSACK in a cycle comes only after the cycle's own access. -/
  acknowledged : ∀ n, (run.bus n).asN = false → (run.ctrl n).dsackN = false →
    (run.bus n).csN = false ∧ run.seen n = [DramController.addressed (run.bus n)]
  /-- While DSACK is low in a read the SIMM drives every lane. -/
  reading : ∀ n, (run.bus n).asN = false → (run.ctrl n).dsackN = false → (run.bus n).rw = true →
    (∀ lane, (run.ctrl n).casN lane = false) ∧ (run.ctrl n).rasN (run.bus n).side = false ∧
      (run.ctrl n).dramWrN = true
  /-- Every strobed cycle on the DRAM has its DSACK, two refreshes later at most. -/
  answered : ∀ n, run.Waits n → Within 32 run.Waits (fun m => (run.ctrl m).dsackN = false) n

theorem clear : (run.ctrl 0).as1N = true ∧ (run.ctrl 0).as2N = true ∧
    (run.ctrl 0).ds1N = true ∧ (run.ctrl 0).ds2N = true := by
  obtain ⟨powerUp, idle, ctrl, as1N, ds1N, asN, dsN⟩ := run.reset
  rw [Run.ctrl, ctrl]
  exact ⟨asN, as1N, dsN, ds1N⟩

theorem history (n : Nat) : (run.exec.state n).History := by
  refine run.exec.invariant ?_ (fun history step => history.step step) n
  obtain ⟨as1N, as2N, ds1N, ds2N⟩ := run.clear
  constructor
  · exact fun _ _ => as1N
  · exact fun _ _ => ⟨as1N, as2N⟩
  · exact fun _ => run.idle.2
  · exact fun low => absurd low (ne_false_of_eq_true ds1N)
  · exact fun low => absurd low (ne_false_of_eq_true ds2N)
  · exact fun _ => run.unserved

theorem phase (n : Nat) : Assembly.PhaseInvariant (run.exec.state n) (run.ctrl n).state := by
  induction n with
  | zero =>
      obtain ⟨as1N, as2N, _, _⟩ := run.clear
      obtain ⟨powerUp, idle, ctrl, _⟩ := run.reset
      have state : (run.ctrl 0).state = .IDLE := by
        rw [Run.ctrl, ctrl]
        rfl
      rw [state]
      refine .IDLE ?_ ?_ run.unserved
      · rw [ctrl]
        refine ⟨rfl, ?_, rfl⟩
        funext lane
        fin_cases lane <;> rfl
      · constructor
        · exact fun low => absurd low (ne_false_of_eq_true as1N)
        · exact fun low => absurd low (ne_false_of_eq_true as2N)
  | succ n ih =>
      cases ih.step rfl (run.history n) (run.exec.step n) with
      | quiet _ next => exact next
      | access _ next => exact next

theorem outcome (n : Nat) : Assembly.Outcome (run.exec.state n) (run.exec.state (n + 1)) :=
  (run.phase n).step rfl (run.history n) (run.exec.step n)

theorem cells_of_none {n : Nat}
    (none : ∀ side, (run.exec.state n).strobe (run.exec.state (n + 1)) side = .none) :
    run.cells (n + 1) = run.cells n := by
  funext side
  rw [cells, (run.exec.step n).simm]
  exact Bank.edge_cells (none side)

theorem cells_of_access {n : Nat}
    (access : Assembly.Access (run.exec.state n) (run.exec.state (n + 1))) :
    run.cells (n + 1) = store (run.bus n) (run.data n) (run.cells n) := by
  funext side row column lane
  have strobe := access.strobe side
  rw [cells, (run.exec.step n).simm]
  by_cases selected : side = (run.exec.state n).bus.side
  · rw [if_pos selected] at strobe
    rw [Bank.edge_cells_of_strobe strobe]
    simp only [Strobe.store, DramController.addressed, store, Run.bus, selected, cells, data]
    -- a write transfers only its own lanes
    cases (run.exec.state n).bus.rw <;> simp
  · rw [if_neg selected] at strobe
    rw [Bank.edge_cells strobe]
    simp [store, Run.bus, Ne.symm selected, cells]

theorem ctrl_succ (n : Nat) : run.ctrl (n + 1) = (run.ctrl n).posedge true (run.bus n) :=
  (run.exec.step n).ctrl

theorem sampled (n : Nat) : Assembly.Sampled (run.exec.state n) (run.exec.state (n + 1)) :=
  (run.exec.step n).sampled

def views : Execution View.Step where
  state n := (run.ctrl n).view
  step n := run.ctrl_succ n ▸ State.view_step _ _

theorem counts (n : Nat) : (run.ctrl n).view.count ≤ 781 := by
  induction n with
  | zero =>
      obtain ⟨powerUp, idle, ctrl, _⟩ := run.reset
      have released := refreshController.reset powerUp idle
      have start : (run.ctrl 0).view.count = 0 := by
        rw [Run.ctrl, ctrl]
        exact released.count
      omega
  | succ n ih =>
      have next := (run.views.step n).count ih
      change (run.ctrl (n + 1)).view.count =
        if (run.ctrl n).view.count = 781 then 0 else (run.ctrl n).view.count + 1 at next
      by_cases last : (run.ctrl n).view.count = 781
      · rw [next, if_pos last]
        exact Nat.zero_le _
      · rw [next, if_neg last]
        omega

theorem acknowledges (n : Nat) : (run.ctrl n).view.Acknowledges := by
  cases n with
  | zero =>
      obtain ⟨powerUp, idle, ctrl, _⟩ := run.reset
      have released := refreshController.reset powerUp idle
      intro second
      rw [Run.ctrl, ctrl] at second
      exact absurd (released.phase.symm.trans second) (by decide)
  | succ n => exact View.Acknowledges.step (run.views.step n)

section Waiting

variable {run} {n : Nat}

theorem open_of_RW4 (state : (run.ctrl n).state = .RW4) : Assembly.Open (run.exec.state n) := by
  have phase := run.phase n
  rw [state] at phase
  cases phase with
  | RW4 _ opened => exact opened

theorem ending_of_RW5 (state : (run.ctrl n).state = .RW5) : Assembly.Ending (run.exec.state n) := by
  have phase := run.phase n
  rw [state] at phase
  cases phase with
  | RW5 _ _ _ _ ending => exact ending

theorem active_of_open (opened : Assembly.Open (run.exec.state n)) : (run.ctrl n).activeN = false := by
  have as2N : (run.ctrl n).as2N = false := opened.as2N
  have cs2N : (run.ctrl n).cs2N = false := opened.cs2N
  simp [State.activeN, as2N, cs2N]

theorem flops_succ (asN : (run.bus n).asN = false) (csN : (run.bus n).csN = false) :
    (run.ctrl (n + 1)).flops = (run.ctrl n).flops - 1 := by
  rw [ctrl_succ]
  exact State.flops_posedge_open _ asN csN

theorem strobeFlops_succ (dsN : (run.bus n).dsN = false) :
    (run.ctrl (n + 1)).strobeFlops = (run.ctrl n).strobeFlops - 1 := by
  have ds1N : (run.ctrl (n + 1)).ds1N = false := (run.sampled n).ds1N.trans dsN
  have ds2N : (run.ctrl (n + 1)).ds2N = (run.ctrl n).ds1N := (run.sampled n).ds2N
  simp only [State.strobeFlops, ds1N, ds2N]
  cases (run.ctrl n).ds1N <;> cases (run.ctrl n).ds2N <;> decide

/-- A cycle that the flip-flops show begins its access, if no refresh is due. -/
theorem begins (idle : (run.ctrl n).phase = .idle) (request : (run.ctrl n).refresh.refreshRequest = false)
    (seen : (run.ctrl n).flops = 0) : (run.ctrl (n + 1)).phase = .access := by
  have next := State.idle_posedge (run.bus n) idle request
  have active : (run.ctrl n).active = true := by
    rw [State.active, State.active_of_flops seen]
    rfl
  rw [← ctrl_succ, if_pos active] at next
  exact next

variable (run) in
/-- The clocks that a cycle may still wait, by what a wait for a refresh takes. -/
def rank (wait : View → Nat → Nat) (n : Nat) : Nat :=
  if (run.ctrl n).phase = .access then (run.ctrl n).left + (run.ctrl n).strobeFlops
  else 9 + wait (run.ctrl n).view (run.ctrl n).flops

theorem rank_le {wait : View → Nat → Nat} {limit : Nat}
    (bound : ∀ {v flops}, flops ≤ 2 → wait v flops ≤ limit) : run.rank wait n ≤ 9 + limit := by
  have left := (run.ctrl n).left_le
  have strobe := (run.ctrl n).strobeFlops_le
  have within : wait (run.ctrl n).view (run.ctrl n).flops ≤ limit := bound (run.ctrl n).flops_le
  rw [rank]
  split <;> omega

theorem Waits.held (waits : run.Waits n) (unanswered : (run.ctrl (n + 1)).dsackN = true) :
    run.Waits (n + 1) := by
  obtain ⟨asN, csN, dsN, dsackN⟩ := waits
  have step := run.exec.step n
  have still := step.held asN csN dsackN unanswered
  exact ⟨still, (step.same asN still).1.trans csN, (step.master.data asN dsN still).1, unanswered⟩

theorem Waits.advance_access {wait : View → Nat → Nat} (waits : run.Waits n)
    (unanswered : (run.ctrl (n + 1)).dsackN = true)
    (access : (run.ctrl n).phase = .access) : run.rank wait (n + 1) < run.rank wait n := by
  have strobe := strobeFlops_succ waits.dsN
  have here : run.rank wait n = (run.ctrl n).left + (run.ctrl n).strobeFlops := if_pos access
  have unfinished : (run.ctrl n).state ≠ .RW5 := by
    intro last
    cases ending_of_RW5 last with
    | open_ opened _ ds1N ds2N =>
        have answer := (State.posedge_RW5 (run.bus n) last).2.2 (active_of_open opened) ds1N ds2N
        rw [← ctrl_succ, unanswered] at answer
        contradiction
    | first closed | second closed | third _ closed => exact absurd (waits.asN.symm.trans closed) (by decide)
  by_cases waiting : (run.ctrl n).state = .RW4 ∧ (run.ctrl n).ds2N = true
  · obtain ⟨state, ds2N⟩ := waiting
    have stays := State.posedge_RW4 (run.bus n) state (active_of_open (open_of_RW4 state)) ds2N
    rw [← ctrl_succ] at stays
    have still : (run.ctrl (n + 1)).phase = .access := by simp [State.phase, stays]
    have more : 1 ≤ (run.ctrl n).strobeFlops := by
      simp only [State.strobeFlops, ds2N]
      split <;> simp
    rw [here, rank, if_pos still, State.left, State.left, stays, state]
    dsimp only
    omega
  · have ready (state : (run.ctrl n).state = .RW4) :
        (run.ctrl n).activeN = false ∧ (run.ctrl n).ds2N = false :=
      ⟨active_of_open (open_of_RW4 state), by simpa using fun high => waiting ⟨state, high⟩⟩
    obtain ⟨still, nearer⟩ := State.posedge_access (run.bus n) access unfinished ready
    rw [← ctrl_succ] at still nearer
    rw [here, rank, if_pos still]
    omega

theorem Waits.advance_of {wait : View → Nat → Nat} (waits : run.Waits n)
    (nearer : (run.ctrl n).phase ≠ .access → (run.ctrl (n + 1)).phase = .access ∨
      wait (run.ctrl (n + 1)).view ((run.ctrl n).flops - 1) < wait (run.ctrl n).view (run.ctrl n).flops) :
    (run.ctrl (n + 1)).dsackN = false ∨
      (run.Waits (n + 1) ∧ run.rank wait (n + 1) < run.rank wait n) := by
  cases answer : (run.ctrl (n + 1)).dsackN with
  | false => exact .inl rfl
  | true =>
      refine .inr ⟨waits.held answer, ?_⟩
      by_cases access : (run.ctrl n).phase = .access
      · exact waits.advance_access answer access
      · have here : run.rank wait n = 9 + wait (run.ctrl n).view (run.ctrl n).flops := if_neg access
        have left := (run.ctrl (n + 1)).left_le
        have strobe := (run.ctrl (n + 1)).strobeFlops_le
        rcases nearer access with begins | nearer
        · have first : run.rank wait (n + 1) = (run.ctrl (n + 1)).left + (run.ctrl (n + 1)).strobeFlops :=
            if_pos begins
          omega
        · have next : run.rank wait (n + 1) ≤ 9 + wait (run.ctrl (n + 1)).view (run.ctrl (n + 1)).flops := by
            rw [rank]
            split <;> omega
          rw [flops_succ waits.asN waits.csN] at next
          omega

theorem answered (waits : run.Waits n) :
    Within 32 run.Waits (fun m => (run.ctrl m).dsackN = false) n := by
  refine (within_of_rank (run.rank View.longest) (fun k here => here.advance_of fun outside => ?_) waits).mono
    (Nat.succ_le_succ (rank_le fun soon => View.longest_le _ soon))
  exact (run.views.step k).longest_lt (run.counts k) (run.acknowledges k) (run.ctrl k).flops_le outside begins

end Waiting

end Run

/-- The Mackerel-30 DRAM controller performs exactly the addressed access. -/
theorem mackerel30_dram_exact (run : Run) : run.Exact where
  paired n := by
    obtain ⟨ras, cas, dsack, levels⟩ := (run.phase n).levels
    have lines := levels.ras
    have acks := levels.dsack
    simp only [Prod.mk.injEq] at lines acks
    obtain ⟨ras0, ras1, ras2, ras3⟩ := lines
    exact ⟨ras0.trans ras2.symm, ras1.trans ras3.symm, acks.1.trans acks.2.symm⟩
  addressed n := by
    cases run.outcome n with
    | quiet none _ => exact .inl (Assembly.strobes_eq_nil none)
    | access access _ =>
        exact .inr ⟨access.opened, access.csN, access.first, access.strobes⟩
  unchanged n none := by
    cases run.outcome n with
    | quiet none _ => exact run.cells_of_none none
    | access access _ => simp [Run.strobes, access.strobes] at none
  stored n some := by
    cases run.outcome n with
    | quiet none _ => exact absurd (Assembly.strobes_eq_nil none) some
    | access access _ => exact run.cells_of_access access
  acknowledged n asN dsackN := by
    obtain ⟨_, csN, _, seen⟩ := (run.phase n).acknowledged asN dsackN
    exact ⟨csN, seen⟩
  reading n asN dsackN read := by
    obtain ⟨levels, _, direction, _⟩ := (run.phase n).acknowledged asN dsackN
    refine ⟨fun lane => ?_, ?_, direction.trans read⟩
    · have every : Assembly.columns (run.bus n) lane = false := by simp [Assembly.columns, read]
      exact (congrFun levels.cas lane).trans every
    · exact (levels.rasN _).trans (by simp [Assembly.openRow, Run.bus])
  answered _ := Run.answered

end Mackerel.M30.DramController
