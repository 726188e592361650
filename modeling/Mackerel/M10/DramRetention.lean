import Mackerel.Dram.RefreshRetention
import Mackerel.M10.DramAccess

namespace Mackerel.M10.DramController

open Clocked Dram Refresh

namespace State

theorem drives (s : State) (bank : Bool) : Drives s.view (s.pins bank) := by
  constructor <;> simp only [AllHigh, AllLow, view, pins, List.forall_mem_cons] <;> intro lines
  · cases bank <;> simp [ras, lines]
  · cases bank <;> simp [ras, lines]
  · intro lane
    cases bank <;> cases lane <;> simp [cas, lines]
  · cases bank <;> simp [wr, lines]

end State

namespace Run

variable (run : Run)

/-- The run starts at power-up, and the master ends every cycle in time behind its DTACK. -/
structure Served : Prop where
  powerUp : ∃ s idle, PowerUp s ∧ run.ctrl 0 = s.posedge false idle
  ends : ∀ n, (run.ctrl n).dtackDram = false → ∃ k ≤ 690, (run.bus (n + k)).as = true

theorem ctrl_driven (n : Nat) :
    run.ctrl n = refreshController.run (run.ctrl 0) (fun _ => true) run.bus n := by
  induction n with
  | zero => rfl
  | succ n ih => rw [ctrl_succ, ih]; rfl

theorem view_driven :
    (fun n => (run.ctrl n).view) = refreshController.views (run.ctrl 0) (fun _ => true) run.bus := by
  funext n
  rw [ctrl_driven]
  rfl

variable {run} (served : run.Served)

/-- An access in RW5 is over when its master has ended the cycle. -/
theorem ends_of_RW5 (ends : ∀ n, (run.ctrl n).dtackDram = false → ∃ k ≤ 690, (run.bus (n + k)).as = true)
    {n : Nat} (state : (run.ctrl n).state = .RW5) : ∃ k ≤ 692, (run.ctrl (n + k)).phase ≠ .access := by
  by_contra long
  push Not at long
  have stays (k : Nat) (within : k < 692) (here : (run.ctrl (n + k)).state = .RW5) :
      (run.bus (n + k)).as = false ∧ (run.ctrl (n + (k + 1))).state = .RW5 := by
    obtain ⟨_, closes, holds⟩ := State.posedge_RW5 (run.bus (n + k)) here
    have access := long (k + 1) within
    rw [← Nat.add_assoc, ctrl_succ] at access ⊢
    cases as : (run.bus (n + k)).as with
    | true => exact absurd (access.symm.trans (closes as)) (by decide)
    | false => exact ⟨rfl, holds as⟩
  have last (k : Nat) (within : k ≤ 692) : (run.ctrl (n + k)).state = .RW5 := by
    induction k with
    | zero => exact state
    | succ k ih => exact (stays k within (ih (by omega))).2
  have acknowledged := (State.posedge_RW5 (run.bus n) state).1
  rw [← ctrl_succ] at acknowledged
  obtain ⟨k, soon, closed⟩ := ends (n + 1) acknowledged
  have still := (stays (1 + k) (by omega) (last _ (by omega))).1
  rw [← Nat.add_assoc, closed] at still
  contradiction

theorem bounded (ends : ∀ n, (run.ctrl n).dtackDram = false → ∃ k ≤ 690, (run.bus (n + k)).as = true) :
    Bounded fun n => (run.ctrl n).view := by
  intro n
  by_cases unfinished : (run.ctrl n).phase = .access ∧ (run.ctrl n).state ≠ .RW5
  · -- up to RW5 every clock is one state further
    have reached : Within ((run.ctrl n).left + 1)
        (fun k => (run.ctrl k).phase = .access ∧ (run.ctrl k).state ≠ .RW5)
        (fun k => (run.ctrl k).state = .RW5) n := by
      refine within_of_rank (fun k => (run.ctrl k).left) (fun k here => ?_) unfinished
      obtain ⟨access, nearer⟩ := State.posedge_access (run.bus k) here.1 here.2
      rw [← ctrl_succ] at access nearer
      by_cases last : (run.ctrl (k + 1)).state = .RW5
      · exact .inl last
      · exact .inr ⟨⟨access, last⟩, by omega⟩
    obtain ⟨m, after, before, last, _⟩ := reached
    have few := (run.ctrl n).left_le
    obtain ⟨k, soon, ended⟩ := ends_of_RW5 ends last
    exact ⟨m - n + k, by omega, by rwa [show n + (m - n + k) = m + k by omega]⟩
  · by_cases last : (run.ctrl n).state = .RW5
    · obtain ⟨k, soon, ended⟩ := ends_of_RW5 ends last
      exact ⟨k, by omega, ended⟩
    · exact ⟨0, Nat.zero_le _, fun access => unfinished ⟨access, last⟩⟩

include served

theorem powered : Controller.PowerUp (run.ctrl 0).view ∧ Released (run.ctrl 0).view := by
  obtain ⟨s, idle, powerUp, start⟩ := served.powerUp
  have released := refreshController.reset s idle
  have ack := refreshController.reset_refreshAck s idle
  have request := refreshController.reset_request s idle
  rw [start]
  exact ⟨⟨released.phase, ack.trans powerUp.view.refreshAck, request.trans powerUp.view.request,
    released.count⟩, released⟩

theorem sound (n : Nat) : Sound (run.ctrl n).view (Refresh.busy run.views n) := by
  obtain ⟨powerUp, released⟩ := powered served
  refine @Refresh.sound run.views (released.sound fun ack => ?_) (bounded served.ends) n
  exact absurd powerUp.refreshAck (ne_false_of_eq_true ack)

theorem retains (bank : Bool) (rows first : Nat) :
    Retains rows first (fun n => (run.ctrl n).pins bank) (retention rows) 0 := by
  obtain ⟨powerUp, released⟩ := powered served
  have within := bounded served.ends
  rw [view_driven] at within
  have kept := Controller.retains_of_released (fun s => s.pins bank)
    (fun s => s.drives bank) rows first released powerUp within
  simpa only [← ctrl_driven] using kept

theorem Waits.advance {n : Nat} (waits : run.Waits n) :
    (run.ctrl (n + 1)).dtackDram = false ∨
      (run.Waits (n + 1) ∧ run.rank View.wait (n + 1) < run.rank View.wait n) :=
  waits.advance_of fun access =>
    have state := sound served n
    state.timely.wait_step state.counts (@busy_le run.views (bounded served.ends) n) (run.views.step n)
      (run.ctrl n).flops_le access begins

/-- The memory by bank and row. -/
def byRow (cells : Cells) : Bool × BitVec 11 → BitVec 11 → Bool → BitVec 8 :=
  fun row => cells row.1 row.2

variable (run) in
/-- What the column accesses of a clock make of the memory. -/
def update (n : Nat) (content : Bool × BitVec 11 → BitVec 11 → Bool → BitVec 8) :
    Bool × BitVec 11 → BitVec 11 → Bool → BitVec 8 :=
  if run.strobes n = [] then content
  else byRow (store (run.master n) fun bank row => content (bank, row))

omit served in
theorem update_cells (n : Nat) : run.update n (byRow (run.cells n)) = byRow (run.cells (n + 1)) := by
  cases run.outcome n with
  | quiet none _ =>
      have silent : run.strobes n = [] := Assembly.strobes_eq_nil none
      rw [update, if_pos silent, run.cells_of_none none]
  | access access _ =>
      have strobed : run.strobes n ≠ [] := by simp [strobes, access.strobes]
      rw [update, if_neg strobed, run.cells_of_access access]
      rfl

variable (run) in
/-- The row of a bank is refreshed. The chip has so many rows and begins its count anywhere. -/
def Refreshed (rows first : Nat) (rowOf : BitVec 11 → Nat) (row : Bool × BitVec 11) (n : Nat) : Prop :=
  RowRefreshed rows first (fun n => (run.ctrl n).pins row.1) (rowOf row.2) n

variable (run) in
/-- Every cycle on the DRAM has its DTACK within 21 clocks, refresh or not; no row is without a
    refresh for longer than the chips allow; and chips that forget rows after that time hold
    what chips that never forget hold. -/
structure Dependable (rows first : Nat) : Prop where
  answered : ∀ n, run.Waits n → Within 21 run.Waits (fun m => (run.ctrl m).dtackDram = false) n
  refreshed : ∀ bank, Retains rows first (fun n => (run.ctrl n).pins bank) (retention rows) 0
  kept : ∀ (rowOf : BitVec 11 → Nat)
    (content : Nat → Bool × BitVec 11 → BitVec 11 → Bool → BitVec 8),
    (∀ row, rowOf row < rows) →
    Leaky (run.Refreshed rows first rowOf) (retention rows) run.update content →
    content 0 = byRow (run.cells 0) → ∀ n, content n = byRow (run.cells n)

theorem kept {rows first : Nat} {rowOf : BitVec 11 → Nat}
    {content : Nat → Bool × BitVec 11 → BitVec 11 → Bool → BitVec 8} (inside : ∀ row, rowOf row < rows)
    (leaky : Leaky (run.Refreshed rows first rowOf) (retention rows) run.update content)
    (start : content 0 = byRow (run.cells 0)) (n : Nat) : content n = byRow (run.cells n) := by
  have exact := leaky.exact fun n row =>
    retains served row.1 rows first n (Nat.zero_le n) _ (inside row.2)
  induction n with
  | zero => exact start
  | succ n ih => rw [exact, ih, update_cells]

end Run

/-- The Mackerel-10 DRAM is a memory that answers and does not forget. -/
theorem mackerel10_dram_dependable (run : Run) (served : run.Served) (rows first : Nat) :
    run.Dependable rows first where
  answered _ waits :=
    (within_of_rank (run.rank View.wait) (fun _ here => here.advance served) waits).mono
      (Nat.succ_le_succ (Run.rank_le fun soon => View.wait_le _ soon))
  refreshed bank := Run.retains served bank rows first
  kept _ _ inside leaky start n := Run.kept served inside leaky start n

/-- A master that reads one word again and again, two clocks after each DTACK. -/
def reader (as : Bool) (since : Nat) : Master where
  bus := { as := as, lds := false, uds := false, rw := true, cs := false, addrIn := 0 }
  data := fun _ => 0
  lanes := fun _ => true
  since := since

def readerNext (as : Bool) (since : Nat) (dtack : Bool) : Master :=
  if as then if since = 0 then reader true 1 else reader false 0
  else if dtack then reader false (since + 1) else reader true 0

theorem readerNext_step (as : Bool) (since : Nat) (dtack dtackAfter : Bool) :
    Master.Step dtack dtackAfter (reader as since) (readerNext as since dtack) := by
  cases as <;> cases dtack <;> rcases since with _ | since <;>
    constructor <;> simp [readerNext, reader, Bus.ds]

def readerStep (s : Assembly) : Assembly :=
  let after : Assembly := {
    master := readerNext s.bus.as s.master.since s.ctrl.dtackDram
    ctrl := s.ctrl.posedge true s.bus
    banks := fun bank => (s.banks bank).edge (s.ctrl.pins bank)
      ((s.ctrl.posedge true s.bus).pins bank) s.master.data
    seen := [] }
  { after with seen := if after.bus.as then [] else s.seen ++ s.strobes after }

def readerStart : Assembly where
  master := reader true 0
  ctrl := (powerUp true true).posedge false quietBus
  banks := fun _ => { row := none, cells := fun _ _ _ => 0 }
  seen := []

theorem reader_master (n : Nat) : ∃ as since,
    (driven (fun _ => readerStep) readerStart n).master = reader as since := by
  cases n with
  | zero => exact ⟨true, 0, rfl⟩
  | succ n =>
      simp only [driven_succ, readerStep, readerNext]
      repeat' split
      all_goals exact ⟨_, _, rfl⟩

def readerRun : Run where
  exec := {
    state := driven (fun _ => readerStep) readerStart
    step := by
      intro n
      obtain ⟨as, since, master⟩ := reader_master n
      refine ⟨rfl, fun _ => rfl, ?_, rfl⟩
      rw [driven_succ]
      generalize driven (fun _ => readerStep) readerStart n = s at *
      have advanced : (readerStep s).master = readerNext as since s.ctrl.dtackDram := by
        simp only [readerStep, Assembly.bus, master]
        rfl
      rw [advanced, master]
      exact readerNext_step _ _ _ _ }
  reset := ⟨powerUp true true, quietBus, rfl, rfl, rfl⟩
  idle := rfl
  unserved := rfl

theorem readerRun_served : readerRun.Served where
  powerUp := ⟨powerUp true true, quietBus, powerUp_spec true true, rfl⟩
  ends n dtack := by
    cases as : (readerRun.bus n).as with
    | true => exact ⟨0, Nat.zero_le _, as⟩
    | false =>
        refine ⟨1, by decide, ?_⟩
        have next : readerRun.master (n + 1) =
            readerNext (readerRun.bus n).as (readerRun.master n).since (readerRun.ctrl n).dtackDram := rfl
        rw [Run.bus, next, as, dtack]
        rfl

theorem mackerel10_reader_dependable : readerRun.Dependable 2048 7 :=
  mackerel10_dram_dependable readerRun readerRun_served 2048 7

end Mackerel.M10.DramController
