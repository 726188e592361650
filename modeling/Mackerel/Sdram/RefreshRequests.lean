import Mackerel.Clocked.Latches
import Mackerel.Sdram.System
import Mathlib.Data.Nat.Count

namespace Mackerel.Sdram

open Clocked

namespace Core

variable {pulses : List Command} {core after : Core}

/-- A core that takes a command at once, and carries it out in the last of its clocks. -/
def steady (core : Core) (pulses : List Command) (latency : Nat) : Core :=
  match core.phase with
  | .init (clocks + 1) => { core.quiet 0 with phase := .init clocks }
  | .init 0 => { core.quiet 0 with phase := .idle }
  | .idle =>
      match pulses with
      | [] => { core.quiet 0 with phase := .idle }
      | command :: _ => { core.quiet 0 with phase := .busy latency command false }
  | .busy (clocks + 1) command done => { core.quiet 0 with phase := .busy clocks command done }
  | .busy 0 _ true => { core.quiet 0 with phase := .idle }
  | .busy 0 command false => { (core.quiet 0).perform command with phase := .idle }

theorem steady_step (core : Core) (pulses : List Command) (latency : Nat) :
    Step pulses core (core.steady pulses latency) := by
  unfold steady
  split
  case h_1 clocks phase => exact .init clocks 0 phase
  case h_2 phase => exact .initDone 0 phase
  case h_3 phase =>
    cases pulses with
    | nil => exact .rest 0 phase rfl
    | cons command rest => exact .accept latency 0 phase List.mem_cons_self
  case h_4 clocks command done phase => exact .work phase (.wait clocks done 0)
  case h_5 command phase => exact .work phase (.finish 0)
  case h_6 command phase => exact .work phase (.performFinish 0)

theorem WithinLatency.steady (within : core.WithinLatency) {latency : Nat} (short : latency < 100) :
    (core.steady pulses latency).WithinLatency := by
  intro clocks command done busy
  unfold Core.steady at busy
  split at busy
  case h_3 phase =>
    cases pulses with
    | nil => cases busy
    | cons command rest =>
        cases busy
        exact short
  case h_4 more command done phase =>
    cases busy
    exact Nat.lt_of_succ_lt (within _ _ _ phase)
  all_goals cases busy

end Core

namespace System

/-- One rising clock edge, whatever is on the bus. -/
structure Edge (before after : System) : Prop where
  cache : after.cache = before.cache.posedge before.bus before.inputs
  ctrl : after.ctrl = before.ctrl.posedge before.memBus before.core
  core : Core.Step before.ctrl.pulses before.core after.core

theorem Step.edge {before after : System} (step : Step before after) : Edge before after :=
  ⟨step.cache, step.ctrl, step.core⟩

/-- A command is with the core, or its pulse is on the way. -/
structure Serving (s : System) (pulse : Bool) : Prop where
  running : ¬s.core.Initialising
  pulse : s.ctrl.pulses ≠ [] → pulse = true ∧ s.core.phase = .idle

/-- What each state of the adapter says about its core. -/
def Served (s : System) : Prop :=
  match s.ctrl.state with
  | .S_IDLE => s.ctrl.pulses = [] ∧
      (s.core.phase = .idle ∨ s.ctrl.initSeen = false ∧ s.core.Initialising)
  | .S_RD => s.Serving s.ctrl.ctrlRd
  | .S_WR => s.Serving s.ctrl.ctrlWr
  | .S_REF => s.Serving s.ctrl.ctrlRefresh
  | .S_ACK => s.ctrl.pulses = [] ∧ s.core.phase = .idle ∧ s.ctrl.dtack = true

/-- A bound on the clocks until the core is idle. -/
def commandWait (s : System) : Nat := if s.ctrl.pulses = [] then s.core.phase.clocks else 101

/-- A bound on the clocks until the adapter is idle. -/
def wait (s : System) : Nat :=
  match s.ctrl.state with
  | .S_IDLE => 0
  | .S_RD => s.commandWait + 3
  -- a second byte may still have to be written
  | .S_WR => s.commandWait + (if s.ctrl.needSecond then 102 else 0) + 3
  | .S_REF => s.commandWait + 1
  -- the cache takes one clock to release the adapter
  | .S_ACK => if s.cache.memCsN then 1 else 2

/-- A request is issued well before the next one. -/
structure Timely (s : System) : Prop where
  select : s.cache.SelectMatches
  served : s.Served
  counts : s.ctrl.refCnt ≤ Controller.REFRESH_INT
  due : s.ctrl.refDue = true → s.ctrl.initSeen = true ∧ s.ctrl.refCnt.toNat + s.wait ≤ 206

variable {before after : System} {pulse : Bool}

/-- A pulse that is issued while the core is idle finds it idle. -/
theorem serving_of_issued {command : Command} (edge : Edge before after)
    (quiet : before.ctrl.pulses = []) (idle : before.core.phase = .idle)
    (issued : after.ctrl.pulses = [command]) : after.Serving (after.ctrl.pulsing command) := by
  have still : after.core.phase = .idle := (Core.Step.of_idle (quiet ▸ edge.core) idle).1
  constructor
  · rintro ⟨clocks, init⟩
    rw [still] at init
    cases init
  · intro _
    exact ⟨Controller.State.pulsing_of_mem (by rw [issued]; exact List.mem_singleton_self _), still⟩

theorem Serving.carried (serving : before.Serving pulse) (edge : Edge before after)
    (quiet : after.ctrl.pulses = []) (later : Bool) : after.Serving later :=
  ⟨edge.core.not_initialising serving.running, fun pulses => (pulses quiet).elim⟩

/-- The core is idle when the adapter goes on. -/
theorem Serving.ended (serving : before.Serving pulse) (edge : Edge before after)
    (low : pulse = false) (idle : before.core.busy = false) :
    before.ctrl.pulses = [] ∧ before.core.phase = .idle ∧ after.core.phase = .idle := by
  have quiet : before.ctrl.pulses = [] := by
    by_contra pulses
    exact ne_true_of_eq_false low (serving.pulse pulses).1
  have phase := Core.busy_eq_false.mp idle
  exact ⟨quiet, phase, (Core.Step.of_idle (quiet ▸ edge.core) phase).1⟩

theorem Served.step (served : before.Served) (edge : Edge before after) : after.Served := by
  have move := before.ctrl.posedge_move before.memBus before.core
  rw [← edge.ctrl] at move
  unfold Served at served
  cases state : before.ctrl.state <;> rw [state] at served move <;> dsimp only at served
  case S_IDLE =>
    obtain ⟨quiet, phase⟩ := served
    have idle (seen : before.ctrl.initSeen = true) : before.core.phase = .idle :=
      phase.resolve_right fun init => ne_true_of_eq_false init.1 seen
    have core := quiet ▸ edge.core
    cases move with
    | idle _ silent next =>
        simp only [Served, next]
        refine ⟨silent.pulses, ?_⟩
        rcases phase with phase | ⟨unseen, clocks, init⟩
        · exact .inl (core.of_idle phase).1
        · refine (core.of_init init).1.imp_right fun more => ⟨?_, more⟩
          have busy : before.core.busy = true := by simp [Core.busy, init]
          rw [edge.ctrl, Controller.State.posedge_initSeen, unseen, busy]
          rfl
    | refresh seen _ pulses next =>
        simp only [Served, next]
        exact serving_of_issued edge quiet (idle seen) pulses
    | read seen _ _ _ pulses next =>
        simp only [Served, next]
        exact serving_of_issued edge quiet (idle seen) pulses
    | writeEven seen _ _ _ _ pulses _ next =>
        simp only [Served, next]
        exact serving_of_issued edge quiet (idle seen) pulses
    | writeOdd seen _ _ _ _ pulses _ next =>
        simp only [Served, next]
        exact serving_of_issued edge quiet (idle seen) pulses
  case S_RD =>
    cases move with
    | reading _ quiet next =>
        simp only [Served, next]
        exact served.carried edge quiet _
    | readDone low idle quiet next dtack =>
        simp only [Served, next]
        exact ⟨quiet, (served.ended edge low idle).2.2, dtack⟩
  case S_WR =>
    cases move with
    | writing _ silent next =>
        simp only [Served, next]
        exact served.carried edge silent.pulses _
    | writeSecond low idle _ pulses _ next =>
        simp only [Served, next]
        obtain ⟨quiet, phase, _⟩ := served.ended edge low idle
        exact serving_of_issued edge quiet phase pulses
    | writeDone low idle _ silent next dtack =>
        simp only [Served, next]
        exact ⟨silent.pulses, (served.ended edge low idle).2.2, dtack⟩
  case S_REF =>
    cases move with
    | refreshing _ silent next =>
        simp only [Served, next]
        exact served.carried edge silent.pulses _
    | refreshDone low idle silent next =>
        simp only [Served, next]
        exact ⟨silent.pulses, .inl (served.ended edge low idle).2.2⟩
  case S_ACK =>
    obtain ⟨quiet, phase, dtack⟩ := served
    have still := (Core.Step.of_idle (quiet ▸ edge.core) phase).1
    cases move with
    | acked _ silent next same =>
        simp only [Served, next]
        exact ⟨silent.pulses, still, same.trans dtack⟩
    | released _ silent next =>
        simp only [Served, next]
        exact ⟨silent.pulses, .inl still⟩

section Waiting

variable (latency : after.core.WithinLatency)

include latency

theorem commandWait_le (running : ¬after.core.Initialising) : after.commandWait ≤ 101 := by
  rw [commandWait]
  split
  · exact Nat.le_succ_of_le (latency.clocks_le running)
  · exact Nat.le_refl _

/-- A clock of a command brings its end nearer. -/
theorem Serving.commandWait_lt (serving : before.Serving pulse) (edge : Edge before after)
    (works : before.ctrl.pulses ≠ [] ∨ before.core.busy = true) (quiet : after.ctrl.pulses = []) :
    after.commandWait < before.commandWait := by
  have running := edge.core.not_initialising serving.running
  rw [commandWait, if_pos quiet, commandWait]
  split
  · rename_i silent
    have busy : before.core.phase ≠ .idle := by
      intro idle
      rcases works with pulses | busy
      · exact pulses silent
      · exact ne_true_of_eq_false (Core.busy_eq_false.mpr idle) busy
    exact edge.core.clocks_lt busy
  · exact Nat.lt_succ_of_le (latency.clocks_le running)

theorem wait_le (served : after.Served) : after.wait ≤ 206 := by
  unfold Served at served
  unfold wait
  cases state : after.ctrl.state <;> rw [state] at served <;> dsimp only at served ⊢
  case S_IDLE => exact Nat.zero_le _
  case S_ACK => split <;> omega
  case S_WR =>
    have command := commandWait_le latency served.running
    split <;> omega
  all_goals
    have command := commandWait_le latency served.running
    omega

/-- Outside its idle state the adapter comes nearer to it with every clock. -/
theorem wait_lt (served : before.Served) (select : before.cache.SelectMatches)
    (edge : Edge before after) (busy : before.ctrl.state ≠ .S_IDLE) : after.wait < before.wait := by
  have move := before.ctrl.posedge_move before.memBus before.core
  rw [← edge.ctrl] at move
  have acked : after.ctrl.state = .S_ACK → after.wait ≤ 2 := by
    intro state
    rw [wait, state]
    dsimp only
    split <;> omega
  unfold Served at served
  cases state : before.ctrl.state <;> rw [state] at served move <;> dsimp only at served
  case S_IDLE => exact (busy state).elim
  case S_RD =>
    cases move with
    | reading works quiet next =>
        have shorter := served.commandWait_lt latency edge works quiet
        simp only [wait, state, next]
        omega
    | readDone _ _ _ next =>
        have soon := acked next
        simp only [wait.eq_def before, state]
        omega
  case S_WR =>
    cases move with
    | writing works silent next =>
        have shorter := served.commandWait_lt latency edge works silent.pulses
        simp only [wait, state, next, silent.needSecond]
        omega
    | writeSecond _ _ second pulses single next =>
        have running := edge.core.not_initialising served.running
        have command := commandWait_le latency running
        simp only [wait, state, next, second, single, if_true, Bool.false_eq_true, if_false]
        omega
    | writeDone _ _ _ _ next =>
        have soon := acked next
        simp only [wait.eq_def before, state]
        omega
  case S_REF =>
    cases move with
    | refreshing works silent next =>
        have shorter := served.commandWait_lt latency edge works silent.pulses
        simp only [wait, state, next]
        omega
    | refreshDone _ _ _ next =>
        simp only [wait, state, next]
        omega
  case S_ACK =>
    cases move with
    | acked selected _ next =>
        have high : after.cache.memCsN = true := by
          rw [edge.cache]
          refine Cache.State.posedge_memCsN (select.mp selected) ?_
          exact Controller.State.dtackN_eq_false.mpr served.2.2
        have low : before.cache.memCsN = false := selected
        simp [wait, state, next, high, low]
    | released _ _ next =>
        simp only [wait, state, next]
        split <;> omega

end Waiting

/-- Nothing but the idle state delays a request that is due. -/
theorem issues_iff {s : System} (served : s.Served) (seen : s.ctrl.initSeen = true)
    (due : s.ctrl.refDue = true) : s.ctrl.issues s.core = true ↔ s.ctrl.state = .S_IDLE := by
  simp only [Controller.State.issues, seen, due, Bool.and_true, Bool.and_eq_true, decide_eq_true_eq,
    Bool.not_eq_true', and_iff_left_iff_imp]
  intro state
  rw [Served, state] at served
  have idle := served.2.resolve_right fun init => ne_true_of_eq_false init.1 seen
  exact Core.busy_eq_false.mpr idle

/-- The counter does not get to the end of the interval while a request waits. -/
theorem Timely.ready {s : System} (timely : s.Timely)
    (full : Controller.REFRESH_INT ≤ s.ctrl.refCnt) : s.ctrl.refDue = false := by
  by_contra waiting
  have due := (timely.due (Bool.eq_true_of_not_eq_false waiting)).2
  have count : 340 ≤ s.ctrl.refCnt.toNat := BitVec.le_def.mp full
  omega

theorem full_of_expires {s : Controller.State} (expires : s.expires = true) :
    s.initSeen = true ∧ Controller.REFRESH_INT ≤ s.refCnt := by
  simpa only [Controller.State.expires, Bool.and_eq_true, decide_eq_true_eq] using expires

/-- A waiting request comes nearer to its pulse, and a new one has the whole interval. -/
theorem Timely.step (timely : before.Timely) (edge : Edge before after)
    (latency : after.core.WithinLatency) : after.Timely := by
  have served := timely.served.step edge
  have count := before.ctrl.posedge_refCnt before.memBus before.core
  have due := (before.ctrl.posedge_refDue before.memBus before.core).1
  have seen := before.ctrl.posedge_initSeen before.memBus before.core
  rw [← edge.ctrl] at count due seen
  have below : before.ctrl.refCnt.toNat ≤ 340 := BitVec.le_def.mp timely.counts
  have counted : ¬Controller.REFRESH_INT ≤ before.ctrl.refCnt →
      before.ctrl.refCnt.toNat < 340 ∧
        (before.ctrl.refCnt + 1).toNat = before.ctrl.refCnt.toNat + 1 := by
    intro short
    have less : before.ctrl.refCnt.toNat < 340 := Nat.lt_of_not_le fun full => short (BitVec.le_def.mpr full)
    have added : (before.ctrl.refCnt + 1).toNat = (before.ctrl.refCnt.toNat + 1) % 2 ^ 9 :=
      BitVec.toNat_add _ _
    exact ⟨less, added.trans (Nat.mod_eq_of_lt (by omega))⟩
  constructor
  · rw [edge.cache]
    exact timely.select.posedge
  · exact served
  · rw [count]
    split
    · split
      · exact BitVec.le_def.mpr (Nat.zero_le _)
      · rename_i short
        obtain ⟨less, next⟩ := counted short
        exact BitVec.le_def.mpr (next ▸ less)
    · exact timely.counts
  · intro waits
    rw [due, Bool.and_eq_true, Bool.or_eq_true, Bool.not_eq_true'] at waits
    obtain ⟨kept, cause⟩ := waits
    by_cases expires : before.ctrl.expires = true
    · obtain ⟨started, full⟩ := full_of_expires expires
      rw [if_pos started, if_pos full] at count
      rw [seen, started, count]
      exact ⟨rfl, (Nat.zero_add _).trans_le (wait_le latency served)⟩
    · have waiting := cause.resolve_left expires
      obtain ⟨started, soon⟩ := timely.due waiting
      have short : ¬Controller.REFRESH_INT ≤ before.ctrl.refCnt := fun full =>
        expires (by simp [Controller.State.expires, started, full])
      have working : before.ctrl.state ≠ .S_IDLE := fun state =>
        ne_true_of_eq_false kept ((issues_iff timely.served started waiting).mpr state)
      have nearer := wait_lt latency timely.served timely.select edge working
      rw [if_pos started, if_neg short] at count
      rw [seen, started, count, (counted short).2]
      exact ⟨rfl, by omega⟩

/-- A behaviour of the path from reset, with any bus cycles; every command keeps the core busy for
    at most 100 clocks. -/
structure BoundedRun where
  exec : Execution Edge
  cache : ∃ powerUp : Cache.State, (exec.state 0).cache = powerUp.reset
  ctrl : (exec.state 0).ctrl = Controller.State.reset
  powerUp : (exec.state 0).core.phase = .idle ∨ (exec.state 0).core.Initialising
  latency : ∀ n, (exec.state n).core.WithinLatency

namespace BoundedRun

variable (run : BoundedRun)

def ctrlAt (n : Nat) : Controller.State := (run.exec.state n).ctrl

def coreAt (n : Nat) : Core := (run.exec.state n).core

/-- The pulses of `ctrl_refresh` up to clock `n`. -/
def refreshes (n : Nat) : Nat := Nat.count (fun k => (run.ctrlAt k).ctrlRefresh = true) (n + 1)

/-- The expiries of the timer before clock `n`. -/
def expiries (n : Nat) : Nat := Nat.count (fun k => (run.ctrlAt k).expires = true) n

/-- No refresh request is lost. -/
structure Lossless : Prop where
  /-- The timer never finds its last request waiting. -/
  ready : ∀ n, Controller.REFRESH_INT ≤ (run.ctrlAt n).refCnt → (run.ctrlAt n).refDue = false
  answered : ∀ e n, e < n → (run.ctrlAt e).expires = true → (run.ctrlAt n).expires = true →
    ∃ m, e < m ∧ m ≤ n ∧ (run.ctrlAt m).ctrlRefresh = true
  /-- No clock sets and clears `ref_due`. -/
  apart : ∀ n, (run.ctrlAt n).expires = true → (run.ctrlAt n).issues (run.coreAt n) = false
  counted : ∀ n, run.refreshes n + (run.ctrlAt n).refDue.toNat = run.expiries n

theorem timely (n : Nat) : (run.exec.state n).Timely := by
  induction n with
  | zero =>
      obtain ⟨powerUp, cache⟩ := run.cache
      have ctrl := run.ctrl
      refine ⟨?_, ?_, ?_, ?_⟩
      · rw [cache]
        simp [Cache.State.SelectMatches, Cache.State.Selects, Cache.State.reset]
      · rw [Served, ctrl]
        exact ⟨rfl, run.powerUp.imp_right fun init => ⟨rfl, init⟩⟩
      · rw [ctrl]
        exact BitVec.le_def.mpr (Nat.zero_le _)
      · rw [ctrl]
        exact fun due => absurd due Bool.false_ne_true
  | succ n ih => exact ih.step (run.exec.step n) (run.latency (n + 1))

theorem refDue_succ (n : Nat) :
    (run.ctrlAt (n + 1)).refDue = (!(run.ctrlAt n).issues (run.coreAt n) &&
      ((run.ctrlAt n).expires || (run.ctrlAt n).refDue)) ∧
    (run.ctrlAt (n + 1)).ctrlRefresh = (run.ctrlAt n).issues (run.coreAt n) := by
  rw [ctrlAt, (run.exec.step n).ctrl]
  exact Controller.State.posedge_refDue _ _ _

theorem not_issues {n : Nat} (expires : (run.ctrlAt n).expires = true) :
    (run.ctrlAt n).issues (run.coreAt n) = false := by
  have idle : (run.ctrlAt n).refDue = false := (run.timely n).ready (full_of_expires expires).2
  rw [Bool.eq_false_iff]
  exact fun issues => ne_true_of_eq_false idle (Controller.State.refDue_of_issues issues)

theorem answered {e n : Nat} (after : e < n) (first : (run.ctrlAt e).expires = true)
    (second : (run.ctrlAt n).expires = true) :
    ∃ m, e < m ∧ m ≤ n ∧ (run.ctrlAt m).ctrlRefresh = true := by
  by_contra none
  have initial : (run.ctrlAt 0).refDue = false := by
    rw [ctrlAt, run.ctrl]
    rfl
  have kept (k : Nat) (lower : e ≤ k) (upper : k < n) :
      (run.ctrlAt k).issues (run.coreAt k) = false := by
    rw [← (run.refDue_succ k).2, Bool.eq_false_iff]
    exact fun pulse => none ⟨k + 1, Nat.lt_succ_of_le lower, upper, pulse⟩
  have waiting : (run.ctrlAt n).refDue = true :=
    (latched_iff (fun k => (run.ctrlAt k).refDue) (fun k => (run.ctrlAt k).expires)
      (fun k => (run.ctrlAt k).issues (run.coreAt k)) (fun _ => false) initial
      fun k => (run.refDue_succ k).1).mpr ⟨e, after, first, kept, fun _ _ _ => rfl⟩
  have idle : (run.ctrlAt n).refDue = false := (run.timely n).ready (full_of_expires second).2
  exact ne_true_of_eq_false idle waiting

theorem counted (n : Nat) : run.refreshes n + (run.ctrlAt n).refDue.toNat = run.expiries n := by
  have ctrl : run.ctrlAt 0 = Controller.State.reset := run.ctrl
  have step (k : Nat) : (run.ctrlAt (k + 1)).refDue = true ↔
      ¬(run.ctrlAt (k + 1)).ctrlRefresh = true ∧
        ((run.ctrlAt k).expires = true ∨ (run.ctrlAt k).refDue = true) := by
    obtain ⟨due, pulse⟩ := run.refDue_succ k
    simp only [due, pulse, Bool.and_eq_true, Bool.or_eq_true, Bool.not_eq_true', Bool.not_eq_true]
  have apart (k : Nat) (expires : (run.ctrlAt k).expires = true) : ¬(run.ctrlAt k).refDue = true :=
    ne_true_of_eq_false ((run.timely k).ready (full_of_expires expires).2)
  have only (k : Nat) (pulse : (run.ctrlAt (k + 1)).ctrlRefresh = true) :
      (run.ctrlAt k).refDue = true :=
    Controller.State.refDue_of_issues ((run.refDue_succ k).2.symm.trans pulse)
  have balance := count_balance step apart only n
  have pulses : run.refreshes n = Nat.count (fun k => (run.ctrlAt (k + 1)).ctrlRefresh = true) n := by
    rw [refreshes, Nat.count_succ', ctrl]
    rfl
  have pending : (run.ctrlAt n).refDue.toNat = if (run.ctrlAt n).refDue = true then 1 else 0 := by
    cases (run.ctrlAt n).refDue with
    | true => rfl
    | false => rfl
  rw [pulses, pending, balance, ctrl]
  rfl

theorem no_request_lost : run.Lossless where
  ready n := (run.timely n).ready
  answered _ _ := run.answered
  apart _ := run.not_issues
  counted := run.counted

end BoundedRun

/-- A master that keeps its cycles open is one of them. -/
def Run.bounded (run : Run) (latency : ∀ n, (run.core n).WithinLatency) : BoundedRun where
  exec := { state := run.exec.state, step := fun n => (run.exec.step n).edge }
  cache := run.cache
  ctrl := run.ctrl
  powerUp := run.powerUp
  latency := latency

section Steady

variable (bus : Nat → Bus) (latency : Nat → Nat) (powerUp : System)

/-- The path on any bus cycles, with a core of the given latencies. -/
def steadyPath : Nat → System
  | 0 =>
      { bus := bus 0, cache := powerUp.cache.reset, ctrl := .reset
        core := { powerUp.core with phase := .idle } }
  | n + 1 =>
      let s := steadyPath n
      { bus := bus (n + 1)
        cache := s.cache.posedge s.bus s.inputs
        ctrl := s.ctrl.posedge s.memBus s.core
        core := s.core.steady s.ctrl.pulses (latency n) }

/-- Every sequence of bus cycles and of latencies has such a behaviour. -/
def steadyRun (short : ∀ n, latency n < 100) : BoundedRun where
  exec := {
    state := steadyPath bus latency powerUp
    step := fun _ => ⟨rfl, rfl, Core.steady_step _ _ _⟩ }
  cache := ⟨powerUp.cache, rfl⟩
  ctrl := rfl
  powerUp := .inl rfl
  latency n := by
    induction n with
    | zero => exact fun _ _ _ busy => nomatch busy
    | succ n ih => exact ih.steady (short n)

end Steady

end System

end Mackerel.Sdram
