import Mackerel.Clocked.Latches
import Mackerel.Sdram.ControllerMemory

namespace Mackerel.Sdram.Controller

open Clocked Assembly

namespace Run

variable (run : Run)

/-- The end of the initialisation of the core. -/
def FirstIdle (s : Nat) : Prop := (run.core s).busy = false ∧ ∀ k < s, (run.core k).busy = true

/-- A refresh falls due: 341 clocks after the end of the initialisation, and every 341 clocks then. -/
def Expiry (e : Nat) : Prop := ∃ s < e, run.FirstIdle s ∧ 341 ∣ e - s

/-- The next refresh falls due before the core is done with the one of clock `m`. -/
def Overrun (m : Nat) : Prop := .refresh ∈ (run.ctrl m).pulses ∧
  ∃ e, m ≤ e ∧ run.Expiry e ∧ ∀ k, m < k → k < e → (run.core k).busy = true

/-- The adapter and its core are a big-endian memory on the 68000 bus. -/
structure Implements : Prop where
  /-- Commands are one-clock pulses, never two at once. -/
  pulses : ∀ n, (run.ctrl n).pulses = [] ∨
    ((∃ command, (run.ctrl n).pulses = [command]) ∧ (run.ctrl (n + 1)).pulses = [])
  /-- The core is idle at every pulse, and takes it. -/
  taken : ∀ n, ∀ command ∈ (run.ctrl n).pulses, (run.core n).busy = false ∧
    ∃ clocks, (run.core (n + 1)).phase = .busy clocks command false
  /-- Every cycle issues its own commands, once and in order, and nothing else writes. -/
  accounted : ∀ n, ∃ commands carried, run.Accounted n commands carried
  /-- A refresh never comes between the commands of a cycle. -/
  undivided : ∀ n, .refresh ∈ (run.ctrl n).pulses →
    run.accesses n = (run.acknowledged n).flatMap Bus.commands
  /-- A cycle is acknowledged only after its last command is carried out. -/
  completed : ∀ n, run.Acks n → (run.bus n).start = true ∧ run.Accounted (n + 1) [] []
  /-- A read is acknowledged with the word at its address. -/
  readData : ∀ n, run.Acks n → (run.bus n).rwn = true →
    (run.ctrl (n + 1)).rdata = bigEndianWord (run.contents n) (run.bus n).addr
  /-- The acknowledge and the read data stay until the master ends the cycle. -/
  held : ∀ n, (run.ctrl n).dtackN = false → (run.bus n).csN = false →
    (run.ctrl (n + 1)).dtackN = false ∧ (run.ctrl (n + 1)).rdata = (run.ctrl n).rdata
  /-- The acknowledge of one cycle is gone before the next one can begin. -/
  released : ∀ n, (run.ctrl n).dtackN = false → (run.bus n).csN = true →
    (run.ctrl (n + 1)).dtackN = true
  /-- Every refresh is one that has fallen due since the last one. -/
  due : ∀ n, .refresh ∈ (run.ctrl n).pulses →
    ∃ e < n, run.Expiry e ∧ ∀ k, e < k → k < n → .refresh ∉ (run.ctrl k).pulses
  /-- A cycle is acknowledged, unless a refresh lasts until the next one is due. -/
  answered : ∀ n, (run.bus n).start = true → (run.ctrl n).dtackN = true →
    ∃ m, n ≤ m ∧ (run.Acks m ∨ run.Overrun m)
  /-- With a core that is done with each command in time every cycle is acknowledged. -/
  prompt : (∀ n, (run.core n).WithinLatency) → ∀ n, (run.bus n).start = true →
    (run.ctrl n).dtackN = true → ∃ m, n ≤ m ∧ run.Acks m

variable {run} {n m : Nat}

theorem mem_pulses_refresh : .refresh ∈ (run.ctrl n).pulses ↔ (run.ctrl n).ctrlRefresh = true := by
  simp only [State.pulses, List.mem_append]
  split <;> split <;> split <;> simp_all

theorem ctrl_succ (n : Nat) : run.ctrl (n + 1) = (run.ctrl n).posedge (run.bus n) (run.core n) :=
  (run.exec.step n).ctrl

/-- The adapter has seen the core idle. -/
theorem initSeen_iff : (run.ctrl n).initSeen = true ↔ ∃ k < n, (run.core k).busy = false := by
  induction n with
  | zero =>
      rw [show run.ctrl 0 = State.reset from run.reset]
      simp [State.reset]
  | succ n ih =>
      rw [ctrl_succ, State.posedge_initSeen, Bool.or_eq_true, ih, Bool.not_eq_true']
      constructor
      · rintro (⟨k, before, idle⟩ | idle)
        · exact ⟨k, by omega, idle⟩
        · exact ⟨n, Nat.lt_succ_self n, idle⟩
      · rintro ⟨k, before, idle⟩
        rcases Nat.lt_succ_iff_lt_or_eq.mp before with earlier | rfl
        · exact .inl ⟨k, earlier, idle⟩
        · exact .inr idle

theorem exists_firstIdle (seen : (run.ctrl n).initSeen = true) : ∃ s < n, run.FirstIdle s := by
  obtain ⟨k, before, idle⟩ := initSeen_iff.mp seen
  induction k using Nat.strong_induction_on with
  | _ k ih =>
      by_cases first : ∀ j < k, (run.core j).busy = true
      · exact ⟨k, before, idle, first⟩
      · push Not at first
        obtain ⟨j, earlier, sooner⟩ := first
        exact ih j earlier (by omega) (Bool.eq_false_of_not_eq_true sooner)

theorem FirstIdle.unique {s t : Nat} (first : run.FirstIdle s) (other : run.FirstIdle t) : s = t := by
  by_contra different
  rcases Nat.lt_or_gt_of_ne different with sooner | later
  · exact ne_true_of_eq_false first.1 (other.2 s sooner)
  · exact ne_true_of_eq_false other.1 (first.2 t later)

/-- The timer counts from the end of the initialisation. -/
theorem FirstIdle.refCnt {s : Nat} (first : run.FirstIdle s) (after : s < n) :
    (run.ctrl n).refCnt.toNat = (n - (s + 1)) % 341 := by
  have unseen (k : Nat) (before : k ≤ s) : (run.ctrl k).initSeen = false := by
    rw [Bool.eq_false_iff]
    intro seen
    obtain ⟨j, earlier, idle⟩ := initSeen_iff.mp seen
    exact ne_true_of_eq_false idle (first.2 j (by omega))
  induction n, after using Nat.le_induction with
  | base =>
      have still (k : Nat) (before : k ≤ s + 1) : (run.ctrl k).refCnt = 0 := by
        induction k with
        | zero => rw [show run.ctrl 0 = State.reset from run.reset]; rfl
        | succ k ih =>
            rw [ctrl_succ, State.posedge_refCnt, if_neg (Bool.eq_false_iff.mp (unseen k (by omega)))]
            exact ih (by omega)
      rw [still (s + 1) (Nat.le_refl _)]
      simp
  | succ n after ih =>
      have seen : (run.ctrl n).initSeen = true := initSeen_iff.mpr ⟨s, after, first.1⟩
      have full : REFRESH_INT ≤ (run.ctrl n).refCnt ↔ 340 ≤ (n - (s + 1)) % 341 := by
        rw [BitVec.le_def, ih]
        rfl
      rw [ctrl_succ, State.posedge_refCnt, if_pos seen]
      by_cases last : REFRESH_INT ≤ (run.ctrl n).refCnt
      · have count := full.mp last
        rw [if_pos last, show (0 : BitVec 9).toNat = 0 from rfl]
        omega
      · have count := mt full.mpr last
        rw [if_neg last, BitVec.toNat_add, ih, show (1 : BitVec 9).toNat = 1 from rfl]
        omega

theorem expires_iff : (run.ctrl n).expires = true ↔ run.Expiry n := by
  have interval : REFRESH_INT.toNat = 340 := rfl
  simp only [State.expires, Bool.and_eq_true, decide_eq_true_eq, BitVec.le_def, interval]
  constructor
  · rintro ⟨seen, full⟩
    obtain ⟨s, before, first⟩ := exists_firstIdle seen
    rw [first.refCnt before] at full
    exact ⟨s, before, first, by omega⟩
  · rintro ⟨s, before, first, multiple⟩
    rw [first.refCnt before]
    exact ⟨initSeen_iff.mpr ⟨s, before, first.1⟩, by omega⟩

/-- Two refreshes fall due one interval apart. -/
theorem Expiry.apart {e l : Nat} (first : run.Expiry e) (last : run.Expiry l) (later : e < l) :
    e + 341 ≤ l := by
  obtain ⟨s, before, idle, multiple⟩ := first
  obtain ⟨t, sooner, same, other⟩ := last
  obtain rfl := idle.unique same
  omega

theorem refresh_succ (n : Nat) : (run.ctrl (n + 1)).ctrlRefresh = (run.ctrl n).issues (run.core n) := by
  rw [ctrl_succ]
  exact (State.posedge_refDue _ _ _).2

/-- A request is up from its expiry until its pulse. -/
theorem refDue_iff : (run.ctrl n).refDue = true ↔
    ∃ e < n, run.Expiry e ∧ ∀ k, e < k → k ≤ n → .refresh ∉ (run.ctrl k).pulses := by
  have initial : (run.ctrl 0).refDue = false := by
    rw [show run.ctrl 0 = State.reset from run.reset]
    rfl
  have step (k : Nat) : (run.ctrl (k + 1)).refDue = (!(run.ctrl k).issues (run.core k) &&
      ((run.ctrl k).expires || !false && (run.ctrl k).refDue)) := by
    rw [ctrl_succ, (State.posedge_refDue _ _ _).1, Bool.not_false, Bool.true_and]
  have latched := latched_iff (n := n) (fun k => (run.ctrl k).refDue) (fun k => (run.ctrl k).expires)
    (fun k => (run.ctrl k).issues (run.core k)) (fun _ => false) initial step
  rw [latched]
  simp only [expires_iff, implies_true, and_true, ← refresh_succ, mem_pulses_refresh]
  refine exists_congr fun e => and_congr_right fun before => and_congr_right fun _ => ?_
  constructor
  · intro none k lower upper
    obtain ⟨j, rfl⟩ : ∃ j, k = j + 1 := ⟨k - 1, by omega⟩
    exact ne_true_of_eq_false (none j (by omega) (by omega))
  · intro none k lower upper
    exact Bool.eq_false_of_not_eq_true (none (k + 1) (by omega) (by omega))

/-- Every refresh is one that has fallen due since the last one. -/
theorem due (refresh : .refresh ∈ (run.ctrl n).pulses) :
    ∃ e < n, run.Expiry e ∧ ∀ k, e < k → k < n → .refresh ∉ (run.ctrl k).pulses := by
  cases n with
  | zero =>
      rw [show run.ctrl 0 = State.reset from run.reset] at refresh
      simp [State.pulses, State.reset] at refresh
  | succ n =>
      rw [mem_pulses_refresh, refresh_succ] at refresh
      obtain ⟨e, before, expiry, none⟩ := refDue_iff.mp (State.refDue_of_issues refresh)
      exact ⟨e, by omega, expiry, fun k lower upper => none k lower (by omega)⟩

/-- The waiting cycle of clock `n` is acknowledged from there on. -/
theorem acks_of_until (waiting : (run.exec.state n).Waiting) {P : Assembly → Prop}
    (until_ : run.exec.Until (fun s => s.Waiting ∧ P s) (fun s => s.ctrl.dtack = true) n) :
    ∃ m, n ≤ m ∧ run.Acks m := by
  obtain ⟨m, after, acked, before⟩ := until_
  have later : n ≠ m := by
    rintro rfl
    exact absurd acked (ne_true_of_eq_false waiting.requested.dtack)
  obtain ⟨last, rfl⟩ : ∃ last, m = last + 1 := ⟨m - 1, by omega⟩
  have still := (before last (by omega) (by omega)).1.requested.dtack
  exact ⟨last, by omega, State.dtackN_eq_true.mpr still, State.dtackN_eq_false.mpr acked⟩

theorem waiting (started : (run.bus n).start = true) (high : (run.ctrl n).dtackN = true) :
    (run.exec.state n).Waiting := by
  obtain ⟨commands, invariant, _⟩ := run.accounting n
  exact ⟨⟨started, State.dtackN_eq_true.mp high⟩, _, commands, invariant⟩

/-- Once it has the turn, a cycle goes on to its acknowledge. -/
theorem acks_of_accessing (waiting : (run.exec.state n).Waiting) (accessing : (run.exec.state n).Accessing) :
    ∃ m, n ≤ m ∧ run.Acks m := by
  refine acks_of_until waiting (P := Accessing) (Execution.until_of_rank rank ?_ ⟨waiting, accessing⟩)
  intro before after here step
  cases acked : after.ctrl.dtack with
  | true => exact .inl rfl
  | false =>
      obtain ⟨next, quiet⟩ := here.1.accessing here.2 step acked
      exact .inr ⟨⟨here.1.step step acked, next⟩, (here.1.rank_lt step acked).resolve_left quiet⟩

/-- A waiting cycle is acknowledged, or finds itself behind a refresh. -/
theorem acks_or_refresh (waiting : (run.exec.state n).Waiting) : (∃ m, n ≤ m ∧ run.Acks m) ∨
    ∃ m, n ≤ m ∧ (run.exec.state m).Waiting ∧ (run.ctrl m).pulses = [.refresh] := by
  obtain ⟨m, after, reached, before⟩ := Execution.until_of_rank
    (Q := fun s : Assembly => s.ctrl.dtack = true ∨ s.Waiting ∧ s.ctrl.pulses = [.refresh])
    rank Waiting.advance waiting
  rcases reached with acked | refresh
  · exact .inl (acks_of_until waiting (P := fun _ => True)
      ⟨m, after, acked, fun k lower upper => ⟨before k lower upper, trivial⟩⟩)
  · exact .inr ⟨m, after, refresh⟩

theorem state_of_refresh (refresh : (run.ctrl n).pulses = [.refresh]) : (run.ctrl n).state = .S_REF := by
  obtain ⟨commands, invariant, _⟩ := run.accounting n
  have pulses : (run.exec.state n).ctrl.pulses = [.refresh] := refresh
  cases invariant with
  | idle _ _ quiet => simp [quiet] at pulses
  | refresh state => exact state
  | read _ _ _ outstanding => rcases outstanding.pulses with none | ⟨one, _⟩ <;> simp_all
  | write _ _ _ _ _ _ outstanding => rcases outstanding.pulses with none | ⟨one, _⟩ <;> simp_all
  | acked _ _ quiet => simp [quiet] at pulses

/-- The refresh of clock `m` is over at clock `l`. -/
structure RefreshOver (run : Run) (m l : Nat) : Prop where
  later : m < l
  busy : ∀ k, m < k → k + 1 < l → (run.core k).busy = true
  waiting : (run.exec.state l).Waiting
  state : (run.ctrl l).state = .S_IDLE
  seen : (run.ctrl l).initSeen = true

theorem refresh_over (waiting : (run.exec.state m).Waiting) (refresh : (run.ctrl m).pulses = [.refresh]) :
    ∃ l, run.RefreshOver m l := by
  obtain ⟨l, after, ⟨waits, state, seen⟩, before⟩ := Execution.until_of_rank
    (P := fun s : Assembly => s.Waiting ∧ s.ctrl.state = .S_REF)
    (Q := fun s : Assembly => s.Waiting ∧ s.ctrl.state = .S_IDLE ∧ s.ctrl.initSeen = true) rank
    (fun {before after} here step => by
      have move := step.move here.2
      have still : after.ctrl.dtack = false := by
        cases move with
        | refreshing _ _ _ same => exact same.trans here.1.requested.dtack
        | refreshDone _ _ _ _ same => exact same.trans here.1.requested.dtack
      have next := here.1.step step still
      have lower := here.1.rank_lt step still
      cases move with
      | refreshing _ silent stays _ =>
          exact .inr ⟨⟨next, stays⟩, lower.resolve_left (by simp [silent.pulses])⟩
      | refreshDone _ free _ idle _ =>
          refine .inl ⟨next, idle, ?_⟩
          rw [step.ctrl, State.posedge_initSeen, free]
          simp)
    ⟨waiting, state_of_refresh refresh⟩
  have later : m < l := by
    refine Nat.lt_of_le_of_ne after ?_
    rintro rfl
    have here : (run.ctrl m).state = .S_IDLE := state
    rw [state_of_refresh refresh] at here
    cases here
  refine ⟨l, later, fun k lower upper => ?_, waits, state, seen⟩
  have quiet : (run.exec.state k).ctrl.pulses = [] := by
    obtain ⟨j, rfl⟩ : ∃ j, k = j + 1 := ⟨k - 1, by omega⟩
    have here := (before (j + 1) (by omega) (by omega)).2
    cases (run.exec.step j).move (before j (by omega) (by omega)).2 with
    | refreshing _ silent => exact silent.pulses
    | refreshDone _ _ _ idle => exact absurd (idle.symm.trans here) (by decide)
  have next := (before (k + 1) (by omega) upper).2
  cases (run.exec.step k).move (before k (by omega) (by omega)).2 with
  | refreshing unfinished => exact unfinished.resolve_left (not_not_intro quiet)
  | refreshDone _ _ _ idle => exact absurd (idle.symm.trans next) (by decide)

/-- Behind a refresh the cycle has its turn, unless the next refresh has fallen due in the meantime. -/
theorem RefreshOver.next {l : Nat} (ended : run.RefreshOver m l) (refresh : (run.ctrl m).pulses = [.refresh]) :
    (∃ k, l ≤ k ∧ run.Acks k) ∨ ∃ e, m ≤ e ∧ e < l ∧ run.Expiry e ∧
      (run.exec.state (l + 1)).Waiting ∧ (run.ctrl (l + 1)).pulses = [.refresh] := by
  cases due : (run.ctrl l).refDue with
  | false =>
      refine .inl (acks_of_accessing ended.waiting ?_)
      have state : (run.exec.state l).ctrl.state = .S_IDLE := ended.state
      simp only [Accessing, state]
      exact ⟨ended.seen, due⟩
  | true =>
      right
      obtain ⟨e, before, expiry, none⟩ := refDue_iff.mp due
      have after : m ≤ e := by
        by_contra early
        exact none m (by omega) (Nat.le_of_lt ended.later) (by simp [refresh])
      have idle : (run.core l).busy = false := by
        obtain ⟨_, base, commands, invariant⟩ := ended.waiting
        have state : (run.exec.state l).ctrl.state = .S_IDLE := ended.state
        cases invariant with
        | idle _ _ _ _ phase =>
            exact Core.busy_eq_false.mpr (phase.resolve_right fun init => ne_true_of_eq_false init.1 ended.seen)
        | refresh other | read other | write _ _ _ other | acked other =>
            exact absurd (state.symm.trans other) (by decide)
      have issues : (run.ctrl l).issues (run.core l) = true := by
        simp [State.issues, ended.state, ended.seen, idle, due]
      have pulse : .refresh ∈ (run.ctrl (l + 1)).pulses := by
        rw [mem_pulses_refresh, refresh_succ, issues]
      have started := ended.waiting.requested.start
      cases (run.exec.step l).move ended.state with
      | idle quiet =>
          have seen : (run.exec.state l).ctrl.initSeen = true := ended.seen
          have free : (run.exec.state l).core.busy = false := idle
          simp [seen, free, started] at quiet
      | refresh _ _ pulses _ same =>
          have still := same.trans ended.waiting.requested.dtack
          exact ⟨e, after, before, expiry, ended.waiting.step (run.exec.step l) still, pulses⟩
      | read _ _ _ _ pulses => simp [ctrl, pulses] at pulse
      | writeEven _ _ _ _ _ pulses => simp [ctrl, pulses] at pulse
      | writeOdd _ _ _ _ _ pulses => simp [ctrl, pulses] at pulse

/-- The core has carried out a command of so few clocks. -/
theorem soon_idle (latency : ∀ n, (run.core n).WithinLatency) (refresh : (run.ctrl m).pulses = [.refresh])
    {l : Nat} (busy : ∀ k, m < k → k + 1 < l → (run.core k).busy = true) : l ≤ m + 102 := by
  by_contra long
  have taken : ∃ clocks, (run.core (m + 1)).phase = .busy clocks .refresh false := by
    obtain ⟨commands, invariant, _⟩ := run.accounting m
    have core := (run.exec.step m).core
    rcases invariant.pulses (run.exec.step m) with none | ⟨⟨command, pulse, idle⟩, _⟩
    · exact absurd (refresh.symm.trans none) (by simp)
    · rw [show (run.exec.state m).ctrl.pulses = _ from refresh] at core
      exact (core.of_pulse idle).1
  obtain ⟨clocks, first⟩ := taken
  have few : (run.core (m + 1)).phase.clocks ≤ 100 := by
    have short := latency (m + 1) clocks .refresh false first
    rw [first]
    exact short
  have fewer (j : Nat) (within : j ≤ 101) : (run.core (m + 1 + j)).phase.clocks + j ≤ 100 := by
    induction j with
    | zero => exact few
    | succ j ih =>
        have before := ih (by omega)
        have working : (run.core (m + 1 + j)).phase ≠ .idle := fun idle =>
          ne_true_of_eq_false (Core.busy_eq_false.mpr idle) (busy (m + 1 + j) (by omega) (by omega))
        have nearer := (run.exec.step (m + 1 + j)).core.clocks_lt working
        change (run.core (m + 1 + j + 1)).phase.clocks < (run.core (m + 1 + j)).phase.clocks at nearer
        rw [← Nat.add_assoc (m + 1) j 1]
        omega
  have last := fewer 101 (Nat.le_refl _)
  omega

theorem answered (started : (run.bus n).start = true) (high : (run.ctrl n).dtackN = true) :
    ∃ m, n ≤ m ∧ (run.Acks m ∨ run.Overrun m) := by
  rcases acks_or_refresh (waiting started high) with ⟨m, after, acks⟩ | ⟨m, after, waits, refresh⟩
  · exact ⟨m, after, .inl acks⟩
  · obtain ⟨l, ended⟩ := refresh_over waits refresh
    rcases ended.next refresh with ⟨k, later, acks⟩ | ⟨e, lower, upper, expiry, _⟩
    · have before := ended.later
      exact ⟨k, by omega, .inl acks⟩
    · exact ⟨m, after, .inr ⟨by simp [refresh], e, lower, expiry,
        fun k first last => ended.busy k first (by omega)⟩⟩

/-- With a core that is done in time, no more than one refresh comes between two others and a cycle. -/
theorem acks_of_latency (latency : ∀ n, (run.core n).WithinLatency) (started : (run.bus n).start = true)
    (high : (run.ctrl n).dtackN = true) : ∃ m, n ≤ m ∧ run.Acks m := by
  rcases acks_or_refresh (waiting started high) with acks | ⟨m, after, waits, refresh⟩
  · exact acks
  · obtain ⟨l, ended⟩ := refresh_over waits refresh
    have early := soon_idle latency refresh ended.busy
    rcases ended.next refresh with ⟨k, later, acks⟩ | ⟨e, lower, upper, expiry, again, second⟩
    · exact ⟨k, by have before := ended.later; omega, acks⟩
    · obtain ⟨l', last⟩ := refresh_over again second
      have soon := soon_idle latency second last.busy
      rcases last.next second with ⟨k, later, acks⟩ | ⟨e', lower', upper', expiry', _⟩
      · exact ⟨k, by have first := ended.later; have before := last.later; omega, acks⟩
      · have apart := expiry.apart expiry' (by omega)
        omega

end Run

theorem sdram_controller_implements_memory (run : Run) : run.Implements where
  pulses n := by
    obtain ⟨commands, invariant, _⟩ := run.accounting n
    rcases invariant.pulses (run.exec.step n) with none | ⟨⟨command, pulse, _⟩, next⟩
    · exact .inl none
    · exact .inr ⟨⟨command, pulse⟩, next⟩
  taken n command issued := by
    obtain ⟨commands, invariant, _⟩ := run.accounting n
    rcases invariant.pulses (run.exec.step n) with none | ⟨⟨other, pulse, idle⟩, _⟩
    · rw [show (run.ctrl n).pulses = [] from none] at issued
      exact absurd issued List.not_mem_nil
    · rw [show (run.ctrl n).pulses = [other] from pulse, List.mem_singleton] at issued
      have core := (run.exec.step n).core
      rw [pulse, ← issued] at core
      exact ⟨Core.busy_eq_false.mpr idle, (core.of_pulse idle).1⟩
  accounted n := run.accounted n
  undivided n refresh := by
    obtain ⟨commands, invariant, accesses⟩ := run.accounting n
    rw [accesses, invariant.of_refresh refresh, List.append_nil]
  completed n acks := ⟨acks.advance.1, (run.acked_of_dtackN acks.2).2⟩
  readData n acks read := acks.advance.2 read
  held n low selected := run.held low selected
  released n low ended := run.released low ended
  due _ refresh := Run.due refresh
  answered _ started high := Run.answered started high
  prompt latency _ started high := Run.acks_of_latency latency started high

end Mackerel.Sdram.Controller
