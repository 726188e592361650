import Mackerel.Sdram.RefreshRequests

namespace Mackerel.Sdram

namespace Cache.State

/-- The cache acknowledges in its last state only. -/
def AckMatches (s : State) : Prop := s.dtack = true ↔ s.state = .ACK

theorem AckMatches.posedge {s : State} (matched : s.AckMatches) (bus : Bus) (mem : MemoryInputs) :
    (s.posedge bus mem).AckMatches := by
  unfold AckMatches at *
  rw [posedge_dtack, posedge_state]
  cases state : s.state with
  | IDLE =>
      dsimp only
      split
      · split <;> simp
      · simp
  | LOOK =>
      have low : s.dtack = false := by simpa [state] using matched
      cases found : s.hit <;> simp [low]
  | FILL =>
      have low : s.dtack = false := by simpa [state] using matched
      cases acked : mem.dtackN <;> simp [low]
  | WRTH =>
      have low : s.dtack = false := by simpa [state] using matched
      cases acked : mem.dtackN <;> simp [low]
  | ACK =>
      have high : s.dtack = true := by simpa [state] using matched
      cases selected : bus.csN <;> simp [high]

end Cache.State

namespace System

/-- The refresh under way is over long before the next one is due. -/
def RefreshesApart (s : System) : Prop :=
  s.ctrl.state = .S_REF → s.ctrl.initSeen = true ∧ s.ctrl.refDue = false ∧
    s.ctrl.refCnt.toNat + s.wait ≤ 309

/-- What bounds the waiting time. -/
structure Advancing (s : System) : Prop where
  timely : s.Timely
  apart : s.RefreshesApart
  acks : s.cache.AckMatches

/-- A bound on the clocks until the selected adapter acknowledges: at most one refresh comes first. -/
def answerWait (s : System) : Nat :=
  match s.ctrl.state with
  | .S_ACK => 0
  | .S_RD | .S_WR => s.wait
  | .S_IDLE => if s.ctrl.refDue then 310 else 207
  | .S_REF => s.wait + 207

/-- A bound on the clocks until the cache acknowledges a request that stays on the bus. -/
def answerTime (s : System) : Nat :=
  match s.cache.state with
  | .ACK => 0
  | .FILL | .WRTH => s.answerWait + 1
  | .LOOK => 312
  | .IDLE => 313

variable {before after : System}

theorem issues_of_refresh (edge : Edge before after) (pulses : after.ctrl.pulses = [.refresh]) :
    before.ctrl.issues before.core = true := by
  have issued : Command.refresh ∈ after.ctrl.pulses := by simp [pulses]
  have pulse := (before.ctrl.posedge_refDue before.memBus before.core).2
  rw [← edge.ctrl] at pulse
  exact pulse.symm.trans (Controller.State.pulsing_of_mem issued)

theorem RefreshesApart.step (apart : before.RefreshesApart) (timely : before.Timely)
    (edge : Edge before after) (latency : after.core.WithinLatency) : after.RefreshesApart := by
  intro state
  have served := timely.served.step edge
  have due := (before.ctrl.posedge_refDue before.memBus before.core).1
  have count := before.ctrl.posedge_refCnt before.memBus before.core
  have seen := before.ctrl.posedge_initSeen before.memBus before.core
  have move := before.ctrl.posedge_move before.memBus before.core
  rw [← edge.ctrl] at due count seen move
  -- below the end of the interval the timer counts, and sets nothing
  have counts (started : before.ctrl.initSeen = true) (below : before.ctrl.refCnt.toNat < 340) :
      after.ctrl.initSeen = true ∧ before.ctrl.expires = false ∧
        after.ctrl.refCnt.toNat = before.ctrl.refCnt.toNat + 1 := by
    have short : ¬Controller.REFRESH_INT ≤ before.ctrl.refCnt := by
      intro full
      have enough : 340 ≤ before.ctrl.refCnt.toNat := BitVec.le_def.mp full
      omega
    rw [if_pos started, if_neg short] at count
    refine ⟨by rw [seen, started, Bool.true_or], by simp [Controller.State.expires, short], ?_⟩
    have added : (before.ctrl.refCnt + 1).toNat = (before.ctrl.refCnt.toNat + 1) % 2 ^ 9 :=
      BitVec.toNat_add _ _
    rw [count, added, Nat.mod_eq_of_lt (by omega)]
  cases was : before.ctrl.state <;> rw [was] at move
  case S_IDLE =>
    cases move with
    | refresh started idle pulses next =>
        -- the pulse of a request that came less than 207 clocks ago
        have issue := issues_of_refresh edge pulses
        have waiting := Controller.State.refDue_of_issues issue
        have soon := (timely.due waiting).2
        obtain ⟨running, _, counted⟩ := counts started (by omega)
        refine ⟨running, by rw [due, issue]; rfl, ?_⟩
        have command : after.commandWait = 101 := by
          rw [commandWait, pulses, if_neg (List.cons_ne_nil _ _)]
        simp only [wait, state, command]
        omega
    | idle _ _ next => exact absurd (next.symm.trans state) (by decide)
    | read _ _ _ _ _ next => exact absurd (next.symm.trans state) (by decide)
    | writeEven _ _ _ _ _ _ _ next => exact absurd (next.symm.trans state) (by decide)
    | writeOdd _ _ _ _ _ _ _ next => exact absurd (next.symm.trans state) (by decide)
  case S_REF =>
    obtain ⟨started, idle, soon⟩ := apart was
    obtain ⟨running, quiet, counted⟩ := counts started (by omega)
    have nearer := wait_lt latency timely.served timely.select edge (by rw [was]; decide)
    exact ⟨running, by rw [due, quiet, idle]; simp, by omega⟩
  all_goals
    cases move <;> rename_i next <;> simp_all

theorem Advancing.step (advancing : before.Advancing) (edge : Edge before after)
    (latency : after.core.WithinLatency) : after.Advancing := by
  refine ⟨advancing.timely.step edge latency, advancing.apart.step advancing.timely edge latency, ?_⟩
  rw [edge.cache]
  exact advancing.acks.posedge before.bus before.inputs

theorem Advancing.answerWait_le {s : System} (advancing : s.Advancing) (latency : s.core.WithinLatency) :
    s.answerWait ≤ 310 := by
  have short := wait_le latency advancing.timely.served
  have apart := advancing.apart
  unfold answerWait
  cases state : s.ctrl.state with
  | S_IDLE => dsimp only; split <;> omega
  | S_REF =>
      have served := advancing.timely.served
      rw [Served, state] at served
      have command := commandWait_le latency served.running
      simp only [wait, state]
      omega
  | S_ACK => exact Nat.zero_le _
  | S_RD => exact short.trans (by decide)
  | S_WR => exact short.trans (by decide)

/-- A selected adapter comes nearer to its acknowledge with every clock. -/
theorem answerWait_lt (advancing : before.Advancing) (edge : Edge before after)
    (latency : after.core.WithinLatency) (started : before.ctrl.initSeen = true)
    (request : before.memBus.start = true) (unanswered : before.ctrl.dtack = false) :
    after.answerWait < before.answerWait := by
  have served := advancing.timely.served
  have next := (advancing.step edge latency)
  have move := before.ctrl.posedge_move before.memBus before.core
  have due := (before.ctrl.posedge_refDue before.memBus before.core).1
  rw [← edge.ctrl] at move due
  have nearer (busy : before.ctrl.state ≠ .S_IDLE) : after.wait < before.wait :=
    wait_lt latency served advancing.timely.select edge busy
  have within : after.wait ≤ 206 := wait_le latency next.timely.served
  unfold Served at served
  cases state : before.ctrl.state <;> rw [state] at served move nearer <;> dsimp only at served
  case S_IDLE =>
    have low : 207 ≤ before.answerWait := by
      simp only [answerWait, state]
      split <;> omega
    cases move with
    | idle waits =>
        have idle := served.2.resolve_right fun init => ne_true_of_eq_false init.1 started
        simp [started, Core.busy_eq_false.mpr idle, request] at waits
    | refresh _ idle pulses next =>
        have waiting := Controller.State.refDue_of_issues (issues_of_refresh edge pulses)
        have command : after.commandWait = 101 := by
          rw [commandWait, pulses, if_neg (List.cons_ne_nil _ _)]
        simp only [answerWait, state, next, waiting, if_true, wait, command]
        omega
    | read _ _ _ _ _ next => simp only [answerWait.eq_def after, next]; omega
    | writeEven _ _ _ _ _ _ _ next => simp only [answerWait.eq_def after, next]; omega
    | writeOdd _ _ _ _ _ _ _ next => simp only [answerWait.eq_def after, next]; omega
  case S_RD =>
    have shorter := nearer (by decide)
    have high : before.answerWait = before.wait := by simp only [answerWait, state]
    cases move with
    | reading _ _ next => simpa only [answerWait, state, next] using shorter
    | readDone _ _ _ next => simp only [answerWait, next, state]; omega
  case S_WR =>
    have shorter := nearer (by decide)
    cases move with
    | writing _ _ next => simpa only [answerWait, state, next] using shorter
    | writeSecond _ _ _ _ _ next => simpa only [answerWait, state, next] using shorter
    | writeDone _ _ _ _ next => simp only [answerWait, next, state]; omega
  case S_REF =>
    have shorter := nearer (by decide)
    obtain ⟨_, quiet, soon⟩ := advancing.apart state
    cases move with
    | refreshing _ _ next => simp only [answerWait, state, next]; omega
    | refreshDone _ _ _ next =>
        have short : before.ctrl.expires = false := by
          rw [Bool.eq_false_iff]
          intro expires
          have full : 340 ≤ before.ctrl.refCnt.toNat := BitVec.le_def.mp (full_of_expires expires).2
          omega
        have none : after.ctrl.refDue = false := by rw [due, short, quiet]; simp
        simp only [answerWait, state, next, none, Bool.false_eq_true, if_false]
        omega
  case S_ACK => exact absurd (served.2.2.symm.trans unanswered) (by decide)

/-- A request that stays on the bus comes nearer to its acknowledge with every clock. -/
theorem answerTime_lt (advancing : before.Advancing) (edge : Edge before after)
    (latency : after.core.WithinLatency) (started : before.ctrl.initSeen = true)
    (request : before.bus.start = true)
    (unanswered : before.cache.dtack = false) : after.answerTime < before.answerTime := by
  have next := advancing.step edge latency
  have within : after.answerWait ≤ 310 := next.answerWait_le latency
  have moved : after.cache.state = _ :=
    (congrArg Cache.State.state edge.cache).trans Cache.State.posedge_state
  have selected (selects : before.cache.Selects) : before.memBus.start = true := by
    have low : before.cache.memCsN = false := advancing.timely.select.mpr selects
    simp only [Bus.start, Bus.strobed, memBus, low, Bool.not_false, Bool.true_and]
    simp only [Bus.start, Bus.strobed, Bool.and_eq_true] at request
    exact request.2
  have answered (selects : before.cache.Selects) :
      before.ctrl.dtack = true ∨ after.answerWait < before.answerWait := by
    by_cases acked : before.ctrl.dtack = true
    · exact .inl acked
    · exact .inr (answerWait_lt advancing edge latency started (selected selects)
        (Bool.eq_false_of_not_eq_true acked))
  cases state : before.cache.state <;> rw [state] at moved <;> dsimp only at moved
  case IDLE =>
    rw [if_pos request] at moved
    split at moved <;> simp only [answerTime, state, moved] <;> omega
  case LOOK =>
    split at moved <;> simp only [answerTime, state, moved] <;> omega
  case FILL =>
    rcases answered (.inl state) with acked | nearer
    · rw [if_pos (by simp [inputs, Controller.State.dtackN, acked])] at moved
      simp only [answerTime, state, moved]
      omega
    · split at moved <;> simp only [answerTime, state, moved] <;> omega
  case WRTH =>
    rcases answered (.inr state) with acked | nearer
    · rw [if_pos (by simp [inputs, Controller.State.dtackN, acked])] at moved
      simp only [answerTime, state, moved]
      omega
    · split at moved <;> simp only [answerTime, state, moved] <;> omega
  case ACK => exact absurd ((advancing.acks.mpr state).symm.trans unanswered) (by decide)

theorem answerTime_le {s : System} (advancing : s.Advancing) (latency : s.core.WithinLatency) :
    s.answerTime ≤ 313 := by
  have within := advancing.answerWait_le latency
  unfold answerTime
  cases s.cache.state with
  | IDLE => exact Nat.le_refl 313
  | LOOK => exact Nat.le_succ 312
  | FILL => dsimp only; omega
  | WRTH => dsimp only; omega
  | ACK => exact Nat.zero_le 313

namespace BoundedRun

variable (run : BoundedRun)

theorem advancing (n : Nat) : (run.exec.state n).Advancing := by
  induction n with
  | zero =>
      obtain ⟨powerUp, cache⟩ := run.cache
      refine ⟨run.timely 0, ?_, ?_⟩
      · intro state
        rw [run.ctrl] at state
        cases state
      · rw [cache]
        simp [Cache.State.AckMatches, Cache.State.reset]
  | succ n ih => exact ih.step (run.exec.step n) (run.latency (n + 1))

/-- A request that the initialised path finds on the bus for so many clocks is acknowledged. -/
theorem acknowledged {n : Nat} (started : (run.exec.state n).ctrl.initSeen = true)
    (request : ∀ k, n ≤ k → k < n + 314 → (run.exec.state k).bus.start = true) :
    ∃ k, n ≤ k ∧ k < n + 314 ∧ (run.exec.state k).cache.dtack = true := by
  by_contra none
  have unanswered (k : Nat) (lower : n ≤ k) (upper : k < n + 314) :
      (run.exec.state k).cache.dtack = false :=
    Bool.eq_false_of_not_eq_true fun acked => none ⟨k, lower, upper, acked⟩
  have seen (j : Nat) : (run.exec.state (n + j)).ctrl.initSeen = true := by
    induction j with
    | zero => exact started
    | succ j ih =>
        rw [← Nat.add_assoc, (run.exec.step (n + j)).ctrl, Controller.State.posedge_initSeen, ih]
        rfl
  have nearer (j : Nat) (within : j ≤ 314) : (run.exec.state (n + j)).answerTime + j ≤ 313 := by
    induction j with
    | zero => exact answerTime_le (run.advancing n) (run.latency n)
    | succ j ih =>
        have before := ih (by omega)
        have shorter := answerTime_lt (run.advancing (n + j)) (run.exec.step (n + j))
          (run.latency (n + j + 1)) (seen j) (request (n + j) (by omega) (by omega))
          (unanswered (n + j) (by omega) (by omega))
        rw [← Nat.add_assoc n j 1]
        omega
  have last := nearer 314 (Nat.le_refl _)
  omega

end BoundedRun

end System

end Mackerel.Sdram
