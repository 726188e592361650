import Mackerel.Clocked.Driven
import Mackerel.Clocked.Execution
import Mackerel.Sdram.CacheAssembly

namespace Mackerel.Sdram.Cache

open Clocked

/-- A behaviour of the system from reset, in which no cycle is left without a data strobe
    for ever. -/
structure Run where
  exec : Execution Assembly.Step
  reset : ∃ powerUp : State, (exec.state 0).cache = powerUp.reset
  idle : (exec.state 0).memory.phase = .idle
  strobes : ∀ n, ∃ m, n ≤ m ∧
    ((exec.state m).bus.csN = false → (exec.state m).bus.strobed = true)

namespace Run

variable (run : Run)

def bus (n : Nat) : Bus := (run.exec.state n).bus
def cache (n : Nat) : State := (run.exec.state n).cache
def memory (n : Nat) : FlatMemory := (run.exec.state n).memory

/-- The acknowledge is asserted by the edge after clock `n`. -/
def Acks (n : Nat) : Prop := (run.cache n).dtackN = true ∧ (run.cache (n + 1)).dtackN = false

instance (n : Nat) : Decidable (run.Acks n) := inferInstanceAs (Decidable (_ ∧ _))

/-- The writes acknowledged up to clock `n`, oldest first. -/
def acknowledgedWrites : Nat → List WriteRecord
  | 0 => []
  | n + 1 => acknowledgedWrites n ++
      if run.Acks n ∧ (run.bus n).rwn = false then [(run.bus n).write] else []

/-- What a 68000 master sees through the cache is the flat memory behind it. -/
structure Transparent : Prop where
  /-- An open cycle is acknowledged, and stays as it was until then. -/
  acknowledged : ∀ n, (run.bus n).csN = false → (run.cache n).dtackN = true →
    ∃ m, n ≤ m ∧ run.Acks m ∧ ∀ k, n ≤ k → k ≤ m → (run.bus k).csN = false ∧
      (run.bus k).addr = (run.bus n).addr ∧ (run.bus k).rwn = (run.bus n).rwn ∧
      (run.cache k).dtackN = true
  /-- Only an open cycle with a strobe asserted is acknowledged. -/
  requested : ∀ n, run.Acks n → (run.bus n).start = true
  /-- A read is acknowledged with the word that the memory holds at that moment. -/
  readData : ∀ n, run.Acks n → (run.bus n).rwn = true →
    (run.cache (n + 1)).rdata =
      wordOf ((run.memory (n + 1)).lines (lineOf (run.bus n).addr)) (wordSelect (run.bus n).addr)
  /-- The acknowledge and its data stay until the master ends the cycle. -/
  held : ∀ n, (run.cache n).dtackN = false → (run.bus n).csN = false →
    (run.cache (n + 1)).dtackN = false ∧ (run.cache (n + 1)).rdata = (run.cache n).rdata
  /-- The acknowledge of one cycle is gone before the next one can begin. -/
  released : ∀ n, (run.cache n).dtackN = false → (run.bus n).csN = true →
    (run.cache (n + 1)).dtackN = true
  /-- The memory has seen the acknowledged writes, each once and in order, and at most the
      one write that is under way. -/
  writes : ∀ n,
    (run.memory n).log = (run.memory 0).log ++ run.acknowledgedWrites n ∨
    ((run.bus n).start = true ∧ (run.bus n).rwn = false ∧ (run.cache n).dtackN = true ∧
      (run.memory n).log =
        (run.memory 0).log ++ run.acknowledgedWrites n ++ [(run.bus n).write])

theorem invariant (n : Nat) : (run.exec.state n).Invariant := by
  obtain ⟨powerUp, reset⟩ := run.reset
  exact run.exec.invariant (.initial reset run.idle) (fun before step => before.step step) n

theorem cache_succ (n : Nat) : run.cache (n + 1) =
    (run.cache n).posedge (run.bus n) (run.exec.state n).inputs :=
  (run.exec.step n).cache

theorem phase (n : Nat) : (run.exec.state n).PhaseInvariant := (run.invariant n).phase

theorem ack_of_dtackN {n : Nat} (low : (run.cache n).dtackN = false) :
    (run.cache n).state = .ACK := by
  have phase := run.phase n
  simp only [State.dtackN, Bool.not_eq_false'] at low
  unfold Assembly.PhaseInvariant at phase
  cases state : (run.exec.state n).cache.state <;> rw [state] at phase
  case ACK => exact state
  case IDLE => exact absurd low (ne_true_of_eq_false phase.1)
  all_goals exact absurd low (ne_true_of_eq_false phase.1.dtack)

theorem Acks.cases {run : Run} {n : Nat} (acks : run.Acks n) :
    ((run.cache n).state = .LOOK ∧ (run.cache n).hit = true) ∨
    ((run.cache n).state = .FILL ∧ (run.memory n).phase = .acked) ∨
    ((run.cache n).state = .WRTH ∧ (run.memory n).phase = .acked) := by
  obtain ⟨before, after⟩ := acks
  rw [cache_succ] at after
  simp only [State.dtackN, Bool.not_eq_true', Bool.not_eq_false'] at before after
  rw [State.posedge_dtack] at after
  have answered : ∀ {low : Bool}, (!low || (run.cache n).dtack) = true → low = false := by
    simp [before]
  cases state : (run.cache n).state <;> simp only [state] at after
  · contradiction
  · exact .inl ⟨rfl, by simpa [before] using after⟩
  · exact .inr (.inl ⟨rfl, Assembly.dtackN_eq_false.mp (answered after)⟩)
  · exact .inr (.inr ⟨rfl, Assembly.dtackN_eq_false.mp (answered after)⟩)
  · simp [before] at after

theorem Acks.requested {run : Run} {n : Nat} (acks : run.Acks n) :
    (run.exec.state n).Requested := by
  have phase := run.phase n
  unfold Assembly.PhaseInvariant at phase
  rcases acks.cases with ⟨state, _⟩ | ⟨state, _⟩ | ⟨state, _⟩ <;>
    (rw [show (run.exec.state n).cache.state = _ from state] at phase; exact phase.1)

theorem held {n : Nat} (low : (run.cache n).dtackN = false) (selected : (run.bus n).csN = false) :
    (run.cache (n + 1)).dtackN = false ∧ (run.cache (n + 1)).rdata = (run.cache n).rdata := by
  have state := run.ack_of_dtackN low
  rw [cache_succ]
  simp only [State.dtackN, State.posedge_dtack, State.posedge_rdata, state, selected,
    Bool.not_false, Bool.true_and, and_true]
  exact low

theorem released {n : Nat} (low : (run.cache n).dtackN = false) (ended : (run.bus n).csN = true) :
    (run.cache (n + 1)).dtackN = true := by
  have state := run.ack_of_dtackN low
  rw [cache_succ]
  simp only [State.dtackN, State.posedge_dtack, state, ended, Bool.not_true, Bool.false_and,
    Bool.not_false]

theorem readData {n : Nat} (acks : run.Acks n) (read : (run.bus n).rwn = true) :
    (run.cache (n + 1)).rdata = wordOf ((run.memory (n + 1)).lines (lineOf (run.bus n).addr))
      (wordSelect (run.bus n).addr) := by
  have phase := run.phase n
  have requested := acks.requested
  have step := run.exec.step n
  unfold Assembly.PhaseInvariant at phase
  rw [cache_succ, State.posedge_rdata]
  rcases acks.cases with ⟨state, hit⟩ | ⟨state, answered⟩ | ⟨state, _⟩ <;>
    rw [show (run.exec.state n).cache.state = _ from state] at phase
  · -- a hit: the sampled line is valid and its tag is the requested one
    obtain ⟨_, sampled, _, memCsN, idle⟩ := phase
    obtain ⟨_, lines, _⟩ := step.memory.deselected memCsN (.inl idle)
    have hits := hit
    simp only [State.hit, Bool.and_eq_true, beq_iff_eq] at hits
    obtain ⟨validQ, tagQ⟩ := hits
    have line := (run.invariant n).coherent _ (sampled.validQ.symm.trans validQ)
    rw [← sampled.dataQ, ← sampled.tagQ, show (run.exec.state n).cache.tagQ = _ from tagQ,
      show (run.cache n).reqtag = _ from requested.reqtag, requested.idx, lineAt_split] at line
    simp only [state, hit, if_true, State.hitWord]
    rw [show (run.cache n).dataQ = _ from line, show (run.cache n).wsel = _ from requested.wsel,
      memory, show (run.exec.state (n + 1)).memory.lines = _ from lines]
    rfl
  · -- a miss: the memory side presents the line and the word together
    obtain ⟨_, _, memCsN, presents⟩ := phase
    have lines := ((memCsN ▸ step.memory).selected.of_read read).1
    have low : (run.exec.state n).inputs.dtackN = false := Assembly.dtackN_eq_false.mpr answered
    simp only [state, low, Bool.not_false, if_true]
    rw [memory, show (run.exec.state (n + 1)).memory.lines = _ from lines]
    exact (presents answered).2
  · exact absurd read (ne_true_of_eq_false phase.2.1)

/-- The write that the memory has taken but the cache has not acknowledged yet. -/
def inFlight (n : Nat) : List WriteRecord :=
  if (run.cache n).state = .WRTH ∧ (run.memory n).phase.performed = true
  then [(run.bus n).write] else []

theorem inFlight_of_state {n : Nat} (state : (run.cache n).state ≠ .WRTH) :
    run.inFlight n = [] :=
  if_neg fun both => state both.1

theorem inFlight_of_idle {n : Nat} (idle : (run.memory n).phase = .idle) :
    run.inFlight n = [] := by
  simp [inFlight, idle, MemoryPhase.performed]

theorem acknowledgedWrites_of_state {n : Nat} (state : (run.cache n).state ≠ .WRTH) :
    run.acknowledgedWrites (n + 1) = run.acknowledgedWrites n := by
  have phase := run.phase n
  unfold Assembly.PhaseInvariant at phase
  have read : run.Acks n → (run.bus n).rwn = true := by
    intro acks
    rcases acks.cases with ⟨look, _⟩ | ⟨fill, _⟩ | ⟨wrth, _⟩
    · rw [show (run.exec.state n).cache.state = _ from look] at phase
      exact phase.2.2.1
    · rw [show (run.exec.state n).cache.state = _ from fill] at phase
      exact phase.2.1
    · exact absurd wrth state
  have none : ¬ (run.Acks n ∧ (run.bus n).rwn = false) := fun write => by
    simp [read write.1] at write
  simp [acknowledgedWrites, none]

/-- In a write the log gains the write when the memory takes it, and the list of
    acknowledged writes gains it when the cache acknowledges it. -/
theorem log_succ_of_wrth {n : Nat} (state : (run.cache n).state = .WRTH)
    (accounted : (run.memory n).log =
      (run.memory 0).log ++ run.acknowledgedWrites n ++ run.inFlight n) :
    (run.memory (n + 1)).log =
      (run.memory 0).log ++ run.acknowledgedWrites (n + 1) ++ run.inFlight (n + 1) := by
  have phase := run.phase n
  have step := run.exec.step n
  have next : (run.cache (n + 1)).state =
      if !(run.exec.state n).inputs.dtackN then .ACK else .WRTH := by
    rw [cache_succ, State.posedge_state, state]
  unfold Assembly.PhaseInvariant at phase
  rw [show (run.exec.state n).cache.state = _ from state] at phase
  obtain ⟨requested, write, memCsN, _⟩ := phase
  have selected := (memCsN ▸ step.memory).selected
  have high : (run.cache n).dtackN = true := State.dtackN_eq_true.mpr requested.dtack
  by_cases answered : (run.memory n).phase = .acked
  · have low : (run.exec.state n).inputs.dtackN = false := Assembly.dtackN_eq_false.mpr answered
    have acks : run.Acks n := by
      refine ⟨high, ?_⟩
      rw [cache_succ]
      simp only [State.dtackN, State.posedge_dtack, state, low, Bool.not_false, Bool.true_or,
        Bool.not_true]
    have same : run.memory (n + 1) = run.memory n := by
      rcases selected.answer with ⟨_, same⟩ | ⟨lower, _⟩
      · exact same
      · rw [show (run.exec.state n).memory.phase = _ from answered] at lower
        exact absurd lower (MemoryPhase.not_lt_acked _)
    have done : run.inFlight (n + 1) = [] := run.inFlight_of_state (by simp [next, low])
    have pending : run.inFlight n = [(run.bus n).write] := by
      simp [inFlight, state, answered, MemoryPhase.performed]
    have recorded : run.acknowledgedWrites (n + 1) =
        run.acknowledgedWrites n ++ [(run.bus n).write] := by
      simp [acknowledgedWrites, acks, show (run.bus n).rwn = false from write]
    rw [same, accounted, done, pending, recorded, List.append_nil, List.append_assoc]
  · have busy : (run.exec.state n).inputs.dtackN = true := Assembly.dtackN_eq_true.mpr answered
    have still : (run.cache (n + 1)).dtack = false := by
      rw [cache_succ, State.posedge_dtack]
      simp only [state, busy, show (run.cache n).dtack = _ from requested.dtack, Bool.not_true,
        Bool.or_false]
    have held : run.bus (n + 1) = run.bus n := step.held requested.start requested.dtack still
    have wrth : (run.cache (n + 1)).state = .WRTH := by simp [next, busy]
    have silent : run.acknowledgedWrites (n + 1) = run.acknowledgedWrites n := by
      have none : ¬ run.Acks n := fun acks => by
        have after := acks.2
        simp [State.dtackN, still] at after
      simp [acknowledgedWrites, none]
    rcases selected.effect with ⟨_, log, performed⟩ | ⟨before, after, _, log⟩
    · have same : run.inFlight (n + 1) = run.inFlight n := by
        simp only [inFlight, wrth, state, held, memory, performed]
      rw [memory, log, silent, same]
      exact accounted
    · have empty : run.inFlight n = [] := by
        simp [inFlight, show (run.memory n).phase.performed = _ from before]
      have taken : run.inFlight (n + 1) = [(run.bus n).write] := by
        simp [inFlight, wrth, held, show (run.memory (n + 1)).phase.performed = _ from after]
      rw [empty, List.append_nil] at accounted
      rw [memory, log, silent, taken, ← accounted]
      simp only [FlatMemory.perform, write, Bool.false_eq_true, if_false]
      rfl

theorem log_succ (n : Nat)
    (accounted : (run.memory n).log =
      (run.memory 0).log ++ run.acknowledgedWrites n ++ run.inFlight n) :
    (run.memory (n + 1)).log =
      (run.memory 0).log ++ run.acknowledgedWrites (n + 1) ++ run.inFlight (n + 1) := by
  by_cases wrth : (run.cache n).state = .WRTH
  · exact run.log_succ_of_wrth wrth accounted
  · have phase := run.phase n
    have step := run.exec.step n
    rw [run.inFlight_of_state wrth, List.append_nil] at accounted
    rw [run.acknowledgedWrites_of_state wrth, ← accounted]
    unfold Assembly.PhaseInvariant at phase
    cases state : (run.exec.state n).cache.state <;> rw [state] at phase
    case IDLE =>
      obtain ⟨idle, _, log⟩ := step.memory.deselected phase.2.1 (.inl phase.2.2)
      rw [run.inFlight_of_idle idle, List.append_nil]
      exact log
    case LOOK =>
      obtain ⟨idle, _, log⟩ := step.memory.deselected phase.2.2.2.1 (.inl phase.2.2.2.2)
      rw [run.inFlight_of_idle idle, List.append_nil]
      exact log
    case FILL =>
      have fill : (run.cache n).state = .FILL := state
      have elsewhere : (run.cache (n + 1)).state ≠ .WRTH := by
        rw [cache_succ, State.posedge_state, fill]
        dsimp only
        split <;> decide
      rw [run.inFlight_of_state elsewhere, List.append_nil]
      exact ((phase.2.2.1 ▸ step.memory).selected.of_read phase.2.1).2
    case WRTH => exact absurd state wrth
    case ACK =>
      obtain ⟨idle, _, log⟩ := step.memory.deselected phase.2.1 phase.2.2
      rw [run.inFlight_of_idle idle, List.append_nil]
      exact log

theorem accounted (n : Nat) : (run.memory n).log =
    (run.memory 0).log ++ run.acknowledgedWrites n ++ run.inFlight n := by
  induction n with
  | zero =>
      rw [run.inFlight_of_idle run.idle]
      simp [acknowledgedWrites]
  | succ n ih => exact run.log_succ n ih

end Run

namespace Assembly

/-- An open cycle at a given address and direction that is not acknowledged yet. -/
structure Waiting (addr : WordAddress) (rwn : Bool) (s : Assembly) : Prop where
  invariant : s.Invariant
  csN : s.bus.csN = false
  addr : s.bus.addr = addr
  rwn : s.bus.rwn = rwn
  dtack : s.cache.dtack = false

/-- How far an open cycle with a strobe is from its acknowledge. -/
def rank (s : Assembly) : Nat ×ₗ Nat :=
  match s.cache.state with
  | .IDLE => toLex (4, 0)
  | .LOOK => toLex (3, 0)
  | .FILL | .WRTH => s.memory.phase.rank
  | .ACK => toLex (0, 0)

variable {addr : WordAddress} {rwn : Bool} {before after : Assembly}

theorem Waiting.next (waiting : before.Waiting addr rwn) (step : Step before after)
    (still : after.cache.dtack = false) : after.Waiting addr rwn := by
  have held := step.bus waiting.csN (by simp [State.dtackN, waiting.dtack])
    (by simp [State.dtackN, still])
  exact {
    invariant := waiting.invariant.step step
    csN := held.csN.trans waiting.csN
    addr := held.addr.trans waiting.addr
    rwn := held.rwn.trans waiting.rwn
    dtack := still }

/-- Without a strobe the cache stays where it is, so the cycle stays open. -/
theorem Waiting.unstrobed (waiting : before.Waiting addr rwn) (step : Step before after)
    (quiet : before.bus.strobed = false) : after.Waiting addr rwn := by
  apply waiting.next step
  have phase := waiting.invariant.phase
  have unrequested : ¬ before.Requested := fun requested => by
    have started := requested.start
    simp [Bus.start, quiet] at started
  unfold PhaseInvariant at phase
  rw [step.cache, State.posedge_dtack]
  cases state : before.cache.state <;> rw [state] at phase
  case ACK => exact absurd waiting.dtack (ne_false_of_eq_true phase.1)
  all_goals exact absurd phase.1 unrequested

/-- A busy memory side brings the acknowledge closer at every clock. -/
theorem rank_lt_of_selected (selected : FlatMemory.Selected before.bus before.memory after.memory)
    (unanswered : before.memory.phase ≠ .acked) :
    after.memory.phase.rank < before.memory.phase.rank := by
  rcases selected.answer with ⟨answered, _⟩ | ⟨lower, _⟩
  · exact absurd answered unanswered
  · exact lower

theorem Waiting.rank_lt (waiting : before.Waiting addr rwn) (step : Step before after)
    (started : before.bus.start = true) (still : after.cache.dtack = false) :
    after.rank < before.rank := by
  have phase := waiting.invariant.phase
  have state : after.cache.state = (before.cache.posedge before.bus before.inputs).state :=
    congrArg State.state step.cache
  rw [step.cache, State.posedge_dtack] at still
  rw [State.posedge_state] at state
  unfold PhaseInvariant at phase
  cases current : before.cache.state <;> rw [current] at phase <;>
    simp only [current, Bool.or_eq_false_iff, Bool.not_eq_false'] at still state
  case IDLE =>
    obtain ⟨idle, _, _⟩ := step.memory.deselected phase.2.1 (.inl phase.2.2)
    rw [if_pos started] at state
    cases direction : before.bus.rwn <;> simp only [direction, if_true, Bool.false_eq_true,
      if_false] at state <;> simp [rank, current, state, idle, MemoryPhase.rank,
        Prod.Lex.toLex_lt_toLex]
  case LOOK =>
    obtain ⟨_, _, _, memCsN, quiet⟩ := phase
    obtain ⟨idle, _, _⟩ := step.memory.deselected memCsN (.inl quiet)
    simp only [still.1, Bool.false_eq_true, if_false] at state
    simp [rank, current, state, idle, MemoryPhase.rank, Prod.Lex.toLex_lt_toLex]
  case FILL =>
    obtain ⟨_, _, memCsN, _⟩ := phase
    simp only [still.1, Bool.not_true, Bool.false_eq_true, if_false] at state
    simp only [rank, current, state]
    exact rank_lt_of_selected (memCsN ▸ step.memory).selected (dtackN_eq_true.mp still.1)
  case WRTH =>
    obtain ⟨_, _, memCsN, _⟩ := phase
    simp only [still.1, Bool.not_true, Bool.false_eq_true, if_false] at state
    simp only [rank, current, state]
    exact rank_lt_of_selected (memCsN ▸ step.memory).selected (dtackN_eq_true.mp still.1)
  case ACK => exact absurd waiting.dtack (ne_false_of_eq_true phase.1)

theorem Waiting.advance (waiting : before.Waiting addr rwn ∧ before.bus.strobed = true)
    (step : Step before after) :
    after.cache.dtack = true ∨
      ((after.Waiting addr rwn ∧ after.bus.strobed = true) ∧ after.rank < before.rank) := by
  have started : before.bus.start = true := by simp [Bus.start, waiting.1.csN, waiting.2]
  cases acked : after.cache.dtack with
  | true => exact .inl rfl
  | false =>
      have held := step.held started waiting.1.dtack acked
      exact .inr ⟨⟨waiting.1.next step acked, by rw [held, waiting.2]⟩,
        waiting.1.rank_lt step started acked⟩

end Assembly

namespace Run

variable (run : Run)

theorem acknowledged {n : Nat} (selected : (run.bus n).csN = false)
    (high : (run.cache n).dtackN = true) :
    ∃ m, n ≤ m ∧ run.Acks m ∧ ∀ k, n ≤ k → k ≤ m → (run.bus k).csN = false ∧
      (run.bus k).addr = (run.bus n).addr ∧ (run.bus k).rwn = (run.bus n).rwn ∧
      (run.cache k).dtackN = true := by
  have waiting : (run.exec.state n).Waiting (run.bus n).addr (run.bus n).rwn := {
    invariant := run.invariant n
    csN := selected
    addr := rfl
    rwn := rfl
    dtack := State.dtackN_eq_true.mp high }
  -- first the strobe, then the acknowledge
  have strobed : run.exec.Until (Assembly.Waiting (run.bus n).addr (run.bus n).rwn)
      (fun s => s.Waiting (run.bus n).addr (run.bus n).rwn ∧ s.bus.strobed = true) n := by
    obtain ⟨m, after, strobe⟩ := run.strobes n
    refine Execution.until_of_persistent (fun still quiet step => ?_) waiting
      ⟨m, after, fun still => ⟨still, strobe still.csN⟩⟩
    exact still.unstrobed step (by simpa [still] using quiet)
  have acked : run.exec.Until (Assembly.Waiting (run.bus n).addr (run.bus n).rwn)
      (fun s => s.cache.dtack = true) n :=
    strobed.trans fun m _ both => Execution.Until.imp And.left
      (Execution.until_of_rank Assembly.rank Assembly.Waiting.advance both)
  obtain ⟨m, after, low, before⟩ := acked
  have later : n ≠ m := by
    rintro rfl
    exact absurd low (ne_true_of_eq_false waiting.dtack)
  obtain ⟨last, rfl⟩ : ∃ last, m = last + 1 := ⟨m - 1, by omega⟩
  have silent : ∀ k, n ≤ k → k ≤ last → (run.cache k).dtackN = true := fun k lower upper =>
    State.dtackN_eq_true.mpr (before k lower (by omega)).dtack
  refine ⟨last, by omega, ⟨silent last (by omega) (Nat.le_refl _),
    State.dtackN_eq_false.mpr low⟩, fun k lower upper => ?_⟩
  have still := before k lower (by omega)
  exact ⟨still.csN, still.addr, still.rwn, silent k lower upper⟩

end Run

/-- The Mackerel-F read cache is transparent to the 68000 in front of every conforming
    memory side. -/
theorem sdram_cache_transparent (run : Run) : run.Transparent := by
  refine ⟨fun n => run.acknowledged, fun n acks => acks.requested.start, fun n => run.readData,
    fun n => run.held, fun n => run.released, fun n => ?_⟩
  have accounted := run.accounted n
  by_cases pending : (run.cache n).state = .WRTH ∧ (run.memory n).phase.performed = true
  · right
    have phase := run.phase n
    unfold Assembly.PhaseInvariant at phase
    rw [show (run.exec.state n).cache.state = _ from pending.1] at phase
    obtain ⟨requested, write, _, _⟩ := phase
    rw [Run.inFlight, if_pos pending] at accounted
    exact ⟨requested.start, write, State.dtackN_eq_true.mpr requested.dtack, accounted⟩
  · left
    rw [accounted, Run.inFlight, if_neg pending, List.append_nil]

/-- A master that writes one word and then reads it for ever, in front of a memory of two clocks. -/
def writer (csN : Bool) : Bus :=
  { csN := csN, addr := 5, rwn := false, udsn := csN, ldsn := csN, wdata := 0x1234 }

/-- The next cycle begins a clock after the last one, and is a read. -/
def masterNext (bus : Bus) (dtackN : Bool) : Bus :=
  if bus.csN then { bus with csN := false, udsn := false, ldsn := false }
  else if dtackN then bus
  else { bus with csN := true, udsn := true, ldsn := true, rwn := true }

def memoryNext (csN : Bool) (bus : Bus) (memory : FlatMemory) : FlatMemory :=
  match memory.phase with
  | .idle => memory.unacknowledged (if csN then .idle else .access 0 false) 0 0
  | .access 0 true => memory.acknowledge bus
  | .access 0 false => (memory.perform bus).acknowledge bus
  | .access (clocks + 1) performed => memory.unacknowledged (.access clocks performed) 0 0
  | .acked => if csN then memory.unacknowledged .idle 0 0 else memory

theorem memoryNext_step (csN : Bool) (bus : Bus) (memory : FlatMemory) :
    FlatMemory.Step csN bus memory (memoryNext csN bus memory) := by
  unfold memoryNext
  split
  · rename_i idle
    cases csN with
    | true => exact .rest 0 0 idle rfl
    | false => exact .begin 1 idle rfl (.wait 0 false 0 0)
  · rename_i access
    exact .serve access .acknowledge
  · rename_i access
    exact .serve access .performAcknowledge
  · rename_i access
    exact .serve access (.wait _ _ 0 0)
  · rename_i acked
    cases csN with
    | true => exact .release 0 0 acked rfl
    | false => exact .hold acked rfl

def assemblyNext (s : Assembly) : Assembly where
  bus := masterNext s.bus s.cache.dtackN
  cache := s.cache.posedge s.bus s.inputs
  memory := memoryNext s.cache.memCsN s.bus s.memory

def assemblyStart : Assembly where
  bus := writer true
  cache := State.reset {
    dataRam := fun _ => 0, tagRam := fun _ => 0, valid := fun _ => true, state := .ACK, idx := 0
    reqtag := 0, wsel := true, dataQ := 0, tagQ := 0, validQ := true, dtack := true, rdata := 0
    memCsN := false }
  memory := { lines := fun _ => 0, phase := .idle, rdata := 0, rdata32 := 0, log := [] }

/-- The strobes fall and rise with the select. -/
theorem assembly_strobes (n : Nat) :
    let bus := (driven (fun _ => assemblyNext) assemblyStart n).bus
    bus.udsn = bus.csN ∧ bus.ldsn = bus.csN := by
  induction n with
  | zero => exact ⟨rfl, rfl⟩
  | succ n ih =>
      simp only [driven_succ, assemblyNext, masterNext]
      split
      · exact ⟨rfl, rfl⟩
      · split
        · exact ih
        · exact ⟨rfl, rfl⟩

def writtenThenRead : Run where
  exec := {
    state := driven (fun _ => assemblyNext) assemblyStart
    step := fun n => {
      cache := rfl
      memory := memoryNext_step _ _ _
      bus := by
        intro open_ high _
        have same : masterNext (driven (fun _ => assemblyNext) assemblyStart n).bus
            (driven (fun _ => assemblyNext) assemblyStart n).cache.dtackN =
              (driven (fun _ => assemblyNext) assemblyStart n).bus := by
          rw [masterNext, if_neg (ne_true_of_eq_false open_), if_pos high]
        rw [driven_succ, assemblyNext, same]
        exact ⟨rfl, rfl, rfl, fun _ => rfl⟩ } }
  reset := ⟨_, rfl⟩
  idle := rfl
  strobes n := by
    refine ⟨n, Nat.le_refl n, fun selected => ?_⟩
    have strobe := (assembly_strobes n).1
    rw [Bus.strobed, strobe, selected]
    rfl

/-- The first read fills the line, and the second one hits it. -/
theorem writtenThenRead_transparent : writtenThenRead.Transparent ∧
    (∀ n ∈ [4, 11, 15], writtenThenRead.Acks n) ∧
    ∀ n ∈ [11, 15], (writtenThenRead.bus n).rwn = true ∧ (writtenThenRead.cache (n + 1)).rdata = 0x1234 :=
  ⟨sdram_cache_transparent writtenThenRead, by decide +kernel, by decide +kernel⟩

end Mackerel.Sdram.Cache
