import Mackerel.Clocked.Driven
import Mackerel.Sdram.System

namespace Mackerel.Sdram.System

open Clocked

namespace Run

variable (run : Run)

/-- The acknowledge to the 68000 is asserted by the edge after clock `n`. -/
def Acks (n : Nat) : Prop := (run.cacheAt n).dtackN = true ∧ (run.cacheAt (n + 1)).dtackN = false

/-- A read-modify-write cycle up to clock `last`. -/
structure ReadModifyWrite where
  acked : Nat
  released : Nat
  write : Nat
  last : Nat
  acks : run.Acks acked
  read : (run.bus acked).rwn = true
  selected : ∀ n, acked ≤ n → n ≤ last → (run.bus n).csN = false
  addr : ∀ n, acked ≤ n → n ≤ last → (run.bus n).addr = (run.bus acked).addr
  later : acked < released
  negated : (run.bus released).strobed = false
  again : released < write
  strobe : (run.bus write).strobed = true
  direction : (run.bus write).rwn = false
  open_ : write ≤ last

namespace ReadModifyWrite

variable {run} (cycle : run.ReadModifyWrite)

/-- The core has been given the bytes of the write half by clock `n`. -/
def Written (n : Nat) : Prop := ∀ command ∈ (run.bus cycle.write).commands,
  ∃ k, cycle.write < k ∧ k ≤ n ∧ command ∈ (run.exec.state k).ctrl.pulses

/-- The write half is acknowledged only after its bytes were written. -/
def Performed : Prop := ∀ n, cycle.write ≤ n → n ≤ cycle.last →
  (run.cacheAt n).dtackN = false → cycle.Written n

/-- The cycle ends as its read half left it. -/
structure Lost : Prop where
  acknowledged : ∀ n, cycle.acked < n → n ≤ cycle.last → (run.cacheAt n).dtackN = false
  unissued : ∀ n, cycle.acked < n → n ≤ cycle.last + 1 →
    run.accesses n = run.accesses (cycle.acked + 1)
  unchanged : ∀ n, cycle.acked < n → n ≤ cycle.last + 1 →
    (run.core n).cells = (run.core (cycle.acked + 1)).cells

end ReadModifyWrite

variable {run} {n : Nat}

theorem ack_of_dtackN (low : (run.cacheAt n).dtackN = false) : (run.cacheAt n).state = .ACK := by
  have phase := run.phase n
  have dtack : (run.cacheAt n).dtack = true := by simpa [Cache.State.dtackN] using low
  unfold PhaseInvariant at phase
  cases state : (run.exec.state n).cache.state <;> rw [state] at phase
  case ACK => exact state
  case IDLE => exact absurd dtack (ne_true_of_eq_false phase.1)
  all_goals exact absurd dtack (ne_true_of_eq_false phase.1.dtack)

theorem deselected (low : (run.cacheAt n).dtackN = false) : (run.cacheAt n).memCsN = true := by
  have phase := run.phase n
  rw [PhaseInvariant, show (run.exec.state n).cache.state = _ from ack_of_dtackN low] at phase
  exact phase.2

theorem held (low : (run.cacheAt n).dtackN = false) (selected : (run.bus n).csN = false) :
    (run.cacheAt (n + 1)).dtackN = false := by
  have state := ack_of_dtackN low
  rw [cacheAt, (run.exec.step n).cache]
  simp only [Cache.State.dtackN, Cache.State.posedge_dtack,
    show (run.exec.state n).cache.state = _ from state,
    show (run.exec.state n).bus.csN = _ from selected, Bool.not_false, Bool.true_and]
  exact low

/-- A deselected adapter has no command of an open cycle. -/
theorem settled (high : (run.cacheAt n).memCsN = true) :
    run.behind.Accounted n [] [] := by
  obtain ⟨commands, carried, accounted⟩ := run.behind.accounted n
  have none : commands = [] := by
    by_contra some
    have started := Bus.start_selected (accounted.requested some).1
    exact absurd started (ne_false_of_eq_true high)
  obtain rfl := none
  obtain rfl := List.prefix_nil.mp accounted.carried
  exact accounted

theorem unacknowledged (high : (run.cacheAt n).memCsN = true) :
    run.behind.acknowledged (n + 1) = run.behind.acknowledged n := by
  have none : ¬ run.behind.Acks n := fun acks =>
    absurd (Bus.start_selected acks.advance.1) (ne_false_of_eq_true high)
  simp [Controller.Run.acknowledged, none]

/-- Between two clocks with the adapter deselected nothing happens to the memory. -/
theorem still (high : (run.cacheAt n).memCsN = true)
    (next : (run.cacheAt (n + 1)).memCsN = true) :
    run.accesses (n + 1) = run.accesses n ∧ (run.core (n + 1)).cells = (run.core n).cells := by
  have before := settled high
  have after := settled next
  have same := unacknowledged high
  constructor
  · rw [accesses, accesses, before.accesses, after.accesses, same]
  · calc (run.core (n + 1)).cells = run.behind.contents (n + 1) := after.cells
      _ = run.behind.contents n := by rw [Controller.Run.contents, same, Controller.Run.contents]
      _ = (run.core n).cells := before.cells.symm

namespace ReadModifyWrite

variable (cycle : run.ReadModifyWrite)

theorem acknowledged (after : cycle.acked < n) (before : n ≤ cycle.last + 1) :
    (run.cacheAt n).dtackN = false := by
  induction n, after using Nat.le_induction with
  | base => exact cycle.acks.2
  | succ n after ih => exact held (ih (by omega)) (cycle.selected n (by omega) (by omega))

theorem lost : cycle.Lost := by
  have since (n : Nat) (after : cycle.acked < n) (before : n ≤ cycle.last + 1) :
      run.accesses n = run.accesses (cycle.acked + 1) ∧
      (run.core n).cells = (run.core (cycle.acked + 1)).cells := by
    induction n, after using Nat.le_induction with
    | base => exact ⟨rfl, rfl⟩
    | succ n after ih =>
        obtain ⟨accesses, cells⟩ := ih (by omega)
        obtain ⟨none, same⟩ := still (deselected (cycle.acknowledged after (by omega)))
          (deselected (cycle.acknowledged (Nat.lt_succ_of_lt after) before))
        exact ⟨none.trans accesses, same.trans cells⟩
  exact ⟨fun n after before => cycle.acknowledged after (by omega),
    fun n after before => (since n after before).1, fun n after before => (since n after before).2⟩

theorem exists_command : ∃ command, command ∈ (run.bus cycle.write).commands := by
  have strobe := cycle.strobe
  simp only [Bus.strobed, Bool.or_eq_true, Bool.not_eq_true'] at strobe
  rcases strobe with udsn | ldsn
  · exact ⟨_, by simp [Bus.commands, cycle.direction, udsn]; exact .inl rfl⟩
  · exact ⟨_, by simp [Bus.commands, cycle.direction, ldsn]; exact .inr rfl⟩

end ReadModifyWrite

end Run

/-- On the SDRAM of Mackerel-F no read-modify-write cycle performs its write half. -/
theorem tas_write_half_lost (run : Run) (cycle : run.ReadModifyWrite) :
    ¬ cycle.Performed ∧ cycle.Lost := by
  refine ⟨fun performed => ?_, cycle.lost⟩
  obtain ⟨command, member⟩ := cycle.exists_command
  have acknowledged : (run.cacheAt cycle.write).dtackN = false :=
    cycle.acknowledged (cycle.later.trans cycle.again) (Nat.le_succ_of_le cycle.open_)
  -- already acknowledged at its first strobe
  obtain ⟨k, after, before, _⟩ :=
    performed cycle.write (Nat.le_refl _) cycle.open_ acknowledged command member
  omega

/-- A core that is busy with a command for one clock. -/
def prompt (pulses : List Command) (core : Core) : Core :=
  match core.phase, pulses with
  | .busy _ command _, _ => { (core.quiet 0).perform command with phase := .idle }
  | _, command :: _ => { core.quiet 0 with phase := .busy 0 command false }
  | _, [] => { core.quiet 0 with phase := .idle }

def Prompt (core : Core) : Prop :=
  core.phase = .idle ∨ ∃ command, core.phase = .busy 0 command false

theorem Prompt.step {core : Core} (phase : Prompt core) (pulses : List Command) :
    Core.Step pulses core (prompt pulses core) ∧ Prompt (prompt pulses core) := by
  rcases phase with idle | ⟨command, busy⟩
  · cases pulses with
    | nil =>
        simp only [prompt, idle]
        exact ⟨.rest 0 idle rfl, .inl rfl⟩
    | cons command rest =>
        simp only [prompt, idle]
        exact ⟨.accept 0 0 idle List.mem_cons_self, .inr ⟨command, rfl⟩⟩
  · simp only [prompt, busy]
    exact ⟨.work busy (.performFinish 0), .inl rfl⟩

def tasBus (n : Nat) : Bus where
  csN := n < 2 || 14 ≤ n
  addr := 0
  rwn := n < 11
  udsn := !((2 ≤ n && n < 10) || (12 ≤ n && n < 14))
  ldsn := true
  wdata := 0x8000

def tasStep (n : Nat) (s : System) : System where
  bus := tasBus (n + 1)
  cache := s.cache.posedge s.bus s.inputs
  ctrl := s.ctrl.posedge s.memBus s.core
  core := prompt s.ctrl.pulses s.core

def tasStart : System where
  bus := tasBus 0
  cache := {
    dataRam := fun _ => 0, tagRam := fun _ => 0, valid := fun _ => false, state := .IDLE
    idx := 0, reqtag := 0, wsel := false, dataQ := 0, tagQ := 0, validQ := false
    dtack := false, rdata := 0, memCsN := true }
  ctrl := Controller.State.reset
  core := { cells := fun _ => 0, phase := .idle, dataReady := false, dout32 := 0 }

def tasState : Nat → System := driven tasStep tasStart

theorem tasState_bus (n : Nat) : (tasState n).bus = tasBus n := by
  cases n <;> rfl

theorem tasState_prompt (n : Nat) : Prompt (tasState n).core := by
  induction n with
  | zero => exact .inl rfl
  | succ n ih => exact (ih.step _).2

theorem tasState_acked : ∀ n < 6, (tasState (n + 9)).cache.dtackN = false := by decide +kernel

theorem tasBus_steady : ∀ k < 6, tasBus (k + 3) = tasBus (k + 2) := by decide

theorem tasState_step (n : Nat) : Step (tasState n) (tasState (n + 1)) where
  cache := rfl
  ctrl := rfl
  core := ((tasState_prompt n).step _).1
  bus := by
    intro selected _ unanswered
    rw [tasState_bus] at selected ⊢
    rw [tasState_bus]
    simp only [tasBus, Bool.or_eq_false_iff, decide_eq_false_iff_not] at selected
    have early : n < 8 := by
      by_contra late
      have acked := tasState_acked (n - 8) (by omega)
      rw [show n - 8 + 9 = n + 1 by omega] at acked
      exact absurd acked (ne_false_of_eq_true unanswered)
    have same : tasBus (n + 1) = tasBus n := by
      obtain ⟨k, rfl⟩ : ∃ k, n = k + 2 := ⟨n - 2, by omega⟩
      exact tasBus_steady k (by omega)
    rw [same]
    exact ⟨rfl, rfl, rfl, fun _ => rfl⟩

def tasRun : Run where
  exec := { state := tasState, step := tasState_step }
  cache := ⟨tasStart.cache, rfl⟩
  ctrl := rfl
  powerUp := .inl rfl

def tasCycle : tasRun.ReadModifyWrite where
  acked := 8
  released := 10
  write := 12
  last := 13
  acks := ⟨by decide +kernel, by decide +kernel⟩
  read := rfl
  selected n after before := by
    change (tasState n).bus.csN = false
    rw [tasState_bus]
    simp only [tasBus, Bool.or_eq_false_iff, decide_eq_false_iff_not]
    omega
  addr n _ _ := by
    change (tasState n).bus.addr = (tasState 8).bus.addr
    rw [tasState_bus, tasState_bus, tasBus, tasBus]
  later := by decide
  negated := rfl
  again := by decide
  strobe := rfl
  direction := rfl
  open_ := by decide

theorem tas_acknowledged_unwritten :
    ¬ tasCycle.Performed ∧ (tasRun.core 14).cells 0 ≠ (tasRun.bus 12).wdata.extractLsb' 8 8 := by
  constructor
  · intro performed
    obtain ⟨k, after, before, _⟩ := performed 12 (by decide) (by decide) (by decide +kernel)
      (.wr 0 0x80) (by decide)
    exact absurd (Nat.lt_of_lt_of_le after before) (by decide)
  · decide +kernel

end Mackerel.Sdram.System
