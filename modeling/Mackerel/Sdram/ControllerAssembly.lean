import Mathlib.Data.Prod.Lex
import Mackerel.Sdram.BigEndianMemory
import Mackerel.Sdram.Controller

namespace Mackerel.Sdram.Controller

structure Assembly where
  bus : Bus
  ctrl : State
  core : Core

namespace Assembly

structure Step (before after : Assembly) : Prop where
  ctrl : after.ctrl = before.ctrl.posedge before.bus before.core
  core : Core.Step before.ctrl.pulses before.core after.core
  bus : Bus.Step before.ctrl.dtackN after.ctrl.dtackN before.bus after.bus

/-- One command on its way: its pulse, then the core busy with it, then idle again with
    the command's effect on the memory. -/
inductive Outstanding (command : Command) (base : Cells) (s : Assembly) : Prop where
  | issued : s.ctrl.pulses = [command] → s.core.phase = .idle → s.core.cells = base →
      Outstanding command base s
  | pending (clocks : Nat) : s.ctrl.pulses = [] →
      s.core.phase = .busy clocks command false → s.core.cells = base →
      Outstanding command base s
  | carried : s.ctrl.pulses = [] →
      (s.core.phase = .idle ∨ ∃ clocks, s.core.phase = .busy clocks command true) →
      s.core.cells = command.apply base → Outstanding command base s

/-- The core has carried out the last command it was given. -/
def Carried (s : Assembly) : Prop :=
  s.ctrl.pulses = [] ∧ ∀ clocks command, s.core.phase ≠ .busy clocks command false

theorem Outstanding.cells {command : Command} {base : Cells} {s : Assembly}
    (outstanding : Outstanding command base s) :
    s.core.cells = base ∨ s.core.cells = command.apply base := by
  cases outstanding with
  | issued _ _ cells => exact .inl cells
  | pending _ _ _ cells => exact .inl cells
  | carried _ _ cells => exact .inr cells

theorem Outstanding.pulses {command : Command} {base : Cells} {s : Assembly}
    (outstanding : Outstanding command base s) :
    s.ctrl.pulses = [] ∨ (s.ctrl.pulses = [command] ∧ s.core.phase = .idle) := by
  cases outstanding with
  | issued pulses idle _ => exact .inr ⟨pulses, idle⟩
  | pending _ pulses _ _ => exact .inl pulses
  | carried pulses _ _ => exact .inl pulses

/-- An outstanding command moves on while the adapter issues nothing, and answers at the
    clock that carries it out. -/
theorem Outstanding.step {command : Command} {base : Cells} {before after : Assembly}
    (outstanding : Outstanding command base before) (step : Step before after)
    (quiet : after.ctrl.pulses = []) :
    Outstanding command base after ∧ (after.Carried →
      (before.Carried ∧ after.core.dataReady = false) ∨ Core.Answers command base after.core) := by
  have core := step.core
  cases outstanding with
  | issued pulses phase cells =>
      rw [pulses] at core
      obtain ⟨⟨clocks, busy⟩, same⟩ := core.of_pulse phase
      exact ⟨.pending clocks quiet busy (same.trans cells),
        fun carried => absurd busy (carried.2 clocks command)⟩
  | pending clocks pulses phase cells =>
      rcases core.of_pending phase with ⟨⟨fewer, busy⟩, same⟩ | ⟨done, applied, answers⟩
      · exact ⟨.pending fewer quiet busy (same.trans cells),
          fun carried => absurd busy (carried.2 fewer command)⟩
      · rw [cells] at applied answers
        exact ⟨.carried quiet done applied, fun _ => .inr answers⟩
  | carried pulses phase cells =>
      have wasCarried : before.Carried := by
        refine ⟨pulses, fun clocks other busy => ?_⟩
        rcases phase with idle | ⟨_, performed⟩
        · simp [idle] at busy
        · simp [performed] at busy
      rcases phase with idle | ⟨clocks, performed⟩
      · rw [pulses] at core
        obtain ⟨still, same, silent⟩ := core.of_idle idle
        exact ⟨.carried quiet (.inl still) (same.trans cells), fun _ => .inl ⟨wasCarried, silent⟩⟩
      · obtain ⟨next, same, silent⟩ := core.of_performed performed
        exact ⟨.carried quiet next (same.trans cells), fun _ => .inl ⟨wasCarried, silent⟩⟩

/-- The adapter's test for the end of a command: no pulse of it, and the core not busy. -/
theorem Outstanding.finished {command : Command} {base : Cells} {s : Assembly}
    (outstanding : Outstanding command base s) (cleared : s.ctrl.pulsing command = false)
    (free : s.core.busy = false) :
    s.ctrl.pulses = [] ∧ s.core.phase = .idle ∧ s.core.cells = command.apply base := by
  have idle := Core.busy_eq_false.mp free
  cases outstanding with
  | issued pulses _ _ =>
      have pulse := State.pulsing_of_mem (pulses ▸ List.mem_singleton_self command)
      exact absurd pulse (ne_true_of_eq_false cleared)
  | pending clocks _ busy _ => simp [idle] at busy
  | carried pulses _ cells => exact ⟨pulses, idle, cells⟩

/-- A bus cycle that the adapter has begun and not acknowledged yet. -/
structure Requested (s : Assembly) : Prop where
  start : s.bus.start = true
  dtack : s.ctrl.dtack = false

/-- Once its read command is carried out, the adapter has the word, or the core presents it. -/
def Captured (base : Cells) (s : Assembly) : Prop :=
  let line := alignedWord base (lineOf s.bus.addr)
  s.Carried →
    (s.core.dataReady = true ∧ s.core.dout32 = line) ∨
    (s.core.dataReady = false ∧ s.ctrl.rdata32 = line ∧
      s.ctrl.rdata = wordOf line (wordSelect s.bus.addr))

/-- The byte of a word write that is still to be issued. -/
def remaining (s : Assembly) : List Command :=
  if s.ctrl.needSecond then [.wr (s.bus.addr ++ 1#1) (s.bus.wdata.extractLsb' 0 8)] else []

/-- Where each state of the machine is in its access. `base` is the memory that the
    acknowledged cycles have left, the list the commands issued for the open one. -/
inductive PhaseInvariant (base : Cells) (s : Assembly) : List Command → Prop where
  | idle : s.ctrl.state = .S_IDLE → s.ctrl.dtack = false → s.ctrl.pulses = [] →
      s.core.cells = base →
      (s.core.phase = .idle ∨ (s.ctrl.initSeen = false ∧ ∃ clocks, s.core.phase = .init clocks)) →
      PhaseInvariant base s []
  | refresh : s.ctrl.state = .S_REF → s.ctrl.dtack = false → Outstanding .refresh base s →
      PhaseInvariant base s []
  | read : s.ctrl.state = .S_RD → s.Requested → s.bus.rwn = true →
      Outstanding (.rd (s.bus.addr ++ 0#1)) base s → Captured base s →
      PhaseInvariant base s [.rd (s.bus.addr ++ 0#1)]
  | write (earlier : List Command) (addr : ByteAddress) (din : BitVec 8) :
      s.ctrl.state = .S_WR → s.Requested → s.bus.rwn = false →
      Outstanding (.wr addr din) (earlier.foldl Command.apply base) s →
      earlier ++ [.wr addr din] ++ s.remaining = s.bus.commands →
      PhaseInvariant base s (earlier ++ [.wr addr din])
  | acked : s.ctrl.state = .S_ACK → s.ctrl.dtack = true → s.ctrl.pulses = [] →
      s.core.cells = base → s.core.phase = .idle → PhaseInvariant base s []

/-- What one clock does to the open cycle: it issues the next commands of the cycle, if any,
    or it acknowledges the cycle with all its commands carried out. -/
inductive Advance (base : Cells) (commands : List Command) (before after : Assembly) : Prop where
  | on : (before.ctrl.dtack = true ∨ after.ctrl.dtack = false) →
      PhaseInvariant base after (commands ++ after.ctrl.pulses.filter (· ≠ .refresh)) →
      Advance base commands before after
  | acks : before.Requested → after.ctrl.dtack = true → after.ctrl.pulses = [] →
      commands = before.bus.commands → PhaseInvariant (before.bus.store base) after [] →
      (before.bus.rwn = true → after.ctrl.rdata = bigEndianWord base before.bus.addr) →
      Advance base commands before after

variable {base : Cells} {commands : List Command} {before after : Assembly}

theorem Requested.held (requested : before.Requested) (step : Step before after)
    (still : after.ctrl.dtack = false) : after.bus = before.bus := by
  have held := step.bus (Bus.start_selected requested.start)
    (State.dtackN_eq_true.mpr requested.dtack) (State.dtackN_eq_true.mpr still)
  exact held.of_start requested.start

theorem Captured.step {addr : ByteAddress}
    (captured : Captured base before) (reading : before.ctrl.state = .S_RD)
    (outstanding : Outstanding (.rd addr) base before)
    (line : addr.extractLsb' 2 21 = lineOf before.bus.addr)
    (step : Step before after) (quiet : after.ctrl.pulses = [])
    (held : after.bus = before.bus) : Captured base after := by
  intro carried
  obtain ⟨rdata, rdata32⟩ := State.posedge_capture before.bus before.core reading
  rw [← step.ctrl] at rdata rdata32
  rw [held]
  rcases (outstanding.step step quiet).2 carried with ⟨was, silent⟩ | answers
  · right
    rcases captured was with ⟨ready, dout⟩ | ⟨notReady, kept32, kept⟩
    · simp only [ready, if_true, dout] at rdata rdata32
      exact ⟨silent, rdata32, rdata⟩
    · simp only [notReady, Bool.false_eq_true, if_false] at rdata rdata32
      exact ⟨silent, rdata32.trans kept32, rdata.trans kept⟩
  · obtain ⟨ready, dout⟩ := answers addr rfl
    rw [line] at dout
    exact .inl ⟨ready, dout⟩

theorem Step.move (step : Step before after) {state : FsmState}
    (current : before.ctrl.state = state) :
    State.Move before.ctrl before.bus before.core after.ctrl state := by
  have move := State.posedge_move before.ctrl before.bus before.core
  rw [current, ← step.ctrl] at move
  exact move

theorem step_of_idle (step : Step before after) (state : before.ctrl.state = .S_IDLE)
    (dtack : before.ctrl.dtack = false) (pulses : before.ctrl.pulses = [])
    (cells : before.core.cells = base)
    (phase : before.core.phase = .idle ∨
      (before.ctrl.initSeen = false ∧ ∃ clocks, before.core.phase = .init clocks)) :
    Advance base [] before after := by
  have core := step.core
  rw [pulses] at core
  -- a command is only issued to an idle core, which is still idle when it samples the pulse
  have issued {command : Command} (free : before.core.busy = false)
      (pulse : after.ctrl.pulses = [command]) : Outstanding command base after := by
    obtain ⟨idle, same, _⟩ := core.of_idle (Core.busy_eq_false.mp free)
    exact .issued pulse idle (same.trans cells)
  have requested (started : before.bus.start = true) (still : after.ctrl.dtack = before.ctrl.dtack) :
      after.Requested ∧ after.bus = before.bus := by
    have same := Requested.held ⟨started, dtack⟩ step (still.trans dtack)
    exact ⟨⟨by rw [same, started], still.trans dtack⟩, same⟩
  cases step.move state with
  | idle _ silent next still =>
      apply Advance.on (.inr (still.trans dtack))
      simp only [silent.pulses, List.filter_nil, List.append_nil]
      rcases phase with idle | ⟨unseen, clocks, init⟩
      · obtain ⟨idle, same, _⟩ := core.of_idle idle
        exact .idle next (still.trans dtack) silent.pulses (same.trans cells) (.inl idle)
      · obtain ⟨later, same⟩ := core.of_init init
        have busy : before.core.busy = true := by simp [Core.busy, init]
        have initSeen := before.ctrl.posedge_initSeen before.bus before.core
        rw [← step.ctrl, unseen, busy] at initSeen
        exact .idle next (still.trans dtack) silent.pulses (same.trans cells)
          (later.imp_right fun init => ⟨initSeen, init⟩)
  | refresh _ free pulse next still =>
      apply Advance.on (.inr (still.trans dtack))
      simp only [pulse]
      exact .refresh next (still.trans dtack) (issued free pulse)
  | read _ free started direction pulse next still =>
      apply Advance.on (.inr (still.trans dtack))
      obtain ⟨opened, same⟩ := requested started still
      simp only [pulse]
      rw [← same] at pulse direction ⊢
      refine .read next opened direction (issued free pulse) fun carried => ?_
      simp [carried.1] at pulse
  | writeEven _ free started direction even pulse second next still =>
      apply Advance.on (.inr (still.trans dtack))
      obtain ⟨opened, same⟩ := requested started still
      simp only [pulse]
      rw [← same] at pulse direction even second ⊢
      refine .write [] _ _ next opened direction (issued free pulse) ?_
      simp [Bus.commands, remaining, direction, even, second]
      cases after.bus.ldsn <;> rfl
  | writeOdd _ free started direction odd pulse second next still =>
      apply Advance.on (.inr (still.trans dtack))
      obtain ⟨opened, same⟩ := requested started still
      have strobe := opened.start
      simp only [pulse]
      rw [← same] at pulse direction odd ⊢
      refine .write [] _ _ next opened direction (issued free pulse) ?_
      simp only [Bus.start, Bus.strobed, odd, Bool.not_true, Bool.false_or, Bool.and_eq_true,
        Bool.not_eq_true'] at strobe
      simp [Bus.commands, remaining, direction, odd, second, strobe.2]

theorem step_of_refresh (step : Step before after) (state : before.ctrl.state = .S_REF)
    (dtack : before.ctrl.dtack = false) (outstanding : Outstanding .refresh base before) :
    Advance base [] before after := by
  cases step.move state with
  | refreshing _ silent next still =>
      apply Advance.on (.inr (still.trans dtack))
      simp only [silent.pulses]
      exact .refresh next (still.trans dtack) (outstanding.step step silent.pulses).1
  | refreshDone cleared free silent next still =>
      obtain ⟨pulses, phase, cells⟩ := outstanding.finished cleared free
      have core := step.core
      rw [pulses] at core
      obtain ⟨idle, same, _⟩ := core.of_idle phase
      apply Advance.on (.inr (still.trans dtack))
      simp only [silent.pulses]
      exact .idle next (still.trans dtack) silent.pulses (same.trans cells) (.inl idle)

theorem step_of_read (step : Step before after) (state : before.ctrl.state = .S_RD)
    (requested : before.Requested) (direction : before.bus.rwn = true)
    (outstanding : Outstanding (.rd (before.bus.addr ++ 0#1)) base before)
    (captured : Captured base before) :
    Advance base [.rd (before.bus.addr ++ 0#1)] before after := by
  cases step.move state with
  | reading _ quiet next still =>
      have dtack := still.trans requested.dtack
      have same := requested.held step dtack
      have later := (outstanding.step step quiet).1
      have capturedLater := captured.step state outstanding (lineOf_even _) step quiet same
      apply Advance.on (.inr dtack)
      simp only [quiet]
      rw [← same] at later ⊢
      exact .read next ⟨by rw [same, requested.start], dtack⟩ (by rw [same, direction])
        later capturedLater
  | readDone cleared free quiet next acks =>
      obtain ⟨pulses, phase, cells⟩ := outstanding.finished cleared free
      have core := step.core
      rw [pulses] at core
      obtain ⟨idle, same, _⟩ := core.of_idle phase
      have carried : before.Carried := ⟨pulses, fun clocks command busy => by simp [phase] at busy⟩
      obtain ⟨rdata, _⟩ := State.posedge_capture before.bus before.core state
      have stored : before.bus.store base = base := by simp [Bus.store, direction]
      refine .acks requested acks quiet (by simp [Bus.commands, direction]) ?_ fun _ => ?_
      · rw [stored]
        exact .acked next acks quiet (same.trans cells) idle
      · rw [step.ctrl, rdata, ← wordOf_alignedWord]
        rcases captured carried with ⟨ready, dout⟩ | ⟨silent, _, kept⟩
        · simp only [ready, if_true, dout]
        · simp only [silent, Bool.false_eq_true, if_false, kept]

theorem step_of_write (step : Step before after) {earlier : List Command} {addr : ByteAddress}
    {din : BitVec 8} (state : before.ctrl.state = .S_WR) (requested : before.Requested)
    (direction : before.bus.rwn = false)
    (outstanding : Outstanding (.wr addr din) (earlier.foldl Command.apply base) before)
    (order : earlier ++ [.wr addr din] ++ before.remaining = before.bus.commands) :
    Advance base (earlier ++ [.wr addr din]) before after := by
  cases step.move state with
  | writing _ silent next still =>
      have dtack := still.trans requested.dtack
      have same := requested.held step dtack
      apply Advance.on (.inr dtack)
      simp only [silent.pulses, List.filter_nil, List.append_nil]
      refine .write earlier addr din next ⟨by rw [same, requested.start], dtack⟩
        (by rw [same, direction]) (outstanding.step step silent.pulses).1 ?_
      rw [same, ← order, remaining, remaining, same, silent.needSecond]
  | writeSecond cleared free second pulse needSecond next still =>
      have dtack := still.trans requested.dtack
      have same := requested.held step dtack
      obtain ⟨pulses, phase, cells⟩ := outstanding.finished cleared free
      have core := step.core
      rw [pulses] at core
      obtain ⟨idle, kept, _⟩ := core.of_idle phase
      apply Advance.on (.inr dtack)
      simp only [pulse]
      refine .write (earlier ++ [.wr addr din]) _ _ next ⟨by rw [same, requested.start], dtack⟩
        (by rw [same, direction]) (.issued pulse idle ?_) ?_
      · rw [kept, cells, List.foldl_append]
        rfl
      · rw [same, ← order]
        simp [remaining, second, needSecond]
  | writeDone cleared free single silent next acks =>
      obtain ⟨pulses, phase, cells⟩ := outstanding.finished cleared free
      have core := step.core
      rw [pulses] at core
      obtain ⟨idle, kept, _⟩ := core.of_idle phase
      have all : earlier ++ [.wr addr din] = before.bus.commands := by
        rw [← order]
        simp [remaining, single]
      refine .acks requested acks silent.pulses all ?_ fun read => ?_
      · refine .acked next acks silent.pulses ?_ idle
        rw [kept, cells, ← Bus.foldl_commands, ← all, List.foldl_append]
        rfl
      · exact absurd read (ne_true_of_eq_false direction)

theorem step_of_acked (step : Step before after) (state : before.ctrl.state = .S_ACK)
    (dtack : before.ctrl.dtack = true) (pulses : before.ctrl.pulses = [])
    (cells : before.core.cells = base) (phase : before.core.phase = .idle) :
    Advance base [] before after := by
  have core := step.core
  rw [pulses] at core
  obtain ⟨idle, same, _⟩ := core.of_idle phase
  apply Advance.on (.inl dtack)
  cases step.move state with
  | acked _ silent next still =>
      simp only [silent.pulses]
      exact .acked next (still.trans dtack) silent.pulses (same.trans cells) idle
  | released _ silent next ended =>
      simp only [silent.pulses]
      exact .idle next ended silent.pulses (same.trans cells) (.inl idle)

theorem PhaseInvariant.step (invariant : PhaseInvariant base before commands)
    (step : Step before after) : Advance base commands before after := by
  cases invariant with
  | idle state dtack pulses cells phase => exact step_of_idle step state dtack pulses cells phase
  | refresh state dtack outstanding => exact step_of_refresh step state dtack outstanding
  | read state requested direction outstanding captured =>
      exact step_of_read step state requested direction outstanding captured
  | write earlier addr din state requested direction outstanding order =>
      exact step_of_write step state requested direction outstanding order
  | acked state dtack pulses cells phase => exact step_of_acked step state dtack pulses cells phase

/-- A pulse meets an idle core, and the next clock has none. -/
theorem PhaseInvariant.pulses (invariant : PhaseInvariant base before commands)
    (step : Step before after) : before.ctrl.pulses = [] ∨
      ((∃ command, before.ctrl.pulses = [command] ∧ before.core.phase = .idle) ∧
        after.ctrl.pulses = []) := by
  cases invariant with
  | idle _ _ pulses => exact .inl pulses
  | refresh state _ outstanding =>
      apply outstanding.pulses.imp_right
      intro pulse
      refine ⟨⟨_, pulse⟩, ?_⟩
      cases step.move state with
      | refreshing _ silent => exact silent.pulses
      | refreshDone _ _ silent => exact silent.pulses
  | read state _ _ outstanding =>
      apply outstanding.pulses.imp_right
      intro pulse
      refine ⟨⟨_, pulse⟩, ?_⟩
      cases step.move state with
      | reading _ quiet => exact quiet
      | readDone _ _ quiet => exact quiet
  | write _ addr din state _ _ outstanding =>
      apply outstanding.pulses.imp_right
      intro pulse
      refine ⟨⟨_, pulse⟩, ?_⟩
      cases step.move state with
      | writing _ silent => exact silent.pulses
      | writeDone _ _ _ silent => exact silent.pulses
      | writeSecond cleared =>
          have issued : .wr addr din ∈ before.ctrl.pulses := by simp [pulse.1]
          have pulsing := State.pulsing_of_mem issued
          exact absurd pulsing (ne_true_of_eq_false cleared)
  | acked _ _ pulses => exact .inl pulses

theorem PhaseInvariant.of_refresh (invariant : PhaseInvariant base before commands)
    (refresh : .refresh ∈ before.ctrl.pulses) : commands = [] := by
  have other {command : Command} {cells : Cells} (outstanding : Outstanding command cells before)
      (different : command ≠ .refresh) : False := by
    rcases outstanding.pulses with none | ⟨pulse, _⟩
    · simp [none] at refresh
    · rw [pulse, List.mem_singleton] at refresh
      exact different refresh.symm
  cases invariant with
  | idle => rfl
  | refresh => rfl
  | read _ _ _ outstanding => exact (other outstanding (by simp)).elim
  | write _ _ _ _ _ _ outstanding => exact (other outstanding (by simp)).elim
  | acked => rfl

/-- An open cycle with a strobe that is not acknowledged yet. -/
structure Waiting (s : Assembly) : Prop where
  requested : s.Requested
  phase : ∃ base commands, PhaseInvariant base s commands

/-- How many states an open cycle still has before it, refreshes apart. -/
def stage (s : Assembly) : Nat :=
  match s.ctrl.state with
  | .S_REF => 8
  | .S_IDLE => if s.ctrl.initSeen then 6 else 7
  | .S_WR => if s.ctrl.needSecond then 4 else 2
  | .S_RD => 2
  | .S_ACK => 0

def rank (s : Assembly) : Nat ×ₗ Nat :=
  toLex (s.stage + s.ctrl.pulses.length, s.core.phase.clocks)

theorem rank_lt_of_unfinished {command : Command} (outstanding : Outstanding command base before)
    (step : Step before after) (unfinished : before.ctrl.pulses ≠ [] ∨ before.core.busy = true)
    (quiet : after.ctrl.pulses = []) (stage : after.stage = before.stage) :
    after.rank < before.rank := by
  apply Prod.Lex.toLex_lt_toLex.mpr
  simp only [stage, quiet, List.length_nil]
  rcases outstanding.pulses with none | ⟨one, _⟩
  · right
    refine ⟨by simp [none], step.core.clocks_lt fun idle => ?_⟩
    simp [none, Core.busy, idle] at unfinished
  · left
    simp [one]

theorem rank_lt_of_stage (lower : after.stage + after.ctrl.pulses.length < before.stage) :
    after.rank < before.rank :=
  Prod.Lex.toLex_lt_toLex.mpr (.inl (Nat.lt_of_lt_of_le lower (Nat.le_add_right _ _)))

theorem rank_lt_of_idle (step : Step before after) (state : before.ctrl.state = .S_IDLE)
    (started : before.bus.start = true) (pulses : before.ctrl.pulses = [])
    (phase : before.core.phase = .idle ∨
      (before.ctrl.initSeen = false ∧ ∃ clocks, before.core.phase = .init clocks)) :
    after.ctrl.pulses = [.refresh] ∨ after.rank < before.rank := by
  have initSeen := before.ctrl.posedge_initSeen before.bus before.core
  rw [← step.ctrl] at initSeen
  cases step.move state with
  | idle waiting silent next _ =>
      right
      rcases phase with idle | ⟨unseen, clocks, init⟩
      · have free : before.core.busy = false := Core.busy_eq_false.mpr idle
        have unseen : before.ctrl.initSeen = false := by simpa [free, started] using waiting
        apply rank_lt_of_stage
        simp [stage, state, next, initSeen, unseen, free, silent.pulses]
      · have busy : before.core.busy = true := by simp [Core.busy, init]
        apply Prod.Lex.toLex_lt_toLex.mpr
        right
        exact ⟨by simp [stage, state, next, initSeen, unseen, busy, silent.pulses, pulses],
          step.core.clocks_lt (by simp [init])⟩
  | refresh _ _ pulse => exact .inl pulse
  | read seen _ _ _ pulse next =>
      right
      apply rank_lt_of_stage
      simp [stage, state, next, seen, pulse]
  | writeEven seen _ _ _ _ pulse second next =>
      right
      apply rank_lt_of_stage
      simp only [stage, state, next, seen, pulse, second]
      cases before.bus.ldsn <;> simp
  | writeOdd seen _ _ _ _ pulse second next =>
      right
      apply rank_lt_of_stage
      simp [stage, state, next, seen, pulse, second]

theorem Waiting.rank_lt (waiting : before.Waiting) (step : Step before after)
    (still : after.ctrl.dtack = false) :
    after.ctrl.pulses = [.refresh] ∨ after.rank < before.rank := by
  obtain ⟨requested, base, commands, invariant⟩ := waiting
  cases invariant with
  | idle state _ pulses _ phase => exact rank_lt_of_idle step state requested.start pulses phase
  | refresh state _ outstanding =>
      right
      cases step.move state with
      | refreshing unfinished silent next _ =>
          exact rank_lt_of_unfinished outstanding step unfinished silent.pulses
            (by simp [stage, state, next])
      | refreshDone _ _ silent next =>
          apply rank_lt_of_stage
          simp only [stage, state, next, silent.pulses]
          cases after.ctrl.initSeen <;> decide
  | read state _ _ outstanding =>
      right
      cases step.move state with
      | reading unfinished quiet next _ =>
          exact rank_lt_of_unfinished outstanding step unfinished quiet
            (by simp [stage, state, next])
      | readDone _ _ _ _ acks => exact absurd acks (ne_true_of_eq_false still)
  | write _ _ _ state _ _ outstanding =>
      right
      cases step.move state with
      | writing unfinished silent next _ =>
          exact rank_lt_of_unfinished outstanding step unfinished silent.pulses
            (by simp [stage, state, next, silent.needSecond])
      | writeSecond _ _ second pulse last next _ =>
          apply rank_lt_of_stage
          simp [stage, state, next, second, last, pulse]
      | writeDone _ _ _ _ _ acks => exact absurd acks (ne_true_of_eq_false still)
  | acked _ dtack => exact absurd requested.dtack (ne_false_of_eq_true dtack)

theorem Waiting.step (waiting : before.Waiting) (step : Step before after)
    (still : after.ctrl.dtack = false) : after.Waiting := by
  obtain ⟨requested, base, commands, invariant⟩ := waiting
  refine ⟨⟨by rw [requested.held step still, requested.start], still⟩, ?_⟩
  cases invariant.step step with
  | on _ next => exact ⟨_, _, next⟩
  | acks _ _ _ _ next => exact ⟨_, _, next⟩

theorem Waiting.advance (waiting : before.Waiting) (step : Step before after) :
    (after.ctrl.dtack = true ∨ (after.Waiting ∧ after.ctrl.pulses = [.refresh])) ∨
      (after.Waiting ∧ after.rank < before.rank) := by
  cases acked : after.ctrl.dtack with
  | true => exact .inl (.inl rfl)
  | false =>
      have next := waiting.step step acked
      rcases waiting.rank_lt step acked with refresh | lower
      · exact .inl (.inr ⟨next, refresh⟩)
      · exact .inr ⟨next, lower⟩

/-- No refresh comes before the end of the cycle. -/
def Accessing (s : Assembly) : Prop :=
  match s.ctrl.state with
  | .S_IDLE => s.ctrl.initSeen = true ∧ s.ctrl.refDue = false
  | .S_RD | .S_WR => True
  | .S_REF | .S_ACK => False

theorem Waiting.accessing (waiting : before.Waiting) (accessing : before.Accessing)
    (step : Step before after) (still : after.ctrl.dtack = false) :
    after.Accessing ∧ after.ctrl.pulses ≠ [.refresh] := by
  obtain ⟨requested, base, commands, invariant⟩ := waiting
  unfold Accessing at accessing
  cases invariant with
  | idle state _ _ _ phase =>
      rw [state] at accessing
      obtain ⟨seen, undue⟩ := accessing
      have idle := phase.resolve_right fun init => ne_true_of_eq_false init.1 seen
      have free : before.core.busy = false := Core.busy_eq_false.mpr idle
      cases step.move state with
      | idle quiet => simp [seen, free, requested.start] at quiet
      | refresh _ _ pulses =>
          have pulse : after.ctrl.pulsing .refresh = true := State.pulsing_of_mem (by simp [pulses])
          change after.ctrl.ctrlRefresh = true at pulse
          rw [step.ctrl, (State.posedge_refDue _ _ _).2] at pulse
          exact absurd (State.refDue_of_issues pulse) (ne_true_of_eq_false undue)
      | read _ _ _ _ pulses next => simp [Accessing, next, pulses]
      | writeEven _ _ _ _ _ pulses _ next => simp [Accessing, next, pulses]
      | writeOdd _ _ _ _ _ pulses _ next => simp [Accessing, next, pulses]
  | refresh state => simp [state] at accessing
  | read state =>
      cases step.move state with
      | reading _ quiet next => simp [Accessing, next, quiet]
      | readDone _ _ _ _ acks => exact absurd acks (ne_true_of_eq_false still)
  | write _ _ _ state =>
      cases step.move state with
      | writing _ silent next => simp [Accessing, next, silent.pulses]
      | writeSecond _ _ _ pulses _ next => simp [Accessing, next, pulses]
      | writeDone _ _ _ _ _ acks => exact absurd acks (ne_true_of_eq_false still)
  | acked state => simp [state] at accessing

end Assembly

end Mackerel.Sdram.Controller
