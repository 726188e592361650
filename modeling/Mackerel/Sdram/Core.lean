import Mackerel.Sdram.Lines

namespace Mackerel.Sdram

/-! What `sdram_controller` relies on in the SDRAM core it wraps, which is not part
of the repository: commands are pulses, taken only while the core is idle; the core
is then busy for any finite number of clocks. -/

/-- A byte address `addr[22:0]`. -/
abbrev ByteAddress := BitVec 23

abbrev Cells := ByteAddress → BitVec 8

inductive Command where
  | rd (addr : ByteAddress)
  | wr (addr : ByteAddress) (din : BitVec 8)
  | refresh
deriving DecidableEq

def Command.apply (cells : Cells) : Command → Cells
  | rd _ => cells
  | wr addr din => Function.update cells addr din
  | refresh => cells

/-- The aligned 32-bit word of a line, the byte at offset 0 in bits 7-0. -/
def alignedWord (cells : Cells) (line : Line) : BitVec 32 :=
  cells (line ++ 3#2) ++ cells (line ++ 2#2) ++ cells (line ++ 1#2) ++ cells (line ++ 0#2)

/-- `busy clocks command done`: busy with a command for `clocks` more clocks, its effect
    already there or not. `init` is the initialisation of the chip after reset. -/
inductive CorePhase where
  | init (clocks : Nat)
  | idle
  | busy (clocks : Nat) (command : Command) (done : Bool)
deriving DecidableEq

/-- The clocks until the core is idle, give or take. -/
def CorePhase.clocks : CorePhase → Nat
  | .init clocks => clocks + 1
  | .idle => 0
  | .busy clocks _ _ => clocks + 1

structure Core where
  cells : Cells
  phase : CorePhase
  dataReady : Bool
  dout32 : BitVec 32

namespace Core

def busy (core : Core) : Bool := core.phase != .idle

theorem busy_eq_false {core : Core} : core.busy = false ↔ core.phase = .idle := by simp [busy]

/-- `data_ready` is a pulse; the data output carries no meaning without it. -/
def quiet (core : Core) (dout32 : BitVec 32) : Core := { core with dataReady := false, dout32 }

def perform (core : Core) (command : Command) : Core :=
  match command with
  | .rd addr =>
      { core with dataReady := true, dout32 := alignedWord core.cells (addr.extractLsb' 2 21) }
  | command => { core with cells := command.apply core.cells }

/-- One busy clock. The effect comes at any clock up to the one at which `busy` falls. -/
inductive Work (command : Command) (core : Core) : Nat → Bool → Core → Prop where
  | wait (clocks : Nat) (done : Bool) (dout32 : BitVec 32) :
      Work command core (clocks + 1) done
        { core.quiet dout32 with phase := .busy clocks command done }
  | perform (clocks : Nat) (dout32 : BitVec 32) :
      Work command core (clocks + 1) false
        { (core.quiet dout32).perform command with phase := .busy clocks command true }
  | finish (dout32 : BitVec 32) :
      Work command core 0 true { core.quiet dout32 with phase := .idle }
  | performFinish (dout32 : BitVec 32) :
      Work command core 0 false { (core.quiet dout32).perform command with phase := .idle }

inductive Step (pulses : List Command) (core : Core) : Core → Prop where
  | init (clocks : Nat) (dout32 : BitVec 32) : core.phase = .init (clocks + 1) →
      Step pulses core { core.quiet dout32 with phase := .init clocks }
  | initDone (dout32 : BitVec 32) : core.phase = .init 0 →
      Step pulses core { core.quiet dout32 with phase := .idle }
  | rest (dout32 : BitVec 32) : core.phase = .idle → pulses = [] →
      Step pulses core { core.quiet dout32 with phase := .idle }
  | accept (clocks : Nat) (dout32 : BitVec 32) {command : Command} :
      core.phase = .idle → command ∈ pulses →
      Step pulses core { core.quiet dout32 with phase := .busy clocks command false }
  | work {clocks : Nat} {command : Command} {done : Bool} {after : Core} :
      core.phase = .busy clocks command done → Work command core clocks done after →
      Step pulses core after

/-- A command keeps the core busy for at most 100 clocks, the first one included. -/
def WithinLatency (core : Core) : Prop :=
  ∀ clocks command done, core.phase = .busy clocks command done → clocks < 100

def Initialising (core : Core) : Prop := ∃ clocks, core.phase = .init clocks

theorem cells_perform (core : Core) (command : Command) :
    (core.perform command).cells = command.apply core.cells := by
  cases command <;> rfl

/-- What a read that has just been carried out leaves on the outputs. -/
def Answers (command : Command) (cells : Cells) (core : Core) : Prop :=
  ∀ addr, command = .rd addr → core.dataReady = true ∧
    core.dout32 = alignedWord cells (addr.extractLsb' 2 21)

theorem answers_perform (core : Core) (command : Command) :
    Answers command core.cells (core.perform command) := by
  rintro addr rfl
  exact ⟨rfl, rfl⟩

variable {pulses : List Command} {command : Command} {core after : Core} {clocks : Nat}

theorem Step.clocks_lt (step : Step pulses core after) (busy : core.phase ≠ .idle) :
    after.phase.clocks < core.phase.clocks := by
  cases step with
  | init clocks dout32 init => simp [init, CorePhase.clocks]
  | initDone dout32 init => simp [init, CorePhase.clocks]
  | rest dout32 idle _ => exact absurd idle busy
  | accept clocks dout32 idle _ => exact absurd idle busy
  | work phase work => cases work <;> simp [phase, CorePhase.clocks]

theorem Step.of_pulse (step : Step [command] core after) (idle : core.phase = .idle) :
    (∃ clocks, after.phase = .busy clocks command false) ∧ after.cells = core.cells := by
  cases step with
  | init clocks dout32 init => simp [idle] at init
  | initDone dout32 init => simp [idle] at init
  | rest dout32 _ none => simp at none
  | accept clocks dout32 _ taken =>
      obtain rfl := List.mem_singleton.mp taken
      exact ⟨⟨clocks, rfl⟩, rfl⟩
  | work busy work => simp [idle] at busy

theorem Step.of_idle (step : Step [] core after) (idle : core.phase = .idle) :
    after.phase = .idle ∧ after.cells = core.cells ∧ after.dataReady = false := by
  cases step with
  | init clocks dout32 init => simp [idle] at init
  | initDone dout32 init => simp [idle] at init
  | rest dout32 _ _ => exact ⟨rfl, rfl, rfl⟩
  | accept clocks dout32 _ taken => simp at taken
  | work busy work => simp [idle] at busy

theorem Step.of_init (step : Step pulses core after) (init : core.phase = .init clocks) :
    (after.phase = .idle ∨ ∃ fewer, after.phase = .init fewer) ∧ after.cells = core.cells := by
  cases step with
  | init clocks dout32 _ => exact ⟨.inr ⟨clocks, rfl⟩, rfl⟩
  | initDone dout32 _ => exact ⟨.inl rfl, rfl⟩
  | rest dout32 idle _ => simp [init] at idle
  | accept clocks dout32 idle _ => simp [init] at idle
  | work busy work => simp [init] at busy

theorem Step.of_pending (step : Step pulses core after)
    (pending : core.phase = .busy clocks command false) :
    ((∃ fewer, after.phase = .busy fewer command false) ∧ after.cells = core.cells) ∨
    ((after.phase = .idle ∨ ∃ fewer, after.phase = .busy fewer command true) ∧
      after.cells = command.apply core.cells ∧ Answers command core.cells after) := by
  cases step with
  | init clocks dout32 init => simp [pending] at init
  | initDone dout32 init => simp [pending] at init
  | rest dout32 idle _ => simp [pending] at idle
  | accept clocks dout32 idle _ => simp [pending] at idle
  | work busy work =>
      rw [pending] at busy
      cases busy
      cases work with
      | wait fewer _ dout32 => exact .inl ⟨⟨fewer, rfl⟩, rfl⟩
      | perform fewer dout32 =>
          exact .inr ⟨.inr ⟨fewer, rfl⟩, cells_perform _ command,
            answers_perform (core.quiet dout32) command⟩
      | performFinish dout32 =>
          exact .inr ⟨.inl rfl, cells_perform _ command,
            answers_perform (core.quiet dout32) command⟩

theorem Step.of_performed (step : Step pulses core after)
    (performed : core.phase = .busy clocks command true) :
    (after.phase = .idle ∨ ∃ fewer, after.phase = .busy fewer command true) ∧
      after.cells = core.cells ∧ after.dataReady = false := by
  cases step with
  | init clocks dout32 init => simp [performed] at init
  | initDone dout32 init => simp [performed] at init
  | rest dout32 idle _ => simp [performed] at idle
  | accept clocks dout32 idle _ => simp [performed] at idle
  | work busy work =>
      rw [performed] at busy
      cases busy
      cases work with
      | wait fewer _ dout32 => exact ⟨.inr ⟨fewer, rfl⟩, rfl, rfl⟩
      | finish dout32 => exact ⟨.inl rfl, rfl, rfl⟩

theorem Step.not_initialising (step : Step pulses core after) (running : ¬core.Initialising) :
    ¬after.Initialising := by
  rintro ⟨fewer, init⟩
  cases step with
  | init clocks dout32 phase => exact running ⟨_, phase⟩
  | initDone dout32 phase => exact running ⟨_, phase⟩
  | rest dout32 idle none => cases init
  | accept clocks dout32 idle taken => cases init
  | work busy work => cases work <;> cases init

theorem WithinLatency.clocks_le (latency : core.WithinLatency) (running : ¬core.Initialising) :
    core.phase.clocks ≤ 100 := by
  cases phase : core.phase with
  | init clocks => exact (running ⟨clocks, phase⟩).elim
  | idle => exact Nat.zero_le _
  | busy clocks command done => exact latency clocks command done phase

end Core

end Mackerel.Sdram
