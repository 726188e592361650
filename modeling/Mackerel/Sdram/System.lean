import Mackerel.Sdram.Cache
import Mackerel.Sdram.ControllerMemory

namespace Mackerel.Sdram

open Clocked

/-! The SDRAM path of `mackerel_f.v`: the cache on the 68000 bus, the adapter behind it and
the SDRAM core. -/

structure System where
  bus : Bus
  cache : Cache.State
  ctrl : Controller.State
  core : Core

namespace System

/-- What the adapter samples: the 68000 bus, with its select from the cache. -/
def memBus (s : System) : Bus := { s.bus with csN := s.cache.memCsN }

def inputs (s : System) : Cache.MemoryInputs :=
  { rdata := s.ctrl.rdata, rdata32 := s.ctrl.rdata32, dtackN := s.ctrl.dtackN }

structure Step (before after : System) : Prop where
  cache : after.cache = before.cache.posedge before.bus before.inputs
  ctrl : after.ctrl = before.ctrl.posedge before.memBus before.core
  core : Core.Step before.ctrl.pulses before.core after.core
  bus : Bus.Step before.cache.dtackN after.cache.dtackN before.bus after.bus

/-- A request that the cache has taken from the bus and not acknowledged yet. -/
structure Requested (s : System) : Prop where
  start : s.bus.start = true
  dtack : s.cache.dtack = false

/-- What each state of the cache asks of the adapter. -/
def PhaseInvariant (s : System) : Prop :=
  match s.cache.state with
  | .IDLE => s.cache.dtack = false ∧ s.cache.memCsN = true
  | .LOOK => s.Requested ∧ s.bus.rwn = true ∧ s.cache.memCsN = true
  | .FILL => s.Requested ∧ s.bus.rwn = true ∧ s.cache.memCsN = false
  | .WRTH => s.Requested ∧ s.bus.rwn = false ∧ s.cache.memCsN = false
  | .ACK => s.cache.dtack = true ∧ s.cache.memCsN = true

variable {before after : System}

theorem Step.held (step : Step before after) (started : before.bus.start = true)
    (dtack : before.cache.dtack = false) (still : after.cache.dtack = false) :
    after.bus = before.bus :=
  (step.bus (Bus.start_selected started) (by simp [Cache.State.dtackN, dtack])
    (by simp [Cache.State.dtackN, still])).of_start started

/-- A request that is taken, or carried on, without an acknowledge. -/
theorem Step.requested {rwn : Bool} (step : Step before after) (started : before.bus.start = true)
    (dtack : before.cache.dtack = false) (direction : before.bus.rwn = rwn)
    (still : after.cache.dtack = false) : after.Requested ∧ after.bus.rwn = rwn := by
  have held := step.held started dtack still
  rw [held]
  exact ⟨⟨by rw [held, started], still⟩, direction⟩

theorem PhaseInvariant.step (invariant : before.PhaseInvariant) (step : Step before after) :
    after.PhaseInvariant := by
  have cache := step.cache
  have carried {rwn : Bool} (requested : before.Requested) (direction : before.bus.rwn = rwn)
      (same : after.cache.dtack = before.cache.dtack) : after.Requested ∧ after.bus.rwn = rwn :=
    step.requested requested.start requested.dtack direction (same.trans requested.dtack)
  unfold PhaseInvariant at invariant
  cases state : before.cache.state <;> rw [state] at invariant <;>
    simp only [Cache.State.posedge, state, Cache.State.sample] at cache
  case IDLE =>
    by_cases started : before.bus.start = true
    · have still : after.cache.dtack = false := by
        rw [cache, if_pos started]
        split <;> rfl
      cases direction : before.bus.rwn with
      | true =>
          obtain ⟨requested, same⟩ := step.requested started invariant.1 direction still
          rw [if_pos started, if_pos direction] at cache
          simp only [PhaseInvariant, cache]
          exact ⟨requested, same, trivial⟩
      | false =>
          obtain ⟨requested, same⟩ := step.requested started invariant.1 direction still
          rw [if_pos started, if_neg (ne_true_of_eq_false direction)] at cache
          simp only [PhaseInvariant, cache]
          exact ⟨requested, same, trivial⟩
    · rw [if_neg started] at cache
      simp [PhaseInvariant, cache]
  case LOOK =>
    obtain ⟨requested, direction, memCsN⟩ := invariant
    split at cache
    · simp [PhaseInvariant, cache, memCsN]
    · obtain ⟨next, direction⟩ := carried requested direction (by rw [cache])
      simp only [PhaseInvariant, cache]
      exact ⟨next, direction, trivial⟩
  case FILL | WRTH =>
    obtain ⟨requested, direction, memCsN⟩ := invariant
    split at cache
    · simp [PhaseInvariant, cache]
    · obtain ⟨next, direction⟩ := carried requested direction (by rw [cache])
      simp only [PhaseInvariant, cache]
      exact ⟨next, direction, memCsN⟩
  case ACK =>
    obtain ⟨dtack, memCsN⟩ := invariant
    split at cache
    · simp [PhaseInvariant, cache, memCsN]
    · simp [PhaseInvariant, cache, dtack, memCsN]

/-- A selected adapter has the cache's request on its bus, and the cache waits for it. -/
theorem PhaseInvariant.selected {s : System} (invariant : s.PhaseInvariant)
    (selected : s.cache.memCsN = false) : s.Requested ∧
      ((s.cache.state = .FILL ∧ s.bus.rwn = true) ∨
        (s.cache.state = .WRTH ∧ s.bus.rwn = false)) := by
  unfold PhaseInvariant at invariant
  cases state : s.cache.state <;> rw [state] at invariant
  case FILL => exact ⟨invariant.1, .inl ⟨rfl, invariant.2.1⟩⟩
  case WRTH => exact ⟨invariant.1, .inr ⟨rfl, invariant.2.1⟩⟩
  all_goals
    have high : s.cache.memCsN = true := by grind
    exact absurd selected (ne_false_of_eq_true high)

def behind (s : System) : Controller.Assembly := { bus := s.memBus, ctrl := s.ctrl, core := s.core }

/-- Towards the adapter the cache is a bus master that keeps its cycles open. -/
theorem Step.behind (step : Step before after) (invariant : before.PhaseInvariant) :
    Controller.Assembly.Step before.behind after.behind where
  ctrl := step.ctrl
  core := step.core
  bus := by
    intro selected unanswered _
    obtain ⟨requested, phase⟩ := invariant.selected selected
    have waits : after.cache.dtack = false ∧ after.cache.memCsN = false := by
      have high : before.inputs.dtackN = true := unanswered
      rw [step.cache]
      rcases phase with ⟨state, _⟩ | ⟨state, _⟩ <;>
        simp only [Cache.State.posedge, state, high, Cache.State.sample, Bool.not_true,
          Bool.false_eq_true, if_false] <;>
        exact ⟨requested.dtack, selected⟩
    have held := step.held requested.start requested.dtack waits.1
    have same : after.memBus = before.memBus := by
      rw [memBus, memBus, held, waits.2]
      exact congrArg (fun csN => { before.bus with csN }) selected.symm
    change Bus.Holds before.memBus after.memBus
    rw [same]
    exact ⟨rfl, rfl, rfl, fun _ => rfl⟩

/-- A behaviour of the path from reset. The RAMs of the cache are as power-up left them. -/
structure Run where
  exec : Execution Step
  cache : ∃ powerUp : Cache.State, (exec.state 0).cache = powerUp.reset
  ctrl : (exec.state 0).ctrl = Controller.State.reset
  powerUp : (exec.state 0).core.phase = .idle ∨
    ∃ clocks, (exec.state 0).core.phase = .init clocks

namespace Run

variable (run : Run)

def bus (n : Nat) : Bus := (run.exec.state n).bus
def cacheAt (n : Nat) : Cache.State := (run.exec.state n).cache
def core (n : Nat) : Core := (run.exec.state n).core

theorem phase (n : Nat) : (run.exec.state n).PhaseInvariant := by
  refine run.exec.invariant ?_ (fun before step => before.step step) n
  obtain ⟨powerUp, reset⟩ := run.cache
  simp [PhaseInvariant, reset, Cache.State.reset]

def behind : Controller.Run where
  exec := {
    state := fun n => (run.exec.state n).behind
    step := fun n => (run.exec.step n).behind (run.phase n) }
  reset := run.ctrl
  powerUp := run.powerUp

/-- The read and write commands that the core was given up to clock `n`. -/
def accesses (n : Nat) : List Command := run.behind.accesses n

end Run

end System

end Mackerel.Sdram
