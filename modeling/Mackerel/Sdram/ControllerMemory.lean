import Mackerel.Clocked.Execution
import Mackerel.Sdram.ControllerAssembly

namespace Mackerel.Sdram.Controller

open Clocked

/-- A behaviour of the adapter and its core from reset; the core may still have its chip
    to initialise. -/
structure Run where
  exec : Execution Assembly.Step
  reset : (exec.state 0).ctrl = State.reset
  powerUp : (exec.state 0).core.phase = .idle ∨
    ∃ clocks, (exec.state 0).core.phase = .init clocks

namespace Run

variable (run : Run)

def bus (n : Nat) : Bus := (run.exec.state n).bus
def ctrl (n : Nat) : State := (run.exec.state n).ctrl
def core (n : Nat) : Core := (run.exec.state n).core

/-- The acknowledge is asserted by the edge after clock `n`. -/
def Acks (n : Nat) : Prop := (run.ctrl n).dtackN = true ∧ (run.ctrl (n + 1)).dtackN = false

instance (n : Nat) : Decidable (run.Acks n) := inferInstanceAs (Decidable (_ ∧ _))

/-- The bus cycles acknowledged up to clock `n`, oldest first. -/
def acknowledged : Nat → List Bus
  | 0 => []
  | n + 1 => acknowledged n ++ if run.Acks n then [run.bus n] else []

/-- The read and write pulses up to clock `n`, oldest first. -/
def accesses : Nat → List Command
  | 0 => (run.ctrl 0).pulses.filter (· ≠ .refresh)
  | n + 1 => accesses n ++ (run.ctrl (n + 1)).pulses.filter (· ≠ .refresh)

/-- The memory that the acknowledged cycles leave. -/
def contents (n : Nat) : Cells := (run.acknowledged n).foldl Bus.store (run.core 0).cells

/-- At clock `n` the core was given `commands` for the open cycle, after all the commands
    of the acknowledged ones, and has carried out `carried` of them. -/
structure Accounted (n : Nat) (commands carried : List Command) : Prop where
  accesses : run.accesses n = (run.acknowledged n).flatMap Bus.commands ++ commands
  cells : (run.core n).cells = carried.foldl Command.apply (run.contents n)
  issued : commands <+: (run.bus n).commands
  carried : carried <+: commands
  requested : commands ≠ [] → (run.bus n).start = true ∧ (run.ctrl n).dtackN = true

theorem accounting (n : Nat) : ∃ commands,
    Assembly.PhaseInvariant (run.contents n) (run.exec.state n) commands ∧
    run.accesses n = (run.acknowledged n).flatMap Bus.commands ++ commands := by
  induction n with
  | zero =>
      have pulses : (run.exec.state 0).ctrl.pulses = [] := by
        rw [run.reset]
        rfl
      refine ⟨[], .idle (by rw [run.reset]; rfl) (by rw [run.reset]; rfl) pulses rfl ?_, ?_⟩
      · exact run.powerUp.imp_right fun init => ⟨by rw [run.reset]; rfl, init⟩
      · simp [accesses, acknowledged, ctrl, pulses]
  | succ n ih =>
      obtain ⟨commands, invariant, accounted⟩ := ih
      have acksIff : run.Acks n ↔ (run.exec.state n).ctrl.dtack = false ∧
          (run.exec.state (n + 1)).ctrl.dtack = true := by
        simp only [Acks, ctrl, State.dtackN_eq_true, State.dtackN_eq_false]
      cases invariant.step (run.exec.step n) with
      | on still next =>
          have silent : ¬ run.Acks n := by
            rw [acksIff]
            grind
          have same : run.acknowledged (n + 1) = run.acknowledged n := by
            simp [acknowledged, silent]
          refine ⟨commands ++ (run.ctrl (n + 1)).pulses.filter (· ≠ .refresh), ?_, ?_⟩
          · rw [contents, same]
            exact next
          · rw [accesses, accounted, same, List.append_assoc]
      | acks requested acked quiet all next _ =>
          have acks : run.Acks n := acksIff.mpr ⟨requested.dtack, acked⟩
          have grown : run.acknowledged (n + 1) = run.acknowledged n ++ [run.bus n] := by
            simp [acknowledged, acks]
          refine ⟨[], ?_, ?_⟩
          · rw [contents, grown, List.foldl_append]
            exact next
          · rw [accesses, accounted, grown, all]
            simp [ctrl, quiet, bus]

theorem advance (n : Nat) : ∃ commands,
    Assembly.Advance (run.contents n) commands (run.exec.state n) (run.exec.state (n + 1)) := by
  obtain ⟨commands, invariant, _⟩ := run.accounting n
  exact ⟨commands, invariant.step (run.exec.step n)⟩

theorem acked_of_dtackN {n : Nat} (low : (run.ctrl n).dtackN = false) :
    (run.ctrl n).state = .S_ACK ∧ run.Accounted n [] [] := by
  obtain ⟨commands, invariant, accesses⟩ := run.accounting n
  have dtack : (run.exec.state n).ctrl.dtack = true := State.dtackN_eq_false.mp low
  cases invariant with
  | idle _ high => exact absurd dtack (ne_true_of_eq_false high)
  | refresh _ high => exact absurd dtack (ne_true_of_eq_false high)
  | read _ requested => exact absurd dtack (ne_true_of_eq_false requested.dtack)
  | write _ _ _ _ requested => exact absurd dtack (ne_true_of_eq_false requested.dtack)
  | acked state _ _ cells _ =>
      exact ⟨state, accesses, cells, List.nil_prefix, List.nil_prefix, fun some => absurd rfl some⟩

theorem accounted (n : Nat) : ∃ commands carried, run.Accounted n commands carried := by
  obtain ⟨commands, invariant, accesses⟩ := run.accounting n
  have nothing : ([] : List Command) ≠ [] → (run.bus n).start = true ∧
      (run.ctrl n).dtackN = true := fun some => absurd rfl some
  cases invariant with
  | idle _ _ _ cells _ =>
      exact ⟨[], [], accesses, cells, List.nil_prefix, List.nil_prefix, nothing⟩
  | refresh _ _ outstanding =>
      exact ⟨[], [], accesses, outstanding.cells.elim id id, List.nil_prefix, List.nil_prefix, nothing⟩
  | read _ requested direction outstanding _ =>
      refine ⟨_, [], accesses, ?_, ?_, List.nil_prefix, fun _ =>
        ⟨requested.start, State.dtackN_eq_true.mpr requested.dtack⟩⟩
      · exact outstanding.cells.elim id id
      · simp [Bus.commands, bus, direction]
  | write earlier addr din _ requested _ outstanding order =>
      have issued : earlier ++ [.wr addr din] <+: (run.bus n).commands := ⟨_, order⟩
      have opened : (run.bus n).start = true ∧ (run.ctrl n).dtackN = true :=
        ⟨requested.start, State.dtackN_eq_true.mpr requested.dtack⟩
      rcases outstanding.cells with before | after
      · exact ⟨_, earlier, accesses, before, issued, List.prefix_append _ _, fun _ => opened⟩
      · refine ⟨_, earlier ++ [.wr addr din], accesses, ?_, issued, List.prefix_rfl,
          fun _ => opened⟩
        rw [List.foldl_append]
        exact after
  | acked _ _ _ cells _ =>
      exact ⟨[], [], accesses, cells, List.nil_prefix, List.nil_prefix, nothing⟩

theorem Acks.advance {run : Run} {n : Nat} (acks : run.Acks n) :
    (run.bus n).start = true ∧ ((run.bus n).rwn = true →
      (run.ctrl (n + 1)).rdata = bigEndianWord (run.contents n) (run.bus n).addr) := by
  obtain ⟨commands, advance⟩ := run.advance n
  cases advance with
  | on still =>
      have high := State.dtackN_eq_true.mp acks.1
      have low := State.dtackN_eq_false.mp acks.2
      rcases still with early | late
      · exact absurd early (ne_true_of_eq_false high)
      · exact absurd late (ne_false_of_eq_true low)
  | acks requested _ _ _ _ word => exact ⟨requested.start, word⟩

theorem held {n : Nat} (low : (run.ctrl n).dtackN = false) (selected : (run.bus n).csN = false) :
    (run.ctrl (n + 1)).dtackN = false ∧ (run.ctrl (n + 1)).rdata = (run.ctrl n).rdata := by
  have dtack := State.dtackN_eq_false.mp low
  cases (run.exec.step n).move (run.acked_of_dtackN low).1 with
  | acked _ silent _ still => exact ⟨State.dtackN_eq_false.mpr (still.trans dtack), silent.rdata⟩
  | released ended => exact absurd ended (ne_true_of_eq_false selected)

theorem released {n : Nat} (low : (run.ctrl n).dtackN = false) (ended : (run.bus n).csN = true) :
    (run.ctrl (n + 1)).dtackN = true := by
  cases (run.exec.step n).move (run.acked_of_dtackN low).1 with
  | acked selected => exact absurd selected (ne_false_of_eq_true ended)
  | released _ _ _ clear => exact State.dtackN_eq_true.mpr clear

end Run

end Mackerel.Sdram.Controller
