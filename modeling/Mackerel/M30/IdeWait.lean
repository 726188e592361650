import Mackerel.Clocked.EventRuns
import Mackerel.M30.SystemController

namespace Mackerel.M30.SystemController

open Clocked.EventRuns

/-! IDE accesses in any order and at any distance: the pins may change at any moment between
two clocks. -/

/-- A rising edge of `CLK`, or a change of the pins. -/
inductive Event where
  | clk
  | pins (bus : Bus)
deriving DecidableEq

/-- The controller and its pins. `seen` are the rising edges that have seen the IDE access
    in progress. -/
structure System where
  bootSignal : BootSignal 4
  waits : WaitStates
  bus : Bus
  seen : Nat

namespace System

def csIdeN (s : System) : Bool := s.bus.csIdeN s.bootSignal.boot

def dsack1N (s : System) : Bool := (dsack s.bootSignal.boot s.bus s.waits).2

/-- `AS_n` is high at power-up. -/
def powerUp (bus : Bus) : System :=
  { bootSignal := .powerUp, waits := .clear, bus := { bus with asN := true }, seen := 0 }

def clk (s : System) : System :=
  { s with
    waits := s.waits.clock s.csIdeN (s.bus.csDuartN s.bootSignal.boot)
    seen := if s.csIdeN then 0 else s.seen + 1 }

def pins (s : System) (bus : Bus) : System :=
  let bootSignal :=
    if !s.bus.asN && bus.asN then s.bootSignal.posedge BOOT_CYCLE_MAX true else s.bootSignal
  { s with
    bootSignal, bus
    seen := if bus.csIdeN bootSignal.boot then 0 else s.seen }

def step (s : System) : Event → System
  | .clk => s.clk
  | .pins bus => s.pins bus

/-- After the first rising edge that sees an access the IDE branch asserts `DSACK1_n` only
    when the wait has been held for `IDE_WAIT + 1` clocks. -/
def FullWait (s : System) : Prop :=
  s.csIdeN = false → 1 ≤ s.seen → s.seen ≤ IDE_WAIT + 1 → s.dsack1N = true

instance (s : System) : Decidable s.FullWait := inferInstanceAs (Decidable (_ → _))

/-- An access that no rising edge has seen yet. -/
def Begins (s : System) : Prop := s.csIdeN = false ∧ s.seen = 0

def edges (events : List Event) : Nat := events.count .clk

theorem clk_seen (s : System) : s.clk.seen = if s.csIdeN then 0 else s.seen + 1 := rfl

theorem pins_seen (s : System) (bus : Bus) :
    (s.pins bus).seen = if (s.pins bus).csIdeN then 0 else s.seen := rfl

theorem fullWait_iff {s : System} (selected : s.csIdeN = false) :
    s.FullWait ↔ (1 ≤ s.seen → s.seen ≤ IDE_WAIT + 1 → s.waits.ideWaiting = true) := by
  simp [FullWait, selected, dsack1N, dsack_of_ide selected]

/-- The IDE part of one clock, apart from the DUART part. -/
theorem waits_clk (s : System) :
    s.clk.waits.ideWaiting = (s.waits.clockIde s.csIdeN).ideWaiting ∧
    s.clk.waits.ideWaitCnt = (s.waits.clockIde s.csIdeN).ideWaitCnt := by
  simp only [clk, WaitStates.clock, WaitStates.clockDuart]
  split
  · exact ⟨rfl, rfl⟩
  · split
    · exact ⟨rfl, rfl⟩
    · split <;> exact ⟨rfl, rfl⟩

/-- A wait in progress, `count` clocks after its start. -/
structure Waits (s : System) (count : Nat) : Prop where
  waiting : s.waits.ideWaiting = true
  count : s.waits.ideWaitCnt.toNat = count

theorem clk_starts {s : System} (selected : s.csIdeN = false) (idle : s.waits.ideWaiting = false) :
    s.clk.Waits 0 := by
  obtain ⟨waiting, count⟩ := s.waits_clk
  simp only [WaitStates.clockIde, selected, idle] at waiting count
  exact ⟨waiting, by simp [count]⟩

theorem Waits.clk {s : System} {count : Nat} (waits : s.Waits count) (short : count < IDE_WAIT) :
    s.clk.Waits (count + 1) := by
  obtain ⟨waiting, next⟩ := s.waits_clk
  have before := waits.count
  simp [WaitStates.clockIde, waits.waiting, before, short] at waiting next
  rw [← before] at short
  exact ⟨waiting, (congrArg BitVec.toNat next).trans
    ((WaitStates.toNat_succ short).trans (congrArg (· + 1) before))⟩

theorem Waits.runs_out {s : System} (waits : s.Waits IDE_WAIT) :
    s.clk.waits.ideWaiting = false := by
  obtain ⟨waiting, _⟩ := s.waits_clk
  simpa [WaitStates.clockIde, waits.waiting, waits.count] using waiting

theorem edges_concat (events : List Event) (event : Event) :
    edges (events ++ [event]) = edges events + if event = .clk then 1 else 0 := by
  simp only [edges, List.count_append, List.count_singleton, beq_iff_eq]

abbrev Selected (s : System) (access : List Event) : Prop :=
  Always step s access fun s => s.csIdeN = false

variable {s : System} {access : List Event}

theorem seen_eq_edges (begins : s.Begins) (selected : s.Selected access) :
    (after step s access).seen = edges access := by
  induction access using List.reverseRecOn with
  | nil => exact begins.2
  | append_singleton access event ih =>
      obtain ⟨earlier, now⟩ := always_concat.mp selected
      have before := ih earlier
      cases event with
      | clk => simp [step, clk_seen, edges_concat, before, earlier.last]
      | pins bus =>
          have still : ((after step s access).pins bus).csIdeN = false := now
          simp [step, pins_seen, edges_concat, before, still]

/-- An access whose first edge finds no wait running starts one of its own. -/
theorem waits_of_idle (idle : s.waits.ideWaiting = false)
    (selected : s.Selected access) (short : edges access ≤ IDE_WAIT + 1) :
    if edges access = 0 then (after step s access).waits.ideWaiting = false
    else (after step s access).Waits (edges access - 1) := by
  induction access using List.reverseRecOn with
  | nil => exact idle
  | append_singleton access event ih =>
      obtain ⟨earlier, now⟩ := always_concat.mp selected
      cases event with
      | pins bus =>
          simp only [edges_concat, reduceCtorEq, if_false, Nat.add_zero] at short ⊢
          have before := ih earlier short
          simp only [after_concat, step, pins] at before ⊢
          split at before
          · rename_i none
            simpa [none] using before
          · rename_i some
            simpa [some] using ⟨before.waiting, before.count⟩
      | clk =>
          simp only [edges_concat, if_true] at short ⊢
          have before := ih earlier (by omega)
          simp only [after_concat, step]
          split at before
          · rename_i none
            simpa [none] using clk_starts earlier.last before
          · rename_i some
            have next := before.clk (by omega)
            have count : edges access - 1 + 1 = edges access := by omega
            simpa [count] using next

/-- An access whose first edge finds a wait running only gets the rest of it. -/
theorem waits_of_running {count : Nat} (running : s.Waits count)
    (short : edges access + count ≤ IDE_WAIT) : (after step s access).Waits (edges access + count) := by
  induction access using List.reverseRecOn with
  | nil => simpa [edges] using running
  | append_singleton access event ih =>
      cases event with
      | pins bus =>
          simp only [edges_concat, reduceCtorEq, if_false, Nat.add_zero] at short ⊢
          have before := ih short
          simpa only [after_concat, step, pins] using ⟨before.waiting, before.count⟩
      | clk =>
          simp only [edges_concat, if_true] at short ⊢
          have next := (ih (by omega)).clk (by omega)
          simpa only [after_concat, step, Nat.add_right_comm _ 1 count] using next

theorem idle_of_ran_out {count : Nat} (running : s.Waits count) (bounded : count ≤ IDE_WAIT)
    (spent : edges access + count = IDE_WAIT + 1) :
    (after step s access).waits.ideWaiting = false := by
  induction access using List.reverseRecOn with
  | nil => simp [edges] at spent; omega
  | append_singleton access event ih =>
      cases event with
      | pins bus =>
          simp only [edges_concat, reduceCtorEq, if_false, Nat.add_zero] at spent
          simpa only [after_concat, step, pins] using ih spent
      | clk =>
          simp only [edges_concat, if_true] at spent
          have full : edges access + count = IDE_WAIT := by omega
          have last := waits_of_running running (Nat.le_of_eq full)
          rw [full] at last
          simpa only [after_concat, step] using last.runs_out

theorem exists_prefix_edges {count : Nat} (enough : count ≤ edges access) :
    ∃ past, past <+: access ∧ edges past = count := by
  induction access using List.reverseRecOn with
  | nil => exact ⟨[], List.prefix_refl _, (Nat.le_zero.mp enough).symm⟩
  | append_singleton access event ih =>
      by_cases earlier : count ≤ edges access
      · obtain ⟨past, before, same⟩ := ih earlier
        exact ⟨past, before.trans (List.prefix_append _ _), same⟩
      · refine ⟨access ++ [event], List.prefix_refl _, ?_⟩
        rw [edges_concat] at enough ⊢
        split at enough <;> simp_all <;> omega

/-- Exactly when every state of an access keeps the full wait. -/
theorem access_fullWait_iff (begins : s.Begins) (bounded : s.waits.ideWaitCnt.toNat ≤ IDE_WAIT)
    (selected : s.Selected access) :
    Always step s access FullWait ↔
      s.waits.ideWaiting = false ∨ edges access + s.waits.ideWaitCnt.toNat ≤ IDE_WAIT := by
  have within {past : List Event} (before : past <+: access) : s.Selected past :=
    fun earlier prior => selected earlier (prior.trans before)
  constructor
  · intro full
    by_contra broken
    simp only [not_or, Bool.not_eq_false, not_le] at broken
    obtain ⟨running, long⟩ := broken
    -- the edge at which the inherited wait runs out
    have enough : IDE_WAIT + 1 - s.waits.ideWaitCnt.toNat ≤ edges access := by omega
    obtain ⟨past, before, count⟩ := exists_prefix_edges enough
    have spent : edges past + s.waits.ideWaitCnt.toNat = IDE_WAIT + 1 := by omega
    have idle := idle_of_ran_out ⟨running, rfl⟩ bounded spent
    have seen := seen_eq_edges begins (within before)
    have waiting := (fullWait_iff (within before).last).mp (full past before) (by omega) (by omega)
    exact absurd idle (ne_false_of_eq_true waiting)
  · intro holds past before
    have seen := seen_eq_edges begins (within before)
    refine (fullWait_iff (within before).last).mpr fun some short => ?_
    rcases holds with idle | short
    · have waits := waits_of_idle idle (within before) (by omega)
      rw [if_neg (by omega)] at waits
      exact waits.waiting
    · cases running : s.waits.ideWaiting with
      | false =>
          have waits := waits_of_idle running (within before) (by omega)
          rw [if_neg (by omega)] at waits
          exact waits.waiting
      | true =>
          have fewer : edges past ≤ edges access := before.sublist.count_le _
          have left : edges past + s.waits.ideWaitCnt.toNat ≤ IDE_WAIT := by omega
          exact (waits_of_running ⟨running, rfl⟩ left).waiting

theorem seen_of_unselected (bus : Bus) (events : List Event) :
    (after step (powerUp bus) events).csIdeN = true → (after step (powerUp bus) events).seen = 0 := by
  refine (always_of_step (P := fun s : System => s.csIdeN = true → s.seen = 0) (fun _ => rfl)
    (fun s event _ unselected => ?_) events).last
  cases event with
  | clk => simp [step, clk_seen, show s.csIdeN = true from unselected]
  | pins bus => simp [step, pins_seen, show (s.pins bus).csIdeN = true from unselected]

theorem begins_of_selected {event : Event} (unseen : s.seen = 0) (unselected : s.csIdeN = true)
    (selected : (s.step event).csIdeN = false) : (s.step event).Begins := by
  cases event with
  | clk => exact absurd selected (ne_false_of_eq_true unselected)
  | pins bus => exact ⟨selected, by simp [step, pins_seen, unseen]⟩

theorem ideWaitCnt_le (bus : Bus) (events : List Event) :
    (after step (powerUp bus) events).waits.ideWaitCnt.toNat ≤ IDE_WAIT := by
  refine (always_of_step (P := fun s : System => s.waits.ideWaitCnt.toNat ≤ IDE_WAIT)
    (Nat.zero_le _) (fun s event bounded => ?_) events).last
  cases event with
  | pins bus => exact bounded
  | clk =>
      obtain ⟨_, next⟩ := s.waits_clk
      simp only [step, next, WaitStates.clockIde]
      split
      · simp
      · split
        · rename_i short
          simp only [Bool.and_eq_true, decide_eq_true_eq] at short
          exact (WaitStates.toNat_succ short.2).trans_le short.2
        · split <;> exact bounded

/-- A cycle that selects IDE `CS0` or `CS1`. -/
def ideCycle (am : BitVec 4) (asN : Bool) : Bus :=
  { asN, dsN := asN, rw := true, fc := 0b101, ah := 0b1111, am, al := 0
    dsack0DramN := true, dsack1DramN := true, dsack0FpuN := true, dsack1FpuN := true }

/-- The wait of every access is full exactly when each access finds no wait running at its
    first edge, or is shorter than what is left of it. -/
theorem ide_full_wait_iff (bus : Bus) (events : List Event) :
    Always step (powerUp bus) events FullWait ↔
      ∀ past access, past ++ access <+: events → (after step (powerUp bus) past).Begins →
        (after step (powerUp bus) past).Selected access →
        (after step (powerUp bus) past).waits.ideWaiting = false ∨
          edges access + (after step (powerUp bus) past).waits.ideWaitCnt.toNat ≤ IDE_WAIT := by
  constructor
  · intro full past access before begins selected
    refine (access_fullWait_iff begins (ideWaitCnt_le bus past) selected).mp fun current prior => ?_
    rw [← after_append]
    exact full _ (((List.prefix_append_right_inj past).mpr prior).trans before)
  · intro holds past before
    by_cases now : (after step (powerUp bus) past).csIdeN = false
    · obtain ⟨earlier, event, access, rfl, unselected, selected⟩ := exists_period
        (P := fun s : System => s.csIdeN = false) (by simp [powerUp, csIdeN, Bus.csIdeN]) now
      have begins : (after step (powerUp bus) (earlier ++ [event])).Begins := by
        have first := selected [] List.nil_prefix
        rw [after_nil, after_concat] at first
        rw [after_concat]
        simp only [Bool.not_eq_false] at unselected
        exact begins_of_selected (seen_of_unselected bus earlier unselected) unselected first
      have full := (access_fullWait_iff begins (ideWaitCnt_le bus _) selected).mpr
        (holds _ access before begins selected)
      simpa only [after_append] using full.last
    · exact fun selected => absurd selected now

/-- Nine bus cycles bring `BOOT` up. Then one access takes 17 clocks, and another one begins
    three clocks later. -/
def closeAccesses : List Event :=
  (List.replicate 9 [.pins (ideCycle 1 false), .pins (ideCycle 1 true)]).flatten ++
    [.pins (ideCycle 1 false)] ++ List.replicate 17 .clk ++
    [.pins (ideCycle 1 true)] ++ List.replicate 3 .clk ++
    [.pins (ideCycle 2 false)] ++ List.replicate 12 .clk

/-- After twelve edges of the second access, not sixteen, its DSACK is asserted. -/
theorem close_access_acknowledged_early :
    ¬ Always step (powerUp (ideCycle 1 true)) closeAccesses FullWait :=
  fun full => absurd full.last (by decide +kernel)

end System

end Mackerel.M30.SystemController
