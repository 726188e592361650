import Mackerel.Dram.RefreshGenerator

namespace Mackerel.Refresh

/-! The handshake between the refresh generator and a controller, apart from what else the
controller does. -/

/-- Where a controller is: `settle` is an idle state that only waits for the precharge, and
    `access` stands for every RW state. -/
inductive Phase where
  | idle | settle | access | refresh1 | refresh2 | refresh3 | refresh4 | precharge
deriving DecidableEq

/-- What a refresh reads and drives in a controller. -/
structure View where
  phase : Phase
  refreshAck : Bool
  generator : RefreshGenerator
  ras : List Bool
  cas : List Bool
  wr : List Bool

def AllHigh (lines : List Bool) : Prop := ∀ line ∈ lines, line = true

def AllLow (lines : List Bool) : Prop := ∀ line ∈ lines, line = false

namespace View

def request (v : View) : Bool := v.generator.refreshRequest

def count (v : View) : Nat := v.generator.cycleCount.toNat

/-- The next clock raises a request. -/
def Expires (v : View) : Prop := v.generator.cycleCount = REFRESH_CYCLE_CNT

inductive Next (v : View) : Phase → Phase → Prop where
  | refresh : v.request = true → Next v .idle .refresh1
  | start : v.request = false → Next v .idle .access
  | wait : v.request = false → Next v .idle .idle
  | settled : Next v .settle .idle
  | continues : Next v .access .access
  | ends : Next v .access .precharge
  | cas : Next v .refresh1 .refresh2
  | ras : Next v .refresh2 .refresh3
  | casOff : Next v .refresh3 .refresh4
  | rasOff : Next v .refresh4 .precharge
  | precharged : Next v .precharge .idle
  | settles : Next v .precharge .settle

def Strobes (before after : View) : Prop :=
  match before.phase with
  | .idle | .settle => after.ras = before.ras ∧ after.cas = before.cas
  | .access => True
  | .refresh1 => after.ras = before.ras ∧ AllLow after.cas ∧ AllHigh after.wr
  | .refresh2 => AllLow after.ras ∧ after.cas = before.cas ∧ after.wr = before.wr
  | .refresh3 => after.ras = before.ras ∧ AllHigh after.cas ∧ after.wr = before.wr
  | .refresh4 => AllHigh after.ras ∧ after.cas = before.cas
  | .precharge => AllHigh after.ras ∧ AllHigh after.cas

structure Step (before after : View) : Prop where
  generator : after.generator = before.generator.clock true before.refreshAck
  phase : before.Next before.phase after.phase
  refreshAck : after.refreshAck =
    if before.phase = .refresh1 then true
    else if before.phase = .precharge then false
    else before.refreshAck
  strobes : before.Strobes after

instance (v : View) : Decidable v.Expires := inferInstanceAs (Decidable (_ = _))

theorem expires_iff (v : View) : v.Expires ↔ v.count = 781 := by
  simp only [Expires, View.count, ← BitVec.toNat_inj]
  rfl

variable {before after : View}

theorem Step.request (step : Step before after) :
    after.request = (!before.refreshAck && (decide before.Expires || before.request)) := by
  simp only [View.request, step.generator, RefreshGenerator.clock, Expires]
  cases before.refreshAck <;> by_cases expires : before.generator.cycleCount = REFRESH_CYCLE_CNT <;>
    simp [expires]

theorem Step.count (step : Step before after) (bounded : before.count ≤ 781) :
    after.count = if before.count = 781 then 0 else before.count + 1 := by
  have cycleCount : after.generator.cycleCount =
      if before.Expires then 0 else before.generator.cycleCount + 1 := by
    simp only [step.generator, RefreshGenerator.clock, Expires]
    cases before.refreshAck <;> by_cases expires : before.generator.cycleCount = REFRESH_CYCLE_CNT <;>
      simp [expires]
  simp only [expires_iff] at cycleCount
  simp only [View.count] at bounded cycleCount ⊢
  by_cases last : before.generator.cycleCount.toNat = 781
  · simp [cycleCount, last]
  · simp [cycleCount, last, BitVec.toNat_add]
    omega

/-- How old a request can be in each phase, `busy` clocks after the access began. An
    acknowledge that was left over goes with the first access. -/
def Timely (v : View) (busy : Nat) : Prop :=
  match v.phase with
  | .idle => (v.request = true → v.count ≤ 702) ∧ (v.refreshAck = true → v.request = true)
  | .settle => (v.request = true → v.count ≤ 701) ∧ v.refreshAck = false
  | .access => if v.refreshAck then v.request = false ∧ v.count ≤ busy + 1
      else v.request = true → v.count < busy
  | .precharge => if v.refreshAck then v.request = false ∧ v.count ≤ 707
      else v.request = true → v.count ≤ 700
  | .refresh1 => v.count ≤ 703
  | .refresh2 => v.refreshAck = true ∧ v.count ≤ 704
  | .refresh3 => v.refreshAck = true ∧ v.request = false ∧ v.count ≤ 705
  | .refresh4 => v.refreshAck = true ∧ v.request = false ∧ v.count ≤ 706

def busyAfter (v : View) (busy : Nat) : Nat := if v.phase = .access then busy + 1 else 0

theorem Timely.step {busy : Nat} (timely : before.Timely busy) (counts : before.count ≤ 781)
    (bounded : busy ≤ 700) (step : Step before after) :
    after.Timely (after.busyAfter busy) := by
  have request := step.request
  have count := step.count counts
  have ack := step.refreshAck
  have expires := before.expires_iff
  have next := step.phase
  generalize beforePhase : before.phase = phase at next
  generalize afterPhase : after.phase = phase' at next
  cases next <;>
    simp only [Timely, busyAfter, beforePhase, afterPhase, reduceCtorEq, if_true, if_false] at *
  all_goals grind

/-- The strobes of a controller that may begin a refresh. -/
def Precharged (v : View) : Prop :=
  v.phase = .idle ∨ v.phase = .settle ∨ v.phase = .refresh1 → AllHigh v.ras ∧ AllHigh v.cas

theorem Precharged.step (precharged : before.Precharged) (step : Step before after) :
    after.Precharged := by
  have next := step.phase
  have strobes := step.strobes
  generalize beforePhase : before.phase = phase at next
  generalize afterPhase : after.phase = phase' at next
  cases next <;> simp_all [Precharged, Strobes]

theorem Timely.idle {v : View} {busy : Nat} (timely : v.Timely busy) (bounded : busy ≤ 700)
    (expires : v.Expires) : v.request = false ∧ v.refreshAck = false := by
  rw [expires_iff] at expires
  unfold Timely at timely
  split at timely <;> grind

/-- A request whose sequence has not started. -/
def Pending (v : View) : Prop :=
  v.request = true ∧ v.phase ≠ .refresh1 ∧ v.phase ≠ .refresh2

instance (v : View) : Decidable v.Pending := inferInstanceAs (Decidable (_ ∧ _))

theorem Timely.pending_iff {busy : Nat} (timely : before.Timely busy) (bounded : busy ≤ 700)
    (step : Step before after) :
    after.Pending ↔ after.phase ≠ .refresh1 ∧ (before.Expires ∨ before.Pending) := by
  have request := step.request
  have expires := before.expires_iff
  have next := step.phase
  generalize beforePhase : before.phase = phase at next
  generalize afterPhase : after.phase = phase' at next
  cases next <;>
    simp only [Timely, Pending, beforePhase, afterPhase] at * <;>
    grind

theorem Step.pending_of_refresh1 (step : Step before after) (starts : after.phase = .refresh1) :
    before.Pending := by
  have next := step.phase
  generalize beforePhase : before.phase = phase at next
  rw [starts] at next
  cases next with
  | refresh request => simp [Pending, request, beforePhase]

theorem Timely.pending_count {v : View} {busy : Nat} (timely : v.Timely busy)
    (bounded : busy ≤ 700) (pending : v.Pending) : v.count ≤ 702 := by
  obtain ⟨request, notFirst, notSecond⟩ := pending
  unfold Timely at timely
  split at timely <;> grind

theorem Step.starts (step : Step before after) (idle : before.phase = .idle)
    (request : before.request = true) : after.phase = .refresh1 := by
  have next := step.phase
  generalize before.phase = phase at *
  generalize after.phase = phase' at *
  cases next <;> simp_all

theorem Step.sequence (step : Step before after) :
    (before.phase = .refresh1 → after.phase = .refresh2) ∧
    (before.phase = .refresh2 → after.phase = .refresh3) ∧
    (before.phase = .refresh3 → after.phase = .refresh4) ∧
    (before.phase = .refresh4 → after.phase = .precharge) := by
  have next := step.phase
  generalize before.phase = phase at *
  generalize after.phase = phase' at *
  cases next <;> simp

end View

end Mackerel.Refresh
