import Mackerel.Dram.RefreshHandshake

namespace Mackerel.Refresh

/-- The clocks that a phase outside an access is away from the idle one. -/
def Phase.delay : Phase → Nat
  | .idle | .access => 0
  | .settle => 1
  | .precharge => 2
  | .refresh4 => 3
  | .refresh3 => 4
  | .refresh2 => 5
  | .refresh1 => 6

namespace View

/-- A refresh is due, or falls due within so many clocks. -/
def Ahead (v : View) (clocks : Nat) : Prop := v.Pending ∨ 781 ≤ v.count + clocks

instance (v : View) (clocks : Nat) : Decidable (v.Ahead clocks) := inferInstanceAs (Decidable (_ ∨ _))

def distance (v : View) (flops : Nat) : Nat := flops + v.phase.delay

/-- The clocks before the access of a cycle that the input flip-flops show in `flops` clocks. -/
def wait (v : View) (flops : Nat) : Nat :=
  v.distance flops + if v.Ahead (v.distance flops) then 7 else 0

variable {before after : View} {busy flops : Nat}

theorem wait_le (v : View) (soon : flops ≤ 2) : v.wait flops ≤ 15 := by
  have delay : v.phase.delay ≤ 6 := by cases v.phase <;> decide
  rw [wait, distance]
  split <;> omega

/-- Every clock brings the access nearer, and a refresh in between is the only one. -/
theorem Timely.wait_step (timely : before.Timely busy) (counts : before.count ≤ 781)
    (bounded : busy ≤ 700) (step : Step before after) (soon : flops ≤ 2)
    (outside : before.phase ≠ .access)
    (begins : before.phase = .idle → before.request = false → flops = 0 → after.phase = .access) :
    after.phase = .access ∨ after.wait (flops - 1) < before.wait flops := by
  have pending := timely.pending_iff bounded step
  have count := step.count counts
  have expires := before.expires_iff
  have pendingNow : before.Pending ↔ before.request = true ∧ before.phase ≠ .refresh1 ∧
      before.phase ≠ .refresh2 := Iff.rfl
  have next := step.phase
  generalize beforePhase : before.phase = phase at next
  generalize afterPhase : after.phase = phase' at next
  cases next with
  | start | continues | ends => simp_all
  | wait | refresh | settled | cas | ras | casOff | rasOff | precharged | settles =>
      right
      simp only [wait, distance, Ahead, Timely, beforePhase, afterPhase, Phase.delay,
        reduceCtorEq] at *
      grind

/-- The clocks before the access, with the refresh that is due. -/
def ahead (v : View) (flops : Nat) : Nat := v.distance flops + if v.Pending then 7 else 0

/-- A second refresh may fall due before the first one is over. -/
def longest (v : View) (flops : Nat) : Nat :=
  v.ahead flops + if 781 ≤ v.count + v.ahead flops then 7 else 0

theorem longest_le (v : View) (soon : flops ≤ 2) : v.longest flops ≤ 22 := by
  have delay : v.phase.delay ≤ 6 := by cases v.phase <;> decide
  rw [longest, ahead, distance]
  split <;> split <;> omega

/-- In REFRESH2 the acknowledge is up, and takes the request away. -/
def Acknowledges (v : View) : Prop := v.phase = .refresh2 → v.refreshAck = true

theorem Acknowledges.step (step : Step before after) : after.Acknowledges := by
  intro second
  have next := step.phase
  have ack := step.refreshAck
  rw [second] at next
  generalize beforePhase : before.phase = phase at next
  cases next with
  | cas => simpa [beforePhase] using ack

theorem Step.longest_lt (step : Step before after) (counts : before.count ≤ 781)
    (acknowledges : before.Acknowledges) (soon : flops ≤ 2) (outside : before.phase ≠ .access)
    (begins : before.phase = .idle → before.request = false → flops = 0 → after.phase = .access) :
    after.phase = .access ∨ after.longest (flops - 1) < before.longest flops := by
  have request := step.request
  have count := step.count counts
  have expires := before.expires_iff
  have next := step.phase
  generalize beforePhase : before.phase = phase at next
  generalize afterPhase : after.phase = phase' at next
  cases next with
  | start | continues | ends => simp_all
  | wait | refresh | settled | cas | ras | casOff | rasOff | precharged | settles =>
      right
      simp only [longest, ahead, distance, Pending, Acknowledges, beforePhase, afterPhase, Phase.delay,
        reduceCtorEq] at *
      grind

end View

end Mackerel.Refresh
