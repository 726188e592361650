import Mackerel.Clocked.Driven
import Mackerel.Clocked.Latches

namespace Wishbone

/-! A level-sensitive bus in front of a Wishbone master: one transfer for each access. -/

open Clocked

inductive FsmState where
  | IDLE | REQ | DONE
deriving DecidableEq

/-- One clock of the master: a start raises the strobe, the acknowledge of the core ends it, and the
    release of the select ends the access. -/
def FsmState.next (start ack csN : Bool) : FsmState → FsmState
  | .IDLE => if start then .REQ else .IDLE
  | .REQ => if ack then .DONE else .REQ
  | .DONE => if csN then .IDLE else .DONE

/-- What the master samples at every clock; an access can start only while it is selected. -/
structure Signals where
  csN : Nat → Bool
  start : Nat → Bool
  ack : Nat → Bool
  selected : ∀ n, start n = true → csN n = false

namespace Signals

variable (signals : Signals)

/-- The state at every clock, from reset. -/
def state : Nat → FsmState :=
  driven (fun n => FsmState.next (signals.start n) (signals.ack n) (signals.csN n)) .IDLE

def stb (n : Nat) : Bool := signals.state n = .REQ

/-- The select falls at `first` and rises at `release`. -/
structure Access (first release : Nat) : Prop where
  lt : first < release
  low : ∀ n, first ≤ n → n < release → signals.csN n = false
  begins : ∀ n, first = n + 1 → signals.csN n = true
  released : signals.csN release = true

/-- The first clock with the strobe in an access. -/
structure Strobes (first release strobe : Nat) : Prop where
  lower : first ≤ strobe
  upper : strobe < release
  start : signals.start strobe = true
  none : ∀ n, first ≤ n → n < strobe → signals.start n = false

/-- The core answers each strobe, and the access lasts until it has. -/
def Covers : Prop :=
  ∀ first release strobe, signals.Access first release → signals.Strobes first release strobe →
    ∃ acked, strobe < acked ∧ acked < release ∧ First (fun n => signals.ack n = true) (strobe + 1) acked

/-- The transfer of an access: one interval with the strobe of the core, up to the first acknowledge, which
    is the only clock at which the core takes it; from then on to the release DTACK is asserted. -/
structure Transfer (stb dtackN : Nat → Bool) (first release strobe acked : Nat) : Prop where
  inside : first ≤ strobe
  after : strobe < acked
  before : acked < release
  acknowledge : First (fun n => signals.ack n = true) (strobe + 1) acked
  strobed : ∀ n, first ≤ n → n ≤ release → (stb n = true ↔ strobe < n ∧ n ≤ acked)
  once : ∀ n, first ≤ n → n ≤ release → (stb n = true ∧ signals.ack n = true ↔ n = acked)
  dtack : ∀ n, first ≤ n → n ≤ release → (dtackN n = false ↔ acked < n)

variable {signals} {n m first release strobe acked : Nat}

theorem state_succ (n : Nat) : signals.state (n + 1) =
    (signals.state n).next (signals.start n) (signals.ack n) (signals.csN n) := rfl

theorem start_of_released (released : signals.csN n = true) : signals.start n = false := by
  by_contra start
  have low := signals.selected n (by simpa using start)
  exact absurd (released.symm.trans low) (by decide)

/-- The select takes a master that waits for nothing back to its first state. -/
theorem idle_of_released (released : signals.csN n = true) (answered : signals.state n ≠ .REQ) :
    signals.state (n + 1) = .IDLE := by
  rw [state_succ]
  cases state : signals.state n with
  | IDLE => simp [FsmState.next, start_of_released released]
  | REQ => exact absurd state answered
  | DONE => simp [FsmState.next, released]

theorem idle_until (le : m ≤ n) (idle : signals.state m = .IDLE)
    (none : ∀ k, m ≤ k → k < n → signals.start k = false) : signals.state n = .IDLE := by
  induction n, le using Nat.le_induction with
  | base => exact idle
  | succ n le ih =>
      have here := ih fun k lower upper => none k lower (Nat.lt_succ_of_lt upper)
      simp [state_succ, here, FsmState.next, none n le (Nat.lt_succ_self n)]

theorem requests_until (after : strobe < n) (idle : signals.state strobe = .IDLE)
    (start : signals.start strobe = true)
    (none : ∀ k, strobe < k → k < n → signals.ack k = false) : signals.state n = .REQ := by
  induction n, after using Nat.le_induction with
  | base => simp [state_succ, idle, FsmState.next, start]
  | succ n after ih =>
      have here := ih fun k lower upper => none k lower (Nat.lt_succ_of_lt upper)
      simp [state_succ, here, FsmState.next, none n after (Nat.lt_succ_self n)]

theorem done_until (after : acked < n) (requests : signals.state acked = .REQ)
    (ack : signals.ack acked = true)
    (low : ∀ k, acked < k → k < n → signals.csN k = false) : signals.state n = .DONE := by
  induction n, after using Nat.le_induction with
  | base => simp [state_succ, requests, FsmState.next, ack]
  | succ n after ih =>
      have here := ih fun k lower upper => low k lower (Nat.lt_succ_of_lt upper)
      simp [state_succ, here, FsmState.next, low n after (Nat.lt_succ_self n)]

/-- The three phases of an access with a strobe. -/
structure Phases (first release strobe acked : Nat) : Prop where
  idle : ∀ n, first ≤ n → n ≤ strobe → signals.state n = .IDLE
  requests : ∀ n, strobe < n → n ≤ acked → signals.state n = .REQ
  done : ∀ n, acked < n → n ≤ release → signals.state n = .DONE

theorem Access.phases (access : signals.Access first release) (idle : signals.state first = .IDLE)
    (strobes : signals.Strobes first release strobe) (after : strobe < acked)
    (acknowledge : First (fun n => signals.ack n = true) (strobe + 1) acked) :
    signals.Phases first release strobe acked := by
  have waits (n : Nat) (lower : first ≤ n) (upper : n ≤ strobe) : signals.state n = .IDLE :=
    idle_until lower idle fun k low high => strobes.none k low (by omega)
  have requests (n : Nat) (lower : strobe < n) (upper : n ≤ acked) : signals.state n = .REQ :=
    requests_until lower (waits strobe strobes.lower (Nat.le_refl _)) strobes.start fun k low high =>
      by simpa using acknowledge.2 k low (by omega)
  refine ⟨waits, requests, fun n lower upper => ?_⟩
  have ack : signals.ack acked = true := acknowledge.1
  have lower_first := strobes.lower
  exact done_until lower (requests acked after (Nat.le_refl _)) ack fun k low high =>
    access.low k (by omega) (by omega)

/-- The first strobe of an access that has one. -/
theorem exists_strobes (lower : first ≤ n) (upper : n < release) (start : signals.start n = true) :
    ∃ strobe, signals.Strobes first release strobe := by
  induction n using Nat.strong_induction_on with
  | _ n ih =>
      by_cases earlier : ∃ k, first ≤ k ∧ k < n ∧ signals.start k = true
      · obtain ⟨k, low, high, begins⟩ := earlier
        exact ih k high low (by omega) begins
      · refine ⟨n, lower, upper, start, fun k low high => ?_⟩
        by_contra begins
        exact earlier ⟨k, low, high, by simpa using begins⟩

/-- The access that a selected clock belongs to. -/
theorem exists_begin (low : signals.csN n = false) : ∃ first ≤ n,
    (∀ k, first ≤ k → k ≤ n → signals.csN k = false) ∧ ∀ k, first = k + 1 → signals.csN k = true := by
  induction n with
  | zero => exact ⟨0, Nat.le_refl 0, fun k _ upper => (Nat.le_zero.mp upper) ▸ low, by simp⟩
  | succ n ih =>
      by_cases before : signals.csN n = false
      · obtain ⟨first, le, held, begins⟩ := ih before
        refine ⟨first, Nat.le_succ_of_le le, fun k lower upper => ?_, begins⟩
        rcases Nat.le_succ_iff.mp upper with earlier | rfl
        · exact held k lower earlier
        · exact low
      · refine ⟨n + 1, Nat.le_refl _, fun k lower upper => (by omega : k = n + 1) ▸ low, ?_⟩
        intro k same
        obtain rfl : n = k := by omega
        simpa using before

section Covered

variable (covers : signals.Covers)

include covers

/-- At the release the transfer is over. -/
theorem Access.answered (access : signals.Access first release) (idle : signals.state first = .IDLE) :
    signals.state release ≠ .REQ := by
  by_cases strobed : ∃ n, first ≤ n ∧ n < release ∧ signals.start n = true
  · obtain ⟨n, lower, upper, start⟩ := strobed
    obtain ⟨strobe, strobes⟩ := exists_strobes lower upper start
    obtain ⟨acked, after, before, acknowledge⟩ := covers first release strobe access strobes
    rw [(access.phases idle strobes after acknowledge).done release before (Nat.le_refl _)]
    decide
  · have none (k : Nat) (lower : first ≤ k) (upper : k < release) : signals.start k = false := by
      by_contra start
      exact strobed ⟨k, lower, upper, by simpa using start⟩
    rw [idle_until (Nat.le_of_lt access.lt) idle none]
    decide

theorem not_requests (released : signals.csN n = true) : signals.state n ≠ .REQ := by
  induction n using Nat.strong_induction_on with
  | _ n ih =>
      cases n with
      | zero => exact (by decide : FsmState.IDLE ≠ .REQ)
      | succ n =>
          by_cases before : signals.csN n = true
          · rw [idle_of_released before (ih n (Nat.lt_succ_self n) before)]
            decide
          · obtain ⟨first, le, low, begins⟩ := exists_begin (by simpa using before : signals.csN n = false)
            have access : signals.Access first (n + 1) :=
              ⟨Nat.lt_succ_of_le le, fun k lower upper => low k lower (Nat.le_of_lt_succ upper), begins,
                released⟩
            refine access.answered covers ?_
            cases first with
            | zero => rfl
            | succ k => exact idle_of_released (begins k rfl) (ih k (by omega) (begins k rfl))

theorem Access.idle (access : signals.Access first release) : signals.state first = .IDLE := by
  cases first with
  | zero => rfl
  | succ k => exact idle_of_released (access.begins k rfl) (not_requests covers (access.begins k rfl))

/-- An access with a strobe is one transfer. -/
theorem Access.transfer (access : signals.Access first release)
    (strobes : signals.Strobes first release strobe) {dtackN : Nat → Bool}
    (dtack : ∀ n, first ≤ n → n ≤ release → dtackN n = !decide (signals.state n = .DONE)) :
    ∃ acked, signals.Transfer signals.stb dtackN first release strobe acked := by
  obtain ⟨acked, after, before, acknowledge⟩ := covers first release strobe access strobes
  have phases := access.phases (access.idle covers) strobes after acknowledge
  have stb (n : Nat) (lower : first ≤ n) (upper : n ≤ release) :
      signals.stb n = true ↔ strobe < n ∧ n ≤ acked := by
    rw [Signals.stb, decide_eq_true_eq]
    by_cases early : n ≤ strobe
    · simp [phases.idle n lower early, Nat.not_lt.mpr early]
    · by_cases late : n ≤ acked
      · simp [phases.requests n (by omega) late, Nat.lt_of_not_le early, late]
      · simp [phases.done n (by omega) upper, late]
  refine ⟨acked, strobes.lower, after, before, acknowledge, stb, fun n lower upper => ?_, fun n lower upper => ?_⟩
  · rw [stb n lower upper]
    constructor
    · intro ⟨⟨started, within⟩, ack⟩
      by_contra other
      exact acknowledge.2 n started (by omega) ack
    · rintro rfl
      exact ⟨⟨after, Nat.le_refl _⟩, acknowledge.1⟩
  · rw [dtack n lower upper, Bool.not_eq_false', decide_eq_true_eq]
    by_cases early : n ≤ strobe
    · simp [phases.idle n lower early]
      omega
    · by_cases late : n ≤ acked
      · simp [phases.requests n (by omega) late]
        omega
      · simp [phases.done n (by omega) upper]
        omega

end Covered

end Signals

end Wishbone
