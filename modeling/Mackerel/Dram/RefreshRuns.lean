import Mathlib.Data.Nat.Count
import Mackerel.Clocked.Execution
import Mackerel.Clocked.Latches
import Mackerel.Dram.RefreshHandshake

namespace Mackerel.Refresh

open Clocked View

/-- One REFRESH1 to REFRESH4 sequence: every CAS falls one clock before every RAS, with WR
    high. -/
structure Sequence (view : Nat → View) (m : Nat) : Prop where
  phases : (view m).phase = .refresh1 ∧ (view (m + 1)).phase = .refresh2 ∧
    (view (m + 2)).phase = .refresh3 ∧ (view (m + 3)).phase = .refresh4
  idle : AllHigh (view m).ras ∧ AllHigh (view m).cas
  casFall : AllHigh (view (m + 1)).ras ∧ AllLow (view (m + 1)).cas ∧ AllHigh (view (m + 1)).wr
  rasFall : AllLow (view (m + 2)).ras ∧ AllLow (view (m + 2)).cas ∧ AllHigh (view (m + 2)).wr
  casRise : AllLow (view (m + 3)).ras ∧ AllHigh (view (m + 3)).cas
  rasRise : AllHigh (view (m + 4)).ras ∧ AllHigh (view (m + 4)).cas

/-- The expiry at clock `n` is answered by one sequence, over before the next expiry. -/
structure Answered (view : Nat → View) (n : Nat) : Prop where
  idle : (view n).request = false ∧ (view n).refreshAck = false
  next : (view (n + 782)).Expires ∧ ∀ k, n < k → k < n + 782 → ¬ (view k).Expires
  sequence : ∃ m, n < m ∧ m + 4 ≤ n + 782 ∧ Sequence view m ∧
    ∀ k, n < k → k ≤ n + 782 → (view k).phase = .refresh1 → k = m

def expiries (view : Nat → View) (n : Nat) : Nat := Nat.count (fun k => (view k).Expires) n

/-- The sequences started up to clock `n`. -/
def starts (view : Nat → View) (n : Nat) : Nat :=
  Nat.count (fun k => (view (k + 1)).phase = .refresh1) n

/-- An expiry before clock `n` whose sequence has not started. -/
def Waiting (view : Nat → View) (n : Nat) : Prop :=
  ∃ e < n, (view e).Expires ∧ ∀ k, e < k → k ≤ n → (view k).phase ≠ .refresh1

/-- No refresh is lost or done twice. -/
structure Complete (view : Nat → View) : Prop where
  answered : ∀ n, (view n).Expires → Answered view n
  accounted : ∀ n, (Waiting view n ∧ starts view n + 1 = expiries view n) ∨
    (¬ Waiting view n ∧ starts view n = expiries view n)

/-- No access lasts for more than 700 clocks. -/
def Bounded (view : Nat → View) : Prop := ∀ n, ∃ k ≤ 700, (view (n + k)).phase ≠ .access

structure Sound (v : View) (busy : Nat) : Prop where
  counts : v.count ≤ 781
  timely : v.Timely busy
  precharged : v.Precharged

theorem Sound.step {before after : View} {busy : Nat} (sound : Sound before busy)
    (bounded : busy ≤ 700) (step : Step before after) : Sound after (after.busyAfter busy) := by
  refine ⟨?_, sound.timely.step sound.counts bounded step, sound.precharged.step step⟩
  rw [step.count sound.counts]
  split
  · exact Nat.zero_le _
  · exact Nat.lt_of_le_of_ne sound.counts (by assumption)

section Runs

variable {run : Execution Step}

def busy (run : Execution Step) : Nat → Nat
  | 0 => (run.state 0).busyAfter 0
  | n + 1 => (run.state (n + 1)).busyAfter (busy run n)

theorem access_of_busy {n k : Nat} (within : k < busy run n) :
    k ≤ n ∧ (run.state (n - k)).phase = .access := by
  induction n generalizing k with
  | zero =>
      simp only [busy, busyAfter] at within
      split at within
      · simp_all
      · exact absurd within (Nat.not_lt_zero k)
  | succ n ih =>
      simp only [busy, busyAfter] at within
      split at within
      · cases k with
        | zero => simpa
        | succ k =>
            obtain ⟨upper, access⟩ := ih (Nat.lt_of_succ_lt_succ within)
            exact ⟨Nat.succ_le_succ upper, by simpa using access⟩
      · exact absurd within (Nat.not_lt_zero k)

theorem busy_le (bounded : Bounded run.state) (n : Nat) : busy run n ≤ 700 := by
  by_contra long
  have first := access_of_busy (show 700 < busy run n by omega)
  obtain ⟨k, upper, elsewhere⟩ := bounded (n - 700)
  have access := (access_of_busy (show 700 - k < busy run n by omega)).2
  rw [show n - (700 - k) = n - 700 + k by omega] at access
  exact elsewhere access

theorem sound (initial : Sound (run.state 0) (busy run 0)) (bounded : Bounded run.state) (n : Nat) :
    Sound (run.state n) (busy run n) := by
  induction n with
  | zero => exact initial
  | succ n ih => exact ih.step (busy_le bounded n) (run.step n)

variable (initial : Sound (run.state 0) (busy run 0)) (bounded : Bounded run.state) {n : Nat}

include initial bounded

theorem count_after_expiry (expires : (run.state n).Expires) {j : Nat} (within : j ≤ 781) :
    (run.state (n + 1 + j)).count = j := by
  induction j with
  | zero =>
      have count := (run.step n).count (sound initial bounded n).counts
      rwa [if_pos ((expires_iff _).mp expires)] at count
  | succ j ih =>
      have before := ih (by omega)
      have count := (run.step (n + 1 + j)).count (by omega)
      rw [before, if_neg (by omega)] at count
      exact count

theorem expires_next (expires : (run.state n).Expires) :
    (run.state (n + 782)).Expires ∧ ∀ k, n < k → k < n + 782 → ¬ (run.state k).Expires := by
  constructor
  · exact (expires_iff _).mpr (count_after_expiry initial bounded expires (Nat.le_refl 781))
  · intro k after before again
    have count := count_after_expiry initial bounded expires (show k - (n + 1) ≤ 781 by omega)
    rw [show n + 1 + (k - (n + 1)) = k by omega, (expires_iff _).mp again] at count
    omega

theorem pending_succ : (run.state (n + 1)).Pending ↔ (run.state (n + 1)).phase ≠ .refresh1 ∧
    ((run.state n).Expires ∨ (run.state n).Pending) :=
  (sound initial bounded n).timely.pending_iff (busy_le bounded n) (run.step n)

theorem idle_of_expires (expires : (run.state n).Expires) :
    (run.state n).request = false ∧ (run.state n).refreshAck = false :=
  (sound initial bounded n).timely.idle (busy_le bounded n) expires

theorem not_pending_of_expires (expires : (run.state n).Expires) : ¬ (run.state n).Pending := by
  intro pending
  have idle := (idle_of_expires initial bounded expires).1
  exact absurd idle (ne_false_of_eq_true pending.1)

/-- Sequences and expiries agree up to the request that waits. -/
theorem starts_add_pending : starts run.state n + (if (run.state n).Pending then 1 else 0) =
    expiries run.state n + if (run.state 0).Pending then 1 else 0 := by
  have step (k : Nat) : (run.state (k + 1)).Pending ↔ ¬(run.state (k + 1)).phase = .refresh1 ∧
      ((run.state k).Expires ∨ (run.state k).Pending) := pending_succ initial bounded
  have apart (k : Nat) : (run.state k).Expires → ¬ (run.state k).Pending :=
    not_pending_of_expires initial bounded
  have only (k : Nat) : (run.state (k + 1)).phase = .refresh1 → (run.state k).Pending :=
    (run.step k).pending_of_refresh1
  exact count_balance step apart only n

/-- A request does not wait for longer than the access in progress. -/
theorem exists_start (expires : (run.state n).Expires) :
    ∃ m, n < m ∧ m ≤ n + 704 ∧ (run.state m).phase = .refresh1 := by
  by_contra none
  push Not at none
  have pending (j : Nat) (within : j ≤ 703) : (run.state (n + 1 + j)).Pending := by
    induction j with
    | zero => exact (pending_succ initial bounded).mpr ⟨none _ (by omega) (by omega), .inl expires⟩
    | succ j ih =>
        refine (pending_succ initial bounded (n := n + 1 + j)).mpr ⟨?_, .inr (ih (by omega))⟩
        exact none (n + 1 + j + 1) (by omega) (by omega)
  have waits := (sound initial bounded (n + 1 + 703)).timely.pending_count (busy_le bounded _)
    (pending 703 (Nat.le_refl _))
  rw [count_after_expiry initial bounded expires (by omega)] at waits
  omega

theorem sequence_of_start {m : Nat} (start : (run.state m).phase = .refresh1) :
    Sequence run.state m := by
  have second := (run.step m).sequence.1 start
  have third := (run.step (m + 1)).sequence.2.1 second
  have fourth := (run.step (m + 2)).sequence.2.2.1 third
  have idle := (sound initial bounded m).precharged (.inr (.inr start))
  have cas := (run.step m).strobes
  have ras := (run.step (m + 1)).strobes
  have casOff := (run.step (m + 2)).strobes
  have rasOff := (run.step (m + 3)).strobes
  simp only [Strobes, start] at cas
  simp only [Strobes, second] at ras
  simp only [Strobes, third] at casOff
  simp only [Strobes, fourth] at rasOff
  constructor
  · exact ⟨start, second, third, fourth⟩
  · exact idle
  · exact ⟨cas.1 ▸ idle.1, cas.2⟩
  · exact ⟨ras.1, ras.2.1 ▸ cas.2.1, ras.2.2 ▸ cas.2.2⟩
  · exact ⟨casOff.1 ▸ ras.1, casOff.2.1⟩
  · exact ⟨rasOff.1, rasOff.2 ▸ casOff.2.1⟩

theorem start_unique (expires : (run.state n).Expires) {k m : Nat} (first : n < k) (second : k < m)
    (last : m ≤ n + 782) (start : (run.state k).phase = .refresh1) :
    (run.state m).phase ≠ .refresh1 := by
  intro again
  have opening := starts_add_pending initial bounded (n := n)
  have closing := starts_add_pending initial bounded (n := n + 782)
  obtain ⟨nextExpires, between⟩ := expires_next initial bounded expires
  rw [if_neg (not_pending_of_expires initial bounded expires)] at opening
  rw [if_neg (not_pending_of_expires initial bounded nextExpires)] at closing
  have once : expiries run.state (n + 782) = expiries run.state n + 1 := by
    simp only [expiries]
    rw [show n + 782 = n + 1 + 781 by omega, Nat.count_add, Nat.count_succ, if_pos expires,
      Nat.count_iff_forall_not.mpr fun j within => between (n + 1 + j) (by omega) (by omega)]
  have lower : starts run.state n ≤ starts run.state (k - 1) := Nat.count_monotone _ (by omega)
  have middle : starts run.state (k - 1) < starts run.state (m - 1) :=
    Nat.count_strict_mono (by simpa [Nat.sub_add_cancel (Nat.one_le_of_lt first)] using start)
      (by omega)
  have upper : starts run.state (m - 1) < starts run.state (n + 782) :=
    Nat.count_strict_mono (by simpa [Nat.sub_add_cancel (show 1 ≤ m by omega)] using again)
      (by omega)
  omega

theorem answered (expires : (run.state n).Expires) : Answered run.state n := by
  obtain ⟨m, after, soon, start⟩ := exists_start initial bounded expires
  refine ⟨idle_of_expires initial bounded expires, expires_next initial bounded expires,
    m, after, by omega, sequence_of_start initial bounded start, fun k lower upper again => ?_⟩
  rcases Nat.lt_trichotomy k m with before | same | later
  · exact absurd start (start_unique initial bounded expires lower before (by omega) again)
  · exact same
  · exact absurd again (start_unique initial bounded expires after later upper start)

theorem waiting_iff (unrequested : (run.state 0).request = false) :
    Waiting run.state n ↔ (run.state n).Pending := by
  induction n with
  | zero => simp [Waiting, Pending, unrequested]
  | succ n ih =>
      rw [pending_succ initial bounded, ← ih]
      constructor
      · rintro ⟨e, before, expires, unstarted⟩
        refine ⟨unstarted _ before (Nat.le_refl _), ?_⟩
        rcases Nat.lt_succ_iff_lt_or_eq.mp before with earlier | rfl
        · exact .inr ⟨e, earlier, expires, fun k lower upper => unstarted k lower (by omega)⟩
        · exact .inl expires
      · rintro ⟨unstarted, expires | ⟨e, before, expires, earlier⟩⟩
        · exact ⟨n, by omega, expires, fun k lower upper =>
            (show k = n + 1 by omega) ▸ unstarted⟩
        · refine ⟨e, by omega, expires, fun k lower upper => ?_⟩
          rcases Nat.le_succ_iff.mp upper with upper | rfl
          · exact earlier k lower upper
          · exact unstarted

theorem complete (unrequested : (run.state 0).request = false) : Complete run.state := by
  refine ⟨fun n expires => answered initial bounded expires, fun n => ?_⟩
  have balance := starts_add_pending initial bounded (n := n)
  have none : ¬ (run.state 0).Pending := by simp [Pending, unrequested]
  rw [if_neg none] at balance
  have waiting := waiting_iff initial bounded unrequested (n := n)
  by_cases pending : (run.state n).Pending
  · exact .inl ⟨waiting.mpr pending, by simpa [pending] using balance⟩
  · exact .inr ⟨mt waiting.mp pending, by simpa [pending] using balance⟩

end Runs

structure Released (v : View) : Prop where
  phase : v.phase = .idle
  count : v.count = 0
  strobes : AllHigh v.ras ∧ AllHigh v.cas

theorem Released.sound {v : View} (released : Released v)
    (flags : v.refreshAck = true → v.request = true) : Sound v (v.busyAfter 0) := by
  constructor
  · simp [released.count]
  · simpa [Timely, released.phase, released.count] using flags
  · exact fun _ => released.strobes

section Shift

variable {view : Nat → View} {r : Nat}

theorem Answered.shift {n : Nat} (answered : Answered (fun k => view (r + k)) n) :
    Answered view (r + n) := by
  obtain ⟨idle, ⟨next, between⟩, m, after, soon, sequence, once⟩ := answered
  refine ⟨idle, ⟨by simpa only [Nat.add_assoc] using next, fun k lower upper => ?_⟩,
    r + m, by omega, by omega, ?_, fun k lower upper start => ?_⟩
  · obtain ⟨j, rfl⟩ := Nat.exists_eq_add_of_le (show r ≤ k by omega)
    exact between j (by omega) (by omega)
  · obtain ⟨phases, idle, casFall, rasFall, casRise, rasRise⟩ := sequence
    simp only [← Nat.add_assoc] at phases casFall rasFall casRise rasRise
    exact ⟨phases, idle, casFall, rasFall, casRise, rasRise⟩
  · obtain ⟨j, rfl⟩ := Nat.exists_eq_add_of_le (show r ≤ k by omega)
    rw [once j (by omega) (by omega) start]

theorem starts_shift (unstarted : ∀ k ≤ r, (view k).phase ≠ .refresh1) (n : Nat) :
    starts view (r + n) = starts (fun k => view (r + k)) n := by
  simp only [starts, Nat.count_add, Nat.count_iff_forall_not.mpr fun k before =>
    unstarted (k + 1) before, Nat.zero_add, Nat.add_assoc]

variable (quiet : ∀ k < r, ¬ (view k).Expires)

include quiet

theorem answered_of_shift (answered : ∀ n, (view (r + n)).Expires →
    Answered (fun k => view (r + k)) n) {n : Nat} (expires : (view n).Expires) :
    Answered view n := by
  have later : r ≤ n := by
    by_contra before
    exact quiet n (by omega) expires
  obtain ⟨k, rfl⟩ := Nat.exists_eq_add_of_le later
  exact (answered k expires).shift

theorem expiries_shift (n : Nat) : expiries view (r + n) = expiries (fun k => view (r + k)) n := by
  simp only [expiries, Nat.count_add, Nat.count_iff_forall_not.mpr quiet, Nat.zero_add]

theorem waiting_shift (n : Nat) :
    Waiting view (r + n) ↔ Waiting (fun k => view (r + k)) n := by
  constructor
  · rintro ⟨e, before, expires, none⟩
    have later : r ≤ e := by
      by_contra early
      exact quiet e (by omega) expires
    obtain ⟨k, rfl⟩ := Nat.exists_eq_add_of_le later
    exact ⟨k, by omega, expires, fun j lower upper => none _ (by omega) (by omega)⟩
  · rintro ⟨e, before, expires, none⟩
    refine ⟨r + e, by omega, expires, fun k lower upper => ?_⟩
    obtain ⟨j, rfl⟩ := Nat.exists_eq_add_of_le (show r ≤ k by omega)
    exact none j (by omega) (by omega)

/-- Clocks in reset add nothing. -/
theorem Complete.of_shift (unstarted : ∀ k ≤ r, (view k).phase ≠ .refresh1)
    (complete : Complete fun k => view (r + k)) : Complete view := by
  refine ⟨fun n => answered_of_shift quiet complete.answered, fun n => ?_⟩
  rcases Nat.le_total r n with later | early
  · obtain ⟨k, rfl⟩ := Nat.exists_eq_add_of_le later
    simpa only [starts_shift unstarted, expiries_shift quiet, waiting_shift quiet]
      using complete.accounted k
  · refine .inr ⟨?_, ?_⟩
    · rintro ⟨e, before, expires, _⟩
      exact quiet e (by omega) expires
    · have noStart : starts view n = 0 :=
        Nat.count_iff_forall_not.mpr fun k before => unstarted (k + 1) (by omega)
      have noExpiry : expiries view n = 0 :=
        Nat.count_iff_forall_not.mpr fun k before => quiet k (by omega)
      rw [noStart, noExpiry]

end Shift

end Mackerel.Refresh
