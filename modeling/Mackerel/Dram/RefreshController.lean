import Mackerel.Clocked.Driven
import Mackerel.Dram.RefreshRuns

namespace Mackerel.Refresh

open Clocked

/-- A clocked controller that keeps to the handshake. `active` is an access in its second
    pair of input flip-flops, `arriving` one in the first pair. -/
structure Controller (σ ι : Type) where
  posedge : σ → Bool → ι → σ
  view : σ → View
  active : σ → Bool
  arriving : σ → Bool
  quiet : ι
  step : ∀ s i, View.Step (view s) (view (posedge s true i))
  reset : ∀ s i, Released (view (posedge s false i))
  reset_refreshAck : ∀ s i, (view (posedge s false i)).refreshAck = (view s).refreshAck
  reset_request : ∀ s i, (view (posedge s false i)).request = (view s).request
  active_posedge : ∀ s rstN i, active (posedge s rstN i) = arriving s
  arriving_quiet : ∀ s rstN, arriving (posedge s rstN quiet) = false
  idle_posedge : ∀ s i, (view s).phase = .idle → (view s).request = false →
    (view (posedge s true i)).phase = if active s then .access else .idle

/-- `RST_n` when reset is asserted before clock `r` and not again. -/
def heldUntil (r n : Nat) : Bool := decide (r ≤ n)

namespace Controller

variable {σ ι : Type} (c : Controller σ ι)

def run (s : σ) (rstN : Nat → Bool) (input : Nat → ι) : Nat → σ :=
  driven (fun n s => c.posedge s (rstN n) (input n)) s

def views (s : σ) (rstN : Nat → Bool) (input : Nat → ι) (n : Nat) : View :=
  c.view (c.run s rstN input n)

/-- The declared initial values of the registers. -/
structure PowerUp (v : View) : Prop where
  phase : v.phase = .idle
  refreshAck : v.refreshAck = false
  request : v.request = false
  count : v.count = 0

def execution (s : σ) (input : Nat → ι) : Execution View.Step where
  state := c.views s (fun _ => true) input
  step _ := c.step _ _

theorem run_add (s : σ) (rstN : Nat → Bool) (input : Nat → ι) (m n : Nat) :
    c.run s rstN input (m + n) =
      c.run (c.run s rstN input m) (fun k => rstN (m + k)) (fun k => input (m + k)) n :=
  driven_add m n

theorem run_released (s : σ) (input : Nat → ι) (r n : Nat) :
    c.run s (heldUntil r) input (r + n) =
      c.run (c.run s (heldUntil r) input r) (fun _ => true) (fun k => input (r + k)) n := by
  simp [run_add, heldUntil]

theorem Bounded.shift {view : Nat → View} (bounded : Bounded view) (r : Nat) :
    Bounded fun k => view (r + k) :=
  fun n => by simpa only [Nat.add_assoc] using bounded (r + n)

variable {c} {s : σ} {input : Nat → ι}

theorem complete_of_released (released : Released (c.view s)) (powerUp : PowerUp (c.view s))
    (bounded : Bounded (c.views s (fun _ => true) input)) :
    Complete (c.views s (fun _ => true) input) :=
  @complete (c.execution s input)
    (released.sound fun ack => absurd powerUp.refreshAck (ne_false_of_eq_true ack))
    bounded powerUp.request

theorem powerUp_of_held (powerUp : PowerUp (c.view s)) {r n : Nat} (held : n ≤ r) :
    PowerUp (c.views s (heldUntil r) input n) := by
  induction n with
  | zero => exact powerUp
  | succ n ih =>
      have before := ih (by omega)
      have low : heldUntil r n = false := by simp [heldUntil]; omega
      have reset := c.reset (c.run s (heldUntil r) input n) (input n)
      simp only [views, run, driven_succ, low]
      exact ⟨reset.phase, (c.reset_refreshAck _ _).trans before.refreshAck,
        (c.reset_request _ _).trans before.request, reset.count⟩

theorem not_expires_of_powerUp {v : View} (powerUp : PowerUp v) : ¬ v.Expires := by
  simp [View.expires_iff, powerUp.count]

theorem complete_of_powerUp (powerUp : PowerUp (c.view s)) (r : Nat)
    (bounded : Bounded (c.views s (heldUntil (r + 1)) input)) :
    Complete (c.views s (heldUntil (r + 1)) input) := by
  have held {n : Nat} (within : n ≤ r + 1) : PowerUp (c.views s (heldUntil (r + 1)) input n) :=
    powerUp_of_held powerUp within
  refine Complete.of_shift (r := r + 1) (fun k before => not_expires_of_powerUp (held (by omega)))
    (fun k before => by simp [(held before).phase]) ?_
  have bounded := Bounded.shift bounded (r + 1)
  simp only [views, run_released] at bounded ⊢
  refine complete_of_released ?_ (held (Nat.le_refl _)) bounded
  have low : heldUntil (r + 1) r = false := by simp [heldUntil]
  simp only [run, driven_succ, low]
  exact c.reset _ _

def held (c : Controller σ ι) (s : σ) (pulse : List ι) : σ :=
  pulse.foldl (fun s i => c.posedge s false i) s

theorem held_concat (pulse : List ι) (last : ι) :
    c.held s (pulse ++ [last]) = c.posedge (c.held s pulse) false last := by
  simp [held]

/-- Every expiry is answered under every traffic without a too long access. -/
def Refreshes (c : Controller σ ι) (s : σ) : Prop :=
  ∀ input, Bounded (c.views s (fun _ => true) input) →
    ∀ n, (c.views s (fun _ => true) input n).Expires →
      Answered (c.views s (fun _ => true) input) n

/-- A left-over acknowledge goes with an access that begins at once. -/
theorem sound_of_stale {before after : View} (step : View.Step before after)
    (phase : before.phase = .idle) (stale : before.refreshAck = true)
    (count : before.count ≤ 1) (access : after.phase = .access) :
    Sound after (after.busyAfter 0) := by
  have nextCount := step.count (by omega)
  rw [if_neg (by omega)] at nextCount
  have nextAck : after.refreshAck = true := by simp [step.refreshAck, phase, stale]
  have nextRequest : after.request = false := by simp [step.request, stale]
  refine ⟨by omega, ?_, ?_⟩
  · simp [View.Timely, access, nextAck, nextRequest, View.busyAfter]
    omega
  · simp [View.Precharged, access]

/-- Once the first access has begun with a sound state, the clocks before it do not matter. -/
theorem refreshes_of_shift (r : Nat)
    (quiet : ∀ input, ∀ k < r, ¬ (c.views s (fun _ => true) input k).Expires)
    (begins : ∀ input, Sound (c.views s (fun _ => true) input r)
      ((c.views s (fun _ => true) input r).busyAfter 0)) : c.Refreshes s := by
  intro input bounded n expires
  refine answered_of_shift (quiet input) (fun k later => ?_) expires
  have bounded := Bounded.shift bounded r
  simp only [views, run_add] at bounded later ⊢
  exact @answered (c.execution (c.run s (fun _ => true) input r) fun k => input (r + k))
    (begins input) bounded k later

theorem refreshes_of_flags (released : Released (c.view s))
    (flags : (c.view s).refreshAck = true → (c.view s).request = true) : c.Refreshes s :=
  refreshes_of_shift 0 (fun _ k before => absurd before (Nat.not_lt_zero k))
    fun _ => released.sound flags

theorem refreshes_of_active (released : Released (c.view s)) (stale : (c.view s).refreshAck = true)
    (request : (c.view s).request = false) (active : c.active s = true) : c.Refreshes s := by
  refine refreshes_of_shift 1 (fun _ k before => ?_) fun input => ?_
  · obtain rfl : k = 0 := by omega
    simp [View.expires_iff, views, run, released.count]
  · have access := c.idle_posedge s (input 0) released.phase request
    rw [if_pos active] at access
    exact sound_of_stale (c.step s (input 0)) released.phase stale (by simp [released.count])
      access

theorem refreshes_of_arriving (released : Released (c.view s))
    (stale : (c.view s).refreshAck = true) (request : (c.view s).request = false)
    (inactive : c.active s = false) (arriving : c.arriving s = true) : c.Refreshes s := by
  have first (i : ι) : (c.view (c.posedge s true i)).phase = .idle ∧
      (c.view (c.posedge s true i)).refreshAck = true ∧
      (c.view (c.posedge s true i)).request = false ∧
      (c.view (c.posedge s true i)).count = 1 := by
    have step := c.step s i
    have phase := c.idle_posedge s i released.phase request
    have count := step.count (by simp [released.count])
    simp only [inactive, Bool.false_eq_true, if_false] at phase
    refine ⟨phase, ?_, ?_, ?_⟩
    · simp [step.refreshAck, released.phase, stale]
    · simp [step.request, stale]
    · simpa [released.count] using count
  refine refreshes_of_shift 2 (fun input k before => ?_) fun input => ?_
  · match k, before with
    | 0, _ => simp [View.expires_iff, views, run, released.count]
    | 1, _ => simp [View.expires_iff, views, run, driven_succ, (first (input 0)).2.2.2]
  · obtain ⟨phase, ack, none, count⟩ := first (input 0)
    have access := c.idle_posedge _ (input 1) phase none
    rw [if_pos ((c.active_posedge s true (input 0)).trans arriving)] at access
    exact sound_of_stale (c.step _ (input 1)) phase ack (Nat.le_of_eq count) access

/-- A state in which requests are discarded for as long as no access comes. -/
structure Stuck (c : Controller σ ι) (s : σ) : Prop where
  phase : (c.view s).phase = .idle
  refreshAck : (c.view s).refreshAck = true
  request : (c.view s).request = false
  active : c.active s = false
  arriving : c.arriving s = false

theorem Stuck.not_access (stuck : c.Stuck s) : (c.view s).phase ≠ .access := by
  simp [stuck.phase]

theorem Stuck.step (stuck : c.Stuck s) : c.Stuck (c.posedge s true c.quiet) := by
  have step := c.step s c.quiet
  constructor
  · simpa [stuck.active] using c.idle_posedge s c.quiet stuck.phase stuck.request
  · simp [step.refreshAck, stuck.phase, stuck.refreshAck]
  · simp [step.request, stuck.refreshAck]
  · exact (c.active_posedge s true c.quiet).trans stuck.arriving
  · exact c.arriving_quiet s true

theorem Stuck.run (stuck : c.Stuck s) (n : Nat) :
    c.Stuck (c.run s (fun _ => true) (fun _ => c.quiet) n) :=
  driven_invariant stuck (fun _ _ here => here.step) n

theorem Stuck.not_refreshes (stuck : c.Stuck s) (count : (c.view s).count = 0) :
    ¬ c.Refreshes s := by
  intro refreshes
  have idle (n : Nat) := stuck.run n
  have bounded : Bounded (c.views s (fun _ => true) fun _ => c.quiet) :=
    fun n => ⟨0, Nat.zero_le _, (idle n).not_access⟩
  have counts (n : Nat) (within : n ≤ 781) :
      (c.views s (fun _ => true) (fun _ => c.quiet) n).count = n := by
    induction n with
    | zero => exact count
    | succ n ih =>
        have before := ih (by omega)
        have next := (c.execution s fun _ => c.quiet).step n
        have value := next.count (by simp only [execution, before]; omega)
        simpa [execution, before, show n ≠ 781 by omega] using value
  have expires := (View.expires_iff _).mpr (counts 781 (Nat.le_refl _))
  have answered := refreshes _ bounded 781 expires
  exact absurd answered.idle.2 (ne_false_of_eq_true (idle 781).refreshAck)

/-- Exactly when the refresh survives a reset: no acknowledge is left over, or a request is
    left over with it, or an access is on its way. -/
theorem refreshes_after_reset_iff (c : Controller σ ι) (s : σ) (pulse : List ι) (last : ι) :
    c.Refreshes (c.held s (pulse ++ [last])) ↔
      ((c.view (c.held s (pulse ++ [last]))).refreshAck = true →
        (c.view (c.held s (pulse ++ [last]))).request = true ∨
        c.active (c.held s (pulse ++ [last])) = true ∨
        c.arriving (c.held s (pulse ++ [last])) = true) := by
  have released : Released (c.view (c.held s (pulse ++ [last]))) := by
    rw [held_concat]
    exact c.reset _ _
  generalize c.held s (pulse ++ [last]) = s at *
  cases stale : (c.view s).refreshAck with
  | false =>
      exact iff_of_true (refreshes_of_flags released fun ack => absurd (ack.symm.trans stale)
        (by decide)) fun ack => absurd ack (by decide)
  | true =>
      cases request : (c.view s).request with
      | true =>
          exact iff_of_true (refreshes_of_flags released fun _ => request) fun _ => .inl rfl
      | false =>
          cases active : c.active s with
          | true =>
              exact iff_of_true (refreshes_of_active released stale request active)
                fun _ => .inr (.inl rfl)
          | false =>
              cases arriving : c.arriving s with
              | true =>
                  exact iff_of_true (refreshes_of_arriving released stale request active arriving)
                    fun _ => .inr (.inr rfl)
              | false =>
                  have stuck : c.Stuck s := ⟨released.phase, stale, request, active, arriving⟩
                  exact iff_of_false (stuck.not_refreshes released.count) (by simp)

theorem held_view (pulse : List ι) : (c.view (c.held s pulse)).refreshAck = (c.view s).refreshAck ∧
    (c.view (c.held s pulse)).request = (c.view s).request := by
  induction pulse using List.reverseRecOn with
  | nil => exact ⟨rfl, rfl⟩
  | append_singleton pulse last ih =>
      simp only [held_concat, c.reset_refreshAck, c.reset_request, ih, and_self]

/-- No access is under way or on its way. -/
structure Quiet (c : Controller σ ι) (s : σ) : Prop where
  phase : (c.view s).phase ≠ .access
  active : c.active s = false
  arriving : c.arriving s = false

theorem Quiet.step (quiet : c.Quiet s) : c.Quiet (c.posedge s true c.quiet) := by
  refine ⟨fun access => ?_, (c.active_posedge s true c.quiet).trans quiet.arriving,
    c.arriving_quiet s true⟩
  have next := (c.step s c.quiet).phase
  rw [access] at next
  generalize before : (c.view s).phase = phase at next
  cases next with
  | start request =>
      have idle := c.idle_posedge s c.quiet before request
      rw [access, quiet.active] at idle
      exact absurd idle (by decide)
  | continues => exact quiet.phase before

theorem Quiet.run (quiet : c.Quiet s) (n : Nat) :
    c.Quiet (c.run s (fun _ => true) (fun _ => c.quiet) n) :=
  driven_invariant quiet (fun _ _ here => here.step) n

/-- A quiet controller in the idle state, `n` clocks after its reset. -/
structure Waits (c : Controller σ ι) (s : σ) (n : Nat) : Prop where
  quiet : c.Quiet s
  powerUp : (c.view s).phase = .idle ∧ (c.view s).refreshAck = false ∧
    (c.view s).request = false
  count : (c.view s).count = n

theorem Waits.step {n : Nat} (waits : c.Waits s n) (within : n < 781) :
    c.Waits (c.posedge s true c.quiet) (n + 1) := by
  obtain ⟨quiet, ⟨phase, ack, request⟩, count⟩ := waits
  have step := c.step s c.quiet
  have unexpired : n ≠ 781 := by omega
  refine ⟨quiet.step, ⟨?_, ?_, ?_⟩, ?_⟩
  · simpa [quiet.active] using c.idle_posedge s c.quiet phase request
  · simp [step.refreshAck, phase, ack]
  · simp [step.request, ack, request, View.expires_iff, count, unexpired]
  · simpa [count, unexpired] using step.count (by omega)

theorem Waits.run (waits : c.Waits s 0) {n : Nat} (within : n ≤ 781) :
    c.Waits (c.run s (fun _ => true) (fun _ => c.quiet) n) n := by
  induction n with
  | zero => exact waits
  | succ n ih => exact (ih (by omega)).step (by omega)

/-- Four clocks after the expiry the request is gone and the acknowledge is not. -/
theorem Waits.acknowledges (waits : c.Waits s 0) :
    (c.views s (fun _ => true) (fun _ => c.quiet) 785).refreshAck = true ∧
      (c.views s (fun _ => true) (fun _ => c.quiet) 785).request = false := by
  obtain ⟨quiet, ⟨phase, ack, request⟩, count⟩ := waits.run (Nat.le_refl 781)
  have step (n : Nat) := (c.execution s fun _ => c.quiet).step n
  simp only [execution, views] at step
  have expires := (View.expires_iff _).mpr count
  -- the request
  have idle := c.idle_posedge _ c.quiet phase request
  rw [quiet.active] at idle
  have requested := (step 781).request
  rw [ack, decide_eq_true expires] at requested
  have start := (step 782).starts idle requested
  have second := (step 783).sequence.1 start
  have acked := (step 783).refreshAck
  rw [if_pos start] at acked
  have still := (step 784).refreshAck
  have dropped := (step 784).request
  simp only [acked, second] at still dropped
  simp only [views]
  exact ⟨by simpa using still, by simpa using dropped⟩

theorem waits_of_reset (powerUp : PowerUp (c.view s)) (unused : c.arriving s = false) :
    c.Waits (c.held s [c.quiet]) 0 where
  quiet := ⟨by simp [held, (c.reset s c.quiet).phase], (c.active_posedge s false c.quiet).trans unused,
    c.arriving_quiet s false⟩
  powerUp := ⟨(c.reset s c.quiet).phase, (c.reset_refreshAck s c.quiet).trans powerUp.refreshAck,
    (c.reset_request s c.quiet).trans powerUp.request⟩
  count := (c.reset s c.quiet).count

theorem stuck_of_held (ack : (c.view s).refreshAck = true) (request : (c.view s).request = false) :
    c.Stuck (c.held s [c.quiet, c.quiet]) where
  phase := (c.reset _ c.quiet).phase
  refreshAck := held_view [c.quiet, c.quiet] |>.1.trans ack
  request := held_view [c.quiet, c.quiet] |>.2.trans request
  active := (c.active_posedge _ false c.quiet).trans (c.arriving_quiet s false)
  arriving := c.arriving_quiet _ false

/-- Two clocks of reset while a refresh ends, and no access after them. -/
theorem not_refreshes_of_reset (powerUp : PowerUp (c.view s)) (unused : c.arriving s = false) :
    ¬ c.Refreshes (c.held (c.run (c.held s [c.quiet]) (fun _ => true) (fun _ => c.quiet) 785)
      [c.quiet, c.quiet]) := by
  obtain ⟨ack, request⟩ := (waits_of_reset powerUp unused).acknowledges
  exact (stuck_of_held ack request).not_refreshes (c.reset _ c.quiet).count

end Controller

end Mackerel.Refresh
