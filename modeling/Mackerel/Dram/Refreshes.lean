import Mackerel.M10.DramRetention
import Mackerel.M30.DramRetention

namespace Mackerel

open Refresh Controller

/-- No refresh is lost or done twice after power-up, under any traffic whose accesses stay
    under the bound. Mackerel-30 has no strobe levels before its first reset clock. -/
theorem no_refresh_lost :
    (∀ (s : M10.DramController.State) (r : Nat) (bus : Nat → M10.Bus),
      M10.DramController.PowerUp s →
      Bounded (M10.DramController.refreshController.views s (heldUntil r) bus) →
      Complete (M10.DramController.refreshController.views s (heldUntil r) bus)) ∧
    (∀ (s : M30.DramController.State) (r : Nat) (bus : Nat → M30.Bus),
      M30.DramController.PowerUp s →
      Bounded (M30.DramController.refreshController.views s (heldUntil (r + 1)) bus) →
      Complete (M30.DramController.refreshController.views s (heldUntil (r + 1)) bus)) := by
  constructor
  · intro s r bus powerUp bounded
    cases r with
    | zero =>
        have always : heldUntil 0 = fun _ => true := by funext n; simp [heldUntil]
        rw [always] at bounded ⊢
        exact complete_of_released powerUp.released powerUp.view bounded
    | succ r => exact complete_of_powerUp powerUp.view r bounded
  · intro s r bus powerUp bounded
    exact complete_of_powerUp powerUp.view r bounded

/-- One clock of reset in front of a run. -/
def afterReset {ι : Type} (first : ι) (bus : Nat → ι) : Nat → ι
  | 0 => first
  | n + 1 => bus n

section

variable {σ ι : Type} {c : Controller σ ι} {s : σ} {first : ι} {bus : Nat → ι}

theorem views_afterReset (n : Nat) : c.views s (heldUntil 1) (afterReset first bus) (n + 1) =
    c.views (c.posedge s false first) (fun _ => true) bus n := by
  rw [Nat.add_comm, views, views, run_released]
  simp only [Nat.add_comm 1]
  rfl

theorem bounded_afterReset (powerUp : Controller.PowerUp (c.view s))
    (bounded : Bounded (c.views (c.posedge s false first) (fun _ => true) bus)) :
    Bounded (c.views s (heldUntil 1) (afterReset first bus)) := by
  intro n
  cases n with
  | zero =>
      refine ⟨0, Nat.zero_le _, fun access => ?_⟩
      exact absurd (powerUp.phase.symm.trans access) (by decide)
  | succ n =>
      obtain ⟨k, soon, ended⟩ := bounded n
      refine ⟨k, soon, ?_⟩
      rw [Nat.add_right_comm, views_afterReset]
      exact ended

end

/-- Two masters that read without a pause; at the first expiry their access is open. -/
theorem readers_lose_no_refresh :
    (let view := M10.DramController.refreshController.views (M10.DramController.powerUp true true)
      (heldUntil 1) (afterReset M10.DramController.quietBus M10.DramController.readerRun.bus)
    Complete view ∧ (view 782).phase = .access ∧ (view 782).count = 781) ∧
    (let view := M30.DramController.refreshController.views (M30.DramController.powerUp true 0)
      (heldUntil 1) (afterReset M30.DramController.quietBus M30.DramController.readerRun.bus)
    Complete view ∧ (view 782).phase = .access ∧ (view 782).count = 781) := by
  have first := M10.DramController.powerUp_spec true true
  have second := M30.DramController.powerUp_spec true 0
  have bounded10 := M10.DramController.Run.bounded M10.DramController.readerRun_served.ends
  have bounded30 := M30.DramController.Run.bounded M30.DramController.readerRun_served.strobes
    M30.DramController.readerRun_served.ends
  rw [M10.DramController.Run.view_driven] at bounded10
  rw [M30.DramController.Run.view_driven] at bounded30
  refine ⟨⟨no_refresh_lost.1 _ 1 _ first (bounded_afterReset first.view bounded10), ?_⟩,
    ⟨no_refresh_lost.2 _ 0 _ second (bounded_afterReset second.view bounded30), ?_⟩⟩
  · have expiry : (M10.DramController.readerRun.ctrl 781).view.phase = .access ∧
        (M10.DramController.readerRun.ctrl 781).view.count = 781 := by decide +kernel
    rw [views_afterReset]
    exact congrFun M10.DramController.readerRun.view_driven 781 ▸ expiry
  · have expiry : (M30.DramController.readerRun.ctrl 781).view.phase = .access ∧
        (M30.DramController.readerRun.ctrl 781).view.count = 781 := by decide +kernel
    rw [views_afterReset]
    exact congrFun M30.DramController.readerRun.view_driven 781 ▸ expiry

/-- Exactly when the refresh survives a reset pulse of one or more clocks: no acknowledge is
    left over, or a request with it, or an access is in the input flip-flops already. -/
theorem refresh_survives_reset_iff
    (s : M10.DramController.State) (pulse : List M10.Bus) (last : M10.Bus)
    (s' : M30.DramController.State) (pulse' : List M30.Bus) (last' : M30.Bus) :
    (let released := M10.DramController.refreshController.held s (pulse ++ [last])
     M10.DramController.refreshController.Refreshes released ↔
       (s.refreshAck = true → s.refresh.refreshRequest = true ∨ released.active = true ∨
         released.arriving = true)) ∧
    (let released := M30.DramController.refreshController.held s' (pulse' ++ [last'])
     M30.DramController.refreshController.Refreshes released ↔
       (s'.refreshAck = true → s'.refresh.refreshRequest = true ∨ released.active = true ∨
         released.arriving = true)) := by
  constructor
  · intro released
    obtain ⟨ack, request⟩ := held_view (c := M10.DramController.refreshController) (s := s)
      (pulse ++ [last])
    have exact := refreshes_after_reset_iff M10.DramController.refreshController s pulse last
    rw [ack, request] at exact
    exact exact
  · intro released
    obtain ⟨ack, request⟩ := held_view (c := M30.DramController.refreshController) (s := s')
      (pulse' ++ [last'])
    have exact := refreshes_after_reset_iff M30.DramController.refreshController s' pulse' last'
    rw [ack, request] at exact
    exact exact

/-- The power-up reset, the first refresh up to its REFRESH3, and two clocks of reset there. -/
theorem reset_in_refresh3_stops_refresh :
    let c := M30.DramController.refreshController
    let start := c.held (M30.DramController.powerUp true 0) [c.quiet]
    let refresh3 := c.run start (fun _ => true) (fun _ => c.quiet) 785
    ¬ c.Refreshes (c.held refresh3 [c.quiet, c.quiet]) := by
  have powerUp := M30.DramController.powerUp_spec true 0
  exact not_refreshes_of_reset powerUp.view powerUp.unused

end Mackerel
