import Mathlib.Data.List.Infix

/-! Finite behaviours of a machine that takes one event after the other: what holds in every
state of a run, and the period since a condition last began to hold. -/

namespace Clocked.EventRuns

universe u v

variable {σ : Type u} {ε : Type v} (step : σ → ε → σ)

def after (start : σ) (events : List ε) : σ := events.foldl step start

variable {step} {start : σ} {P Q : σ → Prop}

@[simp]
theorem after_nil : after step start [] = start := rfl

theorem after_append (first second : List ε) :
    after step start (first ++ second) = after step (after step start first) second :=
  List.foldl_append

@[simp]
theorem after_concat (events : List ε) (event : ε) :
    after step start (events ++ [event]) = step (after step start events) event := by
  simp [after]

def Always (step : σ → ε → σ) (start : σ) (events : List ε) (P : σ → Prop) : Prop :=
  ∀ past, past <+: events → P (after step start past)

theorem Always.last {events : List ε} (always : Always step start events P) :
    P (after step start events) :=
  always events (List.prefix_refl events)

theorem always_nil : Always step start [] P ↔ P start := by
  simp [Always, List.prefix_nil]

theorem always_concat {events : List ε} {event : ε} :
    Always step start (events ++ [event]) P ↔
      Always step start events P ∧ P (step (after step start events) event) := by
  simp only [Always, List.prefix_concat_iff]
  constructor
  · intro always
    exact ⟨fun past before => always past (.inr before),
      by simpa only [after_concat] using always _ (.inl rfl)⟩
  · rintro ⟨earlier, now⟩ past (rfl | before)
    · simpa only [List.concat_eq_append, after_concat] using now
    · exact earlier past before

theorem always_of_step (initial : P start) (preserved : ∀ s event, P s → P (step s event))
    (events : List ε) : Always step start events P := by
  induction events using List.reverseRecOn with
  | nil => exact always_nil.mpr initial
  | append_singleton events event ih =>
      exact always_concat.mpr ⟨ih, preserved _ _ ih.last⟩

/-- Where the current period of `P` began: the event that made `P` true, and the events
    since then, at all of which it held. -/
theorem exists_period {events : List ε} (initial : ¬ P start)
    (now : P (after step start events)) :
    ∃ past event current, events = past ++ [event] ++ current ∧
      ¬ P (after step start past) ∧ Always step (after step start (past ++ [event])) current P := by
  induction events using List.reverseRecOn with
  | nil => exact absurd now initial
  | append_singleton events event ih =>
      by_cases held : P (after step start events)
      · obtain ⟨past, first, current, rfl, began, period⟩ := ih held
        rw [after_concat, after_append] at now
        exact ⟨past, first, current ++ [event], by simp, began, always_concat.mpr ⟨period, now⟩⟩
      · exact ⟨events, event, [], by simp, held, always_nil.mpr now⟩

end Clocked.EventRuns
