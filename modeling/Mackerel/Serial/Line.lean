import Mathlib.Tactic.Common

namespace Serial

/-! Programs that poll an input with timeouts, on the results of their polls. -/

/-- The results of the polls to come; `none` is a timeout. -/
abbrev Line (β : Type) := List (Option β)

/-- A program that polls. Without a value it is still waiting when the line ends. -/
abbrev Poll (β α : Type) := StateT (Line β) Option α

variable {α β γ : Type}

def poll : Poll β (Option β) := fun line =>
  match line with
  | [] => none
  | result :: rest => some (result, rest)

namespace Poll

theorem bind_run (first : Poll β α) (next : α → Poll β γ) (line : Line β) :
    (first >>= next) line = (first line).bind fun result => next result.1 result.2 := by
  cases result : first line <;> simp [bind, StateT.bind, result]

/-- A program does not lengthen its line. -/
def Shrinks (program : Poll β α) : Prop :=
  ∀ line value rest, program line = some (value, rest) → rest.length ≤ line.length

theorem shrinks_pure (value : α) : Shrinks (pure value : Poll β α) := by
  intro line result rest ran
  cases ran
  exact Nat.le_refl _

theorem shrinks_poll : Shrinks (poll : Poll β (Option β)) := by
  intro line result rest ran
  cases line with
  | nil => cases ran
  | cons head tail =>
      cases ran
      exact Nat.le_succ _

theorem Shrinks.bind {first : Poll β α} {next : α → Poll β γ} (firstShrinks : Shrinks first)
    (nextShrinks : ∀ value, Shrinks (next value)) : Shrinks (first >>= next) := by
  intro line value rest ran
  rw [bind_run, Option.bind_eq_some_iff] at ran
  obtain ⟨⟨middle, remaining⟩, early, late⟩ := ran
  exact Nat.le_trans (nextShrinks middle _ _ _ late) (firstShrinks _ _ _ early)

/-- The polls that a program makes to reach a value. -/
structure Consumes (program : Poll β α) (used : Line β) (value : α) : Prop where
  result : ∀ rest, program (used ++ rest) = some (value, rest)
  waits : ∀ shorter, shorter <+: used → shorter ≠ used → program shorter = none

theorem consumes_pure (value : α) : Consumes (pure value : Poll β α) [] value where
  result _ := rfl
  waits _ start other := (other (List.prefix_nil.mp start)).elim

theorem consumes_poll (result : Option β) : Consumes (poll : Poll β (Option β)) [result] result where
  result _ := rfl
  waits shorter start other := by
    cases shorter with
    | nil => rfl
    | cons head tail =>
        obtain ⟨rfl, rest⟩ := List.cons_prefix_cons.mp start
        exact (other (by rw [List.prefix_nil.mp rest])).elim

theorem Consumes.bind {first : Poll β α} {next : α → Poll β γ} {early late : Line β} {middle : α}
    {value : γ} (firstPart : Consumes first early middle) (nextPart : Consumes (next middle) late value) :
    Consumes (first >>= next) (early ++ late) value where
  result rest := by
    rw [bind_run, List.append_assoc, firstPart.result]
    exact nextPart.result rest
  waits shorter start other := by
    rw [bind_run]
    by_cases reached : early <+: shorter
    · obtain ⟨tail, rfl⟩ := reached
      rw [firstPart.result]
      apply nextPart.waits tail ((List.prefix_append_right_inj early).mp start)
      rintro rfl
      exact other rfl
    · have short : shorter <+: early :=
        (List.prefix_or_prefix_of_prefix start (List.prefix_append early late)).resolve_right reached
      rw [firstPart.waits shorter short (by rintro rfl; exact reached (List.prefix_refl _))]
      rfl

end Poll

end Serial
