import Mathlib.Tactic.Common

namespace Device

variable {σ α β : Type} {Holds : σ → Prop}

theorem bind_run (first : StateM σ α) (next : α → StateM σ β) (state : σ) :
    (first >>= next) state = next (first state).1 (first state).2 := rfl

theorem pure_run (value : α) (state : σ) : (pure value : StateM σ α) state = (value, state) := rfl

def Keeps (Holds : σ → Prop) (program : StateM σ α) : Prop := ∀ state, Holds state → Holds (program state).2

theorem Keeps.pure (value : α) : Keeps Holds (Pure.pure value : StateM σ α) := fun _ holds => holds

theorem Keeps.bind {first : StateM σ α} {next : α → StateM σ β} (firstKeeps : Keeps Holds first)
    (nextKeeps : ∀ value, Keeps Holds (next value)) : Keeps Holds (first >>= next) := by
  intro state holds
  exact nextKeeps _ _ (firstKeeps state holds)

theorem Keeps.ite {condition : Prop} [Decidable condition] {yes no : StateM σ α}
    (yesKeeps : Keeps Holds yes) (noKeeps : Keeps Holds no) :
    Keeps Holds (if condition then yes else no) := by
  split
  · exact yesKeeps
  · exact noKeeps

/-- The states before and after a run of the program are related. -/
def Follows (Related : σ → σ → Prop) (program : StateM σ α) : Prop := ∀ state, Related state (program state).2

section Follows

variable {Related : σ → σ → Prop} [IsPreorder σ Related]

theorem Follows.pure (value : α) : Follows Related (Pure.pure value : StateM σ α) := fun state => refl state

theorem Follows.bind {first : StateM σ α} {next : α → StateM σ β} (firstFollows : Follows Related first)
    (nextFollows : ∀ value, Follows Related (next value)) : Follows Related (first >>= next) := by
  intro state
  exact IsTrans.trans _ _ _ (firstFollows state) (nextFollows _ _)

omit [IsPreorder σ Related] in
theorem Follows.ite {condition : Prop} [Decidable condition] {yes no : StateM σ α}
    (yesFollows : Follows Related yes) (noFollows : Follows Related no) :
    Follows Related (if condition then yes else no) := by
  split
  · exact yesFollows
  · exact noFollows

omit [IsPreorder σ Related] in
theorem Follows.mono {Weaker : σ → σ → Prop} {program : StateM σ α}
    (follows : Follows Related program) (weaker : ∀ before after, Related before after → Weaker before after) :
    Follows Weaker program :=
  fun state => weaker _ _ (follows state)

end Follows

end Device
