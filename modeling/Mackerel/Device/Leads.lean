import Mackerel.Device.Keeps

namespace Device

/-! What programs return, and where they leave what somebody else sees of the state. -/

variable {σ τ α β : Type} {view : σ → τ}

/-- In every state that looks like `before` the program returns `value`, and leaves one that looks
    like `after`. -/
def Leads (view : σ → τ) (before : τ) (program : StateM σ α) (value : α) (after : τ) : Prop :=
  ∀ state, view state = before → (program state).1 = value ∧ view (program state).2 = after

variable {before middle after : τ} {first : StateM σ α} {next : α → StateM σ β} {value : α} {result : β}

theorem Leads.pure (value : α) : Leads view before (Pure.pure value : StateM σ α) value before :=
  fun _ same => ⟨rfl, same⟩

theorem Leads.bind (leads : Leads view before first value middle)
    (later : Leads view middle (next value) result after) : Leads view before (first >>= next) result after := by
  intro state same
  obtain ⟨returned, reached⟩ := leads state same
  rw [bind_run, returned]
  exact later _ reached

theorem Leads.ite_pos {condition : Prop} [Decidable condition] {yes no : StateM σ α} (holds : condition)
    (leads : Leads view before yes value after) :
    Leads view before (if condition then yes else no) value after := by
  rwa [if_pos holds]

theorem Leads.ite_neg {condition : Prop} [Decidable condition] {yes no : StateM σ α} (fails : ¬condition)
    (leads : Leads view before no value after) :
    Leads view before (if condition then yes else no) value after := by
  rwa [if_neg fails]

end Device
