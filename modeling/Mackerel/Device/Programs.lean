import Mackerel.Device.Keeps

namespace Device

/-! Programs over the operations of a device, apart from any device that runs them. -/

/-- A program is over, or goes on with the result of an operation. -/
inductive Program (Op : Type) (Result : Op → Type) (α : Type) where
  | done (value : α)
  | call (op : Op) (next : Result op → Program Op Result α)

/-- What runs the operations. -/
abbrev Handler (Op : Type) (Result : Op → Type) (σ : Type) := (op : Op) → StateM σ (Result op)

namespace Program

variable {Op : Type} {Result : Op → Type} {Op' : Type} {Result' : Op' → Type} {α β σ τ : Type}

def bind : Program Op Result α → (α → Program Op Result β) → Program Op Result β
  | done value, next => next value
  | call op rest, next => call op fun result => (rest result).bind next

instance : Monad (Program Op Result) where
  pure := done
  bind := bind

def perform (op : Op) : Program Op Result (Result op) := call op done

def run (handler : Handler Op Result σ) : Program Op Result α → StateM σ α
  | done value => pure value
  | call op next => handler op >>= fun result => (next result).run handler

variable (handler : Handler Op Result σ)

@[simp]
theorem run_pure (value : α) : (pure value : Program Op Result α).run handler = pure value := rfl

@[simp]
theorem run_perform (op : Op) : (perform op : Program Op Result _).run handler = handler op := rfl

@[simp]
theorem run_bind (first : Program Op Result α) (next : α → Program Op Result β) :
    (first >>= next).run handler = first.run handler >>= fun value => (next value).run handler := by
  induction first with
  | done value => rfl
  | call op rest ih =>
      funext state
      exact congrFun (ih (handler op state).1) (handler op state).2

/-- The operations of one device as programs over those of another one. -/
def compile (implement : (op : Op) → Program Op' Result' (Result op)) :
    Program Op Result α → Program Op' Result' α
  | done value => done value
  | call op next => (implement op).bind fun result => (next result).compile implement

theorem run_compile (handler : Handler Op' Result' σ)
    (implement : (op : Op) → Program Op' Result' (Result op)) (program : Program Op Result α) :
    (program.compile implement).run handler = program.run fun op => (implement op).run handler := by
  induction program with
  | done value => rfl
  | call op next ih =>
      funext state
      have split := congrFun (run_bind handler (implement op) fun result =>
        (next result).compile implement) state
      exact split.trans (congrFun (ih _) _)

end Program

/-- Two devices that answer every operation alike, from related states to related states. -/
def Simulates {Op : Type} {Result : Op → Type} {σ τ : Type} (Related : σ → τ → Prop)
    (concrete : Handler Op Result σ) (abstract : Handler Op Result τ) : Prop :=
  ∀ op s t, Related s t → (concrete op s).1 = (abstract op t).1 ∧
    Related (concrete op s).2 (abstract op t).2

section Simulates

variable {Op : Type} {Result : Op → Type} {α σ τ : Type} {Related : σ → τ → Prop}
  {concrete : Handler Op Result σ} {abstract : Handler Op Result τ}

/-- No program tells them apart. -/
theorem Simulates.run (simulates : Simulates Related concrete abstract) (program : Program Op Result α)
    {s : σ} {t : τ} (related : Related s t) :
    (program.run concrete s).1 = (program.run abstract t).1 ∧
      Related (program.run concrete s).2 (program.run abstract t).2 := by
  induction program generalizing s t with
  | done value => exact ⟨rfl, related⟩
  | call op next ih =>
      obtain ⟨same, later⟩ := simulates op s t related
      have rest := ih (concrete op s).1 later
      rw [same] at rest
      simp only [Program.run, bind_run, same]
      exact rest

end Simulates

end Device
