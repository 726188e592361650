import Mackerel.Sdram.Cache
import Mackerel.Sdram.FlatMemory

namespace Mackerel.Sdram.Cache

structure Assembly where
  bus : Bus
  cache : State
  memory : FlatMemory

namespace Assembly

def inputs (s : Assembly) : MemoryInputs :=
  { rdata := s.memory.rdata, rdata32 := s.memory.rdata32, dtackN := s.memory.dtackN }

/-- One clock of the whole system: all three parties sample the same instant. -/
structure Step (before after : Assembly) : Prop where
  cache : after.cache = before.cache.posedge before.bus before.inputs
  memory : FlatMemory.Step before.cache.memCsN before.bus before.memory after.memory
  bus : Bus.Step before.cache.dtackN after.cache.dtackN before.bus after.bus

/-- The request the cache works on is the one on the bus, not acknowledged yet. -/
structure Requested (s : Assembly) : Prop where
  start : s.bus.start = true
  idx : s.cache.idx = cacheIndex s.bus.addr
  reqtag : s.cache.reqtag = cacheTag s.bus.addr
  wsel : s.cache.wsel = wordSelect s.bus.addr
  dtack : s.cache.dtack = false

/-- The RAM output registers hold the line under lookup. -/
structure Sampled (s : Assembly) : Prop where
  dataQ : s.cache.dataQ = s.cache.dataRam s.cache.idx
  tagQ : s.cache.tagQ = s.cache.tagRam s.cache.idx
  validQ : s.cache.validQ = s.cache.valid s.cache.idx

def PhaseInvariant (s : Assembly) : Prop :=
  match s.cache.state with
  | .IDLE => s.cache.dtack = false ∧ s.cache.memCsN = true ∧ s.memory.phase = .idle
  | .LOOK => s.Requested ∧ s.Sampled ∧ s.bus.rwn = true ∧
      s.cache.memCsN = true ∧ s.memory.phase = .idle
  | .FILL => s.Requested ∧ s.bus.rwn = true ∧ s.cache.memCsN = false ∧
      (s.memory.phase = .acked → s.memory.Presents s.bus)
  | .WRTH => s.Requested ∧ s.bus.rwn = false ∧ s.cache.memCsN = false ∧
      (s.memory.phase = .idle ∨ s.cache.valid s.cache.idx = false)
  | .ACK => s.cache.dtack = true ∧ s.cache.memCsN = true ∧
      (s.memory.phase = .idle ∨ s.memory.phase = .acked)

/-- Every valid line is the line of the memory that its tag and index name. -/
def Coherent (s : Assembly) : Prop :=
  ∀ index, s.cache.valid index = true →
    s.cache.dataRam index = s.memory.lines (lineAt (s.cache.tagRam index) index)

structure Invariant (s : Assembly) : Prop where
  coherent : s.Coherent
  phase : s.PhaseInvariant

theorem Coherent.of_same {before after : Assembly} (coherent : before.Coherent)
    (valid : after.cache.valid = before.cache.valid)
    (dataRam : after.cache.dataRam = before.cache.dataRam)
    (tagRam : after.cache.tagRam = before.cache.tagRam)
    (lines : after.memory.lines = before.memory.lines) : after.Coherent := by
  intro index isValid
  rw [valid] at isValid
  rw [dataRam, tagRam, lines]
  exact coherent index isValid

theorem Coherent.fill {before after : Assembly} (coherent : before.Coherent)
    (requested : before.Requested)
    (valid : after.cache.valid = Function.update before.cache.valid before.cache.idx true)
    (dataRam : after.cache.dataRam = Function.update before.cache.dataRam before.cache.idx
      (before.memory.lines (lineOf before.bus.addr)))
    (tagRam : after.cache.tagRam =
      Function.update before.cache.tagRam before.cache.idx before.cache.reqtag)
    (lines : after.memory.lines = before.memory.lines) : after.Coherent := by
  intro index isValid
  rw [dataRam, tagRam, lines]
  by_cases same : index = before.cache.idx
  · subst same
    rw [Function.update_self, Function.update_self, requested.reqtag, requested.idx, lineAt_split]
  · rw [Function.update_of_ne same, Function.update_of_ne same]
    rw [valid, Function.update_of_ne same] at isValid
    exact coherent index isValid

/-- Dropping the line of a write makes room for the write to reach the memory. -/
theorem Coherent.drop {before after : Assembly} (coherent : before.Coherent)
    (requested : before.Requested)
    (valid : after.cache.valid = Function.update before.cache.valid before.cache.idx false)
    (dataRam : after.cache.dataRam = before.cache.dataRam)
    (tagRam : after.cache.tagRam = before.cache.tagRam)
    (lines : after.memory.lines = before.memory.lines ∨
      after.memory.lines = before.bus.write.store before.memory.lines) : after.Coherent := by
  intro index isValid
  rw [valid] at isValid
  have different : index ≠ before.cache.idx := by
    rintro rfl
    simp at isValid
  rw [Function.update_of_ne different] at isValid
  rw [dataRam, tagRam, coherent index isValid]
  rcases lines with same | stored
  · rw [same]
  · -- the stored line has another index, so it is none of the lines still valid
    rw [stored, WriteRecord.store_other]
    intro sameLine
    rw [← lineAt_split] at sameLine
    exact different ((lineAt_index sameLine).trans requested.idx.symm)

theorem Step.held {before after : Assembly} (step : Step before after)
    (started : before.bus.start = true) (unacknowledged : before.cache.dtack = false)
    (still : after.cache.dtack = false) : after.bus = before.bus :=
  (step.bus (Bus.start_selected started) (by simp [State.dtackN, unacknowledged])
    (by simp [State.dtackN, still])).of_start started

theorem dtackN_eq_false {memory : FlatMemory} :
    memory.dtackN = false ↔ memory.phase = .acked := by
  simp [FlatMemory.dtackN]

theorem dtackN_eq_true {memory : FlatMemory} :
    memory.dtackN = true ↔ memory.phase ≠ .acked := by
  simp [FlatMemory.dtackN]

/-- A request taken from the bus, or carried on, is still the one on the bus. -/
theorem Requested.of_held {before after : Assembly} (held : after.bus = before.bus)
    (started : before.bus.start = true)
    (idx : after.cache.idx = cacheIndex before.bus.addr)
    (reqtag : after.cache.reqtag = cacheTag before.bus.addr)
    (wsel : after.cache.wsel = wordSelect before.bus.addr)
    (dtack : after.cache.dtack = false) : after.Requested :=
  { start := by rw [held, started]
    idx := by rw [held, idx]
    reqtag := by rw [held, reqtag]
    wsel := by rw [held, wsel]
    dtack }

theorem Invariant.step_idle {before after : Assembly} (invariant : before.Invariant)
    (step : Step before after) (state : before.cache.state = .IDLE) : after.Invariant := by
  obtain ⟨coherent, phase⟩ := invariant
  rw [PhaseInvariant, state] at phase
  obtain ⟨dtack, memCsN, idle⟩ := phase
  obtain ⟨memoryIdle, lines, _⟩ := step.memory.deselected memCsN (.inl idle)
  have cache := step.cache
  by_cases started : before.bus.start = true
  · have still : after.cache.dtack = false := by
      rw [cache]
      simp only [State.posedge, state, started, if_true]
      split <;> rfl
    have held := step.held started dtack still
    cases direction : before.bus.rwn with
    | true =>
        simp only [State.posedge, state, started, direction, if_true, State.sample,
          State.rdIdx] at cache
        refine ⟨coherent.of_same (by rw [cache]) (by rw [cache]) (by rw [cache]) lines, ?_⟩
        have look : after.cache.state = .LOOK := by rw [cache]
        rw [PhaseInvariant, look]
        exact ⟨.of_held held started (by rw [cache]) (by rw [cache]) (by rw [cache]) still,
          ⟨by rw [cache], by rw [cache], by rw [cache]⟩, by rw [held, direction],
          by rw [cache], memoryIdle⟩
    | false =>
        simp only [State.posedge, state, started, direction, if_true, Bool.false_eq_true,
          if_false, State.sample] at cache
        refine ⟨coherent.of_same (by rw [cache]) (by rw [cache]) (by rw [cache]) lines, ?_⟩
        have wrth : after.cache.state = .WRTH := by rw [cache]
        rw [PhaseInvariant, wrth]
        exact ⟨.of_held held started (by rw [cache]) (by rw [cache]) (by rw [cache]) still,
          by rw [held, direction], by rw [cache], .inl memoryIdle⟩
  · simp only [State.posedge, state, started, Bool.false_eq_true, if_false, State.sample] at cache
    refine ⟨coherent.of_same (by rw [cache]) (by rw [cache]) (by rw [cache]) lines, ?_⟩
    have still : after.cache.state = .IDLE := by rw [cache]
    rw [PhaseInvariant, still]
    exact ⟨by rw [cache], by rw [cache], memoryIdle⟩

theorem Invariant.step_look {before after : Assembly} (invariant : before.Invariant)
    (step : Step before after) (state : before.cache.state = .LOOK) : after.Invariant := by
  obtain ⟨coherent, phase⟩ := invariant
  rw [PhaseInvariant, state] at phase
  obtain ⟨requested, _, read, memCsN, idle⟩ := phase
  obtain ⟨memoryIdle, lines, _⟩ := step.memory.deselected memCsN (.inl idle)
  have cache := step.cache
  by_cases hit : before.cache.hit = true
  · simp only [State.posedge, state, hit, if_true, State.sample] at cache
    refine ⟨coherent.of_same (by rw [cache]) (by rw [cache]) (by rw [cache]) lines, ?_⟩
    have ack : after.cache.state = .ACK := by rw [cache]
    rw [PhaseInvariant, ack]
    exact ⟨by rw [cache], by rw [cache, memCsN], .inl memoryIdle⟩
  · simp only [State.posedge, state, hit, Bool.false_eq_true, if_false, State.sample] at cache
    have still : after.cache.dtack = false := by rw [cache, requested.dtack]
    have held := step.held requested.start requested.dtack still
    refine ⟨coherent.of_same (by rw [cache]) (by rw [cache]) (by rw [cache]) lines, ?_⟩
    have fill : after.cache.state = .FILL := by rw [cache]
    rw [PhaseInvariant, fill]
    exact ⟨.of_held held requested.start (by rw [cache, requested.idx])
      (by rw [cache, requested.reqtag]) (by rw [cache, requested.wsel]) still,
      by rw [held, read], by rw [cache], by simp [memoryIdle]⟩

theorem Invariant.step_fill {before after : Assembly} (invariant : before.Invariant)
    (step : Step before after) (state : before.cache.state = .FILL) : after.Invariant := by
  obtain ⟨coherent, phase⟩ := invariant
  rw [PhaseInvariant, state] at phase
  obtain ⟨requested, read, memCsN, presents⟩ := phase
  have selected : FlatMemory.Selected before.bus before.memory after.memory :=
    (memCsN ▸ step.memory).selected
  obtain ⟨lines, _⟩ := selected.of_read read
  have cache := step.cache
  by_cases answered : before.memory.phase = .acked
  · have low : before.inputs.dtackN = false := dtackN_eq_false.mpr answered
    simp only [State.posedge, state, low, Bool.not_false, if_true, State.sample] at cache
    refine ⟨coherent.fill requested (by rw [cache]) ?_ (by rw [cache]) lines, ?_⟩
    · rw [cache, ← (presents answered).1]
      rfl
    · have ack : after.cache.state = .ACK := by rw [cache]
      rw [PhaseInvariant, ack]
      exact ⟨by rw [cache], by rw [cache], .inr (selected.acked answered)⟩
  · have high : before.inputs.dtackN = true := dtackN_eq_true.mpr answered
    simp only [State.posedge, state, high, Bool.not_true, Bool.false_eq_true, if_false,
      State.sample] at cache
    have still : after.cache.dtack = false := by rw [cache, requested.dtack]
    have held := step.held requested.start requested.dtack still
    refine ⟨coherent.of_same (by rw [cache]) (by rw [cache]) (by rw [cache]) lines, ?_⟩
    have fill : after.cache.state = .FILL := by rw [cache]
    rw [PhaseInvariant, fill]
    refine ⟨.of_held held requested.start (by rw [cache, requested.idx])
      (by rw [cache, requested.reqtag]) (by rw [cache, requested.wsel]) still,
      by rw [held, read], by rw [cache, memCsN], fun acked => ?_⟩
    rw [held]
    exact selected.presents answered acked

theorem Invariant.step_wrth {before after : Assembly} (invariant : before.Invariant)
    (step : Step before after) (state : before.cache.state = .WRTH) : after.Invariant := by
  obtain ⟨coherent, phase⟩ := invariant
  rw [PhaseInvariant, state] at phase
  obtain ⟨requested, write, memCsN, _⟩ := phase
  have selected : FlatMemory.Selected before.bus before.memory after.memory :=
    (memCsN ▸ step.memory).selected
  have lines := selected.of_write write
  have cache := step.cache
  by_cases answered : before.memory.phase = .acked
  · have low : before.inputs.dtackN = false := dtackN_eq_false.mpr answered
    simp only [State.posedge, state, low, Bool.not_false, if_true, State.sample] at cache
    refine ⟨coherent.drop requested (by rw [cache]) (by rw [cache]) (by rw [cache]) lines, ?_⟩
    have ack : after.cache.state = .ACK := by rw [cache]
    rw [PhaseInvariant, ack]
    exact ⟨by rw [cache], by rw [cache], .inr (selected.acked answered)⟩
  · have high : before.inputs.dtackN = true := dtackN_eq_true.mpr answered
    simp only [State.posedge, state, high, Bool.not_true, Bool.false_eq_true, if_false,
      State.sample] at cache
    have still : after.cache.dtack = false := by rw [cache, requested.dtack]
    have held := step.held requested.start requested.dtack still
    refine ⟨coherent.drop requested (by rw [cache]) (by rw [cache]) (by rw [cache]) lines, ?_⟩
    have wrth : after.cache.state = .WRTH := by rw [cache]
    rw [PhaseInvariant, wrth]
    exact ⟨.of_held held requested.start (by rw [cache, requested.idx])
      (by rw [cache, requested.reqtag]) (by rw [cache, requested.wsel]) still,
      by rw [held, write], by rw [cache, memCsN], .inr (by rw [cache]; simp)⟩

theorem Invariant.step_ack {before after : Assembly} (invariant : before.Invariant)
    (step : Step before after) (state : before.cache.state = .ACK) : after.Invariant := by
  obtain ⟨coherent, phase⟩ := invariant
  rw [PhaseInvariant, state] at phase
  obtain ⟨dtack, memCsN, quiet⟩ := phase
  obtain ⟨memoryIdle, lines, _⟩ := step.memory.deselected memCsN quiet
  have cache := step.cache
  cases released : before.bus.csN with
  | true =>
      simp only [State.posedge, state, released, if_true, State.sample] at cache
      refine ⟨coherent.of_same (by rw [cache]) (by rw [cache]) (by rw [cache]) lines, ?_⟩
      have idle : after.cache.state = .IDLE := by rw [cache]
      rw [PhaseInvariant, idle]
      exact ⟨by rw [cache], by rw [cache, memCsN], memoryIdle⟩
  | false =>
      simp only [State.posedge, state, released, Bool.false_eq_true, if_false, State.sample] at cache
      refine ⟨coherent.of_same (by rw [cache]) (by rw [cache]) (by rw [cache]) lines, ?_⟩
      have ack : after.cache.state = .ACK := by rw [cache]
      rw [PhaseInvariant, ack]
      exact ⟨by rw [cache, dtack], by rw [cache, memCsN], .inl memoryIdle⟩

theorem Invariant.step {before after : Assembly} (invariant : before.Invariant)
    (step : Step before after) : after.Invariant := by
  cases state : before.cache.state with
  | IDLE => exact invariant.step_idle step state
  | LOOK => exact invariant.step_look step state
  | FILL => exact invariant.step_fill step state
  | WRTH => exact invariant.step_wrth step state
  | ACK => exact invariant.step_ack step state

/-- A cache just out of reset, whatever its RAMs hold, in front of a memory at rest. -/
theorem Invariant.initial {s : Assembly} {powerUp : State} (reset : s.cache = powerUp.reset)
    (idle : s.memory.phase = .idle) : s.Invariant := by
  refine ⟨fun index isValid => ?_, ?_⟩
  · simp [reset, State.reset] at isValid
  · have state : s.cache.state = .IDLE := by rw [reset]; rfl
    rw [PhaseInvariant, state]
    exact ⟨by rw [reset]; rfl, by rw [reset]; rfl, idle⟩

end Assembly

end Mackerel.Sdram.Cache
