import Mackerel.Sdram.AnswerTime
import Mackerel.Sdram.ControllerAnswers
import Mackerel.Sdram.ReadModifyWrite

namespace Mackerel.Sdram

theorem Bus.store_of_read {bus : Bus} (read : bus.rwn = true) (cells : Cells) : bus.store cells = cells :=
  if_pos read

/-- A write changes no line but its own. -/
theorem alignedWord_store_other {bus : Bus} {line : Line} (different : line ≠ lineOf bus.addr) (cells : Cells) :
    alignedWord (bus.store cells) line = alignedWord cells line := by
  have apart (offset : BitVec 2) (low : BitVec 1) : line ++ offset ≠ bus.addr ++ low := by
    intro same
    rw [byteAddress_split] at same
    have upper := congrArg (BitVec.extractLsb' 2 21) same
    rw [BitVec.extractLsb'_append_eq_left, BitVec.extractLsb'_append_eq_left] at upper
    exact different upper
  have kept (offset : BitVec 2) : bus.store cells (line ++ offset) = cells (line ++ offset) := by
    unfold Bus.store
    cases bus.rwn <;> cases bus.udsn <;> cases bus.ldsn <;> simp [Function.update_of_ne, apart]
  simp only [alignedWord, kept]

namespace Controller

namespace State

/-- The adapter is in no access. -/
structure Parked (s : State) : Prop where
  dtack : s.dtack = false
  state : s.state = .S_IDLE ∨ s.state = .S_REF

end State

/-- A read is acknowledged with all of its line. -/
theorem Assembly.PhaseInvariant.line {base : Cells} {commands : List Command} {before after : Assembly}
    (invariant : PhaseInvariant base before commands) (step : Step before after)
    (read : before.bus.rwn = true) (waits : before.ctrl.dtack = false) (acked : after.ctrl.dtack = true) :
    after.ctrl.rdata32 = alignedWord base (lineOf before.bus.addr) := by
  have silent (still : after.ctrl.dtack = before.ctrl.dtack) : False :=
    ne_true_of_eq_false (still.trans waits) acked
  cases invariant with
  | idle state => cases step.move state <;> rename_i still <;> exact (silent still).elim
  | refresh state => cases step.move state <;> rename_i still <;> exact (silent still).elim
  | write _ _ _ _ _ direction => exact absurd read (ne_true_of_eq_false direction)
  | acked _ high => exact absurd high (ne_true_of_eq_false waits)
  | read state requested _ outstanding captured =>
      cases step.move state with
      | reading _ _ _ still => exact (silent still).elim
      | readDone cleared free =>
          obtain ⟨pulses, phase, _⟩ := outstanding.finished cleared free
          have carried : before.Carried := ⟨pulses, fun clocks command busy => by simp [phase] at busy⟩
          rw [step.ctrl, (State.posedge_capture before.bus before.core state).2]
          rcases captured carried with ⟨ready, dout⟩ | ⟨quiet, kept, _⟩
          · rw [if_pos ready, dout]
          · rw [if_neg (ne_true_of_eq_false quiet), kept]

namespace Run

variable (run : Run)

theorem contents_succ (n : Nat) : run.contents (n + 1) =
    if run.Acks n then (run.bus n).store (run.contents n) else run.contents n := by
  unfold contents
  rw [acknowledged]
  split <;> simp

variable {run} {n : Nat}

theorem Acks.line (acks : run.Acks n) (read : (run.bus n).rwn = true) :
    (run.ctrl (n + 1)).rdata32 = alignedWord (run.contents n) (lineOf (run.bus n).addr) := by
  obtain ⟨commands, invariant, _⟩ := run.accounting n
  exact invariant.line (run.exec.step n) read (State.dtackN_eq_true.mp acks.1)
    (State.dtackN_eq_false.mp acks.2)

/-- A deselected adapter is in no access at the next clock. -/
theorem parked (high : (run.bus n).csN = true) : (run.ctrl (n + 1)).Parked := by
  obtain ⟨commands, invariant, _⟩ := run.accounting n
  have step := run.exec.step n
  have unstarted (started : (run.exec.state n).bus.start = true) : False :=
    ne_true_of_eq_false (Bus.start_selected started) high
  cases invariant with
  | idle state dtack =>
      cases step.move state with
      | idle _ _ next still => exact ⟨still.trans dtack, .inl next⟩
      | refresh _ _ _ next still => exact ⟨still.trans dtack, .inr next⟩
      | read _ _ started => exact (unstarted started).elim
      | writeEven _ _ started => exact (unstarted started).elim
      | writeOdd _ _ started => exact (unstarted started).elim
  | refresh state dtack =>
      cases step.move state with
      | refreshing _ _ next still => exact ⟨still.trans dtack, .inr next⟩
      | refreshDone _ _ _ next still => exact ⟨still.trans dtack, .inl next⟩
  | read _ requested => exact (unstarted requested.start).elim
  | write _ _ _ _ requested => exact (unstarted requested.start).elim
  | acked state =>
      cases step.move state with
      | acked selected => exact absurd high (ne_true_of_eq_false selected)
      | released _ _ next ended => exact ⟨ended, .inl next⟩

end Run

end Controller

namespace System

namespace Run

variable (run : Run)

instance (n : Nat) : Decidable (run.Acks n) := inferInstanceAs (Decidable (_ ∧ _))

/-- The bus cycles that the 68000 has seen acknowledged up to clock `n`, oldest first. -/
def acknowledged : Nat → List Bus
  | 0 => []
  | n + 1 => acknowledged n ++ if run.Acks n then [run.bus n] else []

/-- The memory that these cycles leave. -/
def contents (n : Nat) : Cells := (run.acknowledged n).foldl Bus.store (run.core 0).cells

theorem contents_succ (n : Nat) : run.contents (n + 1) =
    if run.Acks n then (run.bus n).store (run.contents n) else run.contents n := by
  unfold contents
  rw [acknowledged]
  split <;> simp

/-- The request that the cache works on is the one on the bus. -/
structure Latched (n : Nat) : Prop where
  idx : (run.cacheAt n).idx = cacheIndex (run.bus n).addr
  reqtag : (run.cacheAt n).reqtag = cacheTag (run.bus n).addr
  wsel : (run.cacheAt n).wsel = wordSelect (run.bus n).addr

/-- The output registers of the RAMs hold the line under lookup. -/
structure Sampled (n : Nat) : Prop where
  dataQ : (run.cacheAt n).dataQ = (run.cacheAt n).dataRam (run.cacheAt n).idx
  tagQ : (run.cacheAt n).tagQ = (run.cacheAt n).tagRam (run.cacheAt n).idx
  validQ : (run.cacheAt n).validQ = (run.cacheAt n).valid (run.cacheAt n).idx

/-- Every valid line is the line of the memory that the adapter has made. -/
def Coherent (n : Nat) : Prop := ∀ index, (run.cacheAt n).valid index = true →
  (run.cacheAt n).dataRam index =
    alignedWord (run.behind.contents n) (lineAt ((run.cacheAt n).tagRam index) index)

/-- The memory of the adapter against the one that the 68000 has seen made: the adapter is ahead by a
    write that the cache has not acknowledged yet. -/
def Agrees (n : Nat) : Prop :=
  match (run.cacheAt n).state with
  | .IDLE | .ACK => run.behind.contents n = run.contents n
  | .LOOK => run.Latched n ∧ run.Sampled n ∧ run.behind.contents n = run.contents n
  | .FILL => run.Latched n ∧ run.behind.contents n = run.contents n ∧
      ((run.behind.ctrl n).dtack = true →
        (run.behind.ctrl n).rdata32 = alignedWord (run.contents n) (lineOf (run.bus n).addr) ∧
        (run.behind.ctrl n).rdata = bigEndianWord (run.contents n) (run.bus n).addr)
  | .WRTH => run.Latched n ∧ run.behind.contents n =
      if (run.behind.ctrl n).dtack then (run.bus n).store (run.contents n) else run.contents n

variable {run} {n : Nat}

theorem cache_succ (n : Nat) : run.cacheAt (n + 1) =
    (run.cacheAt n).posedge (run.bus n) (run.exec.state n).inputs := (run.exec.step n).cache

/-- The cache's request stays on the bus for as long as it is not acknowledged. -/
theorem held_bus (requested : (run.exec.state n).Requested) (still : (run.cacheAt (n + 1)).dtack = false) :
    run.bus (n + 1) = run.bus n :=
  (run.exec.step n).held requested.start requested.dtack still

theorem Latched.succ (latched : run.Latched n) (held : run.bus (n + 1) = run.bus n)
    (idx : (run.cacheAt (n + 1)).idx = (run.cacheAt n).idx)
    (reqtag : (run.cacheAt (n + 1)).reqtag = (run.cacheAt n).reqtag)
    (wsel : (run.cacheAt (n + 1)).wsel = (run.cacheAt n).wsel) : run.Latched (n + 1) :=
  ⟨by rw [idx, held, latched.idx], by rw [reqtag, held, latched.reqtag], by rw [wsel, held, latched.wsel]⟩

/-- Nothing reaches the adapter while the cache does not select it. -/
theorem behind_contents_of_deselected (high : (run.cacheAt n).memCsN = true) :
    run.behind.contents (n + 1) = run.behind.contents n := by
  rw [Controller.Run.contents, unacknowledged high, Controller.Run.contents]

theorem parked (high : (run.cacheAt n).memCsN = true) : (run.behind.ctrl (n + 1)).Parked :=
  Controller.Run.parked high

theorem Coherent.of_same (coherent : run.Coherent n)
    (valid : (run.cacheAt (n + 1)).valid = (run.cacheAt n).valid)
    (dataRam : (run.cacheAt (n + 1)).dataRam = (run.cacheAt n).dataRam)
    (tagRam : (run.cacheAt (n + 1)).tagRam = (run.cacheAt n).tagRam)
    (contents : run.behind.contents (n + 1) = run.behind.contents n) : run.Coherent (n + 1) := by
  intro index isValid
  rw [valid] at isValid
  rw [dataRam, tagRam, contents]
  exact coherent index isValid

theorem contents_of_read (read : (run.bus n).rwn = true) : run.contents (n + 1) = run.contents n := by
  rw [contents_succ, Bus.store_of_read read, ite_self]

theorem contents_of_waiting (waits : (run.cacheAt (n + 1)).dtack = false) :
    run.contents (n + 1) = run.contents n := by
  rw [contents_succ, if_neg]
  intro acks
  exact ne_true_of_eq_false waits (Cache.State.dtackN_eq_false.mp acks.2)

theorem contents_of_acked (acked : (run.cacheAt n).dtack = true) : run.contents (n + 1) = run.contents n := by
  rw [contents_succ, if_neg]
  intro acks
  exact ne_true_of_eq_false (Cache.State.dtackN_eq_true.mp acks.1) acked

/-- The bits of the word that the cache presents are those of the addressed one. -/
theorem word_of_line (cells : Cells) (addr : WordAddress) {tag : BitVec 12} {index : BitVec 9} {select : Bool}
    (same : tag = cacheTag addr) (place : index = cacheIndex addr) (word : select = wordSelect addr) :
    wordOf (alignedWord cells (lineAt tag index)) select = bigEndianWord cells addr := by
  rw [same, place, word, lineAt_split, wordOf_alignedWord]

theorem step_idle (coherent : run.Coherent n) (agrees : run.Agrees n) (state : (run.cacheAt n).state = .IDLE) :
    run.Coherent (n + 1) ∧ run.Agrees (n + 1) := by
  have phase := run.phase n
  rw [PhaseInvariant, show (run.exec.state n).cache.state = _ from state] at phase
  rw [Agrees, state] at agrees
  have same := behind_contents_of_deselected phase.2
  have next := run.cache_succ n
  simp only [Cache.State.posedge, state, Cache.State.sample, Cache.State.rdIdx, if_true] at next
  by_cases started : (run.bus n).start = true
  · have low : (run.cacheAt (n + 1)).dtack = false := by
      rw [next, if_pos started]
      split <;> rfl
    have held := held_bus ⟨started, phase.1⟩ low
    rw [if_pos started] at next
    have kept := (contents_of_waiting low).trans agrees.symm
    cases direction : (run.bus n).rwn with
    | true =>
        rw [if_pos direction] at next
        refine ⟨coherent.of_same (by rw [next]) (by rw [next]) (by rw [next]) same, ?_⟩
        simp only [Agrees, next]
        exact ⟨⟨by rw [next, held], by rw [next, held], by rw [next, held]⟩,
          ⟨by rw [next], by rw [next], by rw [next]⟩, same.trans kept.symm⟩
    | false =>
        rw [if_neg (ne_true_of_eq_false direction)] at next
        refine ⟨coherent.of_same (by rw [next]) (by rw [next]) (by rw [next]) same, ?_⟩
        simp only [Agrees, next]
        refine ⟨⟨by rw [next, held], by rw [next, held], by rw [next, held]⟩, ?_⟩
        rw [if_neg (ne_true_of_eq_false (parked phase.2).dtack)]
        exact same.trans kept.symm
  · rw [if_neg started] at next
    refine ⟨coherent.of_same (by rw [next]) (by rw [next]) (by rw [next]) same, ?_⟩
    simp only [Agrees, next]
    exact same.trans (agrees.trans (contents_of_waiting (by rw [next])).symm)

theorem step_look (coherent : run.Coherent n) (agrees : run.Agrees n) (state : (run.cacheAt n).state = .LOOK) :
    run.Coherent (n + 1) ∧ run.Agrees (n + 1) := by
  have phase := run.phase n
  rw [PhaseInvariant, show (run.exec.state n).cache.state = _ from state] at phase
  rw [Agrees, state] at agrees
  obtain ⟨requested, direction, memCsN⟩ := phase
  obtain ⟨latched, _, equal⟩ := agrees
  have same := behind_contents_of_deselected memCsN
  have kept := (contents_of_read direction).trans equal.symm
  have next := run.cache_succ n
  simp only [Cache.State.posedge, state, Cache.State.sample] at next
  split at next
  · refine ⟨coherent.of_same (by rw [next]) (by rw [next]) (by rw [next]) same, ?_⟩
    simp only [Agrees, next]
    exact same.trans kept.symm
  · have held := held_bus requested (by rw [next]; exact requested.dtack)
    refine ⟨coherent.of_same (by rw [next]) (by rw [next]) (by rw [next]) same, ?_⟩
    simp only [Agrees, next]
    refine ⟨latched.succ held (by rw [next]) (by rw [next]) (by rw [next]), same.trans kept.symm, fun acked => ?_⟩
    exact absurd acked (ne_true_of_eq_false (parked memCsN).dtack)

theorem step_fill (coherent : run.Coherent n) (agrees : run.Agrees n) (state : (run.cacheAt n).state = .FILL) :
    run.Coherent (n + 1) ∧ run.Agrees (n + 1) := by
  have phase := run.phase n
  rw [PhaseInvariant, show (run.exec.state n).cache.state = _ from state] at phase
  rw [Agrees, state] at agrees
  obtain ⟨requested, direction, memCsN⟩ := phase
  obtain ⟨latched, equal, presents⟩ := agrees
  have read : (run.behind.bus n).rwn = true := direction
  have same : run.behind.contents (n + 1) = run.behind.contents n := by
    rw [Controller.Run.contents_succ, Bus.store_of_read read, ite_self]
  have kept := (contents_of_read direction).trans equal.symm
  have next := run.cache_succ n
  simp only [Cache.State.posedge, state, Cache.State.sample] at next
  cases acked : (run.behind.ctrl n).dtack with
  | true =>
      have low : (run.exec.state n).inputs.dtackN = false := Controller.State.dtackN_eq_false.mpr acked
      obtain ⟨line, word⟩ := presents acked
      rw [if_pos (by rw [low]; rfl)] at next
      constructor
      · intro index isValid
        rw [same, next]
        dsimp only
        by_cases here : index = (run.cacheAt n).idx
        · subst here
          rw [Function.update_self, Function.update_self, latched.reqtag, latched.idx, lineAt_split, equal]
          exact line
        · rw [Function.update_of_ne here, Function.update_of_ne here]
          rw [next] at isValid
          exact coherent index (by simpa only [Function.update_of_ne here] using isValid)
      · simp only [Agrees, next]
        exact same.trans kept.symm
  | false =>
      have high : (run.exec.state n).inputs.dtackN = true := Controller.State.dtackN_eq_true.mpr acked
      rw [if_neg (by rw [high]; decide)] at next
      have held := held_bus requested (by rw [next]; exact requested.dtack)
      refine ⟨coherent.of_same (by rw [next]) (by rw [next]) (by rw [next]) same, ?_⟩
      simp only [Agrees, next]
      refine ⟨latched.succ held (by rw [next]) (by rw [next]) (by rw [next]), same.trans kept.symm, fun now => ?_⟩
      have acks : run.behind.Acks n :=
        ⟨Controller.State.dtackN_eq_true.mpr acked, Controller.State.dtackN_eq_false.mpr now⟩
      have line := acks.line read
      have word := acks.advance.2 read
      rw [equal] at line word
      rw [held, contents_of_read direction]
      exact ⟨line, word⟩

theorem step_wrth (coherent : run.Coherent n) (agrees : run.Agrees n) (state : (run.cacheAt n).state = .WRTH) :
    run.Coherent (n + 1) ∧ run.Agrees (n + 1) := by
  have phase := run.phase n
  rw [PhaseInvariant, show (run.exec.state n).cache.state = _ from state] at phase
  rw [Agrees, state] at agrees
  obtain ⟨requested, direction, memCsN⟩ := phase
  obtain ⟨latched, ahead⟩ := agrees
  have next := run.cache_succ n
  simp only [Cache.State.posedge, state, Cache.State.sample] at next
  -- the line of the write is dropped before the write is there
  have coherentNext (valid : (run.cacheAt (n + 1)).valid =
        Function.update (run.cacheAt n).valid (run.cacheAt n).idx false)
      (dataRam : (run.cacheAt (n + 1)).dataRam = (run.cacheAt n).dataRam)
      (tagRam : (run.cacheAt (n + 1)).tagRam = (run.cacheAt n).tagRam) : run.Coherent (n + 1) := by
    intro index isValid
    rw [valid] at isValid
    have different : index ≠ (run.cacheAt n).idx := by
      rintro rfl
      simp at isValid
    rw [Function.update_of_ne different] at isValid
    rw [dataRam, tagRam, coherent index isValid, Controller.Run.contents_succ]
    split
    · refine (alignedWord_store_other ?_ _).symm
      intro sameLine
      rw [← lineAt_split] at sameLine
      exact different ((lineAt_index sameLine).trans latched.idx.symm)
    · rfl
  cases acked : (run.behind.ctrl n).dtack with
  | true =>
      have low : (run.exec.state n).inputs.dtackN = false := Controller.State.dtackN_eq_false.mpr acked
      rw [if_pos (by rw [low]; rfl)] at next
      have acks : run.Acks n :=
        ⟨Cache.State.dtackN_eq_true.mpr requested.dtack, Cache.State.dtackN_eq_false.mpr (by rw [next])⟩
      have still : ¬run.behind.Acks n := fun again =>
        ne_true_of_eq_false (Controller.State.dtackN_eq_true.mp again.1) acked
      refine ⟨coherentNext (by rw [next]) (by rw [next]) (by rw [next]), ?_⟩
      simp only [Agrees, next]
      rw [Controller.Run.contents_succ, if_neg still, ahead, if_pos acked, contents_succ, if_pos acks]
  | false =>
      have high : (run.exec.state n).inputs.dtackN = true := Controller.State.dtackN_eq_true.mpr acked
      rw [if_neg (by rw [high]; decide)] at next
      have low : (run.cacheAt (n + 1)).dtack = false := by
        rw [next]
        exact requested.dtack
      have held := held_bus requested low
      refine ⟨coherentNext (by rw [next]) (by rw [next]) (by rw [next]), ?_⟩
      simp only [Agrees, next]
      refine ⟨latched.succ held (by rw [next]) (by rw [next]) (by rw [next]), ?_⟩
      rw [if_neg (ne_true_of_eq_false acked)] at ahead
      rw [Controller.Run.contents_succ, ahead, held, contents_of_waiting low]
      have acksIff : run.behind.Acks n ↔ (run.behind.ctrl (n + 1)).dtack = true := by
        simp only [Controller.Run.Acks, Controller.State.dtackN_eq_true, Controller.State.dtackN_eq_false,
          acked, true_and]
      simp only [acksIff]
      rfl

theorem step_ack (coherent : run.Coherent n) (agrees : run.Agrees n) (state : (run.cacheAt n).state = .ACK) :
    run.Coherent (n + 1) ∧ run.Agrees (n + 1) := by
  have phase := run.phase n
  rw [PhaseInvariant, show (run.exec.state n).cache.state = _ from state] at phase
  rw [Agrees, state] at agrees
  have same := behind_contents_of_deselected phase.2
  have kept := same.trans (agrees.trans (contents_of_acked phase.1).symm)
  have next := run.cache_succ n
  simp only [Cache.State.posedge, state, Cache.State.sample] at next
  split at next
  · refine ⟨coherent.of_same (by rw [next]) (by rw [next]) (by rw [next]) same, ?_⟩
    simp only [Agrees, next]
    exact kept
  · refine ⟨coherent.of_same (by rw [next]) (by rw [next]) (by rw [next]) same, ?_⟩
    simp only [Agrees, next]
    exact kept

variable (run)

theorem agreement (n : Nat) : run.Coherent n ∧ run.Agrees n := by
  induction n with
  | zero =>
      obtain ⟨powerUp, reset⟩ := run.cache
      have start : run.cacheAt 0 = powerUp.reset := reset
      constructor
      · intro index isValid
        rw [start] at isValid
        cases isValid
      · simp only [Agrees, start, Cache.State.reset]
        rfl
  | succ n ih =>
      obtain ⟨coherent, agrees⟩ := ih
      cases state : (run.cacheAt n).state with
      | IDLE => exact step_idle coherent agrees state
      | LOOK => exact step_look coherent agrees state
      | FILL => exact step_fill coherent agrees state
      | WRTH => exact step_wrth coherent agrees state
      | ACK => exact step_ack coherent agrees state

variable {run}

/-- An acknowledge is a hit, or follows that of the adapter. -/
theorem Acks.cases (acks : run.Acks n) :
    ((run.cacheAt n).state = .LOOK ∧ (run.cacheAt n).hit = true) ∨
    ((run.cacheAt n).state = .FILL ∧ (run.behind.ctrl n).dtack = true) ∨
    ((run.cacheAt n).state = .WRTH ∧ (run.behind.ctrl n).dtack = true) := by
  obtain ⟨high, low⟩ := acks
  have waits := Cache.State.dtackN_eq_true.mp high
  rw [Cache.State.dtackN_eq_false, cache_succ, Cache.State.posedge_dtack, waits] at low
  have answered (up : (!(run.exec.state n).inputs.dtackN || false) = true) : (run.behind.ctrl n).dtack = true := by
    rw [Bool.or_false, Bool.not_eq_true'] at up
    exact Controller.State.dtackN_eq_false.mp up
  cases state : (run.cacheAt n).state <;> simp only [state] at low
  · cases low
  · exact .inl ⟨rfl, by simpa using low⟩
  · exact .inr (.inl ⟨rfl, answered low⟩)
  · exact .inr (.inr ⟨rfl, answered low⟩)
  · simp at low

theorem Acks.requested (acks : run.Acks n) : (run.exec.state n).Requested := by
  have phase := run.phase n
  unfold PhaseInvariant at phase
  rcases acks.cases with ⟨state, _⟩ | ⟨state, _⟩ | ⟨state, _⟩ <;>
    (rw [show (run.exec.state n).cache.state = _ from state] at phase; exact phase.1)

theorem Acks.readData (acks : run.Acks n) (read : (run.bus n).rwn = true) :
    (run.cacheAt (n + 1)).rdata = bigEndianWord (run.contents n) (run.bus n).addr := by
  have phase := run.phase n
  obtain ⟨coherent, agrees⟩ := run.agreement n
  unfold PhaseInvariant at phase
  rw [cache_succ, Cache.State.posedge_rdata]
  rcases acks.cases with ⟨state, hit⟩ | ⟨state, answered⟩ | ⟨state, _⟩ <;>
    rw [show (run.exec.state n).cache.state = _ from state] at phase <;> rw [Agrees, state] at agrees
  · obtain ⟨latched, sampled, equal⟩ := agrees
    have hits := hit
    simp only [Cache.State.hit, Bool.and_eq_true, beq_iff_eq] at hits
    have line := coherent _ (sampled.validQ.symm.trans hits.1)
    rw [← sampled.dataQ, ← sampled.tagQ, equal] at line
    simp only [state, hit, if_true, Cache.State.hitWord]
    rw [line]
    exact word_of_line _ _ (hits.2.trans latched.reqtag) latched.idx latched.wsel
  · have low : (run.exec.state n).inputs.dtackN = false := Controller.State.dtackN_eq_false.mpr answered
    simp only [state, low, Bool.not_false, if_true]
    exact (agrees.2.2 answered).2
  · exact absurd read (ne_true_of_eq_false phase.2.1)

theorem held_rdata (low : (run.cacheAt n).dtackN = false) :
    (run.cacheAt (n + 1)).rdata = (run.cacheAt n).rdata := by
  rw [cache_succ, Cache.State.posedge_rdata, ack_of_dtackN low]

theorem released (low : (run.cacheAt n).dtackN = false) (ended : (run.bus n).csN = true) :
    (run.cacheAt (n + 1)).dtackN = true := by
  rw [Cache.State.dtackN_eq_true, cache_succ, Cache.State.posedge_dtack, ack_of_dtackN low]
  simp [ended]

/-- A write that is on the bus and not acknowledged. -/
structure Writes (run : Run) (n : Nat) : Prop where
  start : (run.bus n).start = true
  rwn : (run.bus n).rwn = false
  dtackN : (run.cacheAt n).dtackN = true

/-- Outside its writes, the cells of the SDRAM hold the memory that the 68000 has seen made. -/
theorem cells_eq (none : ¬run.Writes n) : (run.core n).cells = run.contents n := by
  have phase := run.phase n
  obtain ⟨_, agrees⟩ := run.agreement n
  have elsewhere : (run.cacheAt n).state ≠ .WRTH := by
    intro state
    rw [PhaseInvariant, show (run.exec.state n).cache.state = _ from state] at phase
    exact none ⟨phase.1.start, phase.2.1, Cache.State.dtackN_eq_true.mpr phase.1.dtack⟩
  have equal : run.behind.contents n = run.contents n := by
    unfold Agrees at agrees
    cases state : (run.cacheAt n).state <;> rw [state] at agrees
    case IDLE | ACK => exact agrees
    case LOOK => exact agrees.2.2
    case FILL => exact agrees.2.1
    case WRTH => exact absurd state elsewhere
  obtain ⟨commands, invariant, _⟩ := run.behind.accounting n
  rw [← equal]
  cases invariant with
  | idle _ _ _ cells => exact cells
  | refresh _ _ outstanding => exact outstanding.cells.elim id id
  | read _ _ _ outstanding => exact outstanding.cells.elim id id
  | acked _ _ _ cells => exact cells
  | write _ _ _ _ requested direction =>
      -- the adapter writes for the cache only
      obtain ⟨asked, selects⟩ := phase.selected (Bus.start_selected requested.start)
      rcases selects with ⟨_, read⟩ | ⟨state, _⟩
      · exact absurd read (ne_true_of_eq_false direction)
      · exact absurd state elsewhere

end Run

/-- Cache, adapter and core are one big-endian memory on the 68000 bus: a cycle is acknowledged once, a
    read with the word that the acknowledged writes have left at its address, and the SDRAM holds these
    writes and nothing else. Where no command keeps the core busy for more than 100 clocks, a request
    waits for at most 314. -/
theorem sdram_path_is_memory (run : Run) :
    (∀ n, run.Acks n → (run.bus n).start = true ∧ ((run.bus n).rwn = true →
      (run.cacheAt (n + 1)).rdata = bigEndianWord (run.contents n) (run.bus n).addr)) ∧
    (∀ n, (run.cacheAt n).dtackN = false →
      ((run.bus n).csN = false → (run.cacheAt (n + 1)).dtackN = false ∧
        (run.cacheAt (n + 1)).rdata = (run.cacheAt n).rdata) ∧
      ((run.bus n).csN = true → (run.cacheAt (n + 1)).dtackN = true)) ∧
    (∀ n, ¬run.Writes n → (run.core n).cells = run.contents n) ∧
    ((∀ n, (run.core n).WithinLatency) → ∀ n, (∃ k < n, (run.core k).busy = false) →
      (∀ k, n ≤ k → k < n + 314 → (run.bus k).start = true) →
        ∃ k, n ≤ k ∧ k < n + 314 ∧ (run.cacheAt k).dtackN = false) := by
  refine ⟨fun n acks => ⟨acks.requested.start, acks.readData⟩,
    fun n low => ⟨fun selected => ⟨Run.held low selected, Run.held_rdata low⟩, Run.released low⟩,
    fun n => Run.cells_eq, fun latency n idle request => ?_⟩
  have started : (run.exec.state n).ctrl.initSeen = true := (@Controller.Run.initSeen_iff run.behind n).mpr idle
  obtain ⟨k, lower, upper, acked⟩ := (run.bounded latency).acknowledged started request
  exact ⟨k, lower, upper, Cache.State.dtackN_eq_false.mpr acked⟩

/-- A read that begins at clock 2. -/
def openRead (n : Nat) : Bus :=
  { csN := n < 2, addr := 5, rwn := true, udsn := n < 2, ldsn := n < 2, wdata := 0 }

def openReadPath : BoundedRun :=
  steadyRun openRead (fun _ => 9)
    { bus := openRead 0
      cache :=
        { dataRam := fun _ => 0, tagRam := fun _ => 0, valid := fun _ => false, state := .IDLE, idx := 0
          reqtag := 0, wsel := false, dataQ := 0, tagQ := 0, validQ := false, dtack := false, rdata := 0
          memCsN := true }
      ctrl := .reset
      core := { cells := fun _ => 0x41, phase := .idle, dataReady := false, dout32 := 0 } }
    (fun _ => by decide)

theorem openReadPath_bus (n : Nat) : (openReadPath.exec.state n).bus = openRead n := by
  cases n with
  | zero => rfl
  | succ n => rfl

def openReadRun : Run where
  exec := {
    state := openReadPath.exec.state
    step := fun n => {
      cache := (openReadPath.exec.step n).cache
      ctrl := (openReadPath.exec.step n).ctrl
      core := (openReadPath.exec.step n).core
      bus := by
        intro selected _ _
        rw [openReadPath_bus] at selected ⊢
        have low : ¬n < 2 := of_decide_eq_false selected
        have same : openRead (n + 1) = openRead n := by simp [openRead, low, show ¬n + 1 < 2 by omega]
        rw [openReadPath_bus, same]
        exact ⟨rfl, rfl, rfl, fun _ => rfl⟩ } }
  cache := openReadPath.cache
  ctrl := openReadPath.ctrl
  powerUp := openReadPath.powerUp

theorem openRead_answered : ∃ k, 2 ≤ k ∧ k < 2 + 314 ∧ (openReadRun.cacheAt k).dtackN = false := by
  refine (sdram_path_is_memory openReadRun).2.2.2 openReadPath.latency 2 ⟨0, by decide, rfl⟩ fun k late _ => ?_
  have bus : openReadRun.bus k = openRead k := openReadPath_bus k
  simp [bus, openRead, Bus.start, Bus.strobed, show ¬k < 2 by omega]

end System

end Mackerel.Sdram
