import Mathlib.Data.Prod.Lex
import Mackerel.Sdram.Bus

namespace Mackerel.Sdram

/-! The memory side that `sdram_cache` relies on: a flat memory of 32-bit lines
behind a chip-select and an acknowledge, with an arbitrary finite latency chosen
afresh for every access. -/

/-- A byte or word write as it reached the memory. -/
structure WriteRecord where
  addr : WordAddress
  udsn : Bool
  ldsn : Bool
  wdata : BitVec 16
deriving DecidableEq

def Bus.write (bus : Bus) : WriteRecord :=
  { addr := bus.addr, udsn := bus.udsn, ldsn := bus.ldsn, wdata := bus.wdata }

def WriteRecord.store (record : WriteRecord) (lines : Lines) : Lines := fun line =>
  if line = lineOf record.addr then
    storeWord (lines line) (wordSelect record.addr) record.udsn record.ldsn record.wdata
  else lines line

theorem WriteRecord.store_other {record : WriteRecord} {lines : Lines} {line : Line}
    (different : line ≠ lineOf record.addr) : record.store lines line = lines line :=
  if_neg different

/-- `access clocks performed`: `clocks` more clocks until the acknowledge, and whether the
    memory itself has been accessed already. -/
inductive MemoryPhase where
  | idle
  | access (clocks : Nat) (performed : Bool)
  | acked
deriving DecidableEq

namespace MemoryPhase

def performed : MemoryPhase → Bool
  | idle => false
  | access _ performed => performed
  | acked => true

/-- Lowered by every clock with the chip-select low. The first component makes room for
    a latency that is only chosen when the access begins. -/
def rank : MemoryPhase → Nat ×ₗ Nat
  | idle => toLex (2, 0)
  | access clocks _ => toLex (1, clocks)
  | acked => toLex (0, 0)

theorem rank_access_lt {clocks : Nat} (performed other : Bool) :
    rank (access clocks performed) < rank (access (clocks + 1) other) :=
  Prod.Lex.toLex_lt_toLex.mpr (.inr ⟨rfl, Nat.lt_succ_self clocks⟩)

theorem rank_acked_lt {clocks : Nat} (performed : Bool) :
    rank acked < rank (access clocks performed) :=
  Prod.Lex.toLex_lt_toLex.mpr (.inl (by simp))

theorem rank_lt_idle (clocks : Nat) (performed : Bool) :
    rank (access clocks performed) < rank idle :=
  Prod.Lex.toLex_lt_toLex.mpr (.inl (by simp))

theorem not_lt_acked (phase : MemoryPhase) : ¬ rank phase < rank acked := by
  cases phase <;> simp [rank, Prod.Lex.toLex_lt_toLex]

end MemoryPhase

structure FlatMemory where
  lines : Lines
  phase : MemoryPhase
  rdata : BitVec 16
  rdata32 : BitVec 32
  /-- Every write applied so far, oldest first. -/
  log : List WriteRecord

namespace FlatMemory

def dtackN (memory : FlatMemory) : Bool := memory.phase != .acked

/-- The access itself: a write is stored and recorded, a read changes nothing. -/
def perform (bus : Bus) (memory : FlatMemory) : FlatMemory :=
  if bus.rwn then memory
  else { memory with
    lines := bus.write.store memory.lines
    log := memory.log ++ [bus.write] }

/-- The acknowledge, with the addressed line and word on the data outputs. -/
def acknowledge (bus : Bus) (memory : FlatMemory) : FlatMemory :=
  { memory with
    phase := .acked
    rdata32 := memory.lines (lineOf bus.addr)
    rdata := wordOf (memory.lines (lineOf bus.addr)) (wordSelect bus.addr) }

/-- The data outputs carry no meaning while the acknowledge is negated. -/
def unacknowledged (phase : MemoryPhase) (rdata : BitVec 16) (rdata32 : BitVec 32)
    (memory : FlatMemory) : FlatMemory :=
  { memory with phase, rdata, rdata32 }

/-- One clock of an access with `clocks` clocks to go. The memory is accessed at any one
    of the clocks up to the acknowledge. -/
inductive Serve (bus : Bus) (memory : FlatMemory) : Nat → Bool → FlatMemory → Prop where
  | wait (clocks : Nat) (performed : Bool) (rdata : BitVec 16) (rdata32 : BitVec 32) :
      Serve bus memory (clocks + 1) performed
        (memory.unacknowledged (.access clocks performed) rdata rdata32)
  | perform (clocks : Nat) (rdata : BitVec 16) (rdata32 : BitVec 32) :
      Serve bus memory (clocks + 1) false
        ((memory.perform bus).unacknowledged (.access clocks true) rdata rdata32)
  | acknowledge : Serve bus memory 0 true (memory.acknowledge bus)
  | performAcknowledge : Serve bus memory 0 false ((memory.perform bus).acknowledge bus)

inductive Step (csN : Bool) (bus : Bus) (memory : FlatMemory) : FlatMemory → Prop where
  | rest (rdata : BitVec 16) (rdata32 : BitVec 32) :
      memory.phase = .idle → csN = true →
      Step csN bus memory (memory.unacknowledged .idle rdata rdata32)
  | begin (latency : Nat) {after : FlatMemory} :
      memory.phase = .idle → csN = false → Serve bus memory latency false after →
      Step csN bus memory after
  | serve {clocks : Nat} {performed : Bool} {after : FlatMemory} :
      memory.phase = .access clocks performed → Serve bus memory clocks performed after →
      Step csN bus memory after
  | hold : memory.phase = .acked → csN = false → Step csN bus memory memory
  | release (rdata : BitVec 16) (rdata32 : BitVec 32) :
      memory.phase = .acked → csN = true →
      Step csN bus memory (memory.unacknowledged .idle rdata rdata32)

theorem Step.deselected {csN : Bool} {bus : Bus} {memory after : FlatMemory}
    (step : Step csN bus memory after) (high : csN = true)
    (quiet : memory.phase = .idle ∨ memory.phase = .acked) :
    after.phase = .idle ∧ after.lines = memory.lines ∧ after.log = memory.log := by
  cases step with
  | rest rdata rdata32 idle _ => exact ⟨rfl, rfl, rfl⟩
  | begin latency idle low => simp [high] at low
  | serve access _ => simp [access] at quiet
  | hold acked low => simp [high] at low
  | release rdata rdata32 acked _ => exact ⟨rfl, rfl, rfl⟩

/-- The data outputs belong to the addressed line as it is now. -/
def Presents (bus : Bus) (memory : FlatMemory) : Prop :=
  memory.rdata32 = memory.lines (lineOf bus.addr) ∧
    memory.rdata = wordOf (memory.lines (lineOf bus.addr)) (wordSelect bus.addr)

/-- What one clock with the chip-select low can do: the memory is accessed at most once
    on the way to the acknowledge, and the acknowledge comes with the addressed data. -/
structure Selected (bus : Bus) (before after : FlatMemory) : Prop where
  effect :
    (after.lines = before.lines ∧ after.log = before.log ∧
      after.phase.performed = before.phase.performed) ∨
    (before.phase.performed = false ∧ after.phase.performed = true ∧
      after.lines = (before.perform bus).lines ∧ after.log = (before.perform bus).log)
  answer : (before.phase = .acked ∧ after = before) ∨
    (after.phase.rank < before.phase.rank ∧ (after.phase = .acked → Presents bus after))

theorem Serve.selected {bus : Bus} {memory after : FlatMemory} {clocks : Nat}
    {performed : Bool} (serve : Serve bus memory clocks performed after)
    (unperformed : memory.phase.performed = performed)
    (above : MemoryPhase.rank (.access clocks performed) ≤ memory.phase.rank) :
    Selected bus memory after := by
  cases serve with
  | wait clocks performed =>
      refine ⟨.inl ⟨rfl, rfl, unperformed.symm⟩, .inr ⟨?_, fun acked => ?_⟩⟩
      · exact lt_of_lt_of_le (MemoryPhase.rank_access_lt performed performed) above
      · simp [unacknowledged] at acked
  | perform clocks =>
      refine ⟨.inr ⟨unperformed, rfl, rfl, rfl⟩, .inr ⟨?_, fun acked => ?_⟩⟩
      · exact lt_of_lt_of_le (MemoryPhase.rank_access_lt true false) above
      · simp [unacknowledged] at acked
  | acknowledge =>
      refine ⟨.inl ⟨rfl, rfl, unperformed.symm⟩, .inr ⟨?_, fun _ => ⟨rfl, rfl⟩⟩⟩
      exact lt_of_lt_of_le (MemoryPhase.rank_acked_lt true) above
  | performAcknowledge =>
      refine ⟨.inr ⟨unperformed, rfl, rfl, rfl⟩, .inr ⟨?_, fun _ => ⟨rfl, rfl⟩⟩⟩
      exact lt_of_lt_of_le (MemoryPhase.rank_acked_lt false) above

theorem Step.selected {bus : Bus} {memory after : FlatMemory}
    (step : Step false bus memory after) : Selected bus memory after := by
  cases step with
  | rest rdata rdata32 idle high => simp at high
  | begin latency idle _ serve =>
      refine serve.selected (by simp [idle, MemoryPhase.performed]) ?_
      rw [idle]
      exact le_of_lt (MemoryPhase.rank_lt_idle latency false)
  | serve access serve =>
      exact serve.selected (by simp [access, MemoryPhase.performed]) (by rw [access])
  | hold acked _ => exact ⟨.inl ⟨rfl, rfl, rfl⟩, .inl ⟨acked, rfl⟩⟩
  | release rdata rdata32 acked high => simp at high

theorem Selected.of_read {bus : Bus} {before after : FlatMemory}
    (selected : Selected bus before after) (read : bus.rwn = true) :
    after.lines = before.lines ∧ after.log = before.log := by
  have unchanged : before.perform bus = before := if_pos read
  rcases selected.effect with ⟨lines, log, _⟩ | ⟨_, _, lines, log⟩
  · exact ⟨lines, log⟩
  · rw [unchanged] at lines log
    exact ⟨lines, log⟩

theorem Selected.of_write {bus : Bus} {before after : FlatMemory}
    (selected : Selected bus before after) (write : bus.rwn = false) :
    after.lines = before.lines ∨ after.lines = bus.write.store before.lines := by
  rcases selected.effect with ⟨lines, _, _⟩ | ⟨_, _, lines, _⟩
  · exact .inl lines
  · simp only [perform, write, Bool.false_eq_true, if_false] at lines
    exact .inr lines

theorem Selected.acked {bus : Bus} {before after : FlatMemory}
    (selected : Selected bus before after) (answered : before.phase = .acked) :
    after.phase = .acked := by
  rcases selected.answer with ⟨_, same⟩ | ⟨lower, _⟩
  · rw [same, answered]
  · rw [answered] at lower
    exact absurd lower (MemoryPhase.not_lt_acked after.phase)

theorem Selected.presents {bus : Bus} {before after : FlatMemory}
    (selected : Selected bus before after) (unanswered : before.phase ≠ .acked)
    (acked : after.phase = .acked) : Presents bus after := by
  rcases selected.answer with ⟨answered, _⟩ | ⟨_, presents⟩
  · exact absurd answered unanswered
  · exact presents acked

end FlatMemory

end Mackerel.Sdram
