import Mackerel.Sdram.Bus

namespace Mackerel.Sdram.Cache

inductive FsmState where
  | IDLE | LOOK | FILL | WRTH | ACK
deriving DecidableEq

structure State where
  dataRam : BitVec 9 → BitVec 32
  tagRam : BitVec 9 → BitVec 12
  valid : BitVec 9 → Bool
  state : FsmState
  idx : BitVec 9
  reqtag : BitVec 12
  wsel : Bool
  dataQ : BitVec 32
  tagQ : BitVec 12
  validQ : Bool
  dtack : Bool
  rdata : BitVec 16
  memCsN : Bool

structure MemoryInputs where
  rdata : BitVec 16
  rdata32 : BitVec 32
  dtackN : Bool

namespace State

def dtackN (s : State) : Bool := !s.dtack

def rdIdx (s : State) (bus : Bus) : BitVec 9 :=
  if s.state = .IDLE then cacheIndex bus.addr else s.idx

def hit (s : State) : Bool := s.validQ && s.tagQ == s.reqtag

def hitWord (s : State) : BitVec 16 := wordOf s.dataQ s.wsel

/-- The asynchronous reset. The RAMs and their output registers have none. -/
def reset (s : State) : State :=
  { s with
    state := .IDLE
    memCsN := true
    dtack := false
    rdata := 0
    valid := fun _ => false
    idx := 0
    reqtag := 0
    wsel := false }

/-- The registered read of the line under lookup. -/
def sample (s : State) (bus : Bus) : State :=
  { s with
    dataQ := s.dataRam (s.rdIdx bus)
    tagQ := s.tagRam (s.rdIdx bus)
    validQ := s.valid (s.rdIdx bus) }

/-- One rising clock edge with `rst_n` high. The state machine reads the registers of
    before the edge, so its updates are laid over the sampled line. -/
def posedge (s : State) (bus : Bus) (mem : MemoryInputs) : State :=
  let next := s.sample bus
  match s.state with
  | .IDLE =>
      let next := { next with memCsN := true, dtack := false }
      if bus.start then
        let next := { next with
          idx := cacheIndex bus.addr
          reqtag := cacheTag bus.addr
          wsel := wordSelect bus.addr }
        if bus.rwn then { next with state := .LOOK }
        else { next with memCsN := false, state := .WRTH }
      else next
  | .LOOK =>
      if s.hit then { next with rdata := s.hitWord, dtack := true, state := .ACK }
      else { next with memCsN := false, state := .FILL }
  | .FILL =>
      if !mem.dtackN then
        { next with
          dataRam := Function.update s.dataRam s.idx mem.rdata32
          tagRam := Function.update s.tagRam s.idx s.reqtag
          valid := Function.update s.valid s.idx true
          rdata := mem.rdata
          memCsN := true
          dtack := true
          state := .ACK }
      else next
  | .WRTH =>
      let next := { next with valid := Function.update s.valid s.idx false }
      if !mem.dtackN then { next with memCsN := true, dtack := true, state := .ACK }
      else next
  | .ACK =>
      if bus.csN then { next with dtack := false, state := .IDLE } else next

variable {s : State} {bus : Bus} {mem : MemoryInputs}

theorem dtackN_eq_true : s.dtackN = true ↔ s.dtack = false := by simp [dtackN]

theorem dtackN_eq_false : s.dtackN = false ↔ s.dtack = true := by simp [dtackN]

theorem posedge_state : (s.posedge bus mem).state =
    match s.state with
    | .IDLE => if bus.start then (if bus.rwn then .LOOK else .WRTH) else .IDLE
    | .LOOK => if s.hit then .ACK else .FILL
    | .FILL => if !mem.dtackN then .ACK else .FILL
    | .WRTH => if !mem.dtackN then .ACK else .WRTH
    | .ACK => if bus.csN then .IDLE else .ACK := by
  unfold posedge
  cases state : s.state <;> grind [sample]

theorem posedge_dtack : (s.posedge bus mem).dtack =
    match s.state with
    | .IDLE => false
    | .LOOK => s.hit || s.dtack
    | .FILL => !mem.dtackN || s.dtack
    | .WRTH => !mem.dtackN || s.dtack
    | .ACK => !bus.csN && s.dtack := by
  unfold posedge
  cases state : s.state <;> grind [sample]

/-- The adapter is selected. -/
def Selects (s : State) : Prop := s.state = .FILL ∨ s.state = .WRTH

/-- The select follows the state. -/
def SelectMatches (s : State) : Prop := s.memCsN = false ↔ s.Selects

theorem SelectMatches.posedge (matched : s.SelectMatches) : (s.posedge bus mem).SelectMatches := by
  unfold SelectMatches Selects State.posedge at *
  cases state : s.state <;> grind [sample]

/-- An acknowledged adapter is deselected. -/
theorem posedge_memCsN (selects : s.Selects) (acked : mem.dtackN = false) :
    (s.posedge bus mem).memCsN = true := by
  unfold State.posedge
  rcases selects with state | state <;> rw [state, acked] <;> rfl

theorem posedge_rdata : (s.posedge bus mem).rdata =
    match s.state with
    | .LOOK => if s.hit then s.hitWord else s.rdata
    | .FILL => if !mem.dtackN then mem.rdata else s.rdata
    | _ => s.rdata := by
  unfold posedge
  cases state : s.state <;> grind [sample]

end State

end Mackerel.Sdram.Cache
