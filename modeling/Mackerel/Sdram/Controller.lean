import Mackerel.Sdram.Bus
import Mackerel.Sdram.Core

namespace Mackerel.Sdram.Controller

inductive FsmState where
  | S_IDLE | S_RD | S_WR | S_REF | S_ACK
deriving DecidableEq

def REFRESH_INT : BitVec 9 := 340

structure State where
  ctrlRd : Bool
  ctrlWr : Bool
  ctrlRefresh : Bool
  ctrlAddr : ByteAddress
  ctrlDin : BitVec 8
  rdata : BitVec 16
  rdata32 : BitVec 32
  dtack : Bool
  initDone : Bool
  refCnt : BitVec 9
  refDue : Bool
  initSeen : Bool
  needSecond : Bool
  state : FsmState

namespace State

def dtackN (s : State) : Bool := !s.dtack

def reset : State where
  ctrlRd := false
  ctrlWr := false
  ctrlRefresh := false
  ctrlAddr := 0
  ctrlDin := 0
  rdata := 0
  rdata32 := 0
  dtack := false
  initDone := false
  refCnt := 0
  refDue := false
  initSeen := false
  needSecond := false
  state := .S_IDLE

/-- The command pulses as the core samples them. -/
def pulses (s : State) : List Command :=
  (if s.ctrlRd then [.rd s.ctrlAddr] else []) ++
    (if s.ctrlWr then [.wr s.ctrlAddr s.ctrlDin] else []) ++
    (if s.ctrlRefresh then [.refresh] else [])

/-- The assignments before the `case`: pulses end, initialisation and the refresh timer
    go on. -/
def prologue (s : State) (core : Core) : State :=
  let next := { s with ctrlRd := false, ctrlWr := false, ctrlRefresh := false }
  let next := if !core.busy then { next with initSeen := true, initDone := true } else next
  if s.initSeen then
    if REFRESH_INT ≤ s.refCnt then { next with refDue := true, refCnt := 0 }
    else { next with refCnt := s.refCnt + 1 }
  else next

/-- One rising clock edge with `rst_n` high; what the `case` assigns overrides the prologue. -/
def posedge (s : State) (bus : Bus) (core : Core) : State :=
  let next := s.prologue core
  match s.state with
  | .S_IDLE =>
      if s.initSeen && !core.busy then
        if s.refDue then { next with ctrlRefresh := true, refDue := false, state := .S_REF }
        else if bus.start then
          if bus.rwn then
            { next with ctrlRd := true, ctrlAddr := bus.addr ++ 0#1, state := .S_RD }
          else if !bus.udsn then
            { next with
              ctrlWr := true
              ctrlAddr := bus.addr ++ 0#1
              ctrlDin := bus.wdata.extractLsb' 8 8
              needSecond := !bus.ldsn
              state := .S_WR }
          else
            { next with
              ctrlWr := true
              ctrlAddr := bus.addr ++ 1#1
              ctrlDin := bus.wdata.extractLsb' 0 8
              needSecond := false
              state := .S_WR }
        else next
      else next
  | .S_RD =>
      let next :=
        if core.dataReady then
          { next with rdata := wordOf core.dout32 (wordSelect bus.addr), rdata32 := core.dout32 }
        else next
      if !s.ctrlRd && !core.busy then { next with dtack := true, state := .S_ACK } else next
  | .S_WR =>
      if !s.ctrlWr && !core.busy then
        if s.needSecond then
          { next with
            ctrlWr := true
            ctrlAddr := bus.addr ++ 1#1
            ctrlDin := bus.wdata.extractLsb' 0 8
            needSecond := false }
        else { next with dtack := true, state := .S_ACK }
      else next
  | .S_REF => if !s.ctrlRefresh && !core.busy then { next with state := .S_IDLE } else next
  | .S_ACK => if bus.csN then { next with dtack := false, state := .S_IDLE } else next

/-- The register that carries a command's pulse. -/
def pulsing (s : State) : Command → Bool
  | .rd _ => s.ctrlRd
  | .wr _ _ => s.ctrlWr
  | .refresh => s.ctrlRefresh

variable {s next : State} {bus : Bus} {core : Core}

theorem pulsing_of_mem {command : Command} (issued : command ∈ s.pulses) :
    s.pulsing command = true := by
  simp only [pulses, List.mem_append, List.mem_ite_nil_right, List.mem_singleton] at issued
  rcases issued with (⟨pulse, rfl⟩ | ⟨pulse, rfl⟩) | ⟨pulse, rfl⟩ <;> exact pulse

theorem dtackN_eq_true : s.dtackN = true ↔ s.dtack = false := by simp [dtackN]

theorem dtackN_eq_false : s.dtackN = false ↔ s.dtack = true := by simp [dtackN]

theorem prologue_ctrl (s : State) (core : Core) :
    (s.prologue core).ctrlRd = false ∧ (s.prologue core).ctrlWr = false ∧
    (s.prologue core).ctrlRefresh = false := by
  unfold prologue
  grind

theorem prologue_kept (s : State) (core : Core) :
    (s.prologue core).dtack = s.dtack ∧ (s.prologue core).rdata = s.rdata ∧
    (s.prologue core).rdata32 = s.rdata32 ∧ (s.prologue core).needSecond = s.needSecond ∧
    (s.prologue core).state = s.state ∧
    (s.prologue core).initSeen = (s.initSeen || !core.busy) := by
  unfold prologue
  grind

/-- An edge that only runs the prologue, or also ends or begins a state without a command. -/
structure Silent (s next : State) : Prop where
  pulses : next.pulses = []
  rdata : next.rdata = s.rdata
  rdata32 : next.rdata32 = s.rdata32
  needSecond : next.needSecond = s.needSecond

/-- The ways one clock edge can move the machine. -/
inductive Move (s : State) (bus : Bus) (core : Core) (next : State) : FsmState → Prop where
  | idle : (s.initSeen = false ∨ core.busy = true ∨ bus.start = false) → Silent s next →
      next.state = .S_IDLE → next.dtack = s.dtack → Move s bus core next .S_IDLE
  | refresh : s.initSeen = true → core.busy = false →
      next.pulses = [.refresh] → next.state = .S_REF → next.dtack = s.dtack →
      Move s bus core next .S_IDLE
  | read : s.initSeen = true → core.busy = false →
      bus.start = true → bus.rwn = true →
      next.pulses = [.rd (bus.addr ++ 0#1)] → next.state = .S_RD → next.dtack = s.dtack →
      Move s bus core next .S_IDLE
  | writeEven : s.initSeen = true → core.busy = false →
      bus.start = true → bus.rwn = false → bus.udsn = false →
      next.pulses = [.wr (bus.addr ++ 0#1) (bus.wdata.extractLsb' 8 8)] →
      next.needSecond = !bus.ldsn → next.state = .S_WR → next.dtack = s.dtack →
      Move s bus core next .S_IDLE
  | writeOdd : s.initSeen = true → core.busy = false →
      bus.start = true → bus.rwn = false → bus.udsn = true →
      next.pulses = [.wr (bus.addr ++ 1#1) (bus.wdata.extractLsb' 0 8)] →
      next.needSecond = false → next.state = .S_WR → next.dtack = s.dtack →
      Move s bus core next .S_IDLE
  | reading : (s.pulses ≠ [] ∨ core.busy = true) → next.pulses = [] →
      next.state = .S_RD → next.dtack = s.dtack → Move s bus core next .S_RD
  | readDone : s.ctrlRd = false → core.busy = false → next.pulses = [] →
      next.state = .S_ACK → next.dtack = true → Move s bus core next .S_RD
  | writing : (s.pulses ≠ [] ∨ core.busy = true) → Silent s next →
      next.state = .S_WR → next.dtack = s.dtack → Move s bus core next .S_WR
  | writeSecond : s.ctrlWr = false → core.busy = false →
      s.needSecond = true →
      next.pulses = [.wr (bus.addr ++ 1#1) (bus.wdata.extractLsb' 0 8)] →
      next.needSecond = false → next.state = .S_WR → next.dtack = s.dtack →
      Move s bus core next .S_WR
  | writeDone : s.ctrlWr = false → core.busy = false →
      s.needSecond = false → Silent s next → next.state = .S_ACK → next.dtack = true →
      Move s bus core next .S_WR
  | refreshing : (s.pulses ≠ [] ∨ core.busy = true) →
      Silent s next → next.state = .S_REF → next.dtack = s.dtack → Move s bus core next .S_REF
  | refreshDone : s.ctrlRefresh = false → core.busy = false →
      Silent s next → next.state = .S_IDLE → next.dtack = s.dtack → Move s bus core next .S_REF
  | acked : bus.csN = false → Silent s next → next.state = .S_ACK →
      next.dtack = s.dtack → Move s bus core next .S_ACK
  | released : bus.csN = true → Silent s next → next.state = .S_IDLE →
      next.dtack = false → Move s bus core next .S_ACK

theorem posedge_move (s : State) (bus : Bus) (core : Core) :
    Move s bus core (s.posedge bus core) s.state := by
  obtain ⟨ctrlRd, ctrlWr, ctrlRefresh⟩ := s.prologue_ctrl core
  obtain ⟨dtack, rdata, rdata32, needSecond, stays, _⟩ := s.prologue_kept core
  have silent : Silent s (s.prologue core) :=
    ⟨by simp [pulses, ctrlRd, ctrlWr, ctrlRefresh], rdata, rdata32, needSecond⟩
  have unfinished {command : Bool}
      (waiting : ¬ ((!command && !core.busy) = true)) (pulse : command = true → s.pulses ≠ []) :
      s.pulses ≠ [] ∨ core.busy = true := by
    cases command with
    | true => exact .inl (pulse rfl)
    | false => exact .inr (by simpa using waiting)
  unfold posedge
  cases state : s.state with
  | S_IDLE =>
      dsimp only
      split
      · rename_i ready
        simp only [Bool.and_eq_true, Bool.not_eq_true'] at ready
        split
        · exact .refresh ready.1 ready.2 (by simp [pulses, ctrlRd, ctrlWr]) rfl dtack
        · split
          · rename_i started
            split
            · rename_i read
              exact .read ready.1 ready.2 started read
                (by simp [pulses, ctrlWr, ctrlRefresh]) rfl dtack
            · rename_i write
              split
              · rename_i even
                exact .writeEven ready.1 ready.2 started (by simpa using write)
                  (by simpa using even) (by simp [pulses, ctrlRd, ctrlRefresh]) rfl rfl dtack
              · rename_i odd
                exact .writeOdd ready.1 ready.2 started (by simpa using write)
                  (by simpa using odd) (by simp [pulses, ctrlRd, ctrlRefresh]) rfl rfl dtack
          · rename_i quiet
            exact .idle (.inr (.inr (by simpa using quiet))) silent (by rw [stays, state]) dtack
      · rename_i waiting
        exact .idle (by grind) silent (by rw [stays, state]) dtack
  | S_RD =>
      dsimp only
      have captured : (if core.dataReady = true then
          { s.prologue core with
            rdata := wordOf core.dout32 (wordSelect bus.addr), rdata32 := core.dout32 }
        else s.prologue core).pulses = [] := by
        split <;> simp [pulses, ctrlRd, ctrlWr, ctrlRefresh]
      split
      · rename_i done
        simp only [Bool.and_eq_true, Bool.not_eq_true'] at done
        exact .readDone done.1 done.2 captured rfl rfl
      · rename_i waiting
        refine .reading (unfinished waiting (by simp +contextual [pulses])) captured ?_ ?_
        · split <;> simp [stays, state]
        · split <;> simp [dtack]
  | S_WR =>
      dsimp only
      split
      · rename_i done
        simp only [Bool.and_eq_true, Bool.not_eq_true'] at done
        split
        · rename_i second
          exact .writeSecond done.1 done.2 second (by simp [pulses, ctrlRd, ctrlRefresh])
            rfl (by rw [stays, state]) dtack
        · rename_i single
          exact .writeDone done.1 done.2 (by simpa using single)
            ⟨silent.pulses, rdata, rdata32, needSecond⟩ rfl rfl
      · rename_i waiting
        exact .writing (unfinished waiting (by simp +contextual [pulses])) silent
          (by rw [stays, state]) dtack
  | S_REF =>
      dsimp only
      split
      · rename_i done
        simp only [Bool.and_eq_true, Bool.not_eq_true'] at done
        exact .refreshDone done.1 done.2
          ⟨silent.pulses, rdata, rdata32, needSecond⟩ rfl dtack
      · rename_i waiting
        exact .refreshing (unfinished waiting (by simp +contextual [pulses])) silent
          (by rw [stays, state]) dtack
  | S_ACK =>
      dsimp only
      split
      · rename_i ended
        exact .released ended ⟨silent.pulses, rdata, rdata32, needSecond⟩ rfl rfl
      · rename_i open_
        exact .acked (by simpa using open_) silent (by rw [stays, state]) dtack

/-- Read data is captured at the `data_ready` pulse, in the read state only. -/
theorem posedge_capture (bus : Bus) (core : Core) (reading : s.state = .S_RD) :
    (s.posedge bus core).rdata =
      (if core.dataReady then wordOf core.dout32 (wordSelect bus.addr) else s.rdata) ∧
    (s.posedge bus core).rdata32 = (if core.dataReady then core.dout32 else s.rdata32) := by
  obtain ⟨_, rdata, rdata32, _⟩ := s.prologue_kept core
  unfold posedge
  rw [reading]
  grind

theorem posedge_initSeen (s : State) (bus : Bus) (core : Core) :
    (s.posedge bus core).initSeen = (s.initSeen || !core.busy) := by
  obtain ⟨_, _, _, _, _, initSeen⟩ := s.prologue_kept core
  unfold posedge
  cases state : s.state <;> grind

/-- This clock sets `ref_due`. -/
def expires (s : State) : Bool := s.initSeen && REFRESH_INT ≤ s.refCnt

/-- This clock clears `ref_due`. -/
def issues (s : State) (core : Core) : Bool :=
  decide (s.state = .S_IDLE) && s.initSeen && !core.busy && s.refDue

theorem refDue_of_issues (issues : s.issues core = true) : s.refDue = true := by
  simp only [State.issues, Bool.and_eq_true] at issues
  exact issues.2

theorem prologue_refresh (s : State) (core : Core) :
    (s.prologue core).refDue = (s.expires || s.refDue) ∧
    (s.prologue core).refCnt =
      if s.initSeen then (if REFRESH_INT ≤ s.refCnt then 0 else s.refCnt + 1) else s.refCnt := by
  unfold prologue expires
  cases seen : s.initSeen <;> cases working : core.busy <;>
    by_cases full : REFRESH_INT ≤ s.refCnt <;> simp [full]

theorem posedge_refCnt (s : State) (bus : Bus) (core : Core) : (s.posedge bus core).refCnt =
    if s.initSeen then (if REFRESH_INT ≤ s.refCnt then 0 else s.refCnt + 1) else s.refCnt := by
  rw [← (s.prologue_refresh core).2]
  unfold posedge
  cases state : s.state <;> grind

/-- The request is cleared when its pulse is issued, whatever the timer says in that clock. -/
theorem posedge_refDue (s : State) (bus : Bus) (core : Core) :
    (s.posedge bus core).refDue = (!s.issues core && (s.expires || s.refDue)) ∧
    (s.posedge bus core).ctrlRefresh = s.issues core := by
  rw [← (s.prologue_refresh core).1]
  have quiet := (s.prologue_ctrl core).2.2
  unfold posedge issues
  cases state : s.state <;> grind

end State

end Mackerel.Sdram.Controller
