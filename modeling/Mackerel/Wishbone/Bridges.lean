import Mackerel.Clocked.Latches
import Mackerel.Timer.Timer
import Mackerel.Wishbone.Handshake

/-! The bridges from the 68000 bus to the Wishbone cores of the boards, which are not part of the
repository: a core is what it answers at each clock. -/

namespace Wishbone

structure CoreOutputs (width : Nat) where
  ack : Bool
  datO : BitVec width

/-- The registers of a bridge that captures what the core returns. -/
structure Bridge where
  state : FsmState
  rdData : BitVec 8

namespace Bridge

def reset : Bridge := { state := .IDLE, rdData := 0 }

/-- One rising clock edge. -/
def posedge (s : Bridge) (rstN start csN ack : Bool) (datO : BitVec 8) : Bridge :=
  if !rstN then reset
  else
    match s.state with
    | .IDLE => if start then { s with state := .REQ } else s
    | .REQ => if ack then { state := .DONE, rdData := datO } else s
    | .DONE => if csN then { s with state := .IDLE } else s

def stb (s : Bridge) : Bool := s.state = .REQ

def dtackN (s : Bridge) : Bool := !decide (s.state = .DONE)

def dataOut (s : Bridge) : BitVec 8 := s.rdData

theorem posedge_state (s : Bridge) (start csN ack : Bool) (datO : BitVec 8) :
    (s.posedge true start csN ack datO).state = s.state.next start ack csN := by
  unfold posedge FsmState.next
  cases state : s.state with
  | IDLE => cases start <;> simp [state]
  | REQ => cases ack <;> simp [state]
  | DONE => cases csN <;> simp [state]

theorem posedge_rdData (s : Bridge) (start csN ack : Bool) (datO : BitVec 8) :
    (s.posedge true start csN ack datO).rdData =
      if s.state = .REQ ∧ ack = true then datO else s.rdData := by
  unfold posedge
  cases state : s.state with
  | IDLE => cases start <;> simp
  | REQ => cases ack <;> simp
  | DONE => cases csN <;> simp

end Bridge

namespace Signals

variable {signals : Signals} {bridge : Nat → Bridge} {datO : Nat → BitVec 8}

/-- The registers of a bridge at every clock. -/
def Drives (signals : Signals) (bridge : Nat → Bridge) (datO : Nat → BitVec 8) : Prop :=
  bridge 0 = .reset ∧ ∀ n, bridge (n + 1) =
    (bridge n).posedge true (signals.start n) (signals.csN n) (signals.ack n) (datO n)

theorem Drives.state_eq (drives : signals.Drives bridge datO) (n : Nat) :
    (bridge n).state = signals.state n := by
  induction n with
  | zero => rw [drives.1]; rfl
  | succ n ih => rw [drives.2, Bridge.posedge_state, ih, state_succ]

/-- What the bridge returns is what the core gave at the acknowledge, until the release. -/
def Returns (signals : Signals) (bridge : Nat → Bridge) (datO : Nat → BitVec 8) : Prop :=
  ∀ first release strobe acked, signals.Access first release →
    signals.Transfer (fun n => (bridge n).stb) (fun n => (bridge n).dtackN) first release strobe acked →
      ∀ n, acked < n → n ≤ release → (bridge n).dataOut = datO acked

theorem Drives.returns (drives : signals.Drives bridge datO) : signals.Returns bridge datO := by
  intro first release strobe acked access transfer n after upper
  have began := transfer.inside
  have acks := transfer.after
  have requests (k : Nat) : (bridge k).stb = true ↔ (bridge k).state = .REQ := by simp [Bridge.stb]
  induction n, after using Nat.le_induction with
  | base =>
      have taken := (transfer.once acked (by omega) (by omega)).mpr rfl
      rw [Bridge.dataOut, drives.2, Bridge.posedge_rdData,
        if_pos ⟨(requests acked).mp taken.1, taken.2⟩]
  | succ n after ih =>
      have over_ : (bridge n).state ≠ .REQ := by
        rw [ne_eq, ← requests, transfer.strobed n (by omega) (by omega)]
        omega
      rw [Bridge.dataOut, drives.2, Bridge.posedge_rdData, if_neg fun again => over_ again.1]
      exact ih (by omega)

end Signals

end Wishbone

namespace Mackerel

open Clocked Wishbone
open Timer (Bus)

namespace F.Uart

def start (bus : Bus) : Bool := !bus.csN && !bus.dsN

def posedge (s : Bridge) (rstN : Bool) (bus : Bus) (core : CoreOutputs 8) : Bridge :=
  s.posedge rstN (start bus) bus.csN core.ack core.datO

def after (bus : Nat → Bus) (core : Nat → CoreOutputs 8) : Nat → Bridge :=
  driven (fun n s => posedge s true (bus n) (core n)) .reset

def signals (bus : Nat → Bus) (core : Nat → CoreOutputs 8) : Signals where
  csN n := (bus n).csN
  start n := start (bus n)
  ack n := (core n).ack
  selected n started := by
    simp only [start, Bool.and_eq_true, Bool.not_eq_true'] at started
    exact started.1

theorem drives (bus : Nat → Bus) (core : Nat → CoreOutputs 8) :
    (signals bus core).Drives (after bus core) fun n => (core n).datO :=
  ⟨rfl, fun _ => rfl⟩

end F.Uart

namespace F.Spi

def start (bus : Bus) : Bool := !bus.csN && !bus.dsN

def posedge (s : Bridge) (rstN : Bool) (bus : Bus) (core : CoreOutputs 32) : Bridge :=
  s.posedge rstN (start bus) bus.csN core.ack (core.datO.extractLsb' 0 8)

def after (bus : Nat → Bus) (core : Nat → CoreOutputs 32) : Nat → Bridge :=
  driven (fun n s => posedge s true (bus n) (core n)) .reset

def signals (bus : Nat → Bus) (core : Nat → CoreOutputs 32) : Signals where
  csN n := (bus n).csN
  start n := start (bus n)
  ack n := (core n).ack
  selected n started := by
    simp only [start, Bool.and_eq_true, Bool.not_eq_true'] at started
    exact started.1

theorem drives (bus : Nat → Bus) (core : Nat → CoreOutputs 32) :
    (signals bus core).Drives (after bus core) fun n => (core n).datO.extractLsb' 0 8 :=
  ⟨rfl, fun _ => rfl⟩

end F.Spi

namespace M10.Spi

/-! `spi.v` of Mackerel-10: registers 0 to 4 are the core's, 5 is the select of the network chip, 6
the interrupt mask. -/

structure State where
  state : FsmState
  nicCs : Bool
  intc : BitVec 8

def spiSel (bus : Timer.Bus) : Bool := !bus.csN && decide (bus.regAddr < 5)

def csSel (bus : Timer.Bus) : Bool := !bus.csN && decide (bus.regAddr = 5)

def intcSel (bus : Timer.Bus) : Bool := !bus.csN && decide (bus.regAddr = 6)

def start (bus : Timer.Bus) : Bool := spiSel bus && !bus.dsN

namespace State

def reset : State := { state := .IDLE, nicCs := false, intc := 0 }

def posedge (s : State) (rstN : Bool) (bus : Timer.Bus) (core : CoreOutputs 32) : State :=
  if !rstN then reset
  else
    let next := { s with state := s.state.next (start bus) core.ack bus.csN }
    let next :=
      if csSel bus && !bus.dsN && !bus.rwn then { next with nicCs := bus.dataIn.getLsbD 0 } else next
    if intcSel bus && !bus.dsN && !bus.rwn then { next with intc := bus.dataIn } else next

def stb (s : State) : Bool := s.state = .REQ

def dtackN (s : State) (bus : Timer.Bus) : Bool :=
  !(decide (s.state = .DONE) || csSel bus && !bus.dsN || intcSel bus && !bus.dsN)

def dataOut (s : State) (bus : Timer.Bus) (core : CoreOutputs 32) : BitVec 8 :=
  if csSel bus then 0#7 ++ BitVec.ofBool s.nicCs
  else if intcSel bus then s.intc
  else core.datO.extractLsb' 0 8

def nicCsN (s : State) : Bool := !s.nicCs

def nicIrqEn (s : State) : Bool := s.intc.getLsbD 4

end State

def after (bus : Nat → Timer.Bus) (core : Nat → CoreOutputs 32) : Nat → State :=
  driven (fun n s => s.posedge true (bus n) (core n)) .reset

def signals (bus : Nat → Timer.Bus) (core : Nat → CoreOutputs 32) : Signals where
  csN n := (bus n).csN
  start n := start (bus n)
  ack n := (core n).ack
  selected n started := by
    simp only [start, spiSel, Bool.and_eq_true, Bool.not_eq_true'] at started
    exact started.1.1

theorem state_eq (bus : Nat → Timer.Bus) (core : Nat → CoreOutputs 32) (n : Nat) :
    (after bus core n).state = (signals bus core).state n := by
  induction n with
  | zero => rfl
  | succ n ih =>
      rw [Signals.state_succ, ← ih]
      have stepped : after bus core (n + 1) = (after bus core n).posedge true (bus n) (core n) := rfl
      rw [stepped, State.posedge]
      grind [signals]

def csWrite (bus : Timer.Bus) : Bool := csSel bus && !bus.dsN && !bus.rwn

def intcWrite (bus : Timer.Bus) : Bool := intcSel bus && !bus.dsN && !bus.rwn

theorem nicCs_posedge (s : State) (bus : Timer.Bus) (core : CoreOutputs 32) :
    (s.posedge true bus core).nicCs = if csWrite bus then bus.dataIn.getLsbD 0 else s.nicCs := by
  unfold State.posedge csWrite
  grind

theorem intc_posedge (s : State) (bus : Timer.Bus) (core : CoreOutputs 32) :
    (s.posedge true bus core).intc = if intcWrite bus then bus.dataIn else s.intc := by
  unfold State.posedge intcWrite
  grind

/-- The registers of the bridge hold what was written last, and the network chip and its interrupt see it. -/
theorem registers_of_last (bus : Nat → Timer.Bus) (core : Nat → CoreOutputs 32) {w n : Nat} :
    (Last (fun k => csWrite (bus k) = true) w n →
      (after bus core n).nicCsN = !(bus w).dataIn.getLsbD 0 ∧
        (csSel (bus n) = true → (after bus core n).dataOut (bus n) (core n) = (bus w).dataIn &&& 0x01)) ∧
    (Last (fun k => intcWrite (bus k) = true) w n →
      (after bus core n).nicIrqEn = (bus w).dataIn.getLsbD 4 ∧
        (intcSel (bus n) = true → (after bus core n).dataOut (bus n) (core n) = (bus w).dataIn)) := by
  constructor
  · intro last
    have nicCs := held_of_last (fun k => (after bus core k).nicCs) (fun k => (bus k).dataIn.getLsbD 0)
      (fun k => nicCs_posedge _ _ _) last
    refine ⟨congrArg not nicCs, fun selected => ?_⟩
    rw [State.dataOut, if_pos selected, nicCs]
    generalize (bus w).dataIn = written
    revert written
    decide
  · intro last
    have intc := held_of_last (fun k => (after bus core k).intc) (fun k => (bus k).dataIn)
      (fun k => intc_posedge _ _ _) last
    refine ⟨congrArg (BitVec.getLsbD · 4) intc, fun selected => ?_⟩
    have other : csSel (bus n) = false := by
      simp only [intcSel, Bool.and_eq_true, decide_eq_true_eq] at selected
      simp [csSel, selected.2]
    rw [State.dataOut, other, if_neg Bool.false_ne_true, if_pos selected, intc]

/-- All of an access goes to the registers of the core. -/
def OfCore (bus : Nat → Timer.Bus) (first release : Nat) : Prop :=
  ∀ n, first ≤ n → n < release → (bus n).regAddr < 5

/-- In an access to a register of the core, DTACK is the state machine's. -/
theorem dtackN_eq {bus : Nat → Timer.Bus} {core : Nat → CoreOutputs 32} {first release : Nat}
    (access : (signals bus core).Access first release) (ofCore : OfCore bus first release) {n : Nat}
    (lower : first ≤ n) (upper : n ≤ release) :
    (after bus core n).dtackN (bus n) = !decide ((signals bus core).state n = .DONE) := by
  have others : csSel (bus n) = false ∧ intcSel (bus n) = false := by
    rcases Nat.lt_or_eq_of_le upper with inside | rfl
    · have low := ofCore n lower inside
      have five : (bus n).regAddr ≠ 5 := fun same => by rw [same] at low; exact absurd low (by decide)
      have six : (bus n).regAddr ≠ 6 := fun same => by rw [same] at low; exact absurd low (by decide)
      rw [csSel, intcSel, decide_eq_false five, decide_eq_false six, Bool.and_false]
      exact ⟨rfl, rfl⟩
    · have high : (bus n).csN = true := access.released
      simp [csSel, intcSel, high]
  rw [State.dtackN, others.1, others.2, state_eq]
  simp

end M10.Spi

end Mackerel
