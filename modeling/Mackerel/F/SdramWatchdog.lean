import Mackerel.F.BusWatchdog
import Mackerel.F.Decode
import Mackerel.Sdram.AnswerTime

namespace Mackerel.F

open Clocked

/-- What one clock samples. The other devices of the board are their acknowledges. -/
structure Soc where
  pins : Pins
  rstCpu : Bool
  boot : BootSignal 3
  devices : Acknowledges
  cache : Sdram.Cache.State
  ctrl : Sdram.Controller.State
  core : Sdram.Core
  watchdog : BusWatchdog.State 4096

namespace Soc

def sdram (s : Soc) : Sdram.System where
  bus := s.pins.sdramBus s.boot.boot
  cache := s.cache
  ctrl := s.ctrl
  core := s.core

def csSdramN (s : Soc) : Bool := s.pins.csSdramN s.boot.boot

def dtackN (s : Soc) : Bool :=
  s.pins.dtackN s.boot.boot { s.devices with sdramN := s.cache.dtackN }

def watched (s : Soc) : BusWatchdog.Inputs where
  rstN := !s.rstCpu
  asN := s.pins.asN
  dtackN := s.dtackN
  vpaN := s.pins.vpaN

/-- An open cycle that the 68000 has to go on with. -/
structure Pending (s : Soc) : Prop where
  asN : s.pins.asN = false
  dtackN : s.dtackN = true
  vpaN : s.pins.vpaN = true
  berrN : s.watchdog.berrN = true

/-- The read and write cycles of a 68000: address and function code stay while `/AS` is low, and a
    pending cycle goes on, in its direction and with the strobes and the data that it has. -/
structure Cycles (before after : Soc) : Prop where
  select : before.pins.asN = false → after.pins.asN = false →
    after.pins.addrBus = before.pins.addrBus ∧ after.pins.fc = before.pins.fc
  pending : before.Pending → after.Pending →
    after.pins.rwN = before.pins.rwN ∧ (before.pins.strobed = true → after.pins = before.pins)
  answered : before.Pending → after.pins.asN = false

structure Step (before after : Soc) : Prop where
  sdram : Sdram.System.Edge before.sdram after.sdram
  boot : after.boot =
    if !before.pins.asN && after.pins.asN then before.boot.posedge BOOT_CYCLE_MAX (!after.rstCpu)
    else before.boot
  watchdog : after.watchdog = before.watchdog.posedge before.watched
  cycles : Cycles before after

/-- A behaviour from reset. Every command keeps the core of the SDRAM busy for at most 100 clocks, and
    the strobes come within 100 clocks of `/AS`. -/
structure Run where
  exec : Execution Step
  cache : ∃ powerUp : Sdram.Cache.State, (exec.state 0).cache = powerUp.reset
  ctrl : (exec.state 0).ctrl = Sdram.Controller.State.reset
  powerUp : (exec.state 0).core.phase = .idle ∨ (exec.state 0).core.Initialising
  watchdog : (exec.state 0).watchdog = .reset
  latency : ∀ n, (exec.state n).core.WithinLatency
  strobes : ∀ n, HeldFor (fun k => (exec.state k).Pending) 100 n → (exec.state n).Pending →
    (exec.state n).pins.strobed = true

namespace Run

variable (run : Run)

/-- Clock `n` is in an SDRAM access that began, at `first`, with the SDRAM initialised. -/
structure Accesses (first n : Nat) : Prop where
  le : first ≤ n
  selected : (run.exec.state n).csSdramN = false
  open_ : ∀ k, first ≤ k → k ≤ n → (run.exec.state k).pins.asN = false
  begins : first = 0 ∨ (run.exec.state (first - 1)).pins.asN = true
  initialised : (run.exec.state first).ctrl.initSeen = true

def sdram : Sdram.System.BoundedRun where
  exec := { state := fun n => (run.exec.state n).sdram, step := fun n => (run.exec.step n).sdram }
  cache := run.cache
  ctrl := run.ctrl
  powerUp := run.powerUp
  latency := run.latency

theorem watchdog_eq (n : Nat) : (run.exec.state n).watchdog =
    BusWatchdog.after 4096 (fun k => (run.exec.state k).watched) n := by
  induction n with
  | zero => exact run.watchdog
  | succ n ih => rw [(run.exec.step n).watchdog, BusWatchdog.after_succ, ih]

theorem initSeen_mono {m n : Nat} (le : m ≤ n) (seen : (run.exec.state m).ctrl.initSeen = true) :
    (run.exec.state n).ctrl.initSeen = true := by
  induction n, le using Nat.le_induction with
  | base => exact seen
  | succ n _ ih =>
      have next : (run.exec.state (n + 1)).ctrl = _ := (run.exec.step n).sdram.ctrl
      rw [next, Sdram.Controller.State.posedge_initSeen]
      exact Bool.or_eq_true_iff.mpr (.inl ih)

/-- The adapter takes notice of an idle core. -/
theorem initSeen_of_idle {k n : Nat} (before : k < n) (idle : (run.exec.state k).core.busy = false) :
    (run.exec.state n).ctrl.initSeen = true := by
  refine run.initSeen_mono before ?_
  have next : (run.exec.state (k + 1)).ctrl = _ := (run.exec.step k).sdram.ctrl
  have still : (run.exec.state k).sdram.core.busy = false := idle
  rw [next, Sdram.Controller.State.posedge_initSeen, still, Bool.not_false, Bool.or_true]

/-- The decoder selects the same device for as long as `/AS` is low. -/
theorem csSdramN_succ {n : Nat} (here : (run.exec.state n).pins.asN = false)
    (next : (run.exec.state (n + 1)).pins.asN = false) :
    (run.exec.state (n + 1)).csSdramN = (run.exec.state n).csSdramN := by
  have same := ((run.exec.step n).cycles.select here next).1
  have boot := (run.exec.step n).boot
  rw [here, next] at boot
  simp only [csSdramN, Pins.csSdramN, Pins.inSdram, Pins.address, same, here, next, boot]
  rfl

namespace Accesses

variable {run} {first n : Nat}

theorem earlier {k : Nat} (access : run.Accesses first n) (lower : first ≤ k) (upper : k ≤ n) :
    run.Accesses first k := by
  refine ⟨lower, ?_, fun j low high => access.open_ j low (Nat.le_trans high upper), access.begins,
    access.initialised⟩
  induction n, upper using Nat.le_induction with
  | base => exact access.selected
  | succ n upper ih =>
      have before : first ≤ n := Nat.le_trans lower upper
      have selected : (run.exec.state n).csSdramN = false :=
        (run.csSdramN_succ (access.open_ n before (Nat.le_succ n))
          (access.open_ (n + 1) access.le (Nat.le_refl _))).symm.trans access.selected
      exact ih ⟨before, selected, fun j low high => access.open_ j low (Nat.le_succ_of_le high),
        access.begins, access.initialised⟩

/-- The clocks that a cycle has been open do not go back to before it began. -/
theorem first_le {m : Nat} (access : run.Accesses first n)
    (low : ∀ k, m ≤ k → k < n → (run.exec.state k).pins.asN = false) : first ≤ m := by
  by_contra later
  have high := access.begins.resolve_left (by omega)
  exact ne_true_of_eq_false (low (first - 1) (by omega) (by have := access.le; omega)) high

/-- The cache has not acknowledged a pending access. -/
theorem unacknowledged (access : run.Accesses first n) (pending : (run.exec.state n).Pending) :
    (run.exec.state n).cache.dtack = false := by
  have high := pending.dtackN
  have vpa := pending.vpaN
  simp only [Pins.vpaN, Bool.not_eq_true'] at vpa
  rw [dtackN, Pins.dtackN_of_sdram access.selected, vpa, Bool.false_or] at high
  exact Sdram.Cache.State.dtackN_eq_true.mp high

/-- A strobe that has come stays while the access is pending. -/
theorem strobed_of_pending {m : Nat} (le : m ≤ n) (strobed : (run.exec.state m).pins.strobed = true)
    (pending : ∀ k, m ≤ k → k ≤ n → (run.exec.state k).Pending) :
    (run.exec.state n).pins.strobed = true := by
  induction n, le using Nat.le_induction with
  | base => exact strobed
  | succ n le ih =>
      have held := ih fun k lower upper => pending k lower (Nat.le_succ_of_le upper)
      have here := pending n le (Nat.le_succ n)
      have next := pending (n + 1) (Nat.le_succ_of_le le) (Nat.le_refl _)
      rw [((run.exec.step n).cycles.pending here next).2 held]
      exact held

theorem start (access : run.Accesses first n) (strobed : (run.exec.state n).pins.strobed = true) :
    (run.exec.state n).sdram.bus.start = true := by
  have selected : (run.exec.state n).sdram.bus.csN = false := access.selected
  have strobes : (run.exec.state n).sdram.bus.strobed = true := strobed
  rw [Sdram.Bus.start, selected, strobes]
  rfl

/-- No access is pending for longer than the strobes and the answer of the path may take. -/
theorem not_pending_for (access : run.Accesses first n) :
    ¬HeldFor (fun k => (run.exec.state k).Pending) 414 n := by
  intro ⟨enough, pending⟩
  obtain ⟨m, rfl⟩ := Nat.exists_eq_add_of_le' enough
  rw [Nat.add_sub_cancel] at pending
  have began : first ≤ m := access.first_le fun k lower upper => (pending k lower upper).asN
  have strobed : (run.exec.state (m + 100)).pins.strobed = true :=
    run.strobes (m + 100) ⟨by omega, fun k lower upper => pending k (by omega) (by omega)⟩
      (pending (m + 100) (by omega) (by omega))
  have seen := run.initSeen_mono (by omega : first ≤ m + 100) access.initialised
  have request (k : Nat) (lower : m + 100 ≤ k) (upper : k < m + 100 + 314) :
      (run.exec.state k).sdram.bus.start = true :=
    (access.earlier (by omega) (by omega)).start
      (strobed_of_pending lower strobed fun j low high => pending j (by omega) (by omega))
  obtain ⟨k, lower, upper, acked⟩ := run.sdram.acknowledged seen request
  have unacked := (access.earlier (by omega : first ≤ k) (by omega)).unacknowledged
    (pending k (by omega) (by omega))
  exact ne_true_of_eq_false unacked acked

theorem berr_clear (access : run.Accesses first n) : (run.exec.state n).watchdog.berr = false := by
  induction n using Nat.strong_induction_on with
  | _ n ih =>
      rw [Bool.eq_false_iff]
      intro error
      rw [run.watchdog_eq, BusWatchdog.berr_iff_heldFor] at error
      have waited := error.mono (by decide : 414 ≤ 4096 + 1)
      have began : first ≤ n - 414 :=
        access.first_le fun k lower upper => (waited.2 k lower upper).asN
      refine access.not_pending_for ⟨waited.1, fun k lower upper => ?_⟩
      have waits := waited.2 k lower upper
      have clear := ih k upper (access.earlier (by omega) (by omega))
      exact ⟨waits.asN, waits.dtackN, waits.vpaN, by simp [BusWatchdog.State.berrN, clear]⟩

end Accesses

end Run

/-- No bus error ends an access to the initialised SDRAM; for any device, the error is up after a clock
    when the cycle was open, without DTACK and VPA, at it and at the `TIMEOUT` clocks before. -/
theorem working_sdram_keeps_berr_off :
    (∀ (run : Run) (first n : Nat), run.Accesses first n →
      (run.exec.state n).watchdog.berrN = true) ∧
    ∀ (TIMEOUT : Nat) (inputs : Nat → BusWatchdog.Inputs) (n : Nat),
      (BusWatchdog.after TIMEOUT inputs (n + 1)).berrN = false ↔
        TIMEOUT ≤ n ∧ ∀ k, n - TIMEOUT ≤ k → k ≤ n → (inputs k).Unanswered := by
  constructor
  · intro run first n access
    simp [BusWatchdog.State.berrN, access.berr_clear]
  · intro TIMEOUT inputs n
    have held : (BusWatchdog.after TIMEOUT inputs (n + 1)).berr = true ↔ _ :=
      BusWatchdog.berr_iff_heldFor inputs (n + 1)
    simp only [BusWatchdog.State.berrN, Bool.not_eq_false', held, HeldFor, Nat.add_le_add_iff_right,
      Nat.add_sub_add_right, Nat.lt_succ_iff]

section Reading

/-- A read at address 0 that begins at clock 2, and that the 68000 does not end. -/
def readingPins (n : Nat) : Pins :=
  { asN := n < 2, addrBus := 0, fc := 0b101, rwN := true, udsN := n < 2, ldsN := n < 2, dataOut := 0 }

def readingPath : Sdram.System.BoundedRun :=
  Sdram.System.steadyRun (fun n => (readingPins n).sdramBus true) (fun _ => 7)
    { bus := (readingPins 0).sdramBus true
      cache :=
        { dataRam := fun _ => 0, tagRam := fun _ => 0, valid := fun _ => false, state := .IDLE, idx := 0
          reqtag := 0, wsel := false, dataQ := 0, tagQ := 0, validQ := false, dtack := false, rdata := 0
          memCsN := true }
      ctrl := .reset
      core := { cells := fun _ => 0, phase := .idle, dataReady := false, dout32 := 0 } }
    (fun _ => by decide)

/-- The board around that path, given the registers of the watchdog. -/
def readingSoc (n : Nat) (watchdog : BusWatchdog.State 4096) : Soc where
  pins := readingPins n
  rstCpu := false
  boot := { busCycles := 5, boot := true }
  devices := ⟨true, true, true, true, true, true⟩
  cache := (readingPath.exec.state n).cache
  ctrl := (readingPath.exec.state n).ctrl
  core := (readingPath.exec.state n).core
  watchdog := watchdog

def readingState (n : Nat) : Soc :=
  readingSoc n (BusWatchdog.after 4096 (fun k => (readingSoc k .reset).watched) n)

theorem readingState_sdram (n : Nat) : (readingState n).sdram = readingPath.exec.state n := by
  cases n with
  | zero => rfl
  | succ n => rfl

theorem readingPins_of_low {n : Nat} (low : (readingPins n).asN = false) : 2 ≤ n :=
  Nat.not_lt.mp (of_decide_eq_false low)

theorem readingPins_eq {n : Nat} (low : 2 ≤ n) : readingPins n = readingPins 2 := by
  simp [readingPins, Nat.not_lt.mpr low]

theorem readingState_step (n : Nat) : Step (readingState n) (readingState (n + 1)) where
  sdram := by
    rw [readingState_sdram, readingState_sdram]
    exact readingPath.exec.step n
  boot := by
    have never : (!(readingPins n).asN && (readingPins (n + 1)).asN) = false := by
      simp [readingPins]
      omega
    exact (if_neg (ne_true_of_eq_false never)).symm
  watchdog := rfl
  cycles := by
    have still (low : (readingPins n).asN = false) : readingPins (n + 1) = readingPins n := by
      have late := readingPins_of_low low
      rw [readingPins_eq late, readingPins_eq (Nat.le_succ_of_le late)]
    constructor
    · intro low _
      exact ⟨congrArg Pins.addrBus (still low), congrArg Pins.fc (still low)⟩
    · intro before _
      exact ⟨congrArg Pins.rwN (still before.asN), fun _ => still before.asN⟩
    · intro before
      exact (congrArg Pins.asN (still before.asN)).trans before.asN

def reading : Run where
  exec := { state := readingState, step := readingState_step }
  cache := readingPath.cache
  ctrl := readingPath.ctrl
  powerUp := readingPath.powerUp
  watchdog := rfl
  latency := readingPath.latency
  strobes := by
    intro n _ pending
    have late := readingPins_of_low pending.asN
    change (readingPins n).strobed = true
    rw [readingPins_eq late]
    rfl

theorem reading_keeps_berr_off : (reading.exec.state 5000).watchdog.berrN = true := by
  have low (k : Nat) (late : 2 ≤ k) : (reading.exec.state k).pins = readingPins 2 := readingPins_eq late
  refine working_sdram_keeps_berr_off.1 reading 2 5000 ⟨by decide, ?_, ?_, .inr rfl, ?_⟩
  · have pins := low 5000 (by decide)
    rw [csSdramN, pins]
    rfl
  · intro k late _
    rw [low k late]
    rfl
  · exact reading.initSeen_of_idle (by decide : 0 < 2) rfl

end Reading

end Soc

end Mackerel.F
