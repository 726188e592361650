import Mackerel.F.MemoryMap
import Mackerel.F.SdramWatchdog
import Mackerel.Wishbone.Bridges
import Mackerel.Ws2812.Transmitter

namespace Mackerel.F

open Clocked Wishbone

namespace Pins

variable (boot : Bool) (pins : Pins)

/-- What a device on the upper lane sees of the bus. -/
def slotBus (slot : BitVec 3) : Timer.Bus where
  csN := pins.csSlotN boot slot
  regAddr := pins.addrBus.extractLsb' 0 3
  rwn := pins.rwN
  dsN := pins.udsN
  dataIn := pins.dataOut.extractLsb' 8 8

def spiDataIn : BitVec 8 :=
  if !pins.ldsN then pins.dataOut.extractLsb' 0 8 else pins.dataOut.extractLsb' 8 8

/-- The registers of the SPI masters are four bytes apart. -/
def spiBus (slot : BitVec 3) : Timer.Bus :=
  { pins.slotBus boot slot with regAddr := pins.addrBus.extractLsb' 1 3, dataIn := pins.spiDataIn }

end Pins

/-- The devices behind a Wishbone bridge. -/
inductive Bridged where
  | uart | spi | spi2

namespace Bridged

def slot : Bridged → BitVec 3
  | uart => 1
  | spi => 3
  | spi2 => 4

def region : Bridged → Region
  | uart => .uart
  | spi => .spi
  | spi2 => .spi2

end Bridged

/-- A behaviour of the SDRAM path and the watchdog, and what the cores in the slots answer. -/
structure Slots where
  soc : Soc.Run
  uartCore : Nat → CoreOutputs 8
  spiCore : Nat → CoreOutputs 32
  spi2Core : Nat → CoreOutputs 32

namespace Slots

variable (slots : Slots)

def state (n : Nat) : Soc := slots.soc.exec.state n

def pins (n : Nat) : Pins := (slots.state n).pins

def boot (n : Nat) : Bool := (slots.state n).boot.boot

def rstN (n : Nat) : Bool := !(slots.state n).rstCpu

def uart : Nat → Bridge :=
  driven (fun n s => Uart.posedge s (slots.rstN n) ((slots.pins n).slotBus (slots.boot n) 1) (slots.uartCore n))
    .reset

def spi : Nat → Bridge :=
  driven (fun n s => Spi.posedge s (slots.rstN n) ((slots.pins n).spiBus (slots.boot n) 3) (slots.spiCore n)) .reset

def spi2 : Nat → Bridge :=
  driven (fun n s => Spi.posedge s (slots.rstN n) ((slots.pins n).spiBus (slots.boot n) 4) (slots.spi2Core n)) .reset

def acknowledges (n : Nat) : Acknowledges where
  sdramN := (slots.state n).cache.dtackN
  uartN := (slots.uart n).dtackN
  timerN := Timer.State.dtackN ((slots.pins n).slotBus (slots.boot n) 2)
  spiN := (slots.spi n).dtackN
  spi2N := (slots.spi2 n).dtackN
  ws2812N := Ws2812.dtackN ((slots.pins n).slotBus (slots.boot n) 6)

def bridge : Bridged → Nat → Bridge
  | .uart => slots.uart
  | .spi => slots.spi
  | .spi2 => slots.spi2

def ack (device : Bridged) (n : Nat) : Bool :=
  match device with
  | .uart => (slots.uartCore n).ack
  | .spi => (slots.spiCore n).ack
  | .spi2 => (slots.spi2Core n).ack

def csN (device : Bridged) (n : Nat) : Bool := (slots.pins n).csSlotN (slots.boot n) device.slot

/-- The bridge is selected, with the strobe that it looks at. -/
def start (device : Bridged) (n : Nat) : Bool := !slots.csN device n && !(slots.pins n).udsN

/-- The error of the watchdog. -/
def berr (n : Nat) : Bool := (slots.state n).watchdog.berr

theorem bridge_succ (device : Bridged) (n : Nat) : (slots.bridge device (n + 1)).state =
    if slots.rstN n then
      (slots.bridge device n).state.next (slots.start device n) (slots.ack device n) (slots.csN device n)
    else .IDLE := by
  cases device <;> simp only [bridge, uart, spi, spi2, driven_succ, Uart.posedge, Spi.posedge] <;>
    cases slots.rstN n <;> first | rfl | exact Bridge.posedge_state _ _ _ _ _

theorem berr_zero : slots.berr 0 = false := by
  rw [berr, state, slots.soc.watchdog]
  rfl

end Slots

/-- The machine: the acknowledges are those of the devices, and each core answers a strobe before the
    watchdog would. -/
structure Machine extends Slots where
  limit : Nat
  short : limit ≤ 3995
  wired : ∀ n, { (toSlots.state n).devices with sdramN := (toSlots.state n).cache.dtackN } = toSlots.acknowledges n
  prompt : ∀ device n,
    ¬HeldFor (fun k => (toSlots.bridge device k).state = .REQ ∧ toSlots.ack device k = false) limit n
  /-- In an open cycle `/UDS` falls neither behind `/LDS` nor behind a bus error. -/
  together : ∀ n, (toSlots.pins n).asN = false → (toSlots.pins (n + 1)).asN = false →
    ((toSlots.pins n).strobed = true ∨ toSlots.berr n = true) → (toSlots.pins n).udsN = true →
      (toSlots.pins (n + 1)).udsN = true

namespace Machine

variable (machine : Machine)

def region (n : Nat) : Region := (machine.pins n).region (machine.boot n)

/-- An open cycle without DTACK and VPA. -/
def Waits (n : Nat) : Prop := (machine.state n).watched.Unanswered

def Answered (n : Nat) : Prop := (machine.state n).dtackN = false ∨ (machine.pins n).vpaN = false

theorem dtackN_eq (n : Nat) :
    (machine.state n).dtackN = (machine.pins n).dtackN (machine.boot n) (machine.acknowledges n) := by
  rw [← machine.wired n]
  rfl

theorem berr_iff (n : Nat) : machine.berr n = true ↔ HeldFor machine.Waits 4097 n := by
  rw [Slots.berr, Slots.state, machine.soc.watchdog_eq]
  exact BusWatchdog.berr_iff_heldFor _ n

variable {machine} {device : Bridged} {m n first : Nat}

theorem slot?_eq (region : Region) : region.slot? = some device.slot ↔ region = device.region := by
  cases device <;> cases region <;> decide

theorem csN_iff : machine.csN device n = false ↔
    (machine.pins n).asN = false ∧ (machine.pins n).cpuSpace = false ∧ machine.region n = device.region := by
  have used : device.slot ≠ 7 := by cases device <;> decide
  constructor
  · intro low
    have open_ : (machine.pins n).asN = false ∧ (machine.pins n).cpuSpace = false := by
      simp only [Slots.csN, Pins.csSlotN, Pins.csPeriphN, Bool.not_not, Bool.not_eq_false', Bool.and_eq_true,
        Bool.not_eq_true'] at low
      exact ⟨low.1.1.1.1, low.1.2⟩
    refine ⟨open_.1, open_.2, ?_⟩
    exact slot?_eq _ |>.mp (((Pins.selected open_.1 open_.2).slot _ used).mp low)
  · rintro ⟨asN, program, here⟩
    exact ((Pins.selected asN program).slot _ used).mpr ((slot?_eq _).mpr here)

theorem start_iff : machine.start device n = true ↔
    machine.csN device n = false ∧ (machine.pins n).udsN = false := by
  simp [Slots.start]

/-- In a cycle of a device behind a bridge, DTACK is the last state of the bridge. -/
theorem dtackN_of_csN (low : machine.csN device n = false) :
    (machine.state n).dtackN = true ↔ (machine.bridge device n).state ≠ .DONE := by
  obtain ⟨asN, program, here⟩ := csN_iff.mp low
  rw [dtackN_eq, Pins.dtackN_of_region asN program, show (machine.pins n).region (machine.boot n) = _ from here]
  cases device <;>
    simp [Bridged.region, Slots.acknowledges, Slots.bridge, Bridge.dtackN]

theorem berrN_of_berr (quiet : machine.berr n = false) : (machine.state n).watchdog.berrN = true := by
  rw [BusWatchdog.State.berrN, show (machine.state n).watchdog.berr = false from quiet]
  rfl

theorem Waits.pending (waits : machine.Waits n) (quiet : machine.berr n = false) : (machine.state n).Pending :=
  ⟨waits.asN, waits.dtackN, waits.vpaN, berrN_of_berr quiet⟩

theorem pending_of_csN (low : machine.csN device n = false) (undone : (machine.bridge device n).state ≠ .DONE)
    (quiet : machine.berr n = false) : (machine.state n).Pending where
  asN := (csN_iff.mp low).1
  dtackN := (dtackN_of_csN low).mpr undone
  vpaN := by
    have program := (csN_iff.mp low).2.1
    change (machine.pins n).vpaN = true
    simp [Pins.vpaN, Pins.iack, program]
  berrN := berrN_of_berr quiet

/-- The address, the function code and `BOOT` stay for as long as the cycle is open. -/
structure Same (machine : Machine) (m n : Nat) : Prop where
  addrBus : (machine.pins n).addrBus = (machine.pins m).addrBus
  fc : (machine.pins n).fc = (machine.pins m).fc
  boot : machine.boot n = machine.boot m

theorem same_of_open (le : m ≤ n) (low : ∀ k, m ≤ k → k ≤ n → (machine.pins k).asN = false) :
    machine.Same m n := by
  induction n, le using Nat.le_induction with
  | base => exact ⟨rfl, rfl, rfl⟩
  | succ n le ih =>
      have before := ih fun k lower upper => low k lower (Nat.le_succ_of_le upper)
      have here := low n le (Nat.le_succ n)
      have next := low (n + 1) (Nat.le_succ_of_le le) (Nat.le_refl _)
      obtain ⟨addrBus, fc⟩ := (machine.soc.exec.step n).cycles.select here next
      have boot := (machine.soc.exec.step n).boot
      rw [if_neg (by simp [show (machine.soc.exec.state (n + 1)).pins.asN = _ from next])] at boot
      exact ⟨addrBus.trans before.addrBus, fc.trans before.fc, (congrArg BootSignal.boot boot).trans before.boot⟩

theorem Same.region (same : machine.Same m n) : machine.region n = machine.region m := by
  simp only [Machine.region, Pins.region, Pins.address, same.addrBus, same.boot]

theorem Same.cpuSpace (same : machine.Same m n) : (machine.pins n).cpuSpace = (machine.pins m).cpuSpace := by
  rw [Pins.cpuSpace, Pins.cpuSpace, same.fc]

theorem Same.csN (same : machine.Same m n) (here : (machine.pins m).asN = false)
    (there : (machine.pins n).asN = false) : machine.csN device n = machine.csN device m := by
  have iff : machine.csN device n = false ↔ machine.csN device m = false := by
    rw [csN_iff, csN_iff, same.region, same.cpuSpace, here, there]
  cases now : machine.csN device n <;> cases was : machine.csN device m <;> simp_all

theorem strobed_of_udsN (low : (machine.pins n).udsN = false) : (machine.pins n).strobed = true := by
  simp [Pins.strobed, low]

/-- A pending cycle keeps the strobes that it has. -/
theorem pins_of_pending (le : m ≤ n) (strobed : (machine.pins m).strobed = true)
    (pending : ∀ k, m ≤ k → k ≤ n → (machine.state k).Pending) : machine.pins n = machine.pins m := by
  induction n, le using Nat.le_induction with
  | base => rfl
  | succ n le ih =>
      have before := ih fun k lower upper => pending k lower (Nat.le_succ_of_le upper)
      rw [← before] at strobed ⊢
      exact ((machine.soc.exec.step n).cycles.pending (pending n le (Nat.le_succ n))
        (pending (n + 1) (Nat.le_succ_of_le le) (Nat.le_refl _))).2 strobed

/-- A cycle of a bridge that has its strobe is answered before long. -/
theorem not_waits (upper : ∀ k, m ≤ k → k < m + (machine.limit + 2) →
    machine.Waits k ∧ machine.start device k = true) : False := by
  have low (k : Nat) (lower : m ≤ k) (within : k < m + (machine.limit + 2)) : machine.csN device k = false :=
    (start_iff.mp (upper k lower within).2).1
  have undone (k : Nat) (lower : m ≤ k) (within : k < m + (machine.limit + 2)) :
      (machine.bridge device k).state ≠ .DONE :=
    (dtackN_of_csN (low k lower within)).mp (upper k lower within).1.dtackN
  have next (k : Nat) (lower : m ≤ k) (within : k < m + (machine.limit + 2)) :
      (machine.bridge device (k + 1)).state =
        (machine.bridge device k).state.next true (machine.ack device k) false := by
    have running : machine.rstN k = true := (upper k lower within).1.running
    rw [machine.bridge_succ, if_pos running, (upper k lower within).2, low k lower within]
  have requests (k : Nat) (lower : m + 1 ≤ k) (within : k < m + (machine.limit + 2)) :
      (machine.bridge device k).state = .REQ := by
    obtain ⟨j, rfl⟩ : ∃ j, k = j + 1 := ⟨k - 1, by omega⟩
    have here := undone j (by omega) (by omega)
    have there := undone (j + 1) (by omega) within
    rw [next j (by omega) (by omega)] at there ⊢
    cases state : (machine.bridge device j).state <;> simp_all [FsmState.next]
  refine machine.prompt device (m + 1 + machine.limit) ⟨by omega, fun k lower within => ?_⟩
  have req := requests k (by omega) (by omega)
  refine ⟨req, Bool.eq_false_iff.mpr fun ack => ?_⟩
  have done := next k (by omega) (by omega)
  rw [req, ack] at done
  exact undone (k + 1) (by omega) (by omega) done

theorem berr_succ (n : Nat) : machine.berr (n + 1) = true → machine.Waits n := by
  intro up
  exact ((machine.berr_iff (n + 1)).mp up).2 n (by omega) (Nat.lt_succ_self n)

/-- The error stays while nothing answers. -/
theorem berr_of_waits (le : m ≤ n) (up : machine.berr m = true)
    (waits : ∀ k, m ≤ k → k < n → machine.Waits k) : machine.berr n = true := by
  induction n, le using Nat.le_induction with
  | base => exact up
  | succ n le ih =>
      have before := ih fun k lower upper => waits k lower (Nat.lt_succ_of_lt upper)
      have held : HeldFor machine.Waits (4097 + 1) (n + 1) :=
        heldFor_succ.mpr ⟨waits n le (Nat.lt_succ_self n), (machine.berr_iff n).mp before⟩
      exact (machine.berr_iff (n + 1)).mpr (held.mono (Nat.le_succ 4097))

/-- The clocks of a cycle up to its bus error are pending ones, with the same strobes since the first hundred. -/
theorem raises (quiet : machine.berr n = false) (up : machine.berr (n + 1) = true) :
    (machine.pins n).strobed = true ∧ ∀ device, machine.start device n = false := by
  have held := (machine.berr_iff (n + 1)).mp up
  have off (k : Nat) (lower : n + 1 - 4097 ≤ k) (upper : k ≤ n) : machine.berr k = false := by
    by_contra on
    have later := berr_of_waits upper (by simpa using on) fun j low high => held.2 j (by omega) (by omega)
    exact ne_true_of_eq_false quiet later
  have pending (k : Nat) (lower : n + 1 - 4097 ≤ k) (upper : k ≤ n) : (machine.state k).Pending :=
    Waits.pending (held.2 k lower (by omega)) (off k lower upper)
  have enough := held.1
  obtain ⟨m, rfl⟩ : ∃ m, n = m + 4096 := ⟨n - 4096, by omega⟩
  have strobed : (machine.pins (m + 100)).strobed = true :=
    machine.soc.strobes (m + 100) ⟨by omega, fun k lower upper => pending k (by omega) (by omega)⟩
      (pending (m + 100) (by omega) (by omega))
  have pins (k : Nat) (lower : m + 100 ≤ k) (upper : k ≤ m + 4096) : machine.pins k = machine.pins (m + 100) :=
    pins_of_pending lower strobed fun j low high => pending j (by omega) (by omega)
  refine ⟨by rw [pins _ (by omega) (Nat.le_refl _)]; exact strobed, fun device => ?_⟩
  by_contra start
  refine @not_waits machine device (m + 100) fun k lower upper => ⟨held.2 k (by omega) ?_, ?_⟩
  · have short := machine.short
    omega
  · have short := machine.short
    have low (j : Nat) (first : m ≤ j) (last : j ≤ m + 4096) : (machine.pins j).asN = false :=
      (pending j (by omega) last).asN
    have same : machine.Same k (m + 4096) := same_of_open (by omega) fun j first last => low j (by omega) last
    obtain ⟨csN, udsN⟩ := start_iff.mp (by simpa using start : machine.start device (m + 4096) = true)
    rw [start_iff, ← same.csN (low k (by omega) (by omega)) (low _ (by omega) (Nat.le_refl _)),
      pins k lower (by omega), ← pins (m + 4096) (by omega) (Nat.le_refl _)]
    exact ⟨csN, udsN⟩

/-- No bus error meets a bridge that has its strobe. -/
theorem berr_of_start (started : machine.start device n = true) : machine.berr n = false := by
  by_contra on
  obtain ⟨b, before, began, up, _⟩ := exists_since (Q := fun _ => False) (P := fun k => machine.berr k = true)
    (by simp [machine.berr_zero]) (by simpa using on)
  obtain ⟨quiet, first⟩ := began.resolve_left id
  obtain ⟨strobed, idle⟩ := raises (by simpa using quiet) first
  obtain ⟨selected, upper⟩ := start_iff.mp started
  have low (k : Nat) (lower : b ≤ k) (upper : k ≤ n) : (machine.pins k).asN = false := by
    rcases Nat.lt_or_eq_of_le upper with earlier | rfl
    · exact (berr_succ k (up (k + 1) (by omega) (by omega))).asN
    · exact (csN_iff.mp selected).1
  have same : machine.Same b n := same_of_open (by omega) low
  have alone : (machine.pins b).udsN = true := by
    have none := idle device
    rw [same.csN (low b (Nat.le_refl _) (by omega)) (low n (by omega) (Nat.le_refl _))] at selected
    simpa [Slots.start, selected] using none
  have still (k : Nat) (lower : b + 1 ≤ k) (within : k ≤ n) : (machine.pins k).udsN = true := by
    induction k, lower using Nat.le_induction with
    | base =>
        exact machine.together b (low b (Nat.le_refl _) (by omega)) (low (b + 1) (by omega) within) (.inl strobed)
          alone
    | succ k lower ih =>
        exact machine.together k (low k (by omega) (by omega)) (low (k + 1) (by omega) within)
          (.inr (up k (by omega) (by omega))) (ih (by omega))
  exact ne_true_of_eq_false upper (still n (by omega) (Nat.le_refl n))

/-- A request of a bridge is one of the cycle on the bus. -/
theorem start_of_requests (requests : (machine.bridge device n).state = .REQ) : machine.start device n = true := by
  induction n with
  | zero => cases device <;> cases requests
  | succ n ih =>
      have here : machine.start device n = true ∧ (machine.bridge device n).state ≠ .DONE := by
        have next := requests
        rw [machine.bridge_succ] at next
        split at next
        · cases state : (machine.bridge device n).state <;> rw [state, FsmState.next] at next
          · exact ⟨by_contra fun none => by simp [none] at next, by decide⟩
          · exact ⟨ih state, by decide⟩
          · split at next <;> cases next
        · cases next
      obtain ⟨csN, udsN⟩ := start_iff.mp here.1
      have pending := pending_of_csN csN here.2 (berr_of_start here.1)
      have low : (machine.pins (n + 1)).asN = false := (machine.soc.exec.step n).cycles.answered pending
      have same : machine.Same n (n + 1) := same_of_open (Nat.le_succ n) fun k lower upper => by
        rcases Nat.lt_or_eq_of_le upper with earlier | rfl
        · obtain rfl : k = n := by omega
          exact pending.asN
        · exact low
      have selected : machine.csN device (n + 1) = false := (same.csN pending.asN low).trans csN
      have quiet : machine.berr (n + 1) = false := by
        by_contra up
        have none := (raises (berr_of_start here.1) (by simpa using up)).2 device
        exact ne_true_of_eq_false none here.1
      have held : machine.pins (n + 1) = machine.pins n :=
        ((machine.soc.exec.step n).cycles.pending pending
          (pending_of_csN selected (by rw [requests]; decide) quiet)).2 (strobed_of_udsN udsN)
      exact start_iff.mpr ⟨selected, by rw [held]; exact udsN⟩

end Machine

end Mackerel.F
