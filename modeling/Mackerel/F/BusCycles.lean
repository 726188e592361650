import Mackerel.F.Machine

namespace Mackerel.F

open Clocked Wishbone

namespace Machine

variable {machine : Machine} {device : Bridged} {first n : Nat}

variable (machine) in
/-- A cycle, from the clock at which `/AS` is found low to clock `n`; an access to the SDRAM comes
    when the core has been idle before. -/
structure Cycle (first n : Nat) : Prop where
  le : first ≤ n
  begins : first = 0 ∨ (machine.pins (first - 1)).asN = true
  open_ : ∀ k, first ≤ k → k ≤ n → (machine.pins k).asN = false
  running : ∀ k, first ≤ k → k ≤ n → machine.rstN k = true
  initialised : machine.region first = .sdram → ∃ k < first, (machine.state k).core.busy = false

variable (machine) in
/-- Nothing answers at the address, or the device looks at the upper strobe, and only the lower one comes. -/
def Deaf (first : Nat) : Prop := (machine.pins first).cpuSpace = false ∧
  (machine.region first = .unmapped ∨ ∃ device : Bridged, machine.region first = device.region ∧
    ∀ k, first ≤ k → k ≤ first + 100 → (machine.pins k).udsN = true)

namespace Cycle

variable (cycle : machine.Cycle first n)

include cycle

theorem same {k : Nat} (lower : first ≤ k) (upper : k ≤ n) : machine.Same first k :=
  same_of_open lower fun j low high => cycle.open_ j low (Nat.le_trans high upper)

theorem not_waits_before : first = 0 ∨ ¬machine.Waits (first - 1) :=
  cycle.begins.imp_right fun high waits => ne_true_of_eq_false waits.asN high

/-- A cycle has no bus error before its time. -/
theorem first_le {k : Nat} (lower : first ≤ k) (up : machine.berr k = true) : first + 4097 ≤ k := by
  obtain ⟨enough, held⟩ := (machine.berr_iff k).mp up
  rcases cycle.not_waits_before with rfl | none
  · omega
  · by_contra early
    exact none (held (first - 1) (by omega) (by omega))

/-- A bridge is idle when a cycle begins. -/
theorem idle (device : Bridged) : (machine.bridge device first).state = .IDLE := by
  rcases cycle.begins with rfl | high
  · cases device <;> rfl
  · cases first with
    | zero => cases device <;> rfl
    | succ before =>
        have unselected : machine.csN device before = true := by
          by_contra low
          exact ne_true_of_eq_false (csN_iff.mp (by simpa using low)).1 high
        have none : machine.start device before = false := by simp [Slots.start, unselected]
        rw [machine.bridge_succ, none, unselected]
        split
        · cases state : (machine.bridge device before).state with
          | IDLE => rfl
          | REQ => exact absurd (start_of_requests state) (ne_true_of_eq_false none)
          | DONE => rfl
        · rfl

section Clocks

variable {k : Nat} (lower : first ≤ k) (upper : k ≤ n)

include lower upper

theorem csN {device : Bridged} (program : (machine.pins first).cpuSpace = false)
    (here : machine.region first = device.region) : machine.csN device k = false := by
  have same := cycle.same lower upper
  exact csN_iff.mpr ⟨cycle.open_ k lower upper, same.cpuSpace.trans program, same.region.trans here⟩

theorem vpaN : (machine.pins k).vpaN = !(machine.pins first).cpuSpace := by
  simp [Pins.vpaN, Pins.iack, (cycle.same lower upper).cpuSpace, cycle.open_ k lower upper]

theorem waits_iff : machine.Waits k ↔ ¬machine.Answered k := by
  have iff : machine.Waits k ↔ (machine.state k).dtackN = true ∧ (machine.pins k).vpaN = true :=
    ⟨fun waits => ⟨waits.dtackN, waits.vpaN⟩,
      fun unanswered => ⟨cycle.running k lower upper, cycle.open_ k lower upper, unanswered.1, unanswered.2⟩⟩
  rw [iff, Answered, not_or, Bool.not_eq_false, Bool.not_eq_false]

theorem dtackN (program : (machine.pins first).cpuSpace = false) :
    (machine.state k).dtackN =
      match machine.region first with
      | .rom | .bsram | .gpio | .intc | .timer | .ws2812 => false
      | .sdram => (machine.state k).cache.dtackN
      | .uart => (machine.uart k).dtackN
      | .spi => (machine.spi k).dtackN
      | .spi2 => (machine.spi2 k).dtackN
      | .unmapped => true := by
  have same := cycle.same lower upper
  have asN := cycle.open_ k lower upper
  have here : (machine.pins k).region (machine.boot k) = machine.region first := same.region
  have selected : (machine.pins k).Selected (machine.boot k) := Pins.selected asN (same.cpuSpace.trans program)
  rw [dtackN_eq, Pins.dtackN_of_region asN (same.cpuSpace.trans program), here]
  cases region : machine.region first with
  | timer => exact (selected.slot 2 (by decide)).mpr (by rw [here, region]; rfl)
  | ws2812 => exact (selected.slot 6 (by decide)).mpr (by rw [here, region]; rfl)
  | _ => rfl

end Clocks

/-- A bridge that sees no strobe does not answer, and the strobe does not come later. -/
theorem waits_of_lower {device : Bridged} (program : (machine.pins first).cpuSpace = false)
    (here : machine.region first = device.region)
    (alone : ∀ k, first ≤ k → k ≤ first + 100 → (machine.pins k).udsN = true) {k : Nat} (lower : first ≤ k)
    (upper : k ≤ n) : (∀ j, first ≤ j → j ≤ k → machine.Waits j) ∧
      (machine.bridge device k).state = .IDLE ∧ (machine.pins k).udsN = true := by
  have waits (j : Nat) (low : first ≤ j) (high : j ≤ n) (idle : (machine.bridge device j).state = .IDLE) :
      machine.Waits j := by
    have undone : (machine.bridge device j).state ≠ .DONE := by
      rw [idle]
      decide
    exact ⟨cycle.running j low high, cycle.open_ j low high,
      (dtackN_of_csN (cycle.csN low high program here)).mpr undone, (cycle.vpaN low high).trans (by rw [program]; rfl)⟩
  induction k, lower using Nat.le_induction with
  | base =>
      have idle := cycle.idle device
      refine ⟨fun j low high => ?_, idle, alone first (Nat.le_refl _) (Nat.le_add_right _ _)⟩
      obtain rfl : j = first := by omega
      exact waits j (Nat.le_refl _) cycle.le idle
  | succ k lower ih =>
      obtain ⟨before, idle, high⟩ := ih (Nat.le_of_succ_le upper)
      have running := cycle.running k lower (Nat.le_of_succ_le upper)
      have next : (machine.bridge device (k + 1)).state = .IDLE := by
        rw [machine.bridge_succ, if_pos running, idle]
        simp [FsmState.next, Slots.start, high]
      refine ⟨fun j low late => ?_, next, ?_⟩
      · rcases Nat.lt_or_eq_of_le late with earlier | rfl
        · exact before j low (Nat.le_of_lt_succ earlier)
        · exact waits _ low upper next
      · by_cases early : k + 1 ≤ first + 100
        · exact alone (k + 1) (by omega) early
        · refine machine.together k (cycle.open_ k lower (by omega)) (cycle.open_ (k + 1) (by omega) upper) ?_ high
          -- the strobes of a pending cycle have come by now
          by_cases error : machine.berr k = true
          · exact .inr error
          · have pending (j : Nat) (low : first ≤ j) (late : j ≤ k) : (machine.state j).Pending := by
              refine (before j low late).pending ?_
              by_contra up
              exact error (berr_of_waits late (by simpa using up) fun i first last => before i (by omega) (by omega))
            exact .inl (machine.soc.strobes k ⟨by omega, fun j low late => pending j (by omega) (by omega)⟩
              (pending k lower (Nat.le_refl k)))

theorem waits_of_deaf (deaf : machine.Deaf first) {k : Nat} (lower : first ≤ k) (upper : k ≤ n) :
    machine.Waits k := by
  obtain ⟨program, unmapped | ⟨device, here, alone⟩⟩ := deaf
  · refine ⟨cycle.running k lower upper, cycle.open_ k lower upper, ?_, ?_⟩
    · exact (cycle.dtackN lower upper program).trans (by rw [unmapped])
    · exact (cycle.vpaN lower upper).trans (by rw [program]; rfl)
  · exact (cycle.waits_of_lower program here alone lower upper).1 k lower (Nat.le_refl k)

/-- A strobe that a pending cycle has at its hundredth clock is the one that it had before. -/
theorem not_waits_of_upper {device : Bridged} (program : (machine.pins first).cpuSpace = false)
    (here : machine.region first = device.region) {j : Nat} (lower : first ≤ j) (upper : j ≤ first + 100)
    (strobe : (machine.pins j).udsN = false) (long : first + 4096 ≤ n)
    (waits : ∀ k, first ≤ k → k ≤ first + 4096 → machine.Waits k) : False := by
  have pending (k : Nat) (low : first ≤ k) (late : k ≤ first + 4096) : (machine.state k).Pending := by
    refine (waits k low late).pending (Bool.eq_false_iff.mpr fun up => ?_)
    have enough := cycle.first_le low up
    omega
  have short := machine.short
  refine @not_waits machine device (first + 100) fun k low late => ⟨waits k (by omega) (by omega), ?_⟩
  have held : machine.pins k = machine.pins j :=
    pins_of_pending (by omega) (strobed_of_udsN strobe) fun i first last => pending i (by omega) (by omega)
  exact start_iff.mpr ⟨cycle.csN (by omega) (by omega) program here, by rw [held]; exact strobe⟩

theorem answered (hears : ¬machine.Deaf first) (long : first + 4096 ≤ n) :
    ∃ k, first ≤ k ∧ k ≤ first + 4096 ∧ machine.Answered k := by
  by_contra none
  have waits (k : Nat) (lower : first ≤ k) (upper : k ≤ first + 4096) : machine.Waits k :=
    (cycle.waits_iff lower (by omega)).mpr fun answered => none ⟨k, lower, upper, answered⟩
  have program : (machine.pins first).cpuSpace = false := by
    have high : (machine.pins first).vpaN = true := (waits first (Nat.le_refl _) (by omega)).vpaN
    simpa [cycle.vpaN (Nat.le_refl _) cycle.le] using high
  have high : (machine.state first).dtackN = true := (waits first (Nat.le_refl _) (by omega)).dtackN
  rw [cycle.dtackN (Nat.le_refl _) cycle.le program] at high
  have bridged (device : Bridged) (here : machine.region first = device.region) : False := by
    have strobe : ∃ j, first ≤ j ∧ j ≤ first + 100 ∧ (machine.pins j).udsN = false := by
      by_contra alone
      refine hears ⟨program, .inr ⟨device, here, fun k lower upper => ?_⟩⟩
      by_contra low
      exact alone ⟨k, lower, upper, by simpa using low⟩
    obtain ⟨j, lower, upper, low⟩ := strobe
    exact cycle.not_waits_of_upper program here lower upper low long waits
  cases region : machine.region first with
  | unmapped => exact hears ⟨program, .inl region⟩
  | uart => exact bridged .uart region
  | spi => exact bridged .spi region
  | spi2 => exact bridged .spi2 region
  | sdram =>
      have late := cycle.same (k := first + 414) (by omega) (by omega)
      have selected : (machine.state (first + 414)).csSdramN = false :=
        (Pins.selected (cycle.open_ _ (by omega) (by omega)) (late.cpuSpace.trans program)).sdram.mpr
          (late.region.trans region)
      obtain ⟨_, before, idle⟩ := cycle.initialised region
      have access : machine.soc.Accesses first (first + 414) :=
        ⟨by omega, selected, fun k lower upper => cycle.open_ k lower (by omega), cycle.begins,
          machine.soc.initSeen_of_idle before idle⟩
      refine access.not_pending_for ⟨by omega, fun k lower upper => ?_⟩
      refine (waits k (by omega) (by omega)).pending (Bool.eq_false_iff.mpr fun up => ?_)
      have enough := cycle.first_le (by omega) up
      omega
  | _ => simp [region] at high

omit cycle in
theorem dtack_held {s : Sdram.Cache.State} {bus : Sdram.Bus} {mem : Sdram.Cache.MemoryInputs} (state : s.state = .ACK)
    (acked : s.dtack = true) (selected : bus.csN = false) : (s.posedge bus mem).dtack = true := by
  simp [Sdram.Cache.State.posedge_dtack, state, acked, selected]

/-- The device that answers goes on to do so. -/
theorem answered_succ {k : Nat} (lower : first ≤ k) (upper : k + 1 ≤ n) (answered : machine.Answered k) :
    machine.Answered (k + 1) := by
  cases program : (machine.pins first).cpuSpace with
  | true =>
      right
      rw [cycle.vpaN (by omega) upper, program]
      rfl
  | false =>
      have low : (machine.state k).dtackN = false := by
        rcases answered with low | vpa
        · exact low
        · rw [cycle.vpaN lower (by omega), program] at vpa
          cases vpa
      have bridged (device : Bridged) (here : machine.region first = device.region) :
          (machine.state (k + 1)).dtackN = false := by
        have selected := cycle.csN lower (by omega) program here
        have done : (machine.bridge device k).state = .DONE := by
          by_contra undone
          exact ne_true_of_eq_false low ((dtackN_of_csN selected).mpr undone)
        have next : (machine.bridge device (k + 1)).state = .DONE := by
          rw [machine.bridge_succ, if_pos (cycle.running k lower (by omega)), done, selected]
          rfl
        exact Bool.eq_false_iff.mpr fun high =>
          (dtackN_of_csN (cycle.csN (by omega) upper program here)).mp high next
      left
      cases region : machine.region first with
      | uart => exact bridged .uart region
      | spi => exact bridged .spi region
      | spi2 => exact bridged .spi2 region
      | sdram =>
          have same := cycle.same lower (by omega)
          have selected : (machine.state k).csSdramN = false :=
            (Pins.selected (cycle.open_ k lower (by omega)) (same.cpuSpace.trans program)).sdram.mpr
              (same.region.trans region)
          rw [cycle.dtackN lower (by omega) program, region] at low
          rw [cycle.dtackN (by omega) upper program, region]
          have acked := Sdram.Cache.State.dtackN_eq_false.mp low
          have next : (machine.state (k + 1)).cache = _ := (machine.soc.exec.step k).sdram.cache
          rw [Sdram.Cache.State.dtackN_eq_false, next]
          exact dtack_held ((machine.soc.sdram.advancing k).acks.mp acked) acked selected
      | unmapped =>
          rw [cycle.dtackN lower (by omega) program, region] at low
          cases low
      | _ => rw [cycle.dtackN (by omega) upper program, region]

theorem answered_until {k l : Nat} (lower : first ≤ k) (le : k ≤ l) (upper : l ≤ n)
    (answered : machine.Answered k) : machine.Answered l := by
  induction l, le using Nat.le_induction with
  | base => exact answered
  | succ l le ih => exact cycle.answered_succ (Nat.le_trans lower le) upper (ih (Nat.le_of_succ_le upper))

end Cycle

/-- A cycle that something hears is answered within 4097 clocks, and then to its end; the others, to addresses
    without a device and with the lower strobe alone to the devices that look at the upper one, are not, and
    the bus error comes behind their 4097th clock, and to no other cycle. -/
theorem every_cycle_ends (machine : Machine) {first n : Nat} (cycle : machine.Cycle first n) :
    (¬machine.Deaf first → first + 4096 ≤ n → ∃ k, first ≤ k ∧ k ≤ first + 4096 ∧ machine.Answered k) ∧
    (∀ k, first ≤ k → k ≤ n → machine.Answered k → ¬machine.Deaf first ∧ machine.Answered n) ∧
    ((machine.state n).watchdog.berrN = false ↔ machine.Deaf first ∧ first + 4097 ≤ n) := by
  have unheard (deaf : machine.Deaf first) {k : Nat} (lower : first ≤ k) (upper : k ≤ n) : ¬machine.Answered k :=
    (cycle.waits_iff lower upper).mp (cycle.waits_of_deaf deaf lower upper)
  refine ⟨cycle.answered, fun k lower upper answered => ⟨fun deaf => unheard deaf lower upper answered,
    cycle.answered_until lower upper (Nat.le_refl n) answered⟩, ?_⟩
  have error : (machine.state n).watchdog.berrN = false ↔ machine.berr n = true := by
    simp [BusWatchdog.State.berrN, Slots.berr]
  rw [error]
  constructor
  · intro up
    have enough := cycle.first_le cycle.le up
    refine ⟨?_, enough⟩
    by_contra hears
    obtain ⟨k, lower, upper, answered⟩ := cycle.answered hears (by omega)
    have last : machine.Waits (n - 1) := ((machine.berr_iff n).mp up).2 (n - 1) (by omega) (by omega)
    exact (cycle.waits_iff (by omega) (by omega)).mp last
      (cycle.answered_until lower (by omega) (by omega) answered)
  · rintro ⟨deaf, enough⟩
    refine (machine.berr_iff n).mpr ⟨by omega, fun k lower upper => ?_⟩
    exact cycle.waits_of_deaf deaf (by omega) (by omega)

section Reading

/-- A read of the SDRAM, on a machine whose other devices rest. -/
def readingSlots : Slots where
  soc := Soc.reading
  uartCore _ := { ack := false, datO := 0 }
  spiCore _ := { ack := false, datO := 0 }
  spi2Core _ := { ack := false, datO := 0 }

theorem readingSlots_csSlotN (slot : BitVec 3) (n : Nat) :
    (readingSlots.pins n).csSlotN (readingSlots.boot n) slot = true := by
  have zero : (readingSlots.pins n).addrBus = 0 := rfl
  have low : (readingSlots.pins n).inPeriph = false := by
    rw [Pins.inPeriph, Pins.address, zero]
    rfl
  simp [Pins.csSlotN, Pins.csPeriphN, low]

theorem readingSlots_idle (device : Bridged) (n : Nat) : (readingSlots.bridge device n).state = .IDLE := by
  induction n with
  | zero => cases device <;> rfl
  | succ n ih =>
      rw [readingSlots.bridge_succ, ih]
      simp [FsmState.next, Slots.start, Slots.csN, readingSlots_csSlotN]

def readingMachine : Machine where
  toSlots := readingSlots
  limit := 1
  short := by decide
  wired n := by
    have idle (device : Bridged) : (readingSlots.bridge device n).dtackN = true := by
      simp [Bridge.dtackN, readingSlots_idle]
    have uart := idle .uart
    have spi := idle .spi
    have spi2 := idle .spi2
    have timer := readingSlots_csSlotN 2 n
    have ws2812 := readingSlots_csSlotN 6 n
    simp only [Slots.bridge] at uart spi spi2
    simp only [Slots.acknowledges, uart, spi, spi2]
    exact congrArg₂ (fun timerN ws2812N => Acknowledges.mk _ true timerN true true ws2812N) timer.symm ws2812.symm
  prompt device n held := by
    have last := (held.2 (n - 1) (Nat.le_refl _) (Nat.sub_lt held.1 Nat.one_pos)).1
    rw [readingSlots_idle] at last
    cases last
  together n low _ _ high := by
    have late := Soc.readingPins_of_low low
    have pins : readingSlots.pins n = Soc.readingPins 2 := Soc.readingPins_eq late
    rw [pins] at high
    cases high

theorem reading_answered : ∃ k, 2 ≤ k ∧ k ≤ 2 + 4096 ∧ readingMachine.Answered k := by
  have low (k : Nat) (late : 2 ≤ k) : readingMachine.pins k = Soc.readingPins 2 := Soc.readingPins_eq late
  have cycle : readingMachine.Cycle 2 5000 := by
    exact ⟨by decide, .inr rfl, fun k late _ => by rw [low k late]; rfl, fun _ _ _ => rfl,
      fun _ => ⟨0, by decide, rfl⟩⟩
  refine (every_cycle_ends readingMachine cycle).1 ?_ (by decide)
  rintro ⟨_, here⟩
  have region : readingMachine.region 2 = .sdram := rfl
  rw [region] at here
  rcases here with unmapped | ⟨device, other, _⟩
  · cases unmapped
  · cases device <;> cases other

end Reading

end Machine

end Mackerel.F
