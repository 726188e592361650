import Mackerel.Clocked.Driven
import Mackerel.Ws2812.Transmitter

namespace Mackerel.Ws2812

open Clocked
open Timer (Bus)

variable {CLK_HZ : BitVec 32}

/-- The line in one tick of one bit of a colour. -/
def level (CLK_HZ : BitVec 32) (colour : BitVec 24) (bit tick : Nat) : Bool :=
  tick < (if colour.getMsbD bit then T1H_TICKS CLK_HZ else T0H_TICKS CLK_HZ).toNat

section Durations

variable (CLK_HZ)

abbrev bitTicks : Nat := (BIT_TICKS CLK_HZ).toNat

abbrev rstTicks : Nat := (RST_TICKS CLK_HZ).toNat

end Durations

namespace Ordered

variable (ordered : Ordered CLK_HZ)

include ordered

theorem toNat_lt : 0 < (T0H_TICKS CLK_HZ).toNat ∧
    (T0H_TICKS CLK_HZ).toNat < (T1H_TICKS CLK_HZ).toNat ∧
    (T1H_TICKS CLK_HZ).toNat < bitTicks CLK_HZ ∧ bitTicks CLK_HZ < rstTicks CLK_HZ := by
  obtain ⟨zero, one, bit, rst⟩ := ordered
  rw [BitVec.toInt_eq_toNat_cond] at zero one bit rst
  rw [BitVec.toInt_eq_toNat_cond] at one bit rst
  have wide (x : BitVec 32) : x.toNat < 2 ^ 32 := x.isLt
  have := wide (T0H_TICKS CLK_HZ)
  have := wide (T1H_TICKS CLK_HZ)
  have := wide (BIT_TICKS CLK_HZ)
  have := wide (RST_TICKS CLK_HZ)
  grind

theorem bitTicks_pos : 0 < bitTicks CLK_HZ := by
  have := ordered.toNat_lt
  omega

theorem rstTicks_pos : 0 < rstTicks CLK_HZ := by
  have := ordered.toNat_lt
  omega

theorem last_bitTick : (BIT_TICKS CLK_HZ - 1).toNat = bitTicks CLK_HZ - 1 := by
  have positive := ordered.bitTicks_pos
  have one : (1 : BitVec 32) ≤ BIT_TICKS CLK_HZ := BitVec.le_def.mpr positive
  exact BitVec.toNat_sub_of_le one

theorem last_rstTick : (RST_TICKS CLK_HZ - 1).toNat = rstTicks CLK_HZ - 1 := by
  have positive := ordered.rstTicks_pos
  have one : (1 : BitVec 32) ≤ RST_TICKS CLK_HZ := BitVec.le_def.mpr positive
  exact BitVec.toNat_sub_of_le one

end Ordered

/-- The counter has room for every tick. -/
theorem toNat_add_one {cnt : BitVec (CW CLK_HZ)} (below : cnt.toNat + 1 < rstTicks CLK_HZ) :
    (cnt + 1).toNat = cnt.toNat + 1 := by
  have wide : rstTicks CLK_HZ ≤ 2 ^ CW CLK_HZ := Nat.le_pow_clog (by decide) _
  have added : (cnt + 1).toNat = (cnt.toNat + 1 % 2 ^ CW CLK_HZ) % 2 ^ CW CLK_HZ :=
    BitVec.toNat_add cnt 1
  rw [added, Nat.mod_eq_of_lt (by omega : 1 < 2 ^ CW CLK_HZ), Nat.mod_eq_of_lt (by omega)]

namespace State

/-- About to put out tick `tick` of bit `bit` of a colour. -/
structure Sending (s : State CLK_HZ) (colour : BitVec 24) (bit tick : Nat) : Prop where
  state : s.state = .SEND
  shift : s.shift = colour <<< bit
  bitIdx : s.bitIdx.toNat = bit
  cnt : s.cnt.toNat = tick

structure Latching (s : State CLK_HZ) (tick : Nat) : Prop where
  state : s.state = .RST
  cnt : s.cnt.toNat = tick

variable {s : State CLK_HZ} {bus : Bus} {colour : BitVec 24} {bit tick : Nat}

theorem top_of_shift : (colour <<< bit).getLsbD 23 = colour.getMsbD bit := by
  have first : (colour <<< bit).getMsbD 0 = colour.getMsbD bit := by simp [BitVec.getMsbD_shiftLeft]
  rw [← first, BitVec.getMsbD_eq_getLsbD]
  rfl

theorem shift_again : (colour <<< bit).extractLsb' 0 23 ++ 0#1 = colour <<< (bit + 1) := by
  rw [BitVec.shiftLeft_add]
  apply BitVec.eq_of_getLsbD_eq
  intro i inside
  rw [BitVec.getLsbD_append, BitVec.getLsbD_shiftLeft]
  cases i with
  | zero => rfl
  | succ i =>
      have early : i < 23 := by omega
      have inside : i + 1 < 24 := by omega
      simp [early, inside]

theorem Sending.ledOut (sending : s.Sending colour bit tick) :
    (s.posedge bus).ledOut = level CLK_HZ colour bit tick := by
  rw [posedge_ledOut, transmit, sending.state]
  simp only [sending.shift, sending.cnt, top_of_shift, level]
  split
  · split <;> rfl
  · rfl

theorem not_idle_of_sending (sending : s.Sending colour bit tick) : s.state ≠ .IDLE := by
  simp [sending.state]

theorem not_idle_of_latching (latching : s.Latching tick) : s.state ≠ .IDLE := by
  simp [latching.state]

section Steps

variable (ordered : Ordered CLK_HZ)

include ordered

theorem Sending.next_tick (sending : s.Sending colour bit tick) (more : tick + 1 < bitTicks CLK_HZ)
    (bus : Bus) :
    (s.posedge bus).Sending colour bit (tick + 1) := by
  have same := transmits_of_busy bus (not_idle_of_sending sending)
  have moved : s.transmit = { s with
      ledOut := s.transmit.ledOut
      cnt := s.cnt + 1 } := by
    have unfinished : s.cnt.toNat ≠ (BIT_TICKS CLK_HZ - 1).toNat := by
      rw [ordered.last_bitTick, sending.cnt]
      omega
    simp only [transmit, sending.state, if_neg unfinished]
  have room := ordered.toNat_lt
  constructor
  · rw [same.state, moved, ← sending.state]
  · rw [same.shift, moved, ← sending.shift]
  · rw [same.bitIdx, moved, ← sending.bitIdx]
  · rw [same.cnt, moved]
    rw [toNat_add_one (by rw [sending.cnt]; omega), sending.cnt]

theorem Sending.last_tick (sending : s.Sending colour bit tick) (last : tick + 1 = bitTicks CLK_HZ)
    (bus : Bus) :
    (bit < 23 → (s.posedge bus).Sending colour (bit + 1) 0) ∧
    (bit = 23 → (s.posedge bus).Latching 0) := by
  have same := transmits_of_busy bus (not_idle_of_sending sending)
  have finished : s.cnt.toNat = (BIT_TICKS CLK_HZ - 1).toNat := by
    rw [ordered.last_bitTick, sending.cnt]
    omega
  have count := sending.bitIdx
  constructor
  · intro more
    have other : s.bitIdx ≠ 23 := by
      intro last
      have whole : 23 = bit := (congrArg BitVec.toNat last).symm.trans count
      omega
    have moved : s.transmit = { s with
        ledOut := s.transmit.ledOut
        cnt := 0
        shift := s.shift.extractLsb' 0 23 ++ 0#1
        bitIdx := s.bitIdx + 1 } := by
      simp only [transmit, sending.state, if_pos finished, if_neg other]
    constructor
    · rw [same.state, moved, ← sending.state]
    · rw [same.shift, moved, ← shift_again, ← sending.shift]
    · rw [same.bitIdx, moved]
      have added : (s.bitIdx + 1).toNat = (s.bitIdx.toNat + 1) % 2 ^ 5 := BitVec.toNat_add _ _
      rw [added, count]
      omega
    · rw [same.cnt, moved]
      simp
  · intro whole
    have full : s.bitIdx = 23 := BitVec.eq_of_toNat_eq (count.trans whole)
    have moved : s.transmit = { s with
        ledOut := s.transmit.ledOut
        cnt := 0
        shift := s.shift.extractLsb' 0 23 ++ 0#1
        bitIdx := 0
        state := .RST } := by
      simp only [transmit, sending.state, if_pos finished, if_pos full]
    constructor
    · rw [same.state, moved]
    · rw [same.cnt, moved]
      simp

theorem Latching.next_tick (latching : s.Latching tick) (more : tick + 1 < rstTicks CLK_HZ)
    (bus : Bus) :
    (s.posedge bus).Latching (tick + 1) := by
  have same := transmits_of_busy bus (not_idle_of_latching latching)
  have unfinished : s.cnt.toNat ≠ (RST_TICKS CLK_HZ - 1).toNat := by
    rw [ordered.last_rstTick, latching.cnt]
    omega
  have moved : s.transmit = { s with ledOut := false, cnt := s.cnt + 1 } := by
    simp only [transmit, latching.state, if_neg unfinished]
  constructor
  · rw [same.state, moved, ← latching.state]
  · rw [same.cnt, moved, toNat_add_one (by rw [latching.cnt]; exact more), latching.cnt]

theorem Latching.last_tick (latching : s.Latching tick) (last : tick + 1 = rstTicks CLK_HZ)
    (bus : Bus) :
    (s.posedge bus).state = .IDLE := by
  have same := transmits_of_busy bus (not_idle_of_latching latching)
  have finished : s.cnt.toNat = (RST_TICKS CLK_HZ - 1).toNat := by
    rw [ordered.last_rstTick, latching.cnt]
    omega
  rw [same.state]
  simp only [transmit, latching.state, if_pos finished]

end Steps

theorem Latching.ledOut (latching : s.Latching tick) : (s.posedge bus).ledOut = false := by
  rw [posedge_ledOut, transmit, latching.state]
  dsimp only
  split <;> rfl

theorem sending_of_write (idle : s.state = .IDLE) (write : writes bus REG_B = true) :
    (s.posedge bus).Sending (s.gHold ++ s.rHold ++ bus.dataIn) 0 0 := by
  unfold posedge
  constructor <;> simp [write, idle]

theorem idle_of_no_write (idle : s.state = .IDLE) (none : writes bus REG_B = false) :
    (s.posedge bus).state = .IDLE := by
  rw [(transmits_of_no_write none).state, transmit, idle]

theorem ledOut_of_idle (idle : s.state = .IDLE) : (s.posedge bus).ledOut = false := by
  rw [posedge_ledOut, transmit, idle]

end State

section Runs

variable (CLK_HZ) (inputs : Nat → Bus)

/-- The registers after `n` clocks from reset. -/
def after : Nat → State CLK_HZ := driven (fun n s => s.posedge (inputs n)) .reset

def led (n : Nat) : Bool := (after CLK_HZ inputs n).ledOut

/-- The byte that was last written to a holding register before clock `n`. -/
def held (reg : BitVec 3) : Nat → BitVec 8
  | 0 => 0
  | n + 1 => if writes (inputs n) reg then (inputs n).dataIn else held reg n

/-- A BLUE write finds the transmitter idle at clock `n`. -/
structure Starts (n : Nat) : Prop where
  idle : (after CLK_HZ inputs n).state = .IDLE
  write : writes (inputs n) REG_B = true

/-- GREEN, RED and BLUE as held at a write. -/
def colour (n : Nat) : BitVec 24 :=
  held inputs REG_G n ++ held inputs REG_R n ++ (inputs n).dataIn

/-- No write strobe lasts for as long as a frame. -/
def ShortStrobes : Prop :=
  ∀ n, ∃ k < 24 * bitTicks CLK_HZ + rstTicks CLK_HZ, (inputs (n + k)).wr = false

/-- A strobe for BLUE begins at clock `n`. -/
def StrobeBegins (n : Nat) : Prop :=
  writes (inputs n) REG_B = true ∧ ∀ k, n = k + 1 → writes (inputs k) REG_B = false

/-- The line is made of whole frames and of low time. -/
structure WholeFrames : Prop where
  bits : ∀ n, Starts CLK_HZ inputs n → ∀ bit < 24, ∀ tick < bitTicks CLK_HZ,
    led CLK_HZ inputs (n + 2 + bit * bitTicks CLK_HZ + tick) =
      level CLK_HZ (colour inputs n) bit tick
  latch : ∀ n, Starts CLK_HZ inputs n → ∀ tick < rstTicks CLK_HZ,
    led CLK_HZ inputs (n + 2 + 24 * bitTicks CLK_HZ + tick) = false
  low : ∀ n, led CLK_HZ inputs n = true → ∃ first bit tick, Starts CLK_HZ inputs first ∧
    bit < 24 ∧ tick < bitTicks CLK_HZ ∧ n = first + 2 + bit * bitTicks CLK_HZ + tick
  apart : ∀ first second, Starts CLK_HZ inputs first → Starts CLK_HZ inputs second →
    first < second → first + 24 * bitTicks CLK_HZ + rstTicks CLK_HZ < second
  once : ∀ n, StrobeBegins inputs n → (after CLK_HZ inputs n).state = .IDLE →
    Starts CLK_HZ inputs n ∧ ∀ later, n < later →
      (∀ k, n ≤ k → k ≤ later → writes (inputs k) REG_B = true) → ¬Starts CLK_HZ inputs later
  status : ∀ n, (after CLK_HZ inputs n).dataOut REG_G = 1 ↔ ∃ first < n, Starts CLK_HZ inputs first ∧
    n ≤ first + 24 * bitTicks CLK_HZ + rstTicks CLK_HZ
  colours : ∀ n, (after CLK_HZ inputs n).dataOut REG_R = held inputs REG_R n ∧
    (after CLK_HZ inputs n).dataOut REG_B = held inputs REG_B n

variable {CLK_HZ inputs} {n : Nat}

theorem after_succ (n : Nat) :
    after CLK_HZ inputs (n + 1) = (after CLK_HZ inputs n).posedge (inputs n) := rfl

theorem holds_eq_held (n : Nat) : (after CLK_HZ inputs n).gHold = held inputs REG_G n ∧
    (after CLK_HZ inputs n).rHold = held inputs REG_R n ∧
    (after CLK_HZ inputs n).bHold = held inputs REG_B n := by
  induction n with
  | zero => exact ⟨rfl, rfl, rfl⟩
  | succ n ih =>
      obtain ⟨green, red, blue⟩ := (after CLK_HZ inputs n).posedge_holds (inputs n)
      rw [after_succ, green, red, blue, ih.1, ih.2.1, ih.2.2]
      exact ⟨rfl, rfl, rfl⟩

/-- The colours that can be read back. -/
theorem dataOut_colours (n : Nat) : (after CLK_HZ inputs n).dataOut REG_R = held inputs REG_R n ∧
    (after CLK_HZ inputs n).dataOut REG_B = held inputs REG_B n := by
  obtain ⟨_, red, blue⟩ := @holds_eq_held CLK_HZ inputs n
  constructor
  · rw [State.dataOut, if_neg (by decide), if_pos rfl, red]
  · rw [State.dataOut, if_neg (by decide), if_neg (by decide), if_pos rfl, blue]

section Frame

variable (ordered : Ordered CLK_HZ)

include ordered

/-- The 24 bits, tick by tick. -/
theorem Starts.sending (starts : Starts CLK_HZ inputs n) (bit tick : Nat) (inside : bit < 24)
    (within : tick < bitTicks CLK_HZ) :
    (after CLK_HZ inputs (n + 1 + bit * bitTicks CLK_HZ + tick)).Sending
      (colour inputs n) bit tick := by
  induction bit generalizing tick with
  | zero =>
      induction tick with
      | zero =>
          have first := State.sending_of_write starts.idle starts.write
          rw [(holds_eq_held n).1, (holds_eq_held n).2.1, ← after_succ] at first
          rwa [Nat.zero_mul]
      | succ tick ih =>
          exact (ih (by omega)).next_tick ordered within _
  | succ bit bit_ih =>
      induction tick with
      | zero =>
          have positive := ordered.bitTicks_pos
          have last : bitTicks CLK_HZ - 1 + 1 = bitTicks CLK_HZ := by omega
          have before := bit_ih (bitTicks CLK_HZ - 1) (by omega) (by omega)
          have clock : n + 1 + (bit + 1) * bitTicks CLK_HZ + 0 =
              n + 1 + bit * bitTicks CLK_HZ + (bitTicks CLK_HZ - 1) + 1 := by
            rw [Nat.succ_mul]
            omega
          rw [clock, after_succ]
          exact (before.last_tick ordered last _).1 (by omega)
      | succ tick ih => exact (ih (by omega)).next_tick ordered within _

theorem Starts.latching (starts : Starts CLK_HZ inputs n) (tick : Nat)
    (within : tick < rstTicks CLK_HZ) :
    (after CLK_HZ inputs (n + 1 + 24 * bitTicks CLK_HZ + tick)).Latching tick := by
  induction tick with
  | zero =>
      have positive := ordered.bitTicks_pos
      have last : bitTicks CLK_HZ - 1 + 1 = bitTicks CLK_HZ := by omega
      have before := starts.sending ordered 23 (bitTicks CLK_HZ - 1) (by omega) (by omega)
      have clock : n + 1 + 24 * bitTicks CLK_HZ + 0 =
          n + 1 + 23 * bitTicks CLK_HZ + (bitTicks CLK_HZ - 1) + 1 := by omega
      rw [clock, after_succ]
      exact (before.last_tick ordered last _).2 rfl
  | succ tick ih => exact (ih (by omega)).next_tick ordered within _

theorem Starts.idle_again (starts : Starts CLK_HZ inputs n) :
    (after CLK_HZ inputs (n + 1 + 24 * bitTicks CLK_HZ + rstTicks CLK_HZ)).state = .IDLE := by
  have positive := ordered.rstTicks_pos
  have before := starts.latching ordered (rstTicks CLK_HZ - 1) (by omega)
  have clock : n + 1 + 24 * bitTicks CLK_HZ + rstTicks CLK_HZ =
      n + 1 + 24 * bitTicks CLK_HZ + (rstTicks CLK_HZ - 1) + 1 := by omega
  rw [clock, after_succ]
  exact before.last_tick ordered (by omega) _

/-- The transmitter is busy after a start for one frame, and then idle. -/
theorem Starts.busy (starts : Starts CLK_HZ inputs n) {m : Nat} (later : n < m)
    (within : m ≤ n + 24 * bitTicks CLK_HZ + rstTicks CLK_HZ) :
    (after CLK_HZ inputs m).state ≠ .IDLE := by
  have positive := ordered.bitTicks_pos
  obtain ⟨i, rfl⟩ := Nat.exists_eq_add_of_lt later
  by_cases sends : i < 24 * bitTicks CLK_HZ
  · have inside : i / bitTicks CLK_HZ < 24 := (Nat.div_lt_iff_lt_mul positive).mpr sends
    have sending := starts.sending ordered _ _ inside (Nat.mod_lt i positive)
    have clock : n + 1 + i / bitTicks CLK_HZ * bitTicks CLK_HZ + i % bitTicks CLK_HZ = n + i + 1 := by
      have parts := Nat.div_add_mod' i (bitTicks CLK_HZ)
      omega
    rw [clock] at sending
    exact State.not_idle_of_sending sending
  · have latching := starts.latching ordered (i - 24 * bitTicks CLK_HZ) (by omega)
    have clock : n + 1 + 24 * bitTicks CLK_HZ + (i - 24 * bitTicks CLK_HZ) = n + i + 1 := by omega
    rw [clock] at latching
    exact State.not_idle_of_latching latching

/-- A busy transmitter is in the frame of some write. -/
theorem started_of_busy (busy : (after CLK_HZ inputs n).state ≠ .IDLE) : ∃ first,
    Starts CLK_HZ inputs first ∧ first < n ∧ n ≤ first + 24 * bitTicks CLK_HZ + rstTicks CLK_HZ := by
  induction n with
  | zero => exact absurd rfl busy
  | succ n ih =>
      by_cases idle : (after CLK_HZ inputs n).state = .IDLE
      · have write : writes (inputs n) REG_B = true := by
          by_contra none
          exact busy (State.idle_of_no_write idle (by simpa using none))
        have positive := ordered.bitTicks_pos
        exact ⟨n, ⟨idle, write⟩, Nat.lt_succ_self n, by omega⟩
      · obtain ⟨first, starts, before, within⟩ := ih idle
        refine ⟨first, starts, by omega, ?_⟩
        by_contra past
        have again := starts.idle_again ordered
        have clock : first + 1 + 24 * bitTicks CLK_HZ + rstTicks CLK_HZ = n + 1 := by omega
        rw [clock] at again
        exact busy again

/-- The status bit is set as long as a frame is under way. -/
theorem dataOut_status (n : Nat) : (after CLK_HZ inputs n).dataOut REG_G = 1 ↔
    ∃ first < n, Starts CLK_HZ inputs first ∧ n ≤ first + 24 * bitTicks CLK_HZ + rstTicks CLK_HZ := by
  have reads : (after CLK_HZ inputs n).dataOut REG_G = 1 ↔ (after CLK_HZ inputs n).state ≠ .IDLE := by
    rw [State.dataOut, if_pos rfl, State.busy]
    cases (after CLK_HZ inputs n).state <;> decide
  rw [reads]
  constructor
  · intro busy
    obtain ⟨first, starts, before, within⟩ := started_of_busy ordered busy
    exact ⟨first, before, starts, within⟩
  · intro ⟨first, before, starts, within⟩
    exact starts.busy ordered before within

theorem Starts.apart {first second : Nat} (starts : Starts CLK_HZ inputs first)
    (next : Starts CLK_HZ inputs second) (later : first < second) :
    first + 24 * bitTicks CLK_HZ + rstTicks CLK_HZ < second := by
  by_contra early
  exact starts.busy ordered later (Nat.not_lt.mp early) next.idle

theorem low_or_sending (high : led CLK_HZ inputs n = true) : ∃ first bit tick,
    Starts CLK_HZ inputs first ∧ bit < 24 ∧ tick < bitTicks CLK_HZ ∧
      n = first + 2 + bit * bitTicks CLK_HZ + tick := by
  cases n with
  | zero => exact absurd high Bool.false_ne_true
  | succ n =>
      have positive := ordered.bitTicks_pos
      have busy : (after CLK_HZ inputs n).state ≠ .IDLE := fun idle =>
        ne_true_of_eq_false (State.ledOut_of_idle idle) high
      obtain ⟨first, starts, before, within⟩ := started_of_busy ordered busy
      obtain ⟨i, rfl⟩ := Nat.exists_eq_add_of_lt before
      have sends : i < 24 * bitTicks CLK_HZ := by
        by_contra past
        have latching := starts.latching ordered (i - 24 * bitTicks CLK_HZ) (by omega)
        have clock : first + 1 + 24 * bitTicks CLK_HZ + (i - 24 * bitTicks CLK_HZ) = first + i + 1 := by
          omega
        rw [clock] at latching
        exact ne_true_of_eq_false latching.ledOut high
      have parts := Nat.div_add_mod' i (bitTicks CLK_HZ)
      exact ⟨first, i / bitTicks CLK_HZ, i % bitTicks CLK_HZ, starts,
        (Nat.div_lt_iff_lt_mul positive).mpr sends, Nat.mod_lt i positive, by omega⟩

/-- A strobe that begins while the transmitter is idle starts one frame: it is over before the frame. -/
theorem once_of_short (short : ShortStrobes CLK_HZ inputs) (starts : Starts CLK_HZ inputs n) {later : Nat}
    (after_ : n < later) (lasts : ∀ k, n ≤ k → k ≤ later → writes (inputs k) REG_B = true) :
    ¬Starts CLK_HZ inputs later := by
  intro again
  have past := starts.apart ordered again after_
  obtain ⟨k, within, high⟩ := short n
  have strobe := lasts (n + k) (by omega) (by omega)
  simp [writes, high] at strobe

end Frame

/-- The transmitter puts out whole frames only, one for each BLUE strobe that begins while it is idle,
    whatever is written meanwhile. -/
theorem led_out_whole_frames (ordered : Ordered CLK_HZ) (short : ShortStrobes CLK_HZ inputs) :
    WholeFrames CLK_HZ inputs where
  bits n starts bit inside tick within := by
    have sending := starts.sending ordered bit tick inside within
    have clock : n + 2 + bit * bitTicks CLK_HZ + tick =
        n + 1 + bit * bitTicks CLK_HZ + tick + 1 := by omega
    rw [clock]
    exact sending.ledOut
  latch n starts tick within := by
    have latching := starts.latching ordered tick within
    have clock : n + 2 + 24 * bitTicks CLK_HZ + tick =
        n + 1 + 24 * bitTicks CLK_HZ + tick + 1 := by omega
    rw [clock]
    exact latching.ledOut
  low _ := low_or_sending ordered
  apart _ _ starts next := starts.apart ordered next
  once n begins idle :=
    ⟨⟨idle, begins.1⟩, fun _ => once_of_short ordered short ⟨idle, begins.1⟩⟩
  status := dataOut_status ordered
  colours := dataOut_colours

/-- A write of BLUE for two clocks, with nothing written before it. -/
def blueWrite (n : Nat) : Bus :=
  { csN := false, regAddr := REG_B, rwn := false, dsN := !(n = 3 || n = 4), dataIn := 0x5A }

theorem blueWrite_whole_frames : WholeFrames 75600000 blueWrite := by
  refine led_out_whole_frames ⟨by decide, by decide, by decide, by decide⟩ ?_
  intro n
  by_cases early : n + 2 < 5
  · exact ⟨5, by decide, by simp [blueWrite, Bus.wr]⟩
  · exact ⟨2, by decide, by simp [blueWrite, Bus.wr]; omega⟩

end Runs

end Mackerel.Ws2812
