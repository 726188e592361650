import Mackerel.Duart.SpiPins

namespace Mackerel.Duart

open Bytes Device M08

theorem and_pinMask_ne_zero (b : Byte) {i : Nat} (inside : i < 8) : b &&& pinMask i ≠ 0 ↔ b.getLsbD i = true := by
  constructor
  · intro nonzero
    by_contra low
    refine nonzero (BitVec.eq_of_getLsbD_eq fun j within => ?_)
    rw [BitVec.getLsbD_and, getLsbD_pinMask within]
    by_cases same : j = i
    · subst same
      simp [Bool.eq_false_iff.mpr low]
    · simp [same]
  · intro high zero
    have bit := congrArg (fun v : Byte => v.getLsbD i) zero
    rw [BitVec.getLsbD_and, getLsbD_pinMask inside, high] at bit
    simp at bit

/-! A byte `b` on its way out and a byte `c` on its way in, with `k` bits left. -/

theorem getLsbD_bit (bit : Bool) (j : Nat) :
    (if bit then 1 else 0 : Byte).getLsbD j = (bit && decide (j = 0)) := by
  have one : (1 : Byte) = 1#8 := rfl
  cases bit <;> simp [one, BitVec.getLsbD_one]

theorem shift_out (b : Byte) (i : Nat) :
    ((b >>> (i + 1)) <<< 1 ||| (if b.getLsbD i then 1 else 0)) = b >>> i := by
  apply BitVec.eq_of_getLsbD_eq
  intro j within
  rw [BitVec.getLsbD_or, BitVec.getLsbD_shiftLeft, BitVec.getLsbD_ushiftRight, BitVec.getLsbD_ushiftRight,
    getLsbD_bit]
  cases j with
  | zero => simp
  | succ j =>
      have place : i + 1 + j = i + (j + 1) := by omega
      simp [within, place]

theorem getLsbD_kept (c : Byte) (m j : Nat) :
    ((c >>> m) <<< m).getLsbD j = (decide (j < 8 ∧ m ≤ j) && c.getLsbD j) := by
  rw [BitVec.getLsbD_shiftLeft, BitVec.getLsbD_ushiftRight]
  by_cases above : m ≤ j
  · have place : m + (j - m) = j := by omega
    simp [above, place, Nat.not_lt.mpr above]
  · simp [above, Nat.lt_of_not_le above]

theorem shift_in (c : Byte) (i : Nat) :
    (if c.getLsbD i then (c >>> (i + 1)) <<< (i + 1) ||| pinMask i else (c >>> (i + 1)) <<< (i + 1)) =
      (c >>> i) <<< i := by
  apply BitVec.eq_of_getLsbD_eq
  intro j within
  have added : (if c.getLsbD i then (c >>> (i + 1)) <<< (i + 1) ||| pinMask i
      else (c >>> (i + 1)) <<< (i + 1)).getLsbD j =
        (((c >>> (i + 1)) <<< (i + 1)).getLsbD j || (c.getLsbD i && decide (j = i))) := by
    cases c.getLsbD i with
    | false => rw [if_neg Bool.false_ne_true, Bool.false_and, Bool.or_false]
    | true => rw [if_pos rfl, BitVec.getLsbD_or, getLsbD_pinMask within, Bool.true_and]
  rw [added, getLsbD_kept, getLsbD_kept]
  grind

variable {card : Card} {events : List Event} {b : Byte}

/-- The device between two bytes. -/
def ready (card : Card) (events : List Event) : Slave where
  events := events
  shift := 0
  count := 0
  miso := (card events).getLsbD 7

/-- The device with `k` bits of a byte left. -/
def sending (card : Card) (events : List Event) (b : Byte) : (k : Nat) → Slave
  | 0 => ready card (events ++ [.byte b])
  | i + 1 => {
      events := events
      shift := b >>> (i + 1)
      count := 7 - i
      miso := (card events).getLsbD i }

theorem sending_eight (card : Card) (events : List Event) (b : Byte) :
    sending card events b 8 = ready card events := by
  have gone : b >>> 8 = 0 := BitVec.ushiftRight_eq_zero (Nat.le_refl 8)
  simp [sending, ready, gone]

theorem clock_sending {i : Nat} (inside : i < 8) :
    (sending card events b (i + 1)).clock card (b.getLsbD i) = sending card events b i := by
  cases i with
  | zero =>
      have whole := shift_out b 0
      rw [BitVec.ushiftRight_zero] at whole
      simp only [Slave.clock, Slave.rise, sending, Slave.present, ready, whole]
      rfl
  | succ i =>
      have count : ¬ 7 - (i + 1) = 7 := by omega
      have next : 7 - (i + 1) + 1 = 7 - i := by omega
      have position : 7 - (7 - i) = i := by omega
      simp only [Slave.clock, Slave.rise, sending, if_neg count, Slave.present, shift_out b (i + 1), next,
        position]

variable (inputs : Nat → Byte) {w : World}

/-- The clock is low and the device has seen whole bytes. -/
structure Idle (card : Card) (events : List Event) (w : World) : Prop where
  sclk : w.pins.getLsbD SCLK = false
  slave : w.slave = ready card events

theorem putBit_run (b : Byte) {i : Nat} (inside : i < 8) : (putBit b i).run (duart card inputs) w =
    ((), { w with pins := setPin MOSI (b.getLsbD i) w.pins }) := by
  have other := @set_other card w MOSI (b.getLsbD i) (by decide) (by decide)
  rw [putBit]
  cases bit : b.getLsbD i with
  | true => rw [if_pos ((and_pinMask_ne_zero b inside).mpr bit), GPIO_ON_run, ← bit, other, bit]
  | false =>
      have off : ¬ b &&& pinMask i ≠ 0 := mt (and_pinMask_ne_zero b inside).mp (by rw [bit]; decide)
      rw [if_neg off, GPIO_OFF_run, ← bit, other, bit]

theorem spi_byte_bits_succ (b : Byte) {i : Nat} (inside : i < 8) (recv : Byte)
    (low : w.pins.getLsbD SCLK = false) :
    (spi_byte_bits b (i + 1) recv).run (duart card inputs) w =
      (spi_byte_bits b i (if w.slave.miso then recv ||| pinMask i else recv)).run (duart card inputs)
        { pins := setPin MOSI (b.getLsbD i) w.pins
          slave := w.slave.clock card (b.getLsbD i)
          reads := w.reads + 1 } := by
  have turn : spi_byte_bits b (i + 1) recv = (do
      putBit b i
      (do GPIO_ON SCLK; let miso ← MISO_GET; GPIO_OFF SCLK
          (fun level : Bool => spi_byte_bits b i (if level then recv ||| pinMask i else recv))
            (decide (miso ≠ 0)))) := by
    simp only [spi_byte_bits, decide_eq_true_eq]
  have still : (setPin MOSI (b.getLsbD i) w.pins).getLsbD SCLK = false :=
    (setPin_sclk _ w.pins (by decide)).trans low
  have level : (setPin MOSI (b.getLsbD i) w.pins).getLsbD MOSI = b.getLsbD i :=
    (getLsbD_setPin _ w.pins (by decide)).trans (if_pos rfl)
  rw [turn, Program.run_bind, bind_run, putBit_run inputs b inside]
  refine (@sample_run card inputs { w with pins := setPin MOSI (b.getLsbD i) w.pins } still _
    fun level => spi_byte_bits b i (if level then recv ||| pinMask i else recv)).trans ?_
  rw [World.pulse, level]

/-- The loop of `spi_byte` sends the last `k` bits of a byte and takes as many of the answer. -/
theorem spi_byte_bits_run {k : Nat} (inside : k ≤ 8) (low : w.pins.getLsbD SCLK = false)
    (slave : w.slave = sending card events b k) :
    (spi_byte_bits b k ((card events >>> k) <<< k)).run (duart card inputs) w = (card events, {
      pins := if k = 0 then w.pins else setPin MOSI (b.getLsbD 0) w.pins
      slave := ready card (events ++ [.byte b])
      reads := w.reads + k }) := by
  induction k generalizing w with
  | zero =>
      have whole : (card events >>> 0) <<< 0 = card events := by
        rw [BitVec.ushiftRight_zero, BitVec.shiftLeft_zero]
      rw [whole, spi_byte_bits, Program.run_pure, pure_run, if_pos rfl, ← sending, ← slave]
      rfl
  | succ i ih =>
      have miso : w.slave.miso = (card events).getLsbD i := congrArg Slave.miso slave
      have still : (setPin MOSI (b.getLsbD i) w.pins).getLsbD SCLK = false :=
        (setPin_sclk _ w.pins (by decide)).trans low
      let next : World :=
        { pins := setPin MOSI (b.getLsbD i) w.pins, slave := sending card events b i, reads := w.reads + 1 }
      have rest := @ih next (Nat.le_of_succ_le inside) still rfl
      rw [spi_byte_bits_succ inputs b inside _ low, miso, shift_in, slave, clock_sending inside]
      refine rest.trans ?_
      have pins : (if i = 0 then next.pins else setPin MOSI (b.getLsbD 0) next.pins) =
          setPin MOSI (b.getLsbD 0) w.pins := by
        cases i with
        | zero => rfl
        | succ i => simp [next, setPin_setPin]
      rw [pins, if_neg (Nat.succ_ne_zero i), Nat.add_comm i 1, ← Nat.add_assoc]

theorem spi_byte_run (b : Byte) (idle : Idle card events w) : (spi_byte b).run (duart card inputs) w =
    (card events, {
      pins := setPin MOSI (b.getLsbD 0) w.pins
      slave := ready card (events ++ [.byte b])
      reads := w.reads + 8 }) := by
  have empty : (card events >>> 8) <<< 8 = 0 := by
    rw [BitVec.ushiftRight_eq_zero (Nat.le_refl 8)]
    rfl
  have start : w.slave = sending card events b 8 := idle.slave.trans (sending_eight card events b).symm
  have loop := spi_byte_bits_run inputs (Nat.le_refl 8) idle.sclk start
  rw [empty] at loop
  rw [spi_byte, Program.run_bind, bind_run, GPIO_OFF_run, set_same idle.sclk, loop]
  rfl

/-- All bits alike. -/
def level (mosi : Bool) : Byte := if mosi then 0xFF else 0x00

theorem getLsbD_level (mosi : Bool) {i : Nat} (inside : i < 8) : (level mosi).getLsbD i = mosi := by
  have ones : (0xFF : Byte) = BitVec.allOnes 8 := rfl
  cases mosi with
  | false => simp [level]
  | true => rw [level, if_pos rfl, ones, BitVec.getLsbD_allOnes, decide_eq_true inside]

theorem spi_recv_lines_run {k : Nat} (inside : k ≤ 8) (low : w.pins.getLsbD SCLK = false)
    (slave : w.slave = sending card events (level (w.pins.getLsbD MOSI)) k) :
    (spi_recv_lines (masks k) ((card events >>> k) <<< k)).run (duart card inputs) w = (card events, {
      pins := w.pins
      slave := ready card (events ++ [.byte (level (w.pins.getLsbD MOSI))])
      reads := w.reads + k }) := by
  induction k generalizing w with
  | zero =>
      have whole : (card events >>> 0) <<< 0 = card events := by
        rw [BitVec.ushiftRight_zero, BitVec.shiftLeft_zero]
      rw [whole, masks, spi_recv_lines, Program.run_pure, pure_run, ← sending, ← slave]
      rfl
  | succ i ih =>
      have miso : w.slave.miso = (card events).getLsbD i := congrArg Slave.miso slave
      let kept : Byte := (card events >>> (i + 1)) <<< (i + 1)
      let later (bit : Bool) : Code Byte := spi_recv_lines (masks i) (if bit then kept ||| pinMask i else kept)
      have line : spi_recv_lines (masks (i + 1)) kept =
          (do GPIO_ON SCLK; let miso ← MISO_GET; GPIO_OFF SCLK; later (decide (miso ≠ 0))) := by
        simp only [masks, spi_recv_lines, later, decide_eq_true_eq]
      let next : World := { w.pulse card with reads := w.reads + 1 }
      have clocked : next.slave = sending card events (level (w.pins.getLsbD MOSI)) i := by
        have clock := @clock_sending card events (level (w.pins.getLsbD MOSI)) i inside
        rw [getLsbD_level _ inside, ← slave] at clock
        exact clock
      have rest := @ih next (Nat.le_of_succ_le inside) low clocked
      have sampled := @sample_run card inputs w low _ later
      rw [← line, miso] at sampled
      simp only [later, kept, shift_in] at sampled
      refine (sampled.trans rest).trans ?_
      rw [Nat.add_comm i 1, ← Nat.add_assoc]
      rfl

theorem spi_recv_run (idle : Idle card events w) : spi_recv.run (duart card inputs) w = (card events, {
    pins := w.pins
    slave := ready card (events ++ [.byte (level (w.pins.getLsbD MOSI))])
    reads := w.reads + 8 }) := by
  have empty : (card events >>> 8) <<< 8 = 0 := by
    rw [BitVec.ushiftRight_eq_zero (Nat.le_refl 8)]
    rfl
  have start := idle.slave.trans (sending_eight card events (level (w.pins.getLsbD MOSI))).symm
  have lines := spi_recv_lines_run inputs (Nat.le_refl 8) idle.sclk start
  rw [empty] at lines
  exact lines

end Mackerel.Duart
