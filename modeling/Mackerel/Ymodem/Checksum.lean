import Mackerel.Crc.Polynomials
import Mackerel.Ymodem.Turn

namespace Mackerel.Ymodem

open Bytes Serial Polynomial Crc

/-- x^16 + x^12 + x^5 + 1. -/
noncomputable def xmodem : (ZMod 2)[X] := X ^ 16 + X ^ 12 + X ^ 5 + 1

theorem generator_xmodem : generator (0x1021 : BitVec 16) = xmodem := by
  have low : toPoly (0x1021 : BitVec 16) = X ^ 12 + X ^ 5 + 1 := by
    simp [toPoly, Finset.sum_range_succ, ofBit]
    ring
  rw [generator, low, xmodem]
  ring

theorem crcShift_eq (crc : BitVec 16) : crcShift crc = Crc.shift 0x1021 crc := by
  have top : crc &&& 0x8000 = if crc.getLsbD 15 then BitVec.twoPow 16 15 else 0 :=
    BitVec.and_twoPow crc 15
  rw [crcShift, Crc.shift, top, BitVec.msb_eq_getLsbD_last]
  cases crc.getLsbD 15 with
  | true => rfl
  | false => rfl

theorem crcByte_eq (crc : BitVec 16) (byte : Byte) : crcByte crc byte = absorb 0x1021 crc byte := by
  have steps : (fun (crc : BitVec 16) (_ : Nat) => crcShift crc) =
      fun crc _ => Crc.shift 0x1021 crc := by
    funext crc _
    exact crcShift_eq crc
  rw [crcByte, steps, List.foldl_const, List.length_range]
  rfl

theorem crc16_eq (p : Block) (n : Nat) : crc16 p n = checksum 0x1021 p n := by
  have steps : (fun (crc : BitVec 16) (i : Nat) => crcByte crc (p i)) =
      fun crc i => absorb 0x1021 crc (p i) := by
    funext crc i
    exact crcByte_eq crc (p i)
  rw [crc16, steps]
  rfl

/-- The data of a block and its two checksum bytes. -/
def followed (d : Block) (n : Nat) (high low : Byte) : Block := fun i =>
  if i < n then d i else if i = n then high else low

/-- An error in 16 consecutive bits; bit 0 is the highest bit of the first byte. -/
structure Burst (error : Block) (bytes : Nat) : Prop where
  nonzero : ∃ t < 8 * bytes, bitAt error t = true
  window : ∃ first, ∀ t < 8 * bytes, bitAt error t = true → first ≤ t ∧ t < first + 16

section

variable {d error : Block} {n : Nat} {high low : Byte}

theorem crc16_holds (d : Block) (n : Nat) :
    Holds 0x1021 (crc16 d n) (message d n * X ^ 16) := by
  rw [crc16_eq]
  exact checksum_holds (by decide) 0x1021 d n

theorem message_two_more (d : Block) (n : Nat) :
    message d (n + 2) = message d n * X ^ 16 + toPoly (d n ++ d (n + 1)) := by
  rw [message, message, toPoly_append]
  ring

theorem message_followed :
    message (followed d n high low) (n + 2) = message d n * X ^ 16 + toPoly (high ++ low) := by
  have same : message (followed d n high low) n = message d n :=
    message_congr fun i before => if_pos before
  have first : followed d n high low n = high := by
    rw [followed, if_neg (Nat.lt_irrefl n), if_pos rfl]
  have second : followed d n high low (n + 1) = low := by
    rw [followed, if_neg (by omega), if_neg (by omega)]
  rw [message_two_more, same, first, second]

/-- A block followed by its checksum has the checksum 0. -/
theorem crc16_followed (correct : crc16 d n = high ++ low) :
    crc16 (followed d n high low) (n + 2) = 0 := by
  have zero : Holds (0x1021 : BitVec 16) 0 (toPoly 0) := holds_self
  have holds := crc16_holds d n
  rw [correct, Holds, CharTwo.sub_eq_add] at holds
  rw [(crc16_holds _ _).eq_iff zero, message_followed, toPoly_zero, sub_zero]
  exact Dvd.dvd.mul_right holds _

theorem crc16_xor :
    crc16 (fun i => d i ^^^ error i) n = crc16 d n ^^^ crc16 error n := by
  rw [crc16_eq, crc16_eq, crc16_eq]
  exact checksum_xor (by decide)

/-- The error of the data and of the checksum bytes, as a polynomial. -/
theorem Burst.polynomial (burst : Burst error (n + 2)) :
    message error n * X ^ 16 + toPoly (error n ++ error (n + 1)) ≠ 0 ∧
      ∃ low, ∀ k, (message error n * X ^ 16 + toPoly (error n ++ error (n + 1))).coeff k ≠ 0 →
        low ≤ k ∧ k < low + 16 := by
  obtain ⟨⟨t, inside, set⟩, first, window⟩ := burst
  have coefficient (k : Nat) : (message error (n + 2)).coeff k =
      if k < 8 * (n + 2) then ofBit (bitAt error (8 * (n + 2) - 1 - k)) else 0 := coeff_message k
  rw [← message_two_more]
  constructor
  · intro none
    have bit := coefficient (8 * (n + 2) - 1 - t)
    have place : 8 * (n + 2) - 1 - (8 * (n + 2) - 1 - t) = t := by omega
    rw [none, coeff_zero, if_pos (by omega), place, set] at bit
    exact absurd bit (by decide)
  · refine ⟨8 * (n + 2) - (first + 16), fun k some => ?_⟩
    rw [coefficient] at some
    by_cases below : k < 8 * (n + 2)
    · rw [if_pos below] at some
      have bit : bitAt error (8 * (n + 2) - 1 - k) = true := by
        by_contra clear
        rw [Bool.not_eq_true] at clear
        rw [clear] at some
        exact some rfl
      have place := window _ (by omega) bit
      omega
    · rw [if_neg below] at some
      exact absurd rfl some

theorem Burst.changes (burst : Burst error (n + 2)) (correct : crc16 d n = high ++ low) :
    crc16 (fun i => d i ^^^ error i) n ≠ (high ^^^ error n) ++ (low ^^^ error (n + 1)) := by
  obtain ⟨nonzero, first, window⟩ := burst.polynomial
  have joined : (high ^^^ error n) ++ (low ^^^ error (n + 1)) =
      (high ++ low) ^^^ (error n ++ error (n + 1)) := BitVec.xor_append.symm
  rw [crc16_eq] at correct
  rw [crc16_eq, joined]
  exact burst_detected (by decide) (by decide) correct _ nonzero window

end

/-- The checksum is the remainder of the block times x^16, and the check of the receiver finds every
    error in 16 consecutive bits of a block and its checksum. -/
theorem crc16_remainder_and_bursts (d : Block) (n : Nat) :
    toPoly (crc16 d n) = message d n * X ^ 16 %ₘ xmodem ∧
    (∀ high low, crc16 d n = high ++ low → crc16 (followed d n high low) (n + 2) = 0) ∧
    (∀ other, crc16 (fun i => d i ^^^ other i) n = crc16 d n ^^^ crc16 other n) ∧
    ∀ high low error, crc16 d n = high ++ low → Burst error (n + 2) → ∀ filled bn bnc,
      checked filled (crc16 (fun i => d i ^^^ error i) n) bn bnc (some (high ^^^ error n))
        (some (low ^^^ error (n + 1))) = none := by
  refine ⟨?_, fun high low => crc16_followed, fun other => crc16_xor, ?_⟩
  · rw [← generator_xmodem]
    exact (crc16_holds d n).modByMonic
  · intro high low error correct burst filled bn bnc
    have differs := burst.changes correct
    cases bn with
    | none => rfl
    | some first =>
        cases bnc with
        | none => rfl
        | some second => exact if_neg fun all => differs all.2.2

/-- One wrong bit in a block of one byte. -/
def oneBit : Block := fun i => if i = 0 then 0x10 else 0

theorem oneBit_burst : Burst oneBit 3 := ⟨⟨3, by decide, by decide⟩, 0, by decide⟩

theorem one_bit_detected :
    Burst oneBit 3 ∧
      checked true (crc16 (fun i => (fun _ => 0) i ^^^ oneBit i) 1) (some 1) (some 0xFE)
        (some (0 ^^^ oneBit 1)) (some (0 ^^^ oneBit 2)) = none :=
  ⟨oneBit_burst, (crc16_remainder_and_bursts (fun _ => 0) 1).2.2.2 0 0 oneBit (by decide)
    oneBit_burst true (some 1) (some 0xFE)⟩

end Mackerel.Ymodem
