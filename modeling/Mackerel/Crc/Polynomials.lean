import Mathlib.Algebra.CharP.Two
import Mathlib.Algebra.Polynomial.Div
import Mathlib.Algebra.Field.ZMod
import Mathlib.RingTheory.Coprime.Lemmas

namespace Crc

open Polynomial

/-! Bit vectors as polynomials over the field of two elements: bit `i` is the coefficient of
`X ^ i`. -/

variable {w b : Nat}

/-- The element that a bit stands for. -/
def ofBit (bit : Bool) : ZMod 2 := if bit then 1 else 0

theorem ofBit_xor (first second : Bool) : ofBit (first ^^ second) = ofBit first + ofBit second := by
  cases first with
  | false => simp [ofBit]
  | true =>
      cases second with
      | false => simp [ofBit]
      | true => exact (CharTwo.add_self_eq_zero (1 : ZMod 2)).symm

theorem ofBit_injective {first second : Bool} (same : ofBit first = ofBit second) :
    first = second := by
  revert same
  cases first with
  | false =>
      cases second with
      | false => exact fun _ => rfl
      | true => exact fun same => absurd same (by decide)
  | true =>
      cases second with
      | false => exact fun same => absurd same (by decide)
      | true => exact fun _ => rfl

noncomputable def toPoly (v : BitVec w) : (ZMod 2)[X] :=
  ∑ i ∈ Finset.range w, C (ofBit (v.getLsbD i)) * X ^ i

theorem coeff_toPoly (v : BitVec w) (k : Nat) : (toPoly v).coeff k = ofBit (v.getLsbD k) := by
  rw [toPoly, finsetSum_coeff]
  by_cases inside : k < w
  · rw [Finset.sum_eq_single k]
    · rw [coeff_C_mul_X_pow, if_pos rfl]
    · intro i _ other
      rw [coeff_C_mul_X_pow, if_neg other.symm]
    · intro outside
      exact absurd (Finset.mem_range.mpr inside) outside
  · rw [BitVec.getLsbD_of_ge _ _ (Nat.not_lt.mp inside)]
    apply Finset.sum_eq_zero
    intro i member
    have below := Finset.mem_range.mp member
    rw [coeff_C_mul_X_pow, if_neg (by omega)]

theorem toPoly_zero : toPoly (0 : BitVec w) = 0 := by
  ext k
  have bit : (0 : BitVec w).getLsbD k = false := BitVec.getLsbD_zero
  rw [coeff_toPoly, bit, coeff_zero]
  rfl

theorem toPoly_xor (first second : BitVec w) :
    toPoly (first ^^^ second) = toPoly first + toPoly second := by
  ext k
  rw [coeff_add, coeff_toPoly, coeff_toPoly, coeff_toPoly, BitVec.getLsbD_xor, ofBit_xor]

theorem toPoly_injective {first second : BitVec w} (same : toPoly first = toPoly second) :
    first = second := by
  apply BitVec.eq_of_getLsbD_eq
  intro k _
  have coefficient : (toPoly first).coeff k = (toPoly second).coeff k := by rw [same]
  rw [coeff_toPoly, coeff_toPoly] at coefficient
  exact ofBit_injective coefficient

theorem degree_toPoly_lt (v : BitVec w) : (toPoly v).degree < w := by
  rw [degree_lt_iff_coeff_zero]
  intro k outside
  rw [coeff_toPoly, BitVec.getLsbD_of_ge _ _ outside]
  rfl

/-- Moving a bit vector up in a wider one multiplies by a power of `X`. -/
theorem toPoly_place (v : BitVec b) (fits : b ≤ w) :
    toPoly (v.setWidth w <<< (w - b)) = toPoly v * X ^ (w - b) := by
  ext k
  rw [coeff_toPoly, coeff_mul_X_pow', BitVec.getLsbD_shiftLeft, BitVec.getLsbD_setWidth]
  by_cases low : w - b ≤ k
  · rw [if_pos low, coeff_toPoly]
    by_cases inside : k < w
    · have below : k - (w - b) < w := by omega
      simp [inside, below, Nat.not_lt.mpr low]
    · have outside : b ≤ k - (w - b) := by omega
      rw [BitVec.getLsbD_of_ge v _ outside]
      simp [inside]
  · rw [if_neg low]
    have below : k < w - b := by omega
    simp [below, ofBit]

theorem toPoly_append (high : BitVec b) (low : BitVec w) :
    toPoly (high ++ low) = toPoly high * X ^ w + toPoly low := by
  ext k
  rw [coeff_add, coeff_toPoly, coeff_mul_X_pow', coeff_toPoly low, BitVec.getLsbD_append]
  by_cases inside : k < w
  · rw [if_neg (Nat.not_le.mpr inside), zero_add]
    simp [inside]
  · rw [if_pos (Nat.not_lt.mp inside), coeff_toPoly,
      BitVec.getLsbD_of_ge low _ (Nat.not_lt.mp inside)]
    simp [inside, ofBit]

/-- A shift multiplies by `X`, but for the bit that it drops. -/
theorem toPoly_shiftLeft (v : BitVec w) :
    X * toPoly v = toPoly (v <<< 1) + C (ofBit v.msb) * X ^ w := by
  ext k
  rw [coeff_add, coeff_toPoly, coeff_C_mul_X_pow, BitVec.getLsbD_shiftLeft]
  cases k with
  | zero =>
      rw [coeff_X_mul_zero]
      by_cases none : w = 0
      · subst none
        rw [BitVec.msb_zero_length]
        simp [ofBit]
      · rw [if_neg (Ne.symm none)]
        simp [ofBit]
  | succ k =>
      rw [coeff_X_mul, coeff_toPoly]
      by_cases top : k + 1 = w
      · have msb : v.msb = v.getLsbD k := by
          rw [BitVec.msb_eq_getLsbD_last]
          congr 1
          omega
        rw [if_pos top, msb]
        simp [top, ofBit]
      · rw [if_neg top, add_zero]
        by_cases inside : k + 1 < w
        · simp [inside]
        · rw [BitVec.getLsbD_of_ge v k (by omega)]
          simp [inside]

/-- The generator of a code, from the coefficients below its leading one. -/
noncomputable def generator (g : BitVec w) : (ZMod 2)[X] := X ^ w + toPoly g

theorem generator_monic (g : BitVec w) : (generator g).Monic :=
  monic_X_pow_add (degree_toPoly_lt g)

theorem degree_generator (g : BitVec w) : (generator g).degree = w := by
  rw [generator, degree_add_eq_left_of_degree_lt]
  · exact degree_X_pow w
  · rw [degree_X_pow]
    exact degree_toPoly_lt g

/-- One step of the register: times `X`, less the generator if its degree is reached. -/
def shift (g v : BitVec w) : BitVec w := if v.msb then (v <<< 1) ^^^ g else v <<< 1

/-- The register holds the remainder of a polynomial. -/
def Holds (g v : BitVec w) (p : (ZMod 2)[X]) : Prop := generator g ∣ p - toPoly v

variable {g v other : BitVec w} {p q : (ZMod 2)[X]}

theorem holds_self : Holds g v (toPoly v) := by
  rw [Holds, sub_self]
  exact dvd_zero _

theorem Holds.xor (first : Holds g v p) (second : Holds g other q) : Holds g (v ^^^ other) (p + q) := by
  rw [Holds, toPoly_xor, add_sub_add_comm]
  exact dvd_add first second

theorem shift_dvd (g v : BitVec w) : generator g ∣ X * toPoly v - toPoly (shift g v) := by
  rw [toPoly_shiftLeft, shift]
  cases v.msb with
  | true =>
      have whole : toPoly (v <<< 1) + C (ofBit true) * X ^ w -
          (toPoly (v <<< 1) + toPoly g) = generator g := by
        have one : C (ofBit true) = (1 : (ZMod 2)[X]) := C_1
        rw [one, one_mul, add_sub_add_left_eq_sub, CharTwo.sub_eq_add, generator]
      rw [if_pos rfl, toPoly_xor, whole]
  | false =>
      have nothing : C (ofBit false) = (0 : (ZMod 2)[X]) := C_0
      rw [if_neg Bool.false_ne_true, nothing, zero_mul, add_zero, sub_self]
      exact dvd_zero _

theorem Holds.shift (holds : Holds g v p) : Holds g (shift g v) (X * p) := by
  have parts : X * p - toPoly (Crc.shift g v) =
      X * (p - toPoly v) + (X * toPoly v - toPoly (Crc.shift g v)) := by ring
  rw [Holds, parts]
  exact dvd_add (Dvd.dvd.mul_left holds X) (shift_dvd g v)

theorem Holds.shifts (holds : Holds g v p) (count : Nat) :
    Holds g ((Crc.shift g)^[count] v) (p * X ^ count) := by
  induction count with
  | zero =>
      rw [pow_zero, mul_one]
      exact holds
  | succ count induction_hypothesis =>
      have product : p * X ^ (count + 1) = X * (p * X ^ count) := by ring
      rw [Function.iterate_succ_apply', product]
      exact induction_hypothesis.shift

theorem Holds.modByMonic (holds : Holds g v p) : toPoly v = p %ₘ generator g := by
  have monic := generator_monic g
  have reduced : toPoly v %ₘ generator g = toPoly v := by
    rw [modByMonic_eq_self_iff monic, degree_generator]
    exact degree_toPoly_lt v
  rw [modByMonic_eq_of_dvd_sub monic holds, reduced]

theorem Holds.eq_iff (first : Holds g v p) (second : Holds g other q) :
    v = other ↔ generator g ∣ p - q := by
  have monic := generator_monic g
  constructor
  · rintro rfl
    have difference := dvd_sub first second
    rwa [sub_sub_sub_cancel_right] at difference
  · intro same
    apply toPoly_injective
    rw [first.modByMonic, second.modByMonic, modByMonic_eq_of_dvd_sub monic same]

/-- A polynomial of at most `w` consecutive coefficients is no multiple of the generator. -/
theorem burst_not_dvd (unit : g.getLsbD 0 = true) {e : (ZMod 2)[X]} {low : Nat} (nonzero : e ≠ 0)
    (window : ∀ k, e.coeff k ≠ 0 → low ≤ k ∧ k < low + w) : ¬generator g ∣ e := by
  have positive : 0 < w := by
    by_contra none
    rw [BitVec.getLsbD_of_ge g 0 (by omega)] at unit
    cases unit
  have constant : (generator g).coeff 0 = 1 := by
    rw [generator, coeff_add, coeff_X_pow, if_neg (by omega), coeff_toPoly, unit, zero_add]
    rfl
  have coprime : IsCoprime (generator g) (X ^ low) := by
    apply IsCoprime.pow_right
    refine ⟨1, -(generator g).divX, ?_⟩
    have split := divX_mul_X_add (generator g)
    rw [constant, C_1] at split
    nth_rewrite 1 [← split]
    ring
  have factor : X ^ low ∣ e := by
    rw [X_pow_dvd_iff]
    intro k below
    by_contra some
    have inside := window k some
    omega
  obtain ⟨burst, rfl⟩ := factor
  intro divides
  have divided : generator g ∣ burst := coprime.dvd_of_dvd_mul_left divides
  apply nonzero
  have empty : burst = 0 := by
    apply eq_zero_of_dvd_of_degree_lt divided
    rw [degree_generator, degree_lt_iff_coeff_zero]
    intro k outside
    by_contra some
    have shifted : (X ^ low * burst).coeff (k + low) ≠ 0 := by
      rw [coeff_X_pow_mul]
      exact some
    have inside := window (k + low) shifted
    omega
  rw [empty, mul_zero]

/-- The polynomial of a sequence of words, the highest bit of the first word first. -/
noncomputable def message (p : Nat → BitVec b) : Nat → (ZMod 2)[X]
  | 0 => 0
  | n + 1 => message p n * X ^ b + toPoly (p n)

/-- Bit `t` of the sequence. -/
def bitAt (p : Nat → BitVec b) (t : Nat) : Bool := (p (t / b)).getMsbD (t % b)

/-- A word enters the register at its top. -/
def absorb (g : BitVec w) (crc : BitVec w) (word : BitVec b) : BitVec w :=
  (Crc.shift g)^[b] (crc ^^^ (word.setWidth w <<< (w - b)))

def checksum (g : BitVec w) (p : Nat → BitVec b) (n : Nat) : BitVec w :=
  (List.range n).foldl (fun crc i => absorb g crc (p i)) 0

section Messages

variable {words error : Nat → BitVec b} {n : Nat} {c : BitVec w}

theorem message_xor :
    message (fun i => words i ^^^ error i) n = message words n + message error n := by
  induction n with
  | zero => exact (add_zero 0).symm
  | succ n induction_hypothesis =>
      rw [message, message, message, induction_hypothesis, toPoly_xor]
      ring

theorem message_congr (same : ∀ i < n, words i = error i) : message words n = message error n := by
  induction n with
  | zero => rfl
  | succ n induction_hypothesis =>
      rw [message, message, same n (Nat.lt_succ_self n),
        induction_hypothesis fun i before => same i (Nat.lt_succ_of_lt before)]

theorem coeff_message (k : Nat) :
    (message words n).coeff k = if k < b * n then ofBit (bitAt words (b * n - 1 - k)) else 0 := by
  induction n generalizing k with
  | zero => exact coeff_zero k
  | succ n induction_hypothesis =>
      rw [message, coeff_add, coeff_mul_X_pow', coeff_toPoly, Nat.mul_succ]
      by_cases low : k < b
      · have inside : k < b * n + b := by omega
        have place : b * n + b - 1 - k = b * n + (b - 1 - k) := by omega
        have bit : bitAt words (b * n + (b - 1 - k)) = (words n).getLsbD k := by
          rw [bitAt, Nat.mul_add_div (by omega), Nat.mul_add_mod, Nat.div_eq_of_lt (by omega),
            Nat.mod_eq_of_lt (by omega), Nat.add_zero, BitVec.getMsbD_eq_getLsbD]
          have index : b - 1 - (b - 1 - k) = k := by omega
          have below : b - 1 - k < b := by omega
          rw [index, decide_eq_true below, Bool.true_and]
        rw [if_neg (by omega), if_pos inside, place, bit, zero_add]
      · have high : b ≤ k := Nat.not_lt.mp low
        rw [if_pos high, induction_hypothesis, BitVec.getLsbD_of_ge _ _ high]
        by_cases inside : k - b < b * n
        · have place : b * n + b - 1 - k = b * n - 1 - (k - b) := by omega
          rw [if_pos inside, if_pos (by omega), place]
          exact add_zero _
        · rw [if_neg inside, if_neg (by omega)]
          exact add_zero _

theorem Holds.absorb {m : (ZMod 2)[X]} (fits : b ≤ w) (holds : Holds g v (m * X ^ w))
    (word : BitVec b) : Holds g (Crc.absorb g v word) ((m * X ^ b + toPoly word) * X ^ w) := by
  have entered : Holds g (v ^^^ (word.setWidth w <<< (w - b)))
      (m * X ^ w + toPoly word * X ^ (w - b)) := by
    rw [← toPoly_place word fits]
    exact holds.xor holds_self
  have power : (X : (ZMod 2)[X]) ^ w = X ^ (w - b) * X ^ b := by
    rw [← pow_add, Nat.sub_add_cancel fits]
  have product : (m * X ^ b + toPoly word) * X ^ w =
      (m * X ^ w + toPoly word * X ^ (w - b)) * X ^ b := by
    rw [power]
    ring
  rw [product]
  exact entered.shifts b

/-- The checksum holds the remainder of the message times `X ^ w`. -/
theorem checksum_holds (fits : b ≤ w) (g : BitVec w) (words : Nat → BitVec b) (n : Nat) :
    Holds g (checksum g words n) (message words n * X ^ w) := by
  induction n with
  | zero =>
      have start : Holds g 0 (toPoly 0) := holds_self
      rw [toPoly_zero] at start
      rw [message, zero_mul]
      exact start
  | succ n induction_hypothesis =>
      rw [checksum, List.range_succ, List.foldl_append]
      exact induction_hypothesis.absorb fits (words n)

theorem checksum_xor (fits : b ≤ w) :
    checksum g (fun i => words i ^^^ error i) n = checksum g words n ^^^ checksum g error n := by
  have sum := (checksum_holds fits g words n).xor (checksum_holds fits g error n)
  rw [(checksum_holds fits g _ n).eq_iff sum, message_xor, add_mul, sub_self]
  exact dvd_zero _

/-- An error in at most `w` consecutive bits of a message and its checksum changes the one against
    the other. -/
theorem burst_detected (fits : b ≤ w) (unit : g.getLsbD 0 = true) {low : Nat}
    (correct : checksum g words n = c) (change : BitVec w)
    (nonzero : message error n * X ^ w + toPoly change ≠ 0)
    (window : ∀ k, (message error n * X ^ w + toPoly change).coeff k ≠ 0 →
      low ≤ k ∧ k < low + w) :
    checksum g (fun i => words i ^^^ error i) n ≠ c ^^^ change := by
  intro passes
  have error_ := checksum_holds fits g error n
  rw [checksum_xor fits, correct, BitVec.xor_right_inj] at passes
  have divides := (error_.eq_iff holds_self).mp passes
  rw [CharTwo.sub_eq_add] at divides
  exact burst_not_dvd unit nonzero window divides

end Messages

end Crc
