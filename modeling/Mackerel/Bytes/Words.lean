import Mathlib.Algebra.Group.Int.Defs
import Mathlib.Algebra.Group.Nat.Defs
import Mathlib.Tactic.Common

namespace Bytes

/-- Arithmetic of `uint32_t`, on a value computed without overflow. -/
def u32 (value : Int) : Nat := (value % 2 ^ 32).toNat

theorem u32_lt (value : Int) : u32 value < 2 ^ 32 := by
  unfold u32
  omega

theorem u32_of_lt {value : Nat} (bound : value < 2 ^ 32) : u32 value = value := by
  unfold u32
  omega

/-- A `uint32_t` converted to a signed type of its width. -/
def int32 (value : Nat) : Int := (BitVec.ofNat 32 value).toInt

theorem int32_of_le {value size : Nat} (small : size < 2 ^ 31) (bound : value ≤ size) :
    int32 value = value := by
  have unsigned : (BitVec.ofNat 32 value).toNat = value := by
    rw [BitVec.toNat_ofNat, Nat.mod_eq_of_lt (by omega)]
  rw [int32, BitVec.toInt_eq_toNat_of_lt (by omega), unsigned]

theorem int32_nonnegative {value : Nat} (word : value < 2 ^ 32) (sign : 0 ≤ int32 value) :
    int32 value = value := by
  have unsigned : (BitVec.ofNat 32 value).toNat = value := by
    rw [BitVec.toNat_ofNat, Nat.mod_eq_of_lt word]
  unfold int32 at sign ⊢
  rw [BitVec.toInt_eq_toNat_cond, unsigned] at sign ⊢
  split at sign
  case isTrue small => rw [if_pos small]
  case isFalse => omega

theorem int32_injective {first second : Nat} (firstBound : first < 2 ^ 32)
    (secondBound : second < 2 ^ 32) (same : int32 first = int32 second) : first = second := by
  have words := congrArg BitVec.toNat (BitVec.eq_of_toInt_eq same)
  rw [BitVec.toNat_ofNat, BitVec.toNat_ofNat, Nat.mod_eq_of_lt firstBound,
    Nat.mod_eq_of_lt secondBound] at words
  exact words

theorem append_toNat {w : Nat} (high : BitVec w) (low : BitVec 8) :
    (high ++ low).toNat = 2 ^ 8 * high.toNat + low.toNat := by
  rw [BitVec.toNat_append, ← Nat.shiftLeft_add_eq_or_of_lt low.isLt, Nat.shiftLeft_eq, Nat.mul_comm]

theorem extract_append {w : Nat} (high : BitVec w) (low : BitVec 8) (start : Nat) :
    (high ++ low).extractLsb' (start + 8) 8 = high.extractLsb' start 8 := by
  rw [BitVec.extractLsb'_append_eq_of_le (Nat.le_add_left 8 start), Nat.add_sub_cancel]

/-- A word is made of its four bytes. -/
theorem word_of_bytes (word : BitVec 32) :
    word.extractLsb' 24 8 ++ word.extractLsb' 16 8 ++ word.extractLsb' 8 8 ++ word.extractLsb' 0 8 = word := by
  rw [BitVec.extractLsb'_append_extractLsb'_eq_extractLsb' (rfl : 24 = 16 + 8),
    BitVec.extractLsb'_append_extractLsb'_eq_extractLsb' (rfl : 16 = 8 + 8),
    BitVec.extractLsb'_append_extractLsb'_eq_extractLsb' (rfl : 8 = 0 + 8), BitVec.extractLsb'_eq_self]

end Bytes
