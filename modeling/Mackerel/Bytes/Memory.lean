import Mathlib.Algebra.Group.Int.Defs
import Mathlib.Algebra.Group.Nat.Defs
import Mathlib.Data.List.GetD
import Mathlib.Tactic.Common

/-! Byte-addressed memory of one address width, with addresses that wrap, and stores of
whole blocks. -/

namespace Bytes

abbrev Byte := BitVec 8

/-- Bytes by their offset; used for a block of any length. -/
abbrev Block := Nat → Byte

abbrev Memory (w : Nat) := BitVec w → Byte

namespace Memory

variable {w : Nat}

/-- The distance from one address up to another. -/
def offset (base addr : BitVec w) : Nat := (addr - base).toNat

def store (memory : Memory w) (base : BitVec w) (count : Nat) (bytes : Block) : Memory w :=
  fun addr => if offset base addr < count then bytes (offset base addr) else memory addr

def load (memory : Memory w) (base : BitVec w) : Block := fun i => memory (base + BitVec.ofNat w i)

variable {memory : Memory w} {base addr : BitVec w} {count i : Nat} {bytes : Block}

theorem offset_lt : offset base addr < 2 ^ w := (addr - base).isLt

theorem offset_add (base : BitVec w) (bound : i < 2 ^ w) : offset base (base + BitVec.ofNat w i) = i := by
  have cancel : base + BitVec.ofNat w i - base = BitVec.ofNat w i := by
    rw [BitVec.add_comm, BitVec.add_sub_cancel]
  rw [offset, cancel, BitVec.toNat_ofNat, Nat.mod_eq_of_lt bound]

theorem store_inside (inside : offset base addr < count) :
    memory.store base count bytes addr = bytes (offset base addr) :=
  if_pos inside

theorem store_outside (outside : count ≤ offset base addr) :
    memory.store base count bytes addr = memory addr :=
  if_neg (Nat.not_lt.mpr outside)

/-- A store inside a larger block, by the offsets of that block. -/
theorem store_at (memory : Memory w) (base addr : BitVec w) (bytes : Block) {start : Nat}
    (fits : start + count ≤ 2 ^ w) :
    memory.store (base + BitVec.ofNat w start) count bytes addr =
      if start ≤ offset base addr ∧ offset base addr < start + count then
        bytes (offset base addr - start)
      else memory addr := by
  have top : offset base addr < 2 ^ w := offset_lt
  have place : offset (base + BitVec.ofNat w start) addr =
      (2 ^ w - start % 2 ^ w + offset base addr) % 2 ^ w := by
    have regroup : addr - (base + BitVec.ofNat w start) = addr - base - BitVec.ofNat w start :=
      (BitVec.sub_sub _ _ _).symm
    rw [offset, regroup, BitVec.toNat_sub, BitVec.toNat_ofNat, offset]
  by_cases empty : count = 0
  · subst empty
    rw [store_outside (Nat.zero_le _), if_neg (by omega)]
  · have small : start % 2 ^ w = start := Nat.mod_eq_of_lt (by omega)
    rw [small] at place
    by_cases low : start ≤ offset base addr
    · have wraps : 2 ^ w - start + offset base addr = offset base addr - start + 2 ^ w := by omega
      rw [wraps, Nat.add_mod_right, Nat.mod_eq_of_lt (by omega)] at place
      by_cases high : offset base addr < start + count
      · rw [if_pos ⟨low, high⟩, store_inside (by omega), place]
      · rw [if_neg (by omega), store_outside (by omega)]
    · rw [Nat.mod_eq_of_lt (by omega)] at place
      rw [if_neg (by omega), store_outside (by omega)]

/-- A store behind another one is one store. -/
theorem store_append {first second : Nat} {later : Block} (fits : first + second ≤ 2 ^ w) :
    (memory.store base first bytes).store (base + BitVec.ofNat w first) second later =
      memory.store base (first + second) fun i => if i < first then bytes i else later (i - first) := by
  funext addr
  rw [store_at _ _ _ _ fits]
  by_cases low : offset base addr < first
  · rw [if_neg (by omega), store_inside low, store_inside (by omega), if_pos low]
  · by_cases high : offset base addr < first + second
    · rw [if_pos (by omega), store_inside high, if_neg low]
    · rw [if_neg (by omega), store_outside (by omega), store_outside (by omega)]

def ofList (bytes : List Byte) : Block := fun i => bytes.getD i 0

theorem ofList_append (first second : List Byte) : ofList (first ++ second) =
    fun i => if i < first.length then ofList first i else ofList second (i - first.length) := by
  funext i
  unfold ofList
  split
  case isTrue low => exact List.getD_append _ _ _ _ low
  case isFalse high => exact List.getD_append_right _ _ _ _ (Nat.le_of_not_lt high)

def storeBytes (memory : Memory w) (base : BitVec w) (bytes : List Byte) : Memory w :=
  memory.store base bytes.length (ofList bytes)

theorem storeBytes_nil : memory.storeBytes base [] = memory := by
  funext addr
  exact store_outside (Nat.zero_le _)

theorem storeBytes_append {first second : List Byte} (fits : first.length + second.length ≤ 2 ^ w) :
    (memory.storeBytes base first).storeBytes (base + BitVec.ofNat w first.length) second =
      memory.storeBytes base (first ++ second) := by
  rw [storeBytes, storeBytes, storeBytes, store_append fits, ofList_append, List.length_append]

end Memory

end Bytes
