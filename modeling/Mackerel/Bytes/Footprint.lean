import Mackerel.Bytes.Memory

namespace Bytes

/-- What a run of stores leaves at each address, or `none` where it writes nothing. -/
abbrev Footprint (w : Nat) := BitVec w → Option Byte

namespace Footprint

open Memory

variable {w : Nat} {base addr : BitVec w} {start stop finish count i : Nat} {bytes other : Block}
  {memory : Memory w} {written first second : Footprint w}

def empty : Footprint w := fun _ => none

def ofStore (base : BitVec w) (count : Nat) (bytes : Block) : Footprint w := fun addr =>
  if offset base addr < count then some (bytes (offset base addr)) else none

def andThen (first second : Footprint w) : Footprint w := fun addr => (second addr).or (first addr)

def apply (written : Footprint w) (memory : Memory w) : Memory w := fun addr =>
  (written addr).getD (memory addr)

theorem apply_empty : (empty : Footprint w).apply memory = memory := rfl

theorem apply_andThen : (first.andThen second).apply memory = second.apply (first.apply memory) := by
  funext addr
  unfold apply andThen
  cases second addr with
  | none => rfl
  | some byte => rfl

theorem store_eq_apply (same : ∀ i < count, bytes i = other i) :
    memory.store base count bytes = (ofStore base count other).apply memory := by
  funext addr
  unfold store apply ofStore
  by_cases inside : offset base addr < count
  · rw [if_pos inside, if_pos inside, same _ inside]
    rfl
  · rw [if_neg inside, if_neg inside]
    rfl

theorem ofStore_congr (same : ∀ i < count, bytes i = other i) :
    ofStore base count bytes = ofStore base count other := by
  funext addr
  unfold ofStore
  by_cases inside : offset base addr < count
  · rw [if_pos inside, if_pos inside, same _ inside]
  · rw [if_neg inside, if_neg inside]

theorem apply_of_none (untouched : written addr = none) : written.apply memory addr = memory addr := by
  rw [apply, untouched]
  rfl

theorem isSome_andThen :
    (first.andThen second addr).isSome = ((second addr).isSome || (first addr).isSome) :=
  Option.isSome_or

/-- Nothing is written outside the offsets from `start` to `stop`. -/
def Within (written : Footprint w) (base : BitVec w) (start stop : Nat) : Prop :=
  ∀ addr, (written addr).isSome → start ≤ offset base addr ∧ offset base addr < stop

/-- Every byte at an offset from `start` to `stop` is written. -/
def Covers (written : Footprint w) (base : BitVec w) (start stop : Nat) : Prop :=
  ∀ addr, start ≤ offset base addr → offset base addr < stop → (written addr).isSome

theorem within_empty : (empty : Footprint w).Within base start stop := by
  intro addr touched
  cases touched

theorem Within.mono {low high : Nat} (inside : written.Within base start stop) (lower : low ≤ start)
    (upper : stop ≤ high) : written.Within base low high := by
  intro addr touched
  have bounds := inside addr touched
  exact ⟨by omega, by omega⟩

theorem Within.andThen (early : first.Within base start stop)
    (late : second.Within base start stop) : (first.andThen second).Within base start stop := by
  intro addr touched
  rw [isSome_andThen, Bool.or_eq_true] at touched
  rcases touched with touched | touched
  · exact late addr touched
  · exact early addr touched

theorem Within.untouched (inside : written.Within base start stop)
    (outside : offset base addr < start ∨ stop ≤ offset base addr) : written addr = none := by
  rw [← Option.not_isSome_iff_eq_none]
  intro touched
  have bounds := inside addr touched
  omega

theorem Covers.andThen (early : first.Covers base start stop)
    (late : second.Covers base stop finish) : (first.andThen second).Covers base start finish := by
  intro addr low high
  rw [isSome_andThen, Bool.or_eq_true]
  by_cases below : offset base addr < stop
  · exact .inr (early addr low below)
  · exact .inl (late addr (by omega) high)

theorem covers_empty (nothing : stop ≤ start) : (empty : Footprint w).Covers base start stop := by
  intro addr low high
  omega

theorem ofStore_isSome : (ofStore base count bytes addr).isSome ↔ offset base addr < count := by
  unfold ofStore
  split <;> simp [*]

/-- The offset of an address from the start of a store inside a larger block. -/
theorem offset_from (low : start ≤ offset base addr) :
    offset (base + BitVec.ofNat w start) addr = offset base addr - start := by
  have top : offset base addr < 2 ^ w := offset_lt
  have regroup : addr - (base + BitVec.ofNat w start) = addr - base - BitVec.ofNat w start :=
    (BitVec.sub_sub _ _ _).symm
  have small : start % 2 ^ w = start := Nat.mod_eq_of_lt (by omega)
  have wraps : 2 ^ w - start + offset base addr = offset base addr - start + 2 ^ w := by omega
  rw [offset, regroup, BitVec.toNat_sub, BitVec.toNat_ofNat, small]
  change (2 ^ w - start + offset base addr) % 2 ^ w = _
  rw [wraps, Nat.add_mod_right, Nat.mod_eq_of_lt (by omega)]

theorem ofStore_within (fits : start + count ≤ 2 ^ w) :
    (ofStore (base + BitVec.ofNat w start) count bytes).Within base start (start + count) := by
  intro addr touched
  have placed := store_at (fun _ => 0) base addr (fun _ => 1) fits
  rw [store_inside (ofStore_isSome.mp touched)] at placed
  by_contra outside
  rw [if_neg outside] at placed
  exact absurd placed (by decide)

theorem ofStore_covers :
    (ofStore (base + BitVec.ofNat w start) count bytes).Covers base start (start + count) := by
  intro addr low high
  rw [ofStore_isSome, offset_from low]
  omega

end Footprint

end Bytes
