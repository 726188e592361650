import Mackerel.Device.Keeps
import Mackerel.W5500.Driver

namespace Mackerel.W5500

open Bytes Device

def Known (bsb : Byte) : Prop := bsb = bsbCommon ∨ bsb = bsbS0Reg ∨ bsb = bsbS0Rx

variable {network : Network} {bsb : Byte} {nic : Nic}

theorem high_low (word : BitVec 16) : high word ++ low word = word :=
  @BitVec.extractLsb'_append_extractLsb' 8 8 word

theorem high_append (first second : Byte) : high (first ++ second) = first := by
  exact BitVec.extractLsb'_append_of_eq (k := 1) (i := 1) rfl

theorem frame_read (chip : Chip) (known : Known bsb) (addr : BitVec 16) (len : Nat) :
    chip.frame ([high addr, low addr, bsb <<< 3] ++ List.replicate len 0xFF) =
      (0 :: 0 :: 0 :: chip.reads bsb addr len, chip) := by
  have control : bsb <<< 3 &&& rwWrite = 0 ∧ bsb <<< 3 >>> 3 = bsb := by
    rcases known with rfl | rfl | rfl <;> decide
  simp only [List.cons_append, List.nil_append, Chip.frame, control.1, control.2, high_low,
    List.length_replicate]
  rfl

theorem frame_write (chip : Chip) (known : Known bsb) (addr : BitVec 16) (data : List Byte) :
    (chip.frame ([high addr, low addr, bsb <<< 3 ||| rwWrite] ++ data)).2 = chip.writes bsb addr data := by
  have control : (bsb <<< 3 ||| rwWrite) &&& rwWrite ≠ 0 ∧ (bsb <<< 3 ||| rwWrite) >>> 3 = bsb := by
    rcases known with rfl | rfl | rfl <;> decide
  simp only [List.cons_append, List.nil_append, Chip.frame, if_pos control.1, control.2, high_low]

theorem w5Read_run (known : Known bsb) (addr : BitVec 16) (len : Nat) (nic : Nic) :
    w5Read (exchange network) addr bsb len nic = ((nic.later network).chip.reads bsb addr len, nic.later network) := by
  have answer := frame_read (nic.later network).chip known addr len
  simp only [w5Read, bind_run, exchange, answer]
  rfl

theorem w5Write_run (known : Known bsb) (addr : BitVec 16) (data : List Byte) (nic : Nic) :
    w5Write (exchange network) addr bsb data nic =
      ((), { nic.later network with chip := (nic.later network).chip.writes bsb addr data }) := by
  have effect := frame_write (nic.later network).chip known addr data
  simp only [w5Write, bind_run, exchange, effect]
  rfl

theorem w5Rb_run (known : Known bsb) (addr : BitVec 16) (nic : Nic) :
    w5Rb (exchange network) addr bsb nic = ((nic.later network).chip.read bsb addr, nic.later network) := by
  simp only [w5Rb, bind_run, w5Read_run known]
  rfl

theorem w5Rw_run (known : Known bsb) (addr : BitVec 16) (nic : Nic) :
    w5Rw (exchange network) addr bsb nic =
      ((nic.later network).chip.read bsb addr ++ (nic.later network).chip.read bsb (addr + 1),
        nic.later network) := by
  simp only [w5Rw, bind_run, w5Read_run known]
  rfl

theorem rxRsr_run (nic : Nic) :
    w5Rw (exchange network) s0RxRsr bsbS0Reg nic = ((nic.later network).chip.rxRsr, nic.later network) := by
  rw [w5Rw_run (.inr (.inl rfl)), ← high_low (nic.later network).chip.rxRsr]
  rfl

theorem rxRd_run (nic : Nic) :
    w5Rw (exchange network) s0RxRd bsbS0Reg nic = ((nic.later network).chip.rxRd, nic.later network) := by
  rw [w5Rw_run (.inr (.inl rfl)), ← high_low (nic.later network).chip.rxRd]
  rfl

theorem status_run (nic : Nic) :
    w5Rb (exchange network) s0Sr bsbS0Reg nic = ((nic.later network).chip.status, nic.later network) :=
  w5Rb_run (.inr (.inl rfl)) s0Sr nic

theorem rxRd_write (v : BitVec 16) (nic : Nic) :
    w5Ww (exchange network) s0RxRd bsbS0Reg v nic =
      ((), { nic.later network with chip := { (nic.later network).chip with rxRd := v } }) := by
  rw [w5Ww, w5Write_run (.inr (.inl rfl))]
  have written : ∀ chip : Chip, chip.writes bsbS0Reg s0RxRd [high v, low v] =
      { chip with rxRd := high (high v ++ low chip.rxRd) ++ low v } := fun _ => rfl
  rw [written, high_append, high_low]

theorem command_run (cr : Byte) (nic : Nic) :
    w5Wb (exchange network) s0Cr bsbS0Reg cr nic =
      ((), { nic.later network with chip := (nic.later network).chip.command cr }) :=
  w5Write_run (.inr (.inl rfl)) s0Cr [cr] nic

end Mackerel.W5500
