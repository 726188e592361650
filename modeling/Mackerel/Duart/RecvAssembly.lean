import Mackerel.Duart.BitBang

namespace Mackerel.Duart

open Bytes Device

/-- The masks of the last lines of the portable version. -/
def masks : Nat → List Byte
  | 0 => []
  | turns + 1 => pinMask turns :: masks turns

def shifted (r value : Byte) : Byte := (r <<< 1) ||| (if value.getLsbD 4 then 1 else 0)

theorem exec_recvLine (rest : List Instruction) (r tmp : Byte) (x : Bool) :
    exec (recvLine ++ rest) { r := r, tmp := tmp, sclk := 8, x := x } = (do
      write_oprReset 8
      let value ← read_ip
      write_opr 8
      exec rest { r := shifted r value, tmp := value >>> 5, sclk := 8, x := r.getLsbD 7 }) := rfl

theorem spi_recv_line (mask : Byte) (masks : List Byte) (b : Byte) :
    spi_recv_lines (mask :: masks) b = (do
      write_oprReset 8
      let value ← read_ip
      write_opr 8
      spi_recv_lines masks (if value &&& pinMask MISO ≠ 0 then b ||| mask else b)) := rfl

theorem miso_ne_zero (value : Byte) : value &&& pinMask MISO ≠ 0 ↔ value.getLsbD 4 = true := by
  have mask : pinMask MISO = 0x10#8 := rfl
  rw [mask]
  revert value
  decide +kernel

/-- The shifted result and the masked one agree when the turns that are left are done. -/
theorem shifted_shiftLeft (r value : Byte) (turns : Nat) :
    shifted r value <<< turns = if value &&& pinMask MISO ≠ 0 then (r <<< (turns + 1)) ||| pinMask turns
      else r <<< (turns + 1) := by
  have shifts : r <<< 1 <<< turns = r <<< (turns + 1) := by
    rw [← BitVec.shiftLeft_add, Nat.add_comm]
  by_cases high : value.getLsbD 4 = true
  · rw [if_pos ((miso_ne_zero value).mpr high), shifted, if_pos high, BitVec.shiftLeft_or_distrib, shifts]
    rfl
  · rw [if_neg (mt (miso_ne_zero value).mp high), shifted, if_neg high, show r <<< 1 ||| (0 : Byte) = r <<< 1 by simp,
      shifts]

theorem exec_lines (turns : Nat) (r tmp : Byte) (x : Bool) :
    (do let regs ← exec (List.replicate turns recvLine).flatten { r := r, tmp := tmp, sclk := 8, x := x }
        pure regs.r) = spi_recv_lines (masks turns) (r <<< turns) := by
  induction turns generalizing r tmp x with
  | zero =>
      rw [BitVec.shiftLeft_zero]
      rfl
  | succ turns ih =>
      rw [List.replicate_succ, List.flatten_cons, exec_recvLine, masks, spi_recv_line]
      refine congrArg (Program.call (Access.oprReset 8)) (funext fun _ => ?_)
      refine congrArg (Program.call Access.ip) (funext fun value => ?_)
      refine congrArg (Program.call (Access.opr 8)) (funext fun _ => ?_)
      have later := ih (shifted r value) (value >>> 5) (r.getLsbD 7)
      rw [shifted_shiftLeft] at later
      exact later

theorem exec_moveq (rest : List Instruction) (r tmp : Byte) (x : Bool) :
    exec (.moveq_r 0 :: rest) { r := r, tmp := tmp, sclk := 8, x := x } =
      exec rest { r := 0, tmp := tmp, sclk := 8, x := x } := rfl

theorem spi_recv_asm_eq (r tmp : Byte) (x : Bool) : spi_recv_asm r tmp x = spi_recv := by
  have lines := exec_lines 8 0 tmp x
  have eight : masks 8 = [0x80, 0x40, 0x20, 0x10, 0x08, 0x04, 0x02, 0x01] := rfl
  have empty : (0 : Byte) <<< 8 = 0 := rfl
  rw [empty, eight] at lines
  rw [spi_recv_asm, recvAsm, exec_moveq, lines, spi_recv]

/-- In the hands of any DUART the two versions of `spi_recv` are one: the same result and the
    same state behind it, from any contents of the registers. -/
theorem spi_recv_versions_agree {σ : Type} (duart : Handler Access Access.Result σ) (state : σ)
    (r tmp : Byte) (x : Bool) :
    (spi_recv_asm r tmp x).run duart state = spi_recv.run duart state := by
  rw [spi_recv_asm_eq]

end Mackerel.Duart
