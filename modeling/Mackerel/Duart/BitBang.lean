import Mathlib.Data.List.Basic
import Mackerel.Bytes.Memory
import Mackerel.Device.Programs

namespace Mackerel.Duart

open Bytes Device

/-- The registers that `spi.c` uses: `DUART1_OPR_RESET` and `DUART1_OPR` are written, `DUART1_IP`
    is read. -/
inductive Access where
  | oprReset (value : Byte)
  | opr (value : Byte)
  | ip
deriving DecidableEq

abbrev Access.Result : Access → Type
  | .oprReset _ | .opr _ => Unit
  | .ip => Byte

abbrev Code := Program Access Access.Result

def write_oprReset (value : Byte) : Code Unit := Program.perform (Access.oprReset value)

def write_opr (value : Byte) : Code Unit := Program.perform (Access.opr value)

def read_ip : Code Byte := Program.perform Access.ip

def SCLK : Nat := 3
def MOSI : Nat := 2
def CS2 : Nat := 6
def MISO : Nat := 4
/-- `1 << pin`. -/
def pinMask (pin : Nat) : Byte := (1 : Byte) <<< pin

def GPIO_ON (pin : Nat) : Code Unit := write_oprReset (pinMask pin)

def GPIO_OFF (pin : Nat) : Code Unit := write_opr (pinMask pin)

def MISO_GET : Code Byte := do
  let value ← read_ip
  pure (value &&& pinMask MISO)

def spi_cs_low (cs : Nat) : Code Unit := GPIO_OFF cs

def spi_cs_high (cs : Nat) : Code Unit := GPIO_ON cs

/-- `if (b & (1 << i)) GPIO_ON(MOSI); else GPIO_OFF(MOSI);` -/
def putBit (b : Byte) (i : Nat) : Code Unit := if b &&& pinMask i ≠ 0 then GPIO_ON MOSI else GPIO_OFF MOSI

/-- The turns of the loop of `spi_byte` from bit `bits - 1` down. -/
def spi_byte_bits (b : Byte) : (bits : Nat) → Byte → Code Byte
  | 0, recv => pure recv
  | i + 1, recv => do
      putBit b i
      GPIO_ON SCLK
      let miso ← MISO_GET
      let recv := if miso ≠ 0 then recv ||| pinMask i else recv
      GPIO_OFF SCLK
      spi_byte_bits b i recv

def spi_byte (b : Byte) : Code Byte := do
  GPIO_OFF SCLK
  spi_byte_bits b 8 0

/-- One line of the portable `spi_recv` for each mask. -/
def spi_recv_lines : List Byte → Byte → Code Byte
  | [], b => pure b
  | mask :: masks, b => do
      GPIO_ON SCLK
      let miso ← MISO_GET
      let b := if miso ≠ 0 then b ||| mask else b
      GPIO_OFF SCLK
      spi_recv_lines masks b

/-- The portable `spi_recv`. -/
def spi_recv : Code Byte := spi_recv_lines [0x80, 0x40, 0x20, 0x10, 0x08, 0x04, 0x02, 0x01] 0

/-- The low bytes of the data registers that it uses, and the X flag. -/
structure Registers where
  r : Byte
  tmp : Byte
  sclk : Byte
  x : Bool

inductive Instruction where
  | moveq_r (value : Byte)
  /-- `move.b %[sclk],(%[clkhi])` -/
  | move_sclk_clkhi
  /-- `move.b (%[miso]),%[tmp]` -/
  | move_miso_tmp
  /-- `move.b %[sclk],(%[clklo])` -/
  | move_sclk_clklo
  | lsr_tmp (count : Nat)
  /-- `roxl.b #1,%[r]` -/
  | roxl_r

/-- A shift puts the last bit that it shifts out into X; a rotate through X puts X in and takes
    the bit that leaves. A move leaves X alone. -/
def Instruction.exec : Instruction → Registers → Code Registers
  | .moveq_r value, regs => pure { regs with r := value }
  | .move_sclk_clkhi, regs => do
      write_oprReset regs.sclk
      pure regs
  | .move_miso_tmp, regs => do
      let value ← read_ip
      pure { regs with tmp := value }
  | .move_sclk_clklo, regs => do
      write_opr regs.sclk
      pure regs
  | .lsr_tmp count, regs =>
      pure { regs with tmp := regs.tmp >>> count, x := regs.tmp.getLsbD (count - 1) }
  | .roxl_r, regs =>
      pure { regs with r := (regs.r <<< 1) ||| (if regs.x then 1 else 0), x := regs.r.getLsbD 7 }

def exec : List Instruction → Registers → Code Registers
  | [], regs => pure regs
  | instruction :: rest, regs => do
      let regs ← instruction.exec regs
      exec rest regs

/-- SCLK high, sample MISO, SCLK low, then shift the bit into the result. -/
def recvLine : List Instruction :=
  [.move_sclk_clkhi, .move_miso_tmp, .move_sclk_clklo, .lsr_tmp 5, .roxl_r]

/-- The line is there eight times. -/
def recvAsm : List Instruction := .moveq_r 0 :: (List.replicate 8 recvLine).flatten

/-- The function around it: `sclk` holds 8, and what the other registers hold before is unknown. -/
def spi_recv_asm (r tmp : Byte) (x : Bool) : Code Byte := do
  let regs ← exec recvAsm { r := r, tmp := tmp, sclk := 8, x := x }
  pure regs.r

end Mackerel.Duart
