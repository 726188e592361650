import Mackerel.Sdram.Bus
import Mackerel.Sdram.Core

namespace Mackerel.Sdram

/-! The 8 MB memory that the 68000 is meant to see: bytes, with the byte at the even
address on D15-8. -/

def bigEndianWord (cells : Cells) (addr : WordAddress) : BitVec 16 :=
  cells (addr ++ 0#1) ++ cells (addr ++ 1#1)

namespace Bus

def store (cells : Cells) (bus : Bus) : Cells :=
  if bus.rwn then cells
  else
    let cells :=
      if bus.udsn then cells
      else Function.update cells (bus.addr ++ 0#1) (bus.wdata.extractLsb' 8 8)
    if bus.ldsn then cells
    else Function.update cells (bus.addr ++ 1#1) (bus.wdata.extractLsb' 0 8)

/-- The byte commands that a bus cycle asks of the core, in their order. -/
def commands (bus : Bus) : List Command :=
  if bus.rwn then [.rd (bus.addr ++ 0#1)]
  else
    (if bus.udsn then [] else [.wr (bus.addr ++ 0#1) (bus.wdata.extractLsb' 8 8)]) ++
    (if bus.ldsn then [] else [.wr (bus.addr ++ 1#1) (bus.wdata.extractLsb' 0 8)])

theorem foldl_commands (cells : Cells) (bus : Bus) :
    bus.commands.foldl Command.apply cells = bus.store cells := by
  unfold commands store
  cases bus.rwn <;> cases bus.udsn <;> cases bus.ldsn <;> rfl

end Bus

theorem lineOf_even (addr : WordAddress) : (addr ++ 0#1).extractLsb' 2 21 = lineOf addr := by
  ext bit bound
  simp only [lineOf, BitVec.getElem_extractLsb', BitVec.getLsbD_append]
  have shift : 2 + bit - 1 = 1 + bit := by omega
  simp [shift]

theorem byteAddress_split (addr : WordAddress) (low : BitVec 1) :
    addr ++ low = lineOf addr ++ (BitVec.ofBool (wordSelect addr) ++ low) := by
  ext bit bound
  simp only [lineOf, wordSelect, BitVec.getElem_append, BitVec.getElem_extractLsb']
  rcases bit with _ | _ | bit
  · simp
  · simp
  · have shift : bit + 2 - 1 = 1 + bit := by omega
    have high : ¬ bit + 1 + 1 < 2 := by omega
    simp [shift, high, BitVec.getLsbD_eq_getElem (show 1 + bit < 22 by omega)]

/-- The word that the adapter picks out of an aligned 32-bit word is the big-endian one. -/
theorem wordOf_alignedWord (cells : Cells) (addr : WordAddress) :
    wordOf (alignedWord cells (lineOf addr)) (wordSelect addr) = bigEndianWord cells addr := by
  rw [bigEndianWord, byteAddress_split addr 0#1, byteAddress_split addr 1#1]
  cases wordSelect addr with
  | true => exact (wordOf_bytes _ _ _ _).1
  | false => exact (wordOf_bytes _ _ _ _).2

end Mackerel.Sdram
