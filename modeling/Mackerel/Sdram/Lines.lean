import Mathlib.Tactic.Common

namespace Mackerel.Sdram

/-! Word addresses `addr[22:1]`, the 32-bit lines that hold two words each, and
the byte order in which the adapter and the cache read a word out of a line. -/

/-- `addr[22:1]`; bit 0 of the vector is the address bit 1. -/
abbrev WordAddress := BitVec 22

/-- `addr[22:2]`, the number of a 32-bit line. -/
abbrev Line := BitVec 21

abbrev Lines := Line → BitVec 32

/-- `addr[1]`: which word of its line. -/
def wordSelect (addr : WordAddress) : Bool := addr.getLsbD 0

/-- `addr[10:2]`. -/
def cacheIndex (addr : WordAddress) : BitVec 9 := addr.extractLsb' 1 9

/-- `addr[22:11]`. -/
def cacheTag (addr : WordAddress) : BitVec 12 := addr.extractLsb' 10 12

def lineOf (addr : WordAddress) : Line := addr.extractLsb' 1 21

/-- The line that a tag and an index name together. -/
def lineAt (tag : BitVec 12) (index : BitVec 9) : Line := tag ++ index

@[simp] theorem lineAt_split (addr : WordAddress) :
    lineAt (cacheTag addr) (cacheIndex addr) = lineOf addr :=
  BitVec.extractLsb'_append_extractLsb'_eq_extractLsb' rfl

theorem lineAt_index {tag other : BitVec 12} {index second : BitVec 9}
    (same : lineAt tag index = lineAt other second) : index = second := by
  have low := congrArg (BitVec.extractLsb' 0 9) same
  simpa only [lineAt, BitVec.extractLsb'_append_eq_right] using low

/-- The addressed word of a line, as `sdram_controller` and `sdram_cache` both assemble it:
    the byte at the lower address is the high byte of the word. -/
def wordOf (line : BitVec 32) (select : Bool) : BitVec 16 :=
  if select then line.extractLsb' 16 8 ++ line.extractLsb' 24 8
  else line.extractLsb' 0 8 ++ line.extractLsb' 8 8

/-- A byte or word write into a line: `udsn` stores D15-8 in the even byte of the
    selected word, `ldsn` stores D7-0 in the odd one. -/
def storeWord (line : BitVec 32) (select udsn ldsn : Bool) (wdata : BitVec 16) : BitVec 32 :=
  let even := wdata.extractLsb' 8 8
  let odd := wdata.extractLsb' 0 8
  (if select && !ldsn then odd else line.extractLsb' 24 8) ++
    (if select && !udsn then even else line.extractLsb' 16 8) ++
    (if !select && !ldsn then odd else line.extractLsb' 8 8) ++
    (if !select && !udsn then even else line.extractLsb' 0 8)

theorem wordOf_bytes (first second third fourth : BitVec 8) :
    wordOf (first ++ second ++ third ++ fourth) true = second ++ first ∧
      wordOf (first ++ second ++ third ++ fourth) false = fourth ++ third := by
  have upper {start : Nat} (behind : 16 ≤ start) :
      BitVec.extractLsb' start 8 (first ++ second ++ third ++ fourth) =
        BitVec.extractLsb' (start - 8 - 8) 8 (first ++ second) := by
    rw [BitVec.extractLsb'_append_eq_of_le (by omega), BitVec.extractLsb'_append_eq_of_le (by omega)]
  have fourthByte : BitVec.extractLsb' 0 8 (first ++ second ++ third ++ fourth) = fourth :=
    BitVec.extractLsb'_append_eq_right
  have thirdByte : BitVec.extractLsb' 8 8 (first ++ second ++ third ++ fourth) = third := by
    rw [BitVec.extractLsb'_append_eq_of_le (Nat.le_refl 8)]
    exact BitVec.extractLsb'_append_eq_right
  have secondByte : BitVec.extractLsb' 16 8 (first ++ second ++ third ++ fourth) = second :=
    (upper (by decide)).trans BitVec.extractLsb'_append_eq_right
  have firstByte : BitVec.extractLsb' 24 8 (first ++ second ++ third ++ fourth) = first :=
    (upper (by decide)).trans BitVec.extractLsb'_append_eq_left
  constructor
  · exact congrArg₂ (· ++ ·) secondByte firstByte
  · exact congrArg₂ (· ++ ·) fourthByte thirdByte

end Mackerel.Sdram
