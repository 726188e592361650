import Mackerel.Fat16.ReadFile

namespace Mackerel.Fat16

open Bytes

/-- The partition types of FAT16. -/
def isFat16Type (type : Byte) : Bool := type = 0x04 || type = 0x06 || type = 0x0E

/-- `e[8]` to `e[11]`, put together. -/
def startLba (mbr : Block) (e : Nat) : BitVec 32 :=
  (mbr (e + 8)).setWidth 32 ||| ((mbr (e + 9)).setWidth 32 <<< 8) |||
    ((mbr (e + 10)).setWidth 32 <<< 16) ||| ((mbr (e + 11)).setWidth 32 <<< 24)

def partitionEntry (i : Nat) : Nat := 0x1BE + i * 16

/-- The loop over the table, from entry `i` with `left` entries to go. -/
def findEntry (mbr : Block) : (left i : Nat) → Option (BitVec 32)
  | 0, _ => none
  | left + 1, i =>
      if isFat16Type (mbr (partitionEntry i + 4)) then some (startLba mbr (partitionEntry i))
      else findEntry mbr left (i + 1)

/-- `fat16_find_partition`; the result is whether it returned 0. -/
def State.fat16FindPartition (medium : Medium) (s : State) : Bool × State :=
  let (ok, mbr, s) := s.readLocal medium .bootSector 0
  if !ok then (false, s)
  else if mbr 510 ≠ 0x55 ∨ mbr 511 ≠ 0xAA then (false, s)
  else
    match findEntry mbr 4 0 with
    | none => (false, s)
    | some partLba => (true, { s with partLba })

/-- The disk has a valid partition table, and its first FAT16 partition starts at `p`. -/
structure FirstFat16 (mbr : Block) (p : BitVec 32) : Prop where
  signature : mbr 510 = 0x55 ∧ mbr 511 = 0xAA
  entry : ∃ i < 4, isFat16Type (mbr (partitionEntry i + 4)) = true ∧
    (∀ j < i, isFat16Type (mbr (partitionEntry j + 4)) = false) ∧
    mbr (partitionEntry i + 11) ++ mbr (partitionEntry i + 10) ++ mbr (partitionEntry i + 9) ++
      mbr (partitionEntry i + 8) = p

/-- Bytes shifted into their places are the bytes joined. -/
theorem shifted_eq_append (first second third fourth : Byte) :
    (first.setWidth 32 ||| second.setWidth 32 <<< 8 ||| third.setWidth 32 <<< 16 |||
      fourth.setWidth 32 <<< 24) = fourth ++ third ++ second ++ first := by
  have above (byte : Byte) {k : Nat} (far : 8 ≤ k) : byte.getLsbD k = false :=
    BitVec.getLsbD_of_ge byte k far
  apply BitVec.eq_of_getLsbD_eq
  intro i inside
  have joined : (fourth ++ third ++ second ++ first).getLsbD i =
      if i < 8 then first.getLsbD i
      else if i - 8 < 8 then second.getLsbD (i - 8)
      else if i - 8 - 8 < 8 then third.getLsbD (i - 8 - 8) else fourth.getLsbD (i - 8 - 8 - 8) := by
    rw [BitVec.getLsbD_append, BitVec.getLsbD_append, BitVec.getLsbD_append]
  refine Eq.trans ?_ joined.symm
  simp only [BitVec.getLsbD_or, BitVec.getLsbD_shiftLeft, BitVec.getLsbD_setWidth, Nat.sub_sub,
    inside, decide_true, Bool.true_and]
  split
  · rename_i low
    simp [low, show i < 16 by omega, show i < 24 by omega, -BitVec.getLsbD_eq_getElem]
  · split
    · rename_i low middle
      rw [above first (by omega)]
      simp [low, show i < 16 by omega, show i < 24 by omega, show i - 8 < 32 by omega,
        -BitVec.getLsbD_eq_getElem]
    · split
      · rename_i low middle high
        rw [above first (by omega), above second (by omega)]
        simp [show ¬i < 16 by omega, show i < 24 by omega, show i - 16 < 32 by omega,
          -BitVec.getLsbD_eq_getElem]
      · rename_i low middle high
        rw [above first (by omega), above second (by omega), above third (by omega)]
        simp [show ¬i < 24 by omega, show i - 24 < 32 by omega, -BitVec.getLsbD_eq_getElem]

theorem startLba_eq (mbr : Block) (e : Nat) :
    startLba mbr e = mbr (e + 11) ++ mbr (e + 10) ++ mbr (e + 9) ++ mbr (e + 8) :=
  shifted_eq_append _ _ _ _

theorem findEntry_iff {mbr : Block} {left i : Nat} {p : BitVec 32} :
    findEntry mbr left i = some p ↔
      ∃ k < i + left, i ≤ k ∧ isFat16Type (mbr (partitionEntry k + 4)) = true ∧
        (∀ j < k, i ≤ j → isFat16Type (mbr (partitionEntry j + 4)) = false) ∧
        startLba mbr (partitionEntry k) = p := by
  induction left generalizing i with
  | zero =>
      simp only [findEntry, reduceCtorEq, false_iff]
      rintro ⟨k, upper, lower, -⟩
      omega
  | succ left induction_hypothesis =>
      rw [findEntry]
      by_cases here : isFat16Type (mbr (partitionEntry i + 4)) = true
      · rw [if_pos here, Option.some.injEq]
        constructor
        · rintro rfl
          exact ⟨i, by omega, Nat.le_refl _, here, fun j upper lower => by omega, rfl⟩
        · rintro ⟨k, upper, lower, found, none, rfl⟩
          have first : k = i := by
            by_contra other
            have absent := none i (by omega) (Nat.le_refl _)
            exact absurd here (ne_true_of_eq_false absent)
          rw [first]
      · rw [if_neg here, induction_hypothesis]
        constructor
        · rintro ⟨k, upper, lower, found, none, start⟩
          refine ⟨k, by omega, by omega, found, ?_, start⟩
          intro j before from_
          by_cases same : j = i
          · rw [same]
            exact Bool.eq_false_iff.mpr here
          · exact none j before (by omega)
        · rintro ⟨k, upper, lower, found, none, start⟩
          have other : k ≠ i := by
            rintro rfl
            exact here found
          exact ⟨k, by omega, by omega, found, fun j before from_ => none j before (by omega), start⟩

theorem firstFat16_iff {mbr : Block} {p : BitVec 32} :
    FirstFat16 mbr p ↔ ¬(mbr 510 ≠ 0x55 ∨ mbr 511 ≠ 0xAA) ∧ findEntry mbr 4 0 = some p := by
  rw [findEntry_iff, not_or, not_not, not_not]
  constructor
  · rintro ⟨signature, i, inside, found, none, start⟩
    exact ⟨signature, i, by omega, Nat.zero_le _, found, fun j before _ => none j before,
      (startLba_eq mbr _).trans start⟩
  · rintro ⟨signature, i, inside, -, found, none, start⟩
    exact ⟨signature, i, by omega, found, fun j before => none j before (Nat.zero_le _),
      (startLba_eq mbr _).symm.trans start⟩

theorem FirstFat16.congr {first second : Block} {p : BitVec 32}
    (same : ∀ i, i < 512 → first i = second i) (partition : FirstFat16 first p) :
    FirstFat16 second p := by
  obtain ⟨signature, i, inside, found, none, start⟩ := partition
  have byte (j k : Nat) (table : j < 4) (entry : k < 16) :
      first (partitionEntry j + k) = second (partitionEntry j + k) := by
    apply same
    unfold partitionEntry
    omega
  refine ⟨?_, i, inside, ?_, ?_, ?_⟩
  · rw [← same 510 (by omega), ← same 511 (by omega)]
    exact signature
  · rw [← byte i 4 inside (by omega)]
    exact found
  · intro j before
    rw [← byte j 4 (by omega) (by omega)]
    exact none j before
  · rw [← byte i 8 inside (by omega), ← byte i 9 inside (by omega),
      ← byte i 10 inside (by omega), ← byte i 11 inside (by omega)]
    exact start

/-- The function finds the first FAT16 partition and no other. -/
theorem fat16FindPartition_iff (medium : Medium) (s : State)
    (delivered : medium.faults s.reads.length = none) (p : BitVec 32) :
    (∃ after, s.fat16FindPartition medium = (true, after) ∧ after.partLba = p) ↔
      FirstFat16 (medium.disk 0) p := by
  have present (i : Nat) (inside : i < 512) :
      medium.disk.transfer none 0 1 (medium.stale s.reads.length) i = medium.disk 0 i := by
    rw [Disk.transfer_ok (by omega), Nat.div_eq_of_lt inside, Nat.mod_eq_of_lt inside]
  have parsed : FirstFat16 (medium.disk 0) p ↔
      FirstFat16 (medium.disk.transfer none 0 1 (medium.stale s.reads.length)) p :=
    ⟨.congr fun i inside => (present i inside).symm, .congr present⟩
  rw [parsed, firstFat16_iff, State.fat16FindPartition, State.readLocal, delivered]
  dsimp only
  rw [Option.isNone_none, Bool.not_true, if_neg Bool.false_ne_true]
  generalize medium.disk.transfer none 0 1 (medium.stale s.reads.length) = mbr
  by_cases signature : mbr 510 ≠ 0x55 ∨ mbr 511 ≠ 0xAA
  · rw [if_pos signature]
    constructor
    · rintro ⟨after, none, -⟩
      cases none
    · rintro ⟨valid, -⟩
      exact absurd signature valid
  · rw [if_neg signature]
    cases findEntry mbr 4 0 with
    | none =>
        constructor
        · rintro ⟨after, none, -⟩
          cases none
        · rintro ⟨-, found⟩
          cases found
    | some partLba =>
        constructor
        · rintro ⟨after, found, rfl⟩
          cases found
          exact ⟨signature, rfl⟩
        · rintro ⟨-, found⟩
          exact ⟨_, rfl, Option.some.inj found⟩

end Mackerel.Fat16
