import Mackerel.Ymodem.Sender

namespace Mackerel.Ymodem

open Bytes Serial

/-- The bytes of a text from index `i` on. -/
def Spells (blk : Block) (i : Nat) : List Byte → Prop
  | [] => True
  | byte :: rest => blk i = byte ∧ Spells blk (i + 1) rest

variable {blk : Block}

theorem spells_append {i : Nat} {first second : List Byte} :
    Spells blk i (first ++ second) ↔ Spells blk i first ∧ Spells blk (i + first.length) second := by
  induction first generalizing i with
  | nil => simp [Spells]
  | cons byte first induction_hypothesis =>
      rw [List.cons_append, Spells, Spells, induction_hypothesis, List.length_cons, and_assoc,
        Nat.add_right_comm, Nat.add_assoc]

theorem spells_overlay (payload : List Byte) (i : Nat) (blk : Block) :
    Spells (overlay i payload blk) i payload := by
  induction payload generalizing i blk with
  | nil => trivial
  | cons byte payload induction_hypothesis =>
      refine ⟨by simp [overlay], ?_⟩
      rw [← overlay_cons]
      exact induction_hypothesis (i + 1) _

theorem Spells.getElem {i k : Nat} {text : List Byte} (spells : Spells blk i text)
    (inside : k < text.length) : blk (i + k) = text[k] := by
  induction text generalizing i k with
  | nil => cases inside
  | cons byte rest induction_hypothesis =>
      cases k with
      | zero => exact spells.1
      | succ k =>
          have later := induction_hypothesis spells.2 (Nat.lt_of_succ_lt_succ inside)
          rw [Nat.add_right_comm] at later
          exact later

theorem spells_of_getElem {i : Nat} {text : List Byte}
    (same : ∀ k, (inside : k < text.length) → blk (i + k) = text[k]) : Spells blk i text := by
  induction text generalizing i with
  | nil => trivial
  | cons byte rest induction_hypothesis =>
      refine ⟨same 0 (Nat.succ_pos _), induction_hypothesis ?_⟩
      intro k inside
      rw [Nat.add_right_comm]
      exact same (k + 1) (Nat.succ_lt_succ inside)

theorem nameEnd_spells {left i : Nat} {name : List Byte} (spells : Spells blk i (name ++ [0]))
    (nonzero : ∀ byte ∈ name, byte ≠ 0) (fits : name.length ≤ left) :
    nameEnd blk left i = i + name.length := by
  induction name generalizing left i with
  | nil =>
      cases left with
      | zero => rfl
      | succ left => exact if_pos spells.1
  | cons byte name induction_hypothesis =>
      cases left with
      | zero => cases fits
      | succ left =>
          rw [nameEnd, spells.1, if_neg (nonzero byte List.mem_cons_self),
            induction_hypothesis spells.2 (fun other member => nonzero other (List.mem_cons_of_mem _ member))
              (Nat.le_of_succ_le_succ fits), List.length_cons]
          omega

def isDigit (byte : Byte) : Prop := 0x30 ≤ byte ∧ byte ≤ 0x39

/-- The number that decimal digits write, after a value read so far. -/
def decimal (value : Nat) (digits : List Byte) : Nat :=
  digits.foldl (fun value digit => value * 10 + (digit.toNat - 0x30)) value

theorem le_decimal (value : Nat) (digits : List Byte) : value ≤ decimal value digits := by
  induction digits generalizing value with
  | nil => exact Nat.le_refl _
  | cons digit digits induction_hypothesis =>
      have further := induction_hypothesis (value * 10 + (digit.toNat - 0x30))
      unfold decimal at further ⊢
      rw [List.foldl_cons]
      omega

theorem readSize_spells {left j value : Nat} {digits : List Byte}
    (spells : Spells blk j (digits ++ [0])) (decimals : ∀ digit ∈ digits, isDigit digit)
    (fits : digits.length < left) (word : decimal value digits < 2 ^ 32) :
    readSize blk left j value = some (decimal value digits) := by
  induction digits generalizing left j value with
  | nil =>
      obtain ⟨left, rfl⟩ := Nat.exists_eq_succ_of_ne_zero (by omega : left ≠ 0)
      rw [readSize, spells.1, if_neg (by decide)]
      rfl
  | cons digit digits induction_hypothesis =>
      obtain ⟨left, rfl⟩ := Nat.exists_eq_succ_of_ne_zero (by omega : left ≠ 0)
      have digitIs : 0x30 ≤ digit ∧ digit ≤ 0x39 := decimals digit List.mem_cons_self
      have low : 0x30 ≤ digit.toNat := BitVec.le_def.mp digitIs.1
      have next : u32 (value * 10 + (digit.toNat - 0x30)) = value * 10 + (digit.toNat - 0x30) := by
        have bound := le_decimal (value * 10 + (digit.toNat - 0x30)) digits
        change _ ≤ decimal value (digit :: digits) at bound
        unfold u32
        omega
      rw [readSize, spells.1, if_pos digitIs, next]
      exact induction_hypothesis spells.2 (fun other member => decimals other (List.mem_cons_of_mem _ member))
        (by rw [List.length_cons] at fits; omega) word

/-- A header for a file: a name, a zero, the size in decimal and zeros. -/
structure Header where
  name : List Byte
  digits : List Byte
  payload : List Byte
  named : name ≠ []
  nameShort : name.length < 100
  nameNonzero : ∀ byte ∈ name, byte ≠ 0
  sizeWritten : digits ≠ []
  decimals : ∀ digit ∈ digits, isDigit digit
  sizeWord : decimal 0 digits < 2 ^ 32
  sized : BlockSized payload
  text : name ++ [0] ++ (digits ++ [0]) <+: payload

namespace Header

variable (header : Header)

def size : Nat := decimal 0 header.digits

theorem length_le : header.name.length + 1 + header.digits.length + 1 ≤ 1024 := by
  have prefix_ := header.text.length_le
  have sized := header.sized
  unfold BlockSized at sized
  simp only [List.length_append, List.length_cons, List.length_nil] at prefix_
  omega

/-- The first digit ends the spaces before the size. -/
theorem skipSpaces_digits {left j : Nat} (spells : Spells blk j header.digits) (more : 0 < left) :
    skipSpaces blk left j = some j := by
  obtain ⟨left, rfl⟩ := Nat.exists_eq_succ_of_ne_zero (by omega : left ≠ 0)
  obtain ⟨digit, digits, shape⟩ := List.exists_cons_of_ne_nil header.sizeWritten
  have digitIs := (header.decimals digit (by rw [shape]; exact List.mem_cons_self)).1
  rw [shape] at spells
  have notSpace : digit ≠ 0x20 := by
    rintro rfl
    exact absurd digitIs (by decide)
  rw [skipSpaces, spells.1, if_neg notSpace]

def accept (r : Receiver) : Receiver :=
  ({ r with
      name := fun k =>
        if k < header.name.length then r.blk k
        else if k = header.name.length then 0 else r.name k
      fsize := header.size, haveHeader := true, expect := 1 }.putc ack).putc crcC

theorem accepted {r : Receiver} (holding : Spells r.blk 0 header.payload) (fresh : r.fsize = 0) :
    acceptHeader r = .next (header.accept r) := by
  have length := header.length_le
  obtain ⟨zeros, split⟩ := header.text
  rw [← split] at holding
  obtain ⟨nameText, sizeText⟩ := spells_append.mp (spells_append.mp holding).1
  rw [List.length_append, List.length_singleton, Nat.zero_add] at sizeText
  have digitText := (spells_append.mp sizeText).1
  have first : r.blk 0 ≠ 0 := by
    obtain ⟨byte, name, shape⟩ := List.exists_cons_of_ne_nil header.named
    rw [shape] at nameText
    rw [nameText.1]
    exact header.nameNonzero byte (by rw [shape]; exact List.mem_cons_self)
  have ending : nameEnd r.blk 100 0 = header.name.length := by
    rw [nameEnd_spells nameText header.nameNonzero (Nat.le_of_lt header.nameShort), Nat.zero_add]
  unfold acceptHeader
  rw [if_neg first]
  dsimp only
  rw [ending, header.skipSpaces_digits digitText (by omega)]
  dsimp only
  rw [fresh, readSize_spells sizeText header.decimals (by omega) header.sizeWord]
  rfl

theorem arrives {r : Receiver} (dest : Buffer) (haveHeader : r.haveHeader = false)
    (trailer : r.trailer = false) (expect : r.expect = 0) (fsize : r.fsize = 0) :
    acceptBlock dest 0 header.payload.length (r.holding header.payload) =
      .next (header.accept (r.holding header.payload)) := by
  have holding : Spells (r.holding header.payload).blk 0 header.payload := spells_overlay _ 0 _
  rw [← header.accepted holding fsize]
  unfold acceptBlock
  have expected : (0 : Byte) = (r.holding header.payload).expect := expect.symm
  have notTrailing : ¬(r.holding header.payload).trailer = true := Bool.eq_false_iff.mp trailer
  have fresh : (!(r.holding header.payload).haveHeader) = true := by
    change (!r.haveHeader) = true
    rw [haveHeader]
    rfl
  rw [if_pos expected, if_neg notTrailing, if_pos fresh]

theorem accept_name {r : Receiver} (holding : Spells r.blk 0 header.payload) :
    Spells (header.accept r).name 0 (header.name ++ [0]) := by
  obtain ⟨zeros, split⟩ := header.text
  rw [← split] at holding
  have nameText := (spells_append.mp (spells_append.mp holding).1).1
  apply spells_of_getElem
  intro k inside
  have text := nameText.getElem inside
  rw [List.length_append, List.length_singleton] at inside
  rw [← text, Nat.zero_add]
  change (if k < header.name.length then r.blk k
    else if k = header.name.length then 0 else r.name k) = r.blk k
  by_cases short : k < header.name.length
  · rw [if_pos short]
  · have ending : k = header.name.length := by omega
    rw [if_neg short, if_pos ending, ending]
    have zero := (spells_append.mp nameText).2.1
    rw [Nat.zero_add] at zero
    exact zero.symm

end Header

def fiveBytes : Header where
  name := [0x41]
  digits := [0x35]
  payload := padded [0x41, 0, 0x35] 128
  named := by simp
  nameShort := by decide
  nameNonzero := by decide
  sizeWritten := by simp
  decimals digit member := by
    rw [List.mem_singleton.mp member]
    exact ⟨by decide, by decide⟩
  sizeWord := by decide
  sized := .inl rfl
  text := ⟨List.replicate 124 0, rfl⟩

theorem page_room : 4096 + 1024 ≤ 2 ^ 32 := by decide

end Mackerel.Ymodem
