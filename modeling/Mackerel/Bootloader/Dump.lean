import Mackerel.Text.CStrings

namespace Mackerel.Bootloader

open Bytes CString

/-- What `console_putc` sends for a text. -/
def wire (text : List Byte) : List Byte := text.flatMap fun c => if c = 0x0A then [0x0D, 0x0A] else [c]

/-- `term_set_color`. -/
def termSetColor (color : List Byte) : List Byte := [0x1B, 0x5B] ++ color ++ [0x6D]

def TERM_FG_GREY : List Byte := chars ['9', '0']
def TERM_RESET : List Byte := chars ['0']

/-- Byte `j` of a line. -/
def dumpByte (j : Nat) (byte : Byte) : List Byte :=
  (if byte = 0 then termSetColor TERM_FG_GREY else []) ++ hexText 2 byte.toNat ++ [0x20] ++
    termSetColor TERM_RESET ++ if j = 7 then [0x20] else []

/-- The bytes of a line from byte `j` on. -/
def dumpBytes : (j : Nat) → List Byte → List Byte
  | _, [] => []
  | j, byte :: rest => dumpByte j byte ++ dumpBytes (j + 1) rest

/-- `print_string_bin`. -/
def printStringBin (line : List Byte) : List Byte := line.map fun byte => if 32 ≤ byte ∧ byte < 127 then byte else 0x2E

def dumpLine (address : BitVec 32) (line : List Byte) : List Byte :=
  hexText 8 address.toNat ++ [0x20, 0x20] ++ dumpBytes 0 line ++ [0x20, 0x7C] ++ printStringBin line ++
    [0x7C, 0x0D, 0x0A]

section Memory

variable (memory : Memory 32) (address : BitVec 32)

/-- The inner loop: one read for each byte. -/
def lineBytes (i length : Nat) : List Byte := (List.range length).map fun j => memory (address + BitVec.ofNat 32 (i + j))

/-- The lines from byte `i` on. -/
def dumpLines (bytes i : Nat) : List Byte :=
  if i < bytes then
    dumpLine (address + BitVec.ofNat 32 i) (lineBytes memory address i (min 16 (bytes - i))) ++
      dumpLines bytes (i + min 16 (bytes - i))
  else []
termination_by bytes - i

def memdump (bytes : Nat) : List Byte := dumpLines memory address bytes 0

end Memory

/-- The text behind an escape sequence, if there is one. -/
def skipColor : List Byte → List Byte
  | 0x1B :: rest => (rest.dropWhile (· ≠ 0x6D)).tail
  | text => text

def readByte (j : Nat) (text : List Byte) : Option (Byte × List Byte) :=
  match skipColor text with
  | high :: low :: rest =>
      let behind := skipColor rest.tail
      some (BitVec.ofNat 8 (ofDigits 16 [high, low]), if j = 7 then behind.tail else behind)
  | _ => none

/-- The bytes up to the bar, from byte `j` on. -/
def readBytes : (more j : Nat) → List Byte → Option (List Byte × List Byte)
  | 0, _, text => some ([], text)
  | more + 1, j, text =>
      if text.take 2 = [0x20, 0x7C] then some ([], text)
      else do
        let (byte, rest) ← readByte j text
        let (bytes, rest) ← readBytes more (j + 1) rest
        some (byte :: bytes, rest)

/-- One line: its address, its bytes, and the text behind it. -/
def readLine (text : List Byte) : Option ((BitVec 32 × List Byte) × List Byte) := do
  let (bytes, rest) ← readBytes 16 0 (text.drop 10)
  some ((BitVec.ofNat 32 (ofDigits 16 (text.take 8)), bytes), rest.drop (2 + bytes.length + 4))

def readLines : (lines : Nat) → List Byte → Option (List (BitVec 32 × List Byte))
  | 0, _ => some []
  | lines + 1, text => do
      let (line, rest) ← readLine text
      let later ← readLines lines rest
      some (line :: later)

section Back

variable {j : Nat} {byte : Byte} {line rest : List Byte}

theorem digit_not_control {c : Byte} (digit : digitValue c < 16) : c ≠ 0x0A ∧ c ≠ 0x1B := by
  revert c
  decide +kernel

theorem skipColor_color (color rest : List Byte) (plain : ∀ c ∈ color, c ≠ 0x6D) :
    skipColor (termSetColor color ++ rest) = rest := by
  have sequence : termSetColor color ++ rest = 0x1B :: 0x5B :: (color ++ 0x6D :: rest) := by
    simp [termSetColor]
  have ends : (color ++ 0x6D :: rest).dropWhile (· ≠ 0x6D) = 0x6D :: rest := by
    rw [List.dropWhile_append_of_pos (by simpa using plain)]
    rfl
  have step : skipColor (0x1B :: 0x5B :: (color ++ 0x6D :: rest)) =
      ((0x5B :: (color ++ 0x6D :: rest)).dropWhile (· ≠ 0x6D)).tail := rfl
  rw [sequence, step, List.dropWhile_cons_of_pos (by decide), ends, List.tail_cons]

theorem skipColor_digit {c : Byte} (digit : digitValue c < 16) (rest : List Byte) :
    skipColor (c :: rest) = c :: rest := by
  rw [skipColor]
  rintro tail ⟨rfl, _⟩
  exact (digit_not_control digit).2 rfl

/-- The two digits. -/
theorem hexText_two (value : Nat) : hexText 2 value = [hexDigit (value / 16 % 16), hexDigit (value % 16)] := rfl

theorem dumpByte_eq (j : Nat) (byte : Byte) (rest : List Byte) : dumpByte j byte ++ rest =
    (if byte = 0 then termSetColor TERM_FG_GREY else []) ++ hexDigit (byte.toNat / 16 % 16) ::
      hexDigit (byte.toNat % 16) :: 0x20 :: (termSetColor TERM_RESET ++ ((if j = 7 then [0x20] else []) ++ rest)) := by
  simp [dumpByte, hexText_two]

theorem readByte_dumpByte (j : Nat) (byte : Byte) (rest : List Byte) :
    readByte j (dumpByte j byte ++ rest) = some (byte, rest) := by
  have high : digitValue (hexDigit (byte.toNat / 16 % 16)) < 16 := by
    rw [digitValue_hexDigit (Nat.mod_lt _ (by decide))]
    exact Nat.mod_lt _ (by decide)
  have value : ofDigits 16 [hexDigit (byte.toNat / 16 % 16), hexDigit (byte.toNat % 16)] = byte.toNat := by
    rw [← hexText_two, ofDigits_hexText]
    exact Nat.mod_eq_of_lt byte.isLt
  have skipped : skipColor (dumpByte j byte ++ rest) = hexDigit (byte.toNat / 16 % 16) ::
      hexDigit (byte.toNat % 16) :: 0x20 :: (termSetColor TERM_RESET ++ ((if j = 7 then [0x20] else []) ++ rest)) := by
    rw [dumpByte_eq]
    by_cases zero : byte = 0
    · rw [if_pos zero, skipColor_color _ _ (by decide)]
    · rw [if_neg zero, List.nil_append, skipColor_digit high]
  rw [readByte, skipped]
  dsimp only
  rw [value, BitVec.ofNat_toNat, BitVec.setWidth_eq, List.tail_cons, skipColor_color _ _ (by decide)]
  split <;> rfl

theorem dumpByte_head (j : Nat) (byte : Byte) (rest : List Byte) :
    (dumpByte j byte ++ rest).take 2 ≠ [0x20, 0x7C] := by
  have high : digitValue (hexDigit (byte.toNat / 16 % 16)) < 16 := by
    rw [digitValue_hexDigit (Nat.mod_lt _ (by decide))]
    exact Nat.mod_lt _ (by decide)
  rw [dumpByte_eq]
  by_cases zero : byte = 0
  · rw [if_pos zero]
    simp [termSetColor]
  · rw [if_neg zero]
    intro bar
    simp only [List.nil_append, List.take_succ_cons, List.cons.injEq] at bar
    exact (digit_plain high).2.2.2.2.2 bar.1

/-- The bytes of a line, up to the bar. -/
theorem readBytes_dumpBytes (more j : Nat) (line rest : List Byte) (fits : line.length ≤ more) :
    readBytes more j (dumpBytes j line ++ 0x20 :: 0x7C :: rest) = some (line, 0x20 :: 0x7C :: rest) := by
  induction more generalizing j line with
  | zero =>
      obtain rfl := List.length_eq_zero_iff.mp (Nat.le_zero.mp fits)
      rfl
  | succ more ih =>
      cases line with
      | nil => exact if_pos rfl
      | cons byte line =>
          have later := ih (j + 1) line (Nat.le_of_succ_le_succ fits)
          have text : dumpBytes j (byte :: line) ++ 0x20 :: 0x7C :: rest =
              dumpByte j byte ++ (dumpBytes (j + 1) line ++ 0x20 :: 0x7C :: rest) := by
            rw [dumpBytes, List.append_assoc]
          rw [text, readBytes, if_neg (dumpByte_head j byte _), readByte_dumpByte]
          simp only [Option.bind_eq_bind, Option.bind_some, later]

theorem wire_append (first second : List Byte) : wire (first ++ second) = wire first ++ wire second :=
  List.flatMap_append

theorem wire_plain {text : List Byte} (plain : ∀ c ∈ text, c ≠ 0x0A) : wire text = text := by
  induction text with
  | nil => rfl
  | cons c text ih =>
      rw [List.forall_mem_cons] at plain
      have rest := ih plain.2
      rw [wire] at rest
      rw [wire, List.flatMap_cons, if_neg plain.1, rest, List.singleton_append]

theorem hexText_plain (width value : Nat) : ∀ c ∈ hexText width value, c ≠ 0x0A :=
  fun c member => (digit_not_control (hexDigits_hexText width value c member)).1

theorem dumpBytes_plain (j : Nat) (line : List Byte) : ∀ c ∈ dumpBytes j line, c ≠ 0x0A := by
  induction line generalizing j with
  | nil => simp [dumpBytes]
  | cons byte line ih =>
      have grey : ∀ c ∈ (if byte = 0 then termSetColor TERM_FG_GREY else []), c ≠ 0x0A := by
        split <;> decide
      have gap : ∀ c ∈ (if j = 7 then [0x20] else [] : List Byte), c ≠ 0x0A := by
        split <;> decide
      have reset : ∀ c ∈ termSetColor TERM_RESET, c ≠ 0x0A := by decide
      simp only [dumpBytes, dumpByte, List.forall_mem_append, List.forall_mem_singleton]
      exact ⟨⟨⟨⟨⟨grey, hexText_plain 2 _⟩, by decide⟩, reset⟩, gap⟩, ih (j + 1)⟩

theorem printStringBin_plain (line : List Byte) : ∀ c ∈ printStringBin line, c ≠ 0x0A := by
  intro c member
  obtain ⟨byte, _, rfl⟩ := List.mem_map.mp member
  split
  · rename_i printable
    rintro rfl
    exact absurd printable.1 (by decide)
  · decide

theorem wire_dumpLine (address : BitVec 32) (line : List Byte) : wire (dumpLine address line) =
    hexText 8 address.toNat ++ [0x20, 0x20] ++ (dumpBytes 0 line ++ 0x20 :: 0x7C ::
      (printStringBin line ++ [0x7C, 0x0D, 0x0D, 0x0A])) := by
  have spaces : wire [0x20, 0x20] = [0x20, 0x20] := rfl
  have bar : wire [0x20, 0x7C] = [0x20, 0x7C] := rfl
  have ends : wire [0x7C, 0x0D, 0x0A] = [0x7C, 0x0D, 0x0D, 0x0A] := rfl
  simp only [dumpLine, wire_append, wire_plain (hexText_plain 8 _), wire_plain (dumpBytes_plain 0 line),
    wire_plain (printStringBin_plain line), spaces, bar, ends]
  simp

theorem readLine_dumpLine (address : BitVec 32) {line : List Byte} (fits : line.length ≤ 16) (rest : List Byte) :
    readLine (wire (dumpLine address line) ++ rest) = some ((address, line), rest) := by
  have width : (hexText 8 address.toNat).length = 8 := length_hexText 8 _
  have number : ofDigits 16 (hexText 8 address.toNat) = address.toNat := by
    rw [ofDigits_hexText]
    exact Nat.mod_eq_of_lt address.isLt
  have size : (printStringBin line).length = line.length := List.length_map _
  have text : wire (dumpLine address line) ++ rest = hexText 8 address.toNat ++ ([0x20, 0x20] ++
      (dumpBytes 0 line ++ 0x20 :: 0x7C :: (printStringBin line ++ ([0x7C, 0x0D, 0x0D, 0x0A] ++ rest)))) := by
    rw [wire_dumpLine]
    simp
  have first : (hexText 8 address.toNat ++ ([0x20, 0x20] ++
      (dumpBytes 0 line ++ 0x20 :: 0x7C :: (printStringBin line ++ ([0x7C, 0x0D, 0x0D, 0x0A] ++ rest))))).take 8 =
        hexText 8 address.toNat := List.take_left' width
  have behind : (hexText 8 address.toNat ++ ([0x20, 0x20] ++
      (dumpBytes 0 line ++ 0x20 :: 0x7C :: (printStringBin line ++ ([0x7C, 0x0D, 0x0D, 0x0A] ++ rest))))).drop 10 =
        dumpBytes 0 line ++ 0x20 :: 0x7C :: (printStringBin line ++ ([0x7C, 0x0D, 0x0D, 0x0A] ++ rest)) := by
    rw [← List.append_assoc]
    exact List.drop_left' (by simp [width])
  have last : (0x20 :: 0x7C :: (printStringBin line ++ ([0x7C, 0x0D, 0x0D, 0x0A] ++ rest))).drop
      (2 + line.length + 4) = rest := by
    have split : 0x20 :: 0x7C :: (printStringBin line ++ ([0x7C, 0x0D, 0x0D, 0x0A] ++ rest)) =
        (0x20 :: 0x7C :: (printStringBin line ++ [0x7C, 0x0D, 0x0D, 0x0A])) ++ rest := by simp
    rw [split]
    exact List.drop_left' (by simp [size]; omega)
  rw [text, readLine, behind, readBytes_dumpBytes 16 0 line _ fits]
  simp only [Option.bind_eq_bind, Option.bind_some]
  rw [first, last, number, BitVec.ofNat_toNat, BitVec.setWidth_eq]

end Back

variable (memory : Memory 32) (address : BitVec 32)

/-- The lines of a dump. -/
def dumped (bytes : Nat) : List (BitVec 32 × List Byte) := (List.range ((bytes + 15) / 16)).map fun k =>
  (address + BitVec.ofNat 32 (16 * k), lineBytes memory address (16 * k) (min 16 (bytes - 16 * k)))

theorem readLines_dumpLines (bytes lines k : Nat) (total : k + lines = (bytes + 15) / 16) :
    readLines lines (wire (dumpLines memory address bytes (16 * k))) =
      some ((List.range' k lines).map fun k => (address + BitVec.ofNat 32 (16 * k),
        lineBytes memory address (16 * k) (min 16 (bytes - 16 * k)))) := by
  induction lines generalizing k with
  | zero => rfl
  | succ lines ih =>
      have more : 16 * k < bytes := by omega
      rw [dumpLines, if_pos more, wire_append, readLines,
        readLine_dumpLine _ (by rw [lineBytes, List.length_map, List.length_range]; exact Nat.min_le_left _ _)]
      have rest : readLines lines (wire (dumpLines memory address bytes (16 * k + min 16 (bytes - 16 * k)))) =
          some ((List.range' (k + 1) lines).map fun k => (address + BitVec.ofNat 32 (16 * k),
            lineBytes memory address (16 * k) (min 16 (bytes - 16 * k)))) := by
        by_cases last : lines = 0
        · subst last
          rfl
        · have whole : 16 * k + min 16 (bytes - 16 * k) = 16 * (k + 1) := by omega
          rw [whole]
          exact ih (k + 1) (by omega)
      rw [List.range'_succ, List.map_cons]
      simp only [Option.bind_eq_bind, Option.bind_some, rest]

/-- The text of a dump gives back each address and each byte that was read. -/
theorem memdump_reads_back (bytes : Nat) :
    readLines ((bytes + 15) / 16) (wire (memdump memory address bytes)) = some (dumped memory address bytes) := by
  have lines := readLines_dumpLines memory address bytes ((bytes + 15) / 16) 0 (Nat.zero_add _)
  rw [← List.range_eq_range'] at lines
  exact lines

end Mackerel.Bootloader
