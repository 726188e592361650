import Mackerel.Bytes.Memory
import Mathlib.Data.List.TakeWhile

namespace CString

open Bytes

/-! Texts of bytes without their final zero, and the library functions on them. -/

def chars (text : List Char) : List Byte := text.map fun c => BitVec.ofNat 8 c.toNat

def isSpace (c : Byte) : Bool := c = 0x20 ∨ 0x09 ≤ c ∧ c ≤ 0x0D

/-- What a digit counts in the bases up to 36. -/
def digitValue (c : Byte) : Nat :=
  if 0x30 ≤ c ∧ c ≤ 0x39 then c.toNat - 0x30
  else if 0x41 ≤ c ∧ c ≤ 0x5A then c.toNat - 0x37
  else if 0x61 ≤ c ∧ c ≤ 0x7A then c.toNat - 0x57
  else 36

def ofDigits (base : Nat) (digits : List Byte) : Nat :=
  digits.foldl (fun value c => base * value + digitValue c) 0

/-- `0x` or `0X`. -/
def hasHexMark (text : List Byte) : Bool := text.head? = some 0x30 ∧ (text.tail.head? = some 0x78 ∨ text.tail.head? = some 0x58)

/-- The base in which the digits are read, and the digits with what is behind them. -/
def numeral (base : Nat) (text : List Byte) : Nat × List Byte :=
  if (base = 0 ∨ base = 16) ∧ hasHexMark text then (16, text.drop 2)
  else if base = 0 then (if text.head? = some 0x30 then 8 else 10, text)
  else (base, text)

/-- `strtoul` for an `unsigned long` of 32 bits. -/
def strtoul (base : Nat) (text : List Byte) : BitVec 32 :=
  let text := text.dropWhile isSpace
  let unsigned := if text.head? = some 0x2D ∨ text.head? = some 0x2B then text.tail else text
  let (base, digits) := numeral base unsigned
  let value := ofDigits base (digits.takeWhile fun c => digitValue c < base)
  if 2 ^ 32 ≤ value then BitVec.ofNat 32 (2 ^ 32 - 1)
  else if text.head? = some 0x2D then -BitVec.ofNat 32 value
  else BitVec.ofNat 32 value

/-- `strtok` with a space: a token, and what later calls go on with. -/
def strtok (saved : List Byte) : Option (List Byte) × List Byte :=
  let text := saved.dropWhile (· = 0x20)
  if text = [] then (none, [])
  else (some (text.takeWhile (· ≠ 0x20)), (text.dropWhile (· ≠ 0x20)).tail)

/-- `strncmp(text, name, n) == 0`, for a name of at least `n` characters. -/
def startsWith (name : List Byte) (n : Nat) (text : List Byte) : Bool := text.take n = name.take n

def hexDigit (value : Nat) : Byte := BitVec.ofNat 8 (if value < 10 then 0x30 + value else 0x37 + value)

/-- `%0*X`, for a number that has no more digits. -/
def hexText : (width value : Nat) → List Byte
  | 0, _ => []
  | width + 1, value => hexText width (value / 16) ++ [hexDigit (value % 16)]

theorem digitValue_hexDigit {value : Nat} (small : value < 16) : digitValue (hexDigit value) = value := by
  revert value
  decide

theorem length_hexText (width value : Nat) : (hexText width value).length = width := by
  induction width generalizing value with
  | zero => rfl
  | succ width ih => rw [hexText, List.length_append, ih, List.length_singleton]

theorem ofDigits_append (base : Nat) (digits : List Byte) (c : Byte) :
    ofDigits base (digits ++ [c]) = base * ofDigits base digits + digitValue c := by
  rw [ofDigits, List.foldl_append]
  rfl

theorem ofDigits_hexText (width value : Nat) : ofDigits 16 (hexText width value) = value % 16 ^ width := by
  induction width generalizing value with
  | zero => rw [pow_zero, Nat.mod_one]; rfl
  | succ width ih =>
      have digit : value % 16 < 16 := Nat.mod_lt _ (by decide)
      rw [hexText, ofDigits_append, ih, digitValue_hexDigit digit, Nat.pow_succ', Nat.mod_mul]
      omega

theorem hexDigits_hexText (width value : Nat) : ∀ c ∈ hexText width value, digitValue c < 16 := by
  induction width generalizing value with
  | zero => simp [hexText]
  | succ width ih =>
      have digit : value % 16 < 16 := Nat.mod_lt _ (by decide)
      simp only [hexText, List.forall_mem_append, List.forall_mem_singleton]
      exact ⟨ih _, by rw [digitValue_hexDigit digit]; exact digit⟩

/-- A number as users write it: digits of either case, zeros in front, with or without a mark. -/
inductive SpellsHex (value : Nat) : List Byte → Prop
  | digits (digits : List Byte) (some : digits ≠ []) (hex : ∀ c ∈ digits, digitValue c < 16)
      (counts : ofDigits 16 digits = value) : SpellsHex value digits
  | marked (mark : Byte) (isMark : mark = 0x78 ∨ mark = 0x58) (digits : List Byte) (some : digits ≠ [])
      (hex : ∀ c ∈ digits, digitValue c < 16) (counts : ofDigits 16 digits = value) :
      SpellsHex value (0x30 :: mark :: digits)

/-- A digit is no sign, no space and no mark. -/
theorem digit_plain {c : Byte} (digit : digitValue c < 16) :
    isSpace c = false ∧ c ≠ 0x2D ∧ c ≠ 0x2B ∧ c ≠ 0x78 ∧ c ≠ 0x58 ∧ c ≠ 0x20 := by
  revert c
  decide +kernel

theorem takeWhile_digits {digits : List Byte} (hex : ∀ c ∈ digits, digitValue c < 16) :
    digits.takeWhile (fun c => decide (digitValue c < 16)) = digits := by
  rw [List.takeWhile_eq_self_iff]
  intro c member
  exact decide_eq_true (hex c member)

theorem strtoul_digits {value : Nat} {text digits : List Byte} (small : value < 2 ^ 32)
    (plain : ∀ c, text.head? = some c → isSpace c = false ∧ c ≠ 0x2D ∧ c ≠ 0x2B)
    (read : numeral 16 text = (16, digits)) (hex : ∀ c ∈ digits, digitValue c < 16)
    (counts : ofDigits 16 digits = value) : strtoul 16 text = BitVec.ofNat 32 value := by
  have trimmed : text.dropWhile isSpace = text := by
    cases text with
    | nil => rfl
    | cons c rest => exact List.dropWhile_cons_of_neg (by simp [(plain c rfl).1])
  have minus : ¬text.head? = some 0x2D := fun sign => (plain _ sign).2.1 rfl
  have plus : ¬text.head? = some 0x2B := fun sign => (plain _ sign).2.2 rfl
  have unsigned : ¬(text.head? = some 0x2D ∨ text.head? = some 0x2B) := not_or.mpr ⟨minus, plus⟩
  simp only [strtoul, trimmed, if_neg unsigned, read, takeWhile_digits hex, counts,
    if_neg (Nat.not_le.mpr small), if_neg minus]

theorem strtoul_spelled {value : Nat} {text : List Byte} (small : value < 2 ^ 32) (spells : SpellsHex value text) :
    strtoul 16 text = BitVec.ofNat 32 value := by
  cases spells with
  | digits digits some hex counts =>
      refine strtoul_digits small (fun c head => ?_) ?_ hex counts
      · obtain ⟨space, minus, plus, _⟩ := digit_plain (hex c (List.mem_of_mem_head? head))
        exact ⟨space, minus, plus⟩
      · have unmarked : hasHexMark text = false := by
          rw [hasHexMark, decide_eq_false]
          rintro ⟨_, mark⟩
          rcases mark with mark | mark
          · exact (digit_plain (hex _ (List.mem_of_mem_tail (List.mem_of_mem_head? mark)))).2.2.2.1 rfl
          · exact (digit_plain (hex _ (List.mem_of_mem_tail (List.mem_of_mem_head? mark)))).2.2.2.2.1 rfl
        rw [numeral, if_neg (by simp [unmarked]), if_neg (by decide)]
  | marked mark isMark digits some hex counts =>
      refine strtoul_digits small (fun c head => ?_) ?_ hex counts
      · obtain rfl : 0x30 = c := by simpa using head
        decide
      · have marks : hasHexMark (0x30 :: mark :: digits) = true := by
          rcases isMark with rfl | rfl <;> rfl
        rw [numeral, if_pos ⟨.inr rfl, marks⟩]
        rfl

/-- A word behind some spaces. -/
structure Word where
  spaces : Nat
  text : List Byte
  some : text ≠ []
  whole : ∀ c ∈ text, c ≠ 0x20

def Word.behind (word : Word) : List Byte := List.replicate (word.spaces + 1) 0x20 ++ word.text

/-- The text of words, each one behind at least one space. -/
def phrase (words : List Word) : List Byte := words.flatMap Word.behind

theorem takeWhile_word {text rest : List Byte} (whole : ∀ c ∈ text, c ≠ 0x20)
    (ends : rest = [] ∨ rest.head? = some 0x20) : (text ++ rest).takeWhile (· ≠ 0x20) = text := by
  induction text with
  | nil =>
      rcases ends with rfl | space
      · rfl
      · cases rest with
        | nil => rfl
        | cons c rest =>
            obtain rfl : c = 0x20 := by simpa using space
            rfl
  | cons c text ih =>
      rw [List.forall_mem_cons] at whole
      rw [List.cons_append, List.takeWhile_cons_of_pos (by simpa using whole.1), ih whole.2]

theorem dropWhile_word {text rest : List Byte} (whole : ∀ c ∈ text, c ≠ 0x20)
    (ends : rest = [] ∨ rest.head? = some 0x20) : (text ++ rest).dropWhile (· ≠ 0x20) = rest := by
  have parts := List.takeWhile_append_dropWhile (p := (· ≠ 0x20)) (l := text ++ rest)
  rw [takeWhile_word whole ends] at parts
  exact List.append_cancel_left parts

theorem dropWhile_spaces {count : Nat} {text : List Byte} (some : text ≠ []) (whole : ∀ c ∈ text, c ≠ 0x20)
    (rest : List Byte) : (List.replicate count 0x20 ++ (text ++ rest)).dropWhile (· = 0x20) = text ++ rest := by
  induction count with
  | zero =>
      obtain ⟨c, text, rfl⟩ := List.exists_cons_of_ne_nil some
      exact List.dropWhile_cons_of_neg (by simpa using whole c List.mem_cons_self)
  | succ count ih => rw [List.replicate_succ, List.cons_append, List.dropWhile_cons_of_pos (by decide), ih]

theorem strtok_word {count : Nat} {text rest : List Byte} (some : text ≠ []) (whole : ∀ c ∈ text, c ≠ 0x20)
    (ends : rest = [] ∨ rest.head? = .some 0x20) :
    strtok (List.replicate count 0x20 ++ (text ++ rest)) = (.some text, rest.tail) := by
  have more : text ++ rest ≠ [] := by simp [some]
  rw [strtok, dropWhile_spaces some whole, if_neg more, takeWhile_word whole ends, dropWhile_word whole ends]

theorem phrase_ends (words : List Word) : phrase words = [] ∨ (phrase words).head? = some 0x20 := by
  cases words with
  | nil => exact .inl rfl
  | cons word words => exact .inr rfl

/-- A token and the tokens behind it. -/
theorem strtok_phrase (word : Word) (words : List Word) :
    strtok (phrase (word :: words)).tail = (some word.text, (phrase words).tail) := by
  have text : (phrase (word :: words)).tail = List.replicate word.spaces 0x20 ++ (word.text ++ phrase words) := by
    rw [phrase, List.flatMap_cons, Word.behind, List.replicate_succ, List.cons_append, List.cons_append,
      List.tail_cons, List.append_assoc]
    rfl
  rw [text]
  exact strtok_word word.some word.whole (phrase_ends words)

end CString
