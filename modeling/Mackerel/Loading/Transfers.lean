import Mackerel.Loading.Loads
import Mackerel.Ymodem.Transfer

namespace Mackerel.Loading

open Bytes Bytes.Memory Fat16 Serial Ymodem

section Kept

variable {dest : Buffer} {start r : Receiver} {memory : Memory 32} {line rest : Line Byte}
  {verdict : Verdict}

theorem Receives.head (receives : Receives dest start r) : Head dest start r := by
  induction receives with
  | start => exact .start
  | next _ turned ih => exact .next ih (turn_inversion turned)
  | beyond _ sized read word ih => exact .beyond ih sized read word

/-- Only the received bytes are written. -/
def Below (dest : Buffer) (memory : Memory 32) (r : Receiver) : Prop :=
  ∀ addr, r.total ≤ offset dest.buf addr → r.memory addr = memory addr

theorem Below.stored {len : Nat} (bounded : dest.bufsz ≤ 2 ^ 32 - 1025) (small : len ≤ 1024)
    (inside : Inside dest r) (below : Below dest memory r) : Below dest memory (storeBlock dest len r) := by
  obtain ⟨arithmetic, -, -⟩ := copied_bounds bounded inside small
  have stored := arithmetic.stored
  have total : u32 ((r.total : Int) + copied dest r len) = r.total + copied dest r len := u32_of_lt stored
  intro addr behind
  change u32 (r.total + copied dest r len) ≤ offset dest.buf addr at behind
  change r.memory.store (dest.buf + BitVec.ofNat 32 r.total) _ _ _ = _
  rw [total] at behind
  rw [store_at _ _ _ _ (Nat.le_of_lt stored), if_neg (by omega)]
  exact below addr (by omega)

theorem Below.turn (bounded : dest.bufsz ≤ 2 ^ 32 - 1025) (inside : Inside dest r)
    (below : Below dest memory r) (turned : Turn dest r line rest verdict) :
    verdict.Holds (Below dest memory) := by
  cases turned with
  | timeout => exact onTimeout_holds below fun _ => below
  | eot => exact below
  | cancelled => exact below
  | junk => exact below
  | bad => exact below
  | block hdr used _ bn payload begins intact =>
      have holding : Inside dest { r with idle := 0, blk := overlay 0 payload r.blk } :=
        inside.keeps rfl rfl rfl
      have held : Below dest memory { r with idle := 0, blk := overlay 0 payload r.blk } := below
      exact acceptBlock_holds held (fun _ => held) (fun _ _ => held) fun _ =>
        held.stored bounded (blockLength_le hdr) holding

theorem head_below {blk name : Block} (bounded : dest.bufsz ≤ 2 ^ 32 - 1025)
    (head : Head dest (.start memory blk name) r) : Below dest memory r := by
  induction head with
  | start => exact fun _ _ => rfl
  | next head turned ih => exact ih.turn bounded (head.inside bounded) turned
  | beyond _ _ _ _ ih => exact ih

theorem bufsz_le (target : Target) : target.buffer.bufsz ≤ 2 ^ 32 - 1025 := by
  cases target <;> decide

/-- The bytes received are at most the buffer, and at most the size if there is one. -/
theorem Inside.extent {target : Target} {announced : BitVec 32} (inside : Inside target.buffer r)
    (size : r.fsize = announced.toNat) : r.total ≤ target.extent (.ymodem announced) := by
  have bounds : target.buffer.bufsz = target.bufsz := rfl
  have buffer := inside.buffer
  have file := inside.file
  rw [Target.extent]
  split
  · omega
  · have known : announced.toNat ≠ 0 := by
      rename_i known
      exact fun zero => known (BitVec.eq_of_toNat_eq zero)
    omega

/-- A transfer writes at most what its header announces, and never behind the buffer. -/
theorem ymodem_kept {target : Target} {announced : BitVec 32} {changed : Memory 32}
    (moment : Moment target (.ymodem announced) memory changed) :
    Kept target.programStart 0 (target.extent (.ymodem announced)) memory changed := by
  have bounded := bufsz_le target
  intro addr outside
  have behind : target.extent (.ymodem announced) ≤ offset target.buffer.buf addr :=
    outside.resolve_left (Nat.not_lt_zero _)
  cases moment with
  | receiving receives size =>
      have inside := receives.head.inside bounded
      exact head_below bounded receives.head addr (Nat.le_trans (Inside.extent inside size) behind)
  | received receives turned size =>
      have turned := turn_inversion turned
      have inside := turned.inside bounded (receives.head.inside bounded)
      have below := (head_below bounded receives.head).turn bounded (receives.head.inside bounded) turned
      exact below addr (Nat.le_trans (Inside.extent inside size) behind)

end Kept

namespace LongFile

def digit (size : BitVec 32) (i : Nat) : Byte := BitVec.ofNat 8 (0x30 + size.toNat / 10 ^ i % 10)

/-- The size in ten digits. -/
def digits (size : BitVec 32) : List Byte := [9, 8, 7, 6, 5, 4, 3, 2, 1, 0].map (digit size)

theorem digit_toNat (size : BitVec 32) (i : Nat) : (digit size i).toNat = 0x30 + size.toNat / 10 ^ i % 10 := by
  rw [digit, BitVec.toNat_ofNat, Nat.mod_eq_of_lt (by omega)]

theorem decimal_digit (size : BitVec 32) (i : Nat) (rest : List Byte) :
    decimal (size.toNat / 10 ^ (i + 1)) (digit size i :: rest) = decimal (size.toNat / 10 ^ i) rest := by
  have shorter : size.toNat / 10 ^ (i + 1) = size.toNat / 10 ^ i / 10 := by
    rw [Nat.pow_succ, Nat.div_div_eq_div_mul]
  have digit := digit_toNat size i
  rw [decimal, List.foldl_cons, digit, shorter, decimal]
  congr 1
  omega

theorem decimal_digits (size : BitVec 32) : decimal 0 (digits size) = size.toNat := by
  have none_left : size.toNat / 10 ^ 10 = 0 := Nat.div_eq_of_lt (Nat.lt_trans size.isLt (by decide))
  rw [← none_left]
  simp only [digits, List.map_cons, List.map_nil, decimal_digit]
  exact Nat.div_one _

def header (size : BitVec 32) : Header where
  name := [0x42]
  digits := digits size
  payload := padded ([0x42, 0] ++ digits size) 128
  named := by simp
  nameShort := by decide
  nameNonzero := by decide
  sizeWritten := by simp [digits]
  decimals byte member := by
    obtain ⟨i, -, rfl⟩ := List.mem_map.mp member
    have value := digit_toNat size i
    exact ⟨BitVec.le_def.mpr (by rw [value]; simp), BitVec.le_def.mpr (by rw [value]; simp; omega)⟩
  sizeWord := by
    rw [decimal_digits]
    exact size.isLt
  sized := .inl (by simp [padded, digits])
  text := ⟨List.replicate 115 0, by simp [padded, digits]⟩

def payload : List Byte := List.replicate 1024 1

theorem payload_length : payload.length = 1024 := List.length_replicate

theorem payload_sized : BlockSized payload := .inr payload_length

variable {target : Target} {size : BitVec 32} {count : Nat} {r : Receiver}

/-- The receiver after so many blocks. -/
structure Taken (target : Target) (size : BitVec 32) (count : Nat) (r : Receiver) : Prop where
  haveHeader : r.haveHeader = true
  trailer : r.trailer = false
  expect : r.expect = BitVec.ofNat 8 (count + 1)
  fsize : r.fsize = size.toNat
  total : r.total = min (target.extent (.ymodem size)) (1024 * count)
  ones : ∀ addr, offset target.programStart addr < r.total → r.memory addr = 1

def fresh : Receiver := .start (fun _ => 0) (fun _ => 0) fun _ => 0

theorem header_taken (target : Target) (size : BitVec 32) :
    ∃ r, Receives target.buffer fresh r ∧ Taken target size 0 r := by
  have arrival := (header size).sized.arrives target.buffer fresh 0
  rw [(header size).arrives target.buffer rfl rfl rfl rfl] at arrival
  refine ⟨_, .next .start (arrival.result []), rfl, rfl, rfl, decimal_digits size, (Nat.min_zero _).symm, ?_⟩
  intro addr inside
  exact absurd inside (Nat.not_lt_zero _)

theorem copied_le (inside : Inside target.buffer (r.holding payload)) :
    copied target.buffer (r.holding payload) payload.length ≤ payload.length := by
  obtain ⟨cut, stored⟩ := copied_min (bufsz_le target) inside (Nat.le_of_eq payload_length)
  rw [stored, cut]
  split <;> omega

/-- A block goes on to the end of the file or of the buffer. -/
theorem copied_taken (taken : Taken target size count r) (inside : Inside target.buffer (r.holding payload)) :
    r.total + copied target.buffer (r.holding payload) payload.length =
      min (target.extent (.ymodem size)) (1024 * (count + 1)) := by
  obtain ⟨cut, stored⟩ := copied_min (bufsz_le target) inside (Nat.le_of_eq payload_length)
  have total := taken.total
  have size_ := taken.fsize
  have room : target.buffer.bufsz = target.bufsz := rfl
  have sameTotal : (r.holding payload).total = r.total := rfl
  have sameSize : (r.holding payload).fsize = r.fsize := rfl
  rw [stored, cut, sameTotal, sameSize, size_, room, payload_length]
  unfold Target.extent at total ⊢
  dsimp only at total ⊢
  by_cases none_announced : size = 0
  · subst none_announced
    rw [if_pos rfl] at total ⊢
    rw [if_neg (by simp)]
    omega
  · have known : size.toNat ≠ 0 := fun zero => none_announced (BitVec.eq_of_toNat_eq zero)
    rw [if_neg none_announced] at total ⊢
    rw [if_pos known]
    omega

theorem Taken.block (receives : Receives target.buffer fresh r) (taken : Taken target size count r) :
    ∃ after, Receives target.buffer fresh after ∧ Taken target size (count + 1) after := by
  have bounded := bufsz_le target
  have inside : Inside target.buffer (r.holding payload) :=
    (receives.head.inside bounded).keeps rfl rfl rfl
  have arrival := payload_sized.arrives target.buffer r (BitVec.ofNat 8 (count + 1))
  rw [Session.acceptBlock_data target.buffer (r.holding payload) payload.length taken.expect.symm taken.trailer
    taken.haveHeader] at arrival
  have copy := copied_taken taken inside
  obtain ⟨arithmetic, -, -⟩ := copied_bounds bounded inside (Nat.le_of_eq payload_length)
  have word : r.total + copied target.buffer (r.holding payload) payload.length < 2 ^ 32 := arithmetic.stored
  have total : (storeBlock target.buffer payload.length (r.holding payload)).total =
      r.total + copied target.buffer (r.holding payload) payload.length := u32_of_lt word
  refine ⟨_, .next receives (arrival.result []), taken.haveHeader, taken.trailer, ?_, taken.fsize, ?_, ?_⟩
  · change r.expect + 1 = _
    rw [taken.expect]
    exact (BitVec.ofNat_add (count + 1) 1).symm
  · rw [total]
    exact copy
  · intro addr within
    rw [total] at within
    change r.memory.store (target.programStart + BitVec.ofNat 32 r.total)
      (copied target.buffer (r.holding payload) payload.length) (overlay 0 payload r.blk) addr = 1
    rw [store_at _ _ _ _ (Nat.le_of_lt word)]
    split
    case isTrue stored =>
      have short : offset target.programStart addr - r.total < payload.length := by
        have bounds := copied_le inside
        omega
      rw [overlay, if_pos (Nat.zero_le _), Nat.sub_zero, List.getD_eq_getElem _ _ short]
      exact List.getElem_replicate _
    case isFalse outside => exact taken.ones addr (by omega)

theorem blocks_taken (target : Target) (size : BitVec 32) (count : Nat) :
    ∃ r, Receives target.buffer fresh r ∧ Taken target size count r := by
  induction count with
  | zero => exact header_taken target size
  | succ count ih =>
      obtain ⟨r, receives, taken⟩ := ih
      exact taken.block receives

/-- A transfer overwrites every byte as far as its size and the buffer go. -/
theorem overwrites (target : Target) (size : BitVec 32) :
    ∃ after, Moment target (.ymodem size) (fun _ => 0) after ∧
      ∀ addr, offset target.programStart addr < target.extent (.ymodem size) → after addr = 1 := by
  obtain ⟨r, receives, taken⟩ := blocks_taken target size (target.extent (.ymodem size))
  refine ⟨r.memory, .receiving receives taken.fsize, fun addr inside => taken.ones addr ?_⟩
  rw [taken.total]
  omega

end LongFile

end Mackerel.Loading
