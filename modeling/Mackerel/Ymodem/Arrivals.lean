import Mackerel.Ymodem.Header

namespace Mackerel.Ymodem

open Bytes Bytes.Memory Serial

def numbered (first : Nat) : List (List Byte) → List Item
  | [] => []
  | payload :: rest => .block (BitVec.ofNat 8 first) payload :: numbered (first + 1) rest

/-- A file and the blocks in which it is sent; the last one may be padded. -/
structure Session where
  header : Header
  file : List Byte
  blocks : List (List Byte)
  null : List Byte
  size : header.size = file.length
  sized : ∀ payload ∈ blocks, BlockSized payload
  carries : file <+: blocks.flatten
  padding : blocks ≠ [] → blocks.dropLast.flatten.length < file.length
  nullSized : BlockSized null
  nullZero : ∀ byte ∈ null, byte = 0

namespace Session

variable (session : Session)

def items : List Item :=
  .block 0 session.header.payload :: (numbered 1 session.blocks ++ [.eot, .block 0 session.null])

def byte (i : Nat) : Byte := session.file.getD i 0

def sent (count : Nat) : Nat := (session.blocks.take count).flatten.length

/-- The bytes of the file that the first so many items bring: the header none, every block its
    own, without the padding. -/
def carried (items : Nat) : Nat := min session.file.length (session.sent (items - 1))

/-- Every item accepted so far is in the buffer, in order and once. -/
structure Stored (dest : Buffer) (accepted : Nat) (r : Receiver) : Prop where
  total : r.total = session.carried accepted
  contents : ∀ i, i < r.total → r.memory.load dest.buf i = session.byte i

/-- How much the receiver has accepted. -/
inductive Stage where
  | fresh
  | data (count : Nat)
  | ended

def Stage.accepted (session : Session) : Stage → Nat
  | .fresh => 0
  | .data count => count + 1
  | .ended => session.blocks.length + 2

structure HeaderTaken (r : Receiver) : Prop where
  haveHeader : r.haveHeader = true
  fsize : r.fsize = session.file.length
  name : Spells r.name 0 (session.header.name ++ [0])

inductive At (dest : Buffer) (r : Receiver) : Stage → Prop where
  | fresh (haveHeader : r.haveHeader = false) (trailer : r.trailer = false) (expect : r.expect = 0)
      (fsize : r.fsize = 0) (total : r.total = 0) : At dest r .fresh
  | data (count : Nat) (within : count ≤ session.blocks.length) (header : session.HeaderTaken r)
      (trailer : r.trailer = false) (expect : r.expect = BitVec.ofNat 8 (count + 1))
      (stored : session.Stored dest (count + 1) r) : At dest r (.data count)
  | ended (header : session.HeaderTaken r) (trailer : r.trailer = true) (expect : r.expect = 0)
      (stored : session.Stored dest (session.blocks.length + 2) r) : At dest r .ended

end Session

/-- Receivers that differ in no variable of the transfer. -/
structure Alike (before after : Receiver) : Prop where
  memory : after.memory = before.memory
  name : after.name = before.name
  total : after.total = before.total
  fsize : after.fsize = before.fsize
  expect : after.expect = before.expect
  haveHeader : after.haveHeader = before.haveHeader
  trailer : after.trailer = before.trailer

theorem Alike.refl (r : Receiver) : Alike r r := ⟨rfl, rfl, rfl, rfl, rfl, rfl, rfl⟩

theorem Alike.trans {first second third : Receiver} (early : Alike first second)
    (late : Alike second third) : Alike first third where
  memory := late.memory.trans early.memory
  name := late.name.trans early.name
  total := late.total.trans early.total
  fsize := late.fsize.trans early.fsize
  expect := late.expect.trans early.expect
  haveHeader := late.haveHeader.trans early.haveHeader
  trailer := late.trailer.trans early.trailer

namespace Session

variable {session : Session} {dest : Buffer} {before after : Receiver} {stage : Stage}

theorem Stored.alike {accepted : Nat} (stored : session.Stored dest accepted before)
    (alike : Alike before after) : session.Stored dest accepted after where
  total := alike.total.trans stored.total
  contents i inside := by
    rw [alike.memory]
    exact stored.contents i (alike.total ▸ inside)

theorem HeaderTaken.alike (header : session.HeaderTaken before) (alike : Alike before after) :
    session.HeaderTaken after where
  haveHeader := alike.haveHeader.trans header.haveHeader
  fsize := alike.fsize.trans header.fsize
  name := by
    rw [alike.name]
    exact header.name

theorem At.alike (place : session.At dest before stage) (alike : Alike before after) :
    session.At dest after stage := by
  cases place with
  | fresh haveHeader trailer expect fsize total =>
      exact .fresh (alike.haveHeader.trans haveHeader) (alike.trailer.trans trailer)
        (alike.expect.trans expect) (alike.fsize.trans fsize) (alike.total.trans total)
  | data count within header trailer expect stored =>
      exact .data count within (header.alike alike) (alike.trailer.trans trailer)
        (alike.expect.trans expect) (stored.alike alike)
  | ended header trailer expect stored =>
      exact .ended (header.alike alike) (alike.trailer.trans trailer) (alike.expect.trans expect)
        (stored.alike alike)

theorem At.stored (place : session.At dest before stage) :
    session.Stored dest (stage.accepted session) before := by
  cases place with
  | fresh _ _ _ _ total =>
      have nothing : session.carried 0 = 0 := by simp [carried, sent]
      refine ⟨total.trans nothing.symm, ?_⟩
      intro i inside
      omega
  | data _ _ _ _ _ stored => exact stored
  | ended _ _ _ stored => exact stored

theorem At.accepted_le (place : session.At dest before stage) :
    stage.accepted session ≤ session.blocks.length + 2 := by
  cases place with
  | fresh => exact Nat.zero_le _
  | data count within => exact Nat.le_succ_of_le (Nat.succ_le_succ within)
  | ended => exact Nat.le_refl _

end Session

/-- A receiver that has answered an item, with an ACK among its replies. -/
structure Acknowledged (before after : Receiver) : Prop where
  idle : after.idle = 0
  replies : ∃ replies, after.sent = before.sent ++ replies ∧ ack ∈ replies

namespace Session

variable {session : Session} {dest : Buffer} {r : Receiver}

theorem copied_eq (dest : Buffer) (r : Receiver) {len : Nat} (small : len ≤ 1024) (more : r.total < r.fsize)
    (fits : r.fsize ≤ dest.bufsz) : copied dest r len = min len (r.fsize - r.total) := by
  have room := dest.room
  have sum : u32 (r.total + len : Nat) = r.total + len := u32_of_lt (by omega)
  have rest : u32 ((r.fsize : Int) - r.total) = r.fsize - r.total := by
    unfold u32
    omega
  push_cast at sum
  unfold copied
  rw [sum, rest]
  dsimp only
  by_cases past : r.fsize ≠ 0 ∧ r.total + len > r.fsize
  · have total : u32 ((r.total : Int) + (r.fsize - r.total : Nat)) = r.fsize := by
      unfold u32
      omega
    rw [if_pos past, total, if_neg (by omega)]
    omega
  · rw [if_neg past, sum, if_neg (by omega)]
    omega

theorem sent_succ (session : Session) {count : Nat} (within : count < session.blocks.length) :
    session.sent (count + 1) = session.sent count + session.blocks[count].length := by
  unfold sent
  rw [List.take_succ_eq_append_getElem within, List.flatten_append, List.length_append]
  simp

theorem sent_lt (session : Session) {count : Nat} (within : count < session.blocks.length) :
    session.sent count < session.file.length := by
  have nonempty : session.blocks ≠ [] := List.ne_nil_of_length_pos (by omega)
  have padding := session.padding nonempty
  have shorter : session.sent count ≤ session.blocks.dropLast.flatten.length := by
    have earlier : count ≤ session.blocks.length - 1 := by omega
    obtain ⟨rest, shape⟩ : session.blocks.take count <+: session.blocks.dropLast := by
      rw [List.dropLast_eq_take]
      exact List.take_prefix_take_left earlier
    rw [sent, ← shape, List.flatten_append, List.length_append]
    omega
  omega

/-- The items behind the last block bring nothing more. -/
theorem carried_all (session : Session) {items : Nat} (late : session.blocks.length < items) :
    session.carried items = session.file.length := by
  have all : session.sent (items - 1) = session.blocks.flatten.length := by
    rw [sent, List.take_of_length_le (by omega)]
  rw [carried, all]
  exact Nat.min_eq_left session.carries.length_le

/-- A byte of a block is the byte of the file at its place. -/
theorem byte_of_block (session : Session) {count i : Nat} (within : count < session.blocks.length)
    (low : session.sent count ≤ i) (high : i < session.sent (count + 1))
    (inFile : i < session.file.length) (blk : Block) :
    overlay 0 session.blocks[count] blk (i - session.sent count) = session.byte i := by
  have inside : i - session.sent count < session.blocks[count].length := by
    rw [session.sent_succ within] at high
    omega
  have stored := (spells_overlay session.blocks[count] 0 blk).getElem inside
  rw [Nat.zero_add] at stored
  have split : session.blocks.flatten =
      (session.blocks.take count).flatten ++ (session.blocks[count] ++
        (session.blocks.drop (count + 1)).flatten) := by
    rw [← List.flatten_cons, ← List.drop_eq_getElem_cons within, ← List.flatten_append,
      List.take_append_drop]
  have place : session.blocks.flatten[i]? = some session.blocks[count][i - session.sent count] := by
    rw [split, List.getElem?_append_right low]
    change (session.blocks[count] ++ _)[i - session.sent count]? = _
    rw [List.getElem?_append_left inside, List.getElem?_eq_getElem inside]
  have file : session.file[i]? = session.blocks.flatten[i]? := by
    obtain ⟨padding, shape⟩ := session.carries
    rw [← shape, List.getElem?_append_left inFile]
  rw [stored, byte, List.getD_eq_getElem?_getD, file, place]
  rfl

theorem At.stores {count : Nat} (place : session.At dest r (.data count))
    (within : count < session.blocks.length) (fits : session.file.length ≤ dest.bufsz) :
    session.At dest (storeBlock dest session.blocks[count].length (r.holding session.blocks[count]))
      (.data (count + 1)) := by
  cases place with
  | data _ _ header trailer expect stored =>
      have sized := session.sized _ (List.getElem_mem within)
      have here := session.sent_lt within
      have next := session.sent_succ within
      have room := dest.room
      have fsize : (r.holding session.blocks[count]).fsize = session.file.length := header.fsize
      have before : (r.holding session.blocks[count]).total = session.sent count :=
        stored.total.trans (Nat.min_eq_right (Nat.le_of_lt here))
      have total : r.total = session.sent count := before
      have small : session.blocks[count].length ≤ 1024 := by
        unfold BlockSized at sized
        omega
      have copy := copied_eq dest (r.holding session.blocks[count]) small (by omega) (by omega)
      rw [fsize, before] at copy
      have after : u32 ((session.sent count : Int) +
          (min session.blocks[count].length (session.file.length - session.sent count) : Nat)) =
            min session.file.length (session.sent (count + 1)) := by
        unfold u32
        omega
      refine .data (count + 1) within ⟨header.haveHeader, header.fsize, header.name⟩ trailer ?_ ?_
      · change r.expect + 1 = _
        rw [expect, BitVec.ofNat_add (count + 1)]
        rfl
      · unfold storeBlock
        dsimp only [Receiver.putc]
        rw [copy, before, after]
        refine ⟨rfl, ?_⟩
        dsimp only
        intro i inside
        have place : offset dest.buf (dest.buf + BitVec.ofNat 32 i) = i := offset_add _ (by omega)
        have range : session.sent count + min session.blocks[count].length
            (session.file.length - session.sent count) ≤ 2 ^ 32 := by omega
        rw [load, Memory.store_at _ dest.buf _ _ range, place]
        by_cases fresh : session.sent count ≤ i
        · rw [if_pos (by omega)]
          exact session.byte_of_block within fresh (by omega) (by omega) r.blk
        · rw [if_neg (by omega)]
          exact stored.contents i (by omega)

theorem acceptBlock_duplicate {bn : Byte} {len : Nat} (other : bn ≠ r.expect)
    (previous : bn = r.expect - 1) : acceptBlock dest bn len r = .next (r.putc ack) := by
  unfold acceptBlock
  rw [if_neg other, if_pos previous]

theorem acceptBlock_data (dest : Buffer) (r : Receiver) {bn : Byte} (len : Nat) (expected : bn = r.expect)
    (trailer : r.trailer = false) (header : r.haveHeader = true) :
    acceptBlock dest bn len r = .next (storeBlock dest len r) := by
  unfold acceptBlock
  rw [if_pos expected, trailer, header]
  rfl

/-- What an intact item leads to. -/
inductive Arrived (session : Session) (dest : Buffer) (position : Nat) (before : Receiver) :
    Verdict → Prop where
  | accepted (after : Receiver) (stage : Stage) (place : session.At dest after stage)
      (count : stage.accepted session = position + 1) (answered : Acknowledged before after) :
      Arrived session dest position before (.next after)
  | finished (after : Receiver) (last : position = session.blocks.length + 2)
      (header : session.HeaderTaken after) (stored : session.Stored dest (position + 1) after)
      (size : after.size = session.file.length) (answered : Acknowledged before after) :
      Arrived session dest position before (.returned (int32 session.file.length) after)

theorem numbered_getElem? {first index : Nat} {blocks : List (List Byte)} {item : Item}
    (found : (numbered first blocks)[index]? = some item) :
    ∃ within : index < blocks.length, item = .block (BitVec.ofNat 8 (first + index)) blocks[index] := by
  induction blocks generalizing first index with
  | nil => cases found
  | cons payload rest induction_hypothesis =>
      cases index with
      | zero =>
          cases found
          exact ⟨Nat.succ_pos _, rfl⟩
      | succ index =>
          obtain ⟨within, shape⟩ := induction_hypothesis found
          refine ⟨Nat.succ_lt_succ within, ?_⟩
          rw [shape, Nat.add_right_comm, Nat.add_assoc]
          rfl

theorem numbered_length (first : Nat) (blocks : List (List Byte)) :
    (numbered first blocks).length = blocks.length := by
  induction blocks generalizing first with
  | nil => rfl
  | cons payload rest induction_hypothesis => rw [numbered, List.length_cons, induction_hypothesis]; rfl

inductive Current (session : Session) : Nat → Item → Prop where
  | header : Current session 0 (.block 0 session.header.payload)
  | data (index : Nat) (within : index < session.blocks.length) :
      Current session (index + 1) (.block (BitVec.ofNat 8 (index + 1)) session.blocks[index])
  | eot : Current session (session.blocks.length + 1) .eot
  | null : Current session (session.blocks.length + 2) (.block 0 session.null)

theorem current_of_items {position : Nat} {item : Item}
    (found : session.items[position]? = some item) : Current session position item := by
  cases position with
  | zero =>
      cases found
      exact .header
  | succ index =>
      change (numbered 1 session.blocks ++ [.eot, .block 0 session.null])[index]? = some item at found
      by_cases within : index < session.blocks.length
      · rw [List.getElem?_append_left (by rw [numbered_length]; exact within)] at found
        obtain ⟨_, rfl⟩ := numbered_getElem? found
        rw [Nat.add_comm 1 index]
        exact .data index within
      · rw [List.getElem?_append_right (by rw [numbered_length]; omega), numbered_length] at found
        obtain ⟨beyond, rfl⟩ := Nat.exists_eq_add_of_le (Nat.le_of_not_lt within)
        rw [Nat.add_sub_cancel_left] at found
        match beyond with
        | 0 =>
            cases found
            exact .eot
        | 1 =>
            cases found
            exact .null
        | beyond + 2 => cases found

section Arrival

variable {before : Receiver} {stage : Stage} {position : Nat}

theorem At.takes_header (place : session.At dest before .fresh) :
    acceptBlock dest 0 session.header.payload.length (before.holding session.header.payload) =
        .next (session.header.accept (before.holding session.header.payload)) ∧
      session.At dest (session.header.accept (before.holding session.header.payload)) (.data 0) := by
  cases place with
  | fresh haveHeader trailer expect fsize total =>
      have holding : Spells (before.holding session.header.payload).blk 0 session.header.payload :=
        spells_overlay _ 0 _
      refine ⟨session.header.arrives dest haveHeader trailer expect fsize, ?_⟩
      have nothing : session.carried 1 = 0 := by simp [carried, sent]
      refine .data 0 (Nat.zero_le _) ⟨rfl, session.size, ?_⟩ trailer rfl ⟨total.trans nothing.symm, ?_⟩
      · exact session.header.accept_name holding
      · intro i inside
        change i < before.total at inside
        omega

theorem At.duplicate {bn : Byte} {len : Nat} {payload : List Byte}
    (place : session.At dest before stage) (other : bn ≠ before.expect)
    (previous : bn = before.expect - 1) (count : stage.accepted session = position + 1) :
    ∃ verdict, acceptBlock dest bn len (before.holding payload) = verdict ∧
      session.Arrived dest position before verdict := by
  refine ⟨_, acceptBlock_duplicate other previous, .accepted _ stage ?_ count ?_⟩
  · exact place.alike ⟨rfl, rfl, rfl, rfl, rfl, rfl, rfl⟩
  · exact ⟨rfl, [ack], rfl, List.mem_singleton_self _⟩

theorem expect_succ (count : Nat) : BitVec.ofNat 8 (count + 1 + 1) - 1 = BitVec.ofNat 8 (count + 1) := by
  rw [BitVec.ofNat_add (count + 1)]
  exact BitVec.add_sub_cancel _ _

theorem ne_expect_succ (count : Nat) : BitVec.ofNat 8 (count + 1) ≠ BitVec.ofNat 8 (count + 1 + 1) := by
  intro same
  have values := congrArg BitVec.toNat same
  rw [BitVec.toNat_ofNat, BitVec.toNat_ofNat] at values
  omega

/-- An intact item: the next one in order, or a copy of the one before. -/
theorem At.arrives {item : Item} (place : session.At dest before stage)
    (current : session.Current position item) (fits : session.file.length ≤ dest.bufsz)
    (inStep : stage.accepted session = position ∨ stage.accepted session = position + 1) :
    ∃ verdict, Poll.Consumes (turn dest before) item.wire verdict ∧
      session.Arrived dest position before verdict := by
  cases current with
  | header =>
      have arrival := session.header.sized.arrives dest before 0
      cases place with
      | fresh haveHeader trailer expect fsize total =>
          obtain ⟨accepted, taken⟩ :=
            At.takes_header (.fresh haveHeader trailer expect fsize total : session.At dest before .fresh)
          refine ⟨_, arrival, accepted ▸ .accepted _ (.data 0) taken rfl ⟨rfl, [ack, crcC], ?_, ?_⟩⟩
          · exact List.append_assoc _ _ _
          · exact List.mem_cons_self
      | data count within header trailer expect stored =>
          obtain rfl : count = 0 := by
            simp only [Stage.accepted] at inStep
            omega
          have place := At.data 0 within header trailer expect stored
          have other : (0 : Byte) ≠ before.expect := by
            rw [expect]
            decide
          have previous : (0 : Byte) = before.expect - 1 := by
            rw [expect]
            rfl
          obtain ⟨verdict, went, arrived⟩ := place.duplicate other previous rfl
          exact ⟨_, arrival, went ▸ arrived⟩
      | ended => simp only [Stage.accepted] at inStep; omega
  | data index within =>
      have arrival := (session.sized _ (List.getElem_mem within)).arrives dest before
        (BitVec.ofNat 8 (index + 1))
      cases place with
      | fresh => simp only [Stage.accepted] at inStep; omega
      | data count below header trailer expect stored =>
          have place := At.data count below header trailer expect stored
          by_cases inTurn : count = index
          · subst inTurn
            have accepted := acceptBlock_data dest (before.holding session.blocks[count])
              session.blocks[count].length expect.symm trailer header.haveHeader
            exact ⟨_, arrival, accepted ▸ .accepted _ _ (place.stores within fits) rfl
              ⟨rfl, [ack], rfl, List.mem_singleton_self _⟩⟩
          · obtain rfl : count = index + 1 := by
              simp only [Stage.accepted] at inStep
              omega
            have other : BitVec.ofNat 8 (index + 1) ≠ before.expect := by
              rw [expect]
              exact ne_expect_succ index
            have previous : BitVec.ofNat 8 (index + 1) = before.expect - 1 := by
              rw [expect, expect_succ]
            obtain ⟨verdict, went, arrived⟩ := place.duplicate other previous rfl
            exact ⟨_, arrival, went ▸ arrived⟩
      | ended => simp only [Stage.accepted] at inStep; omega
  | eot =>
      have answered : Acknowledged before (onEot { before with idle := 0 }) :=
        ⟨rfl, [ack, crcC], List.append_assoc _ _ _, List.mem_cons_self⟩
      refine ⟨_, turn_eot_consumes, .accepted _ .ended ?_ rfl answered⟩
      cases place with
      | fresh => simp only [Stage.accepted] at inStep; omega
      | data count below header trailer expect stored =>
          obtain rfl : count = session.blocks.length := by
            simp only [Stage.accepted] at inStep
            omega
          refine .ended ⟨header.haveHeader, header.fsize, header.name⟩ rfl rfl ⟨?_, stored.contents⟩
          rw [session.carried_all (by omega), ← session.carried_all (Nat.lt_succ_self _)]
          exact stored.total
      | ended header trailer expect stored =>
          exact .ended ⟨header.haveHeader, header.fsize, header.name⟩ rfl rfl
            ⟨stored.total, stored.contents⟩
  | null =>
      have arrival := session.nullSized.arrives dest before 0
      cases place with
      | fresh => simp only [Stage.accepted] at inStep; omega
      | data => simp only [Stage.accepted] at inStep; omega
      | ended header trailer expect stored =>
          have accepted : acceptBlock dest 0 session.null.length (before.holding session.null) =
              .returned (int32 before.total)
                { (before.holding session.null).putc ack with size := before.fsize } := by
            unfold acceptBlock
            rw [if_pos (by exact expect.symm), if_pos (by exact trailer)]
            rfl
          have total : before.total = session.file.length := by
            rw [stored.total, session.carried_all (by omega)]
          have whole : before.total = session.carried (session.blocks.length + 2 + 1) := by
            rw [total, session.carried_all (by omega)]
          rw [total] at accepted
          refine ⟨_, arrival, accepted ▸ .finished _ rfl ?_ ⟨whole, stored.contents⟩ header.fsize ?_⟩
          · exact ⟨header.haveHeader, header.fsize, header.name⟩
          · exact ⟨rfl, [ack], rfl, List.mem_singleton_self _⟩

end Arrival

end Session

end Mackerel.Ymodem
