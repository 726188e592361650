import Mackerel.Ymodem.Header

namespace Mackerel.Ymodem

open Bytes Bytes.Memory Serial

/-- The first cut of a data block, at the end of the file. -/
def trimmed (r : Receiver) (len : Nat) : Nat :=
  if r.fsize ≠ 0 ∧ u32 (r.total + len) > r.fsize then u32 (r.fsize - r.total) else len

/-- The indices of `buf` that a block is written to, in order. -/
def bufWrites (dest : Buffer) (bn : Byte) (len : Nat) (r : Receiver) : List Nat :=
  if bn = r.expect ∧ r.trailer = false ∧ r.haveHeader = true then
    (List.range (copied dest r len)).map fun i : Nat => u32 (r.total + i)
  else []

/-- The indices of `name` that a block is written to, in order. -/
def nameWrites (bn : Byte) (r : Receiver) : List Nat :=
  if bn = r.expect ∧ r.trailer = false ∧ r.haveHeader = false ∧ r.blk 0 ≠ 0 then
    List.range (nameEnd r.blk 100 0 + 1)
  else []

/-- What a header leaves in `name`. -/
def headerName (r : Receiver) : Block := fun k =>
  if k < nameEnd r.blk 100 0 then r.blk k else if k = nameEnd r.blk 100 0 then 0 else r.name k

/-- A header is taken over with any size. -/
def headerTaken (r : Receiver) (fsize : Nat) : Receiver :=
  ({ r with name := headerName r, fsize, haveHeader := true, expect := 1 }.putc ack).putc crcC

/-- The heads of the loop in every run, whatever the line brings. A size field that goes on behind
    `blk` gives any size. -/
inductive Head (dest : Buffer) (start : Receiver) : Receiver → Prop where
  | start : Head dest start start
  | next {r after : Receiver} {line rest : Line Byte} (head : Head dest start r)
      (turned : Turn dest r line rest (.next after)) : Head dest start after
  | beyond {r : Receiver} {bn : Byte} {payload : List Byte} {fsize : Nat}
      (head : Head dest start r) (sized : BlockSized payload)
      (read : acceptBlock dest bn payload.length (r.holding payload) = .outOfBounds)
      (word : fsize < 2 ^ 32) :
      Head dest start (headerTaken (r.holding payload) fsize)

structure Inside (dest : Buffer) (r : Receiver) : Prop where
  buffer : r.total ≤ dest.bufsz
  file : r.fsize ≠ 0 → r.total ≤ r.fsize
  fresh : r.haveHeader = false → r.total = 0 ∧ r.fsize = 0

/-- The arithmetic of the two cuts is without overflow. -/
structure NoWrap (dest : Buffer) (r : Receiver) (len : Nat) : Prop where
  block : r.total + len < 2 ^ 32
  file : r.fsize ≠ 0 → r.total ≤ r.fsize
  cut : r.total + trimmed r len < 2 ^ 32
  stored : r.total + copied dest r len < 2 ^ 32

structure WritesInside (dest : Buffer) (bn : Byte) (len : Nat) (r : Receiver) : Prop where
  buffer : ∀ k ∈ bufWrites dest bn len r, k < dest.bufsz ∧ (r.fsize ≠ 0 → k < r.fsize)
  name : ∀ k ∈ nameWrites bn r, k ≤ 100
  arithmetic : NoWrap dest r len

/-- A property of the variables after a turn, in the loop or at the return. -/
def Verdict.Holds (P : Receiver → Prop) : Verdict → Prop
  | .next r => P r
  | .returned _ r => P r
  | .outOfBounds => True

/-- Nothing changes from one state to another outside the buffers, the file and the name. -/
structure Confined (dest : Buffer) (before after : Receiver) : Prop where
  memory : ∀ addr, after.memory addr ≠ before.memory addr →
    offset dest.buf addr < dest.bufsz ∧ (before.fsize ≠ 0 → offset dest.buf addr < before.fsize)
  name : ∀ k, after.name k ≠ before.name k → k ≤ 100

section

variable {dest : Buffer} {r : Receiver} {len : Nat} {bn : Byte}

/-- The two cuts without overflow. -/
theorem copied_min (bounded : dest.bufsz ≤ 2 ^ 32 - 1025) (inside : Inside dest r) (small : len ≤ 1024) :
    trimmed r len = (if r.fsize ≠ 0 then min len (r.fsize - r.total) else len) ∧
      copied dest r len = min (trimmed r len) (dest.bufsz - r.total) := by
  obtain ⟨buffer, file, -⟩ := inside
  have sum : u32 (r.total + len) = r.total + len := by
    unfold u32
    omega
  have cut : trimmed r len = if r.fsize ≠ 0 then min len (r.fsize - r.total) else len := by
    unfold trimmed
    rw [sum]
    by_cases known : r.fsize ≠ 0
    · have within := file known
      have rest : u32 (r.fsize - r.total) = r.fsize - r.total ∨ r.total + len ≤ r.fsize := by
        unfold u32
        omega
      rw [if_pos known]
      by_cases past : r.total + len > r.fsize
      · rw [if_pos ⟨known, past⟩]
        omega
      · rw [if_neg fun both => past both.2]
        omega
    · rw [if_neg known, if_neg fun both => known both.1]
  have short : trimmed r len ≤ len := by
    rw [cut]
    split
    · exact Nat.min_le_left _ _
    · exact Nat.le_refl _
  have cutSum : u32 (r.total + trimmed r len) = r.total + trimmed r len := by
    unfold u32
    omega
  refine ⟨cut, ?_⟩
  change (if u32 (r.total + trimmed r len) > dest.bufsz then
    if r.total < dest.bufsz then dest.bufsz - r.total else 0 else trimmed r len) = _
  rw [cutSum]
  split
  · split
    · omega
    · omega
  · omega

theorem copied_bounds (bounded : dest.bufsz ≤ 2 ^ 32 - 1025) (inside : Inside dest r)
    (small : len ≤ 1024) :
    NoWrap dest r len ∧ r.total + copied dest r len ≤ dest.bufsz ∧
      (r.fsize ≠ 0 → r.total + copied dest r len ≤ r.fsize) := by
  obtain ⟨cut, stored⟩ := copied_min bounded inside small
  obtain ⟨buffer, file, -⟩ := inside
  have short : trimmed r len ≤ len := by
    rw [cut]
    split
    · exact Nat.min_le_left _ _
    · exact Nat.le_refl _
  refine ⟨⟨by omega, file, by omega, by omega⟩, by omega, fun known => ?_⟩
  have within := file known
  rw [if_pos known] at cut
  omega

theorem nameEnd_le (blk : Block) (left i : Nat) : nameEnd blk left i ≤ i + left := by
  induction left generalizing i with
  | zero => exact Nat.le_refl _
  | succ left induction_hypothesis =>
      rw [nameEnd]
      split
      · omega
      · exact Nat.le_trans (induction_hypothesis (i + 1)) (by omega)

theorem writesInside (bounded : dest.bufsz ≤ 2 ^ 32 - 1025) (inside : Inside dest r)
    (small : len ≤ 1024) : WritesInside dest bn len r := by
  obtain ⟨arithmetic, buffer, file⟩ := copied_bounds bounded inside small
  refine ⟨fun k member => ?_, fun k member => ?_, arithmetic⟩
  · unfold bufWrites at member
    split at member
    · obtain ⟨i, listed, rfl⟩ := List.mem_map.mp member
      have before := List.mem_range.mp listed
      have index : u32 (r.total + i) = r.total + i := by
        have word := arithmetic.stored
        unfold u32
        omega
      rw [index]
      exact ⟨by omega, fun known => Nat.lt_of_lt_of_le (by omega) (file known)⟩
    · cases member
  · unfold nameWrites at member
    split at member
    · have before := List.mem_range.mp member
      have last := nameEnd_le r.blk 100 0
      omega
    · cases member

/-- A header is taken over, is the null header, or goes on behind `blk`. -/
theorem acceptHeader_cases (r : Receiver) :
    acceptHeader r = .returned 0 (r.putc ack) ∧ r.blk 0 = 0 ∨
    r.blk 0 ≠ 0 ∧ (acceptHeader r = .outOfBounds ∨
      ∃ fsize, acceptHeader r = .next (headerTaken r fsize)) := by
  unfold acceptHeader
  by_cases null : r.blk 0 = 0
  · rw [if_pos null]
    exact .inl ⟨rfl, null⟩
  · rw [if_neg null]
    refine .inr ⟨null, ?_⟩
    dsimp only
    cases skipSpaces r.blk (1024 - (nameEnd r.blk 100 0 + 1)) (nameEnd r.blk 100 0 + 1) with
    | none => exact .inl rfl
    | some j =>
        dsimp only
        cases readSize r.blk (1024 - j) j r.fsize with
        | none => exact .inl rfl
        | some fsize => exact .inr ⟨fsize, rfl⟩

/-- What a block does, by the state that it finds. -/
theorem acceptBlock_cases (dest : Buffer) (bn : Byte) (len : Nat) (r : Receiver) :
    (bn = r.expect ∧ r.trailer = true ∧
      acceptBlock dest bn len r = .returned (int32 r.total) { r.putc ack with size := r.fsize }) ∨
    (bn = r.expect ∧ r.trailer = false ∧ r.haveHeader = false ∧
      acceptBlock dest bn len r = acceptHeader r) ∨
    (bn = r.expect ∧ r.trailer = false ∧ r.haveHeader = true ∧
      acceptBlock dest bn len r = .next (storeBlock dest len r)) ∨
    (bn ≠ r.expect ∧ bn = r.expect - 1 ∧ acceptBlock dest bn len r = .next (r.putc ack)) ∨
    bn ≠ r.expect ∧ bn ≠ r.expect - 1 ∧ acceptBlock dest bn len r = .next (r.putc nak) := by
  unfold acceptBlock
  by_cases expected : bn = r.expect
  · rw [if_pos expected]
    cases r.trailer with
    | true => exact .inl ⟨expected, rfl, rfl⟩
    | false =>
        cases r.haveHeader with
        | false => exact .inr (.inl ⟨expected, rfl, rfl, rfl⟩)
        | true => exact .inr (.inr (.inl ⟨expected, rfl, rfl, rfl⟩))
  · rw [if_neg expected]
    by_cases duplicate : bn = r.expect - 1
    · rw [if_pos duplicate]
      exact .inr (.inr (.inr (.inl ⟨expected, duplicate, rfl⟩)))
    · rw [if_neg duplicate]
      exact .inr (.inr (.inr (.inr ⟨expected, duplicate, rfl⟩)))

/-- What holds after a block, in whatever way it is taken. -/
theorem acceptBlock_holds {P : Receiver → Prop} (ends : P { r.putc ack with size := r.fsize })
    (answers : ∀ reply, P (r.putc reply))
    (header : r.haveHeader = false → ∀ fsize, P (headerTaken r fsize))
    (stores : r.haveHeader = true → P (storeBlock dest len r)) :
    (acceptBlock dest bn len r).Holds P := by
  rcases acceptBlock_cases dest bn len r with ⟨-, -, ended⟩ | ⟨-, -, none_yet, first⟩ |
    ⟨-, -, taken, stored⟩ | ⟨-, -, again⟩ | ⟨-, -, refused⟩
  · rw [ended]
    exact ends
  · rw [first]
    rcases acceptHeader_cases r with ⟨null, -⟩ | ⟨-, beyond | ⟨fsize, takes⟩⟩
    · rw [null]
      exact answers ack
    · rw [beyond]
      trivial
    · rw [takes]
      exact header none_yet fsize
  · rw [stored]
    exact stores taken
  · rw [again]
    exact answers ack
  · rw [refused]
    exact answers nak

theorem Inside.keeps {after : Receiver} (inside : Inside dest r) (total : after.total = r.total)
    (fsize : after.fsize = r.fsize) (haveHeader : after.haveHeader = r.haveHeader) :
    Inside dest after := by
  obtain ⟨buffer, file, fresh⟩ := inside
  exact ⟨total ▸ buffer, by rw [total, fsize]; exact file, by rw [total, fsize, haveHeader]; exact fresh⟩

theorem Inside.header (inside : Inside dest r) (none_yet : r.haveHeader = false) (fsize : Nat) :
    Inside dest (headerTaken r fsize) := by
  have total := (inside.fresh none_yet).1
  refine ⟨inside.buffer, fun _ => ?_, fun taken => ?_⟩
  · change r.total ≤ fsize
    omega
  · cases taken

theorem Inside.stored (bounded : dest.bufsz ≤ 2 ^ 32 - 1025) (small : len ≤ 1024)
    (taken : r.haveHeader = true) (inside : Inside dest r) :
    Inside dest (storeBlock dest len r) := by
  obtain ⟨arithmetic, buffer, file⟩ := copied_bounds bounded inside small
  have total : (storeBlock dest len r).total = r.total + copied dest r len := by
    have word := arithmetic.stored
    change u32 (r.total + copied dest r len) = _
    unfold u32
    omega
  have header : (storeBlock dest len r).haveHeader = true := taken
  refine ⟨by omega, fun known => ?_, fun none_yet => ?_⟩
  · rw [total]
    exact file known
  · rw [header] at none_yet
    cases none_yet

theorem Inside.acceptBlock (bounded : dest.bufsz ≤ 2 ^ 32 - 1025) (small : len ≤ 1024)
    (inside : Inside dest r) : (acceptBlock dest bn len r).Holds (Inside dest) := by
  apply acceptBlock_holds
  · exact inside.keeps rfl rfl rfl
  · exact fun _ => inside.keeps rfl rfl rfl
  · exact inside.header
  · exact fun taken => inside.stored bounded small taken

theorem blockLength_le (hdr : Byte) : blockLength hdr ≤ 1024 := by
  unfold blockLength
  split
  · decide
  · exact Nat.le_refl _

theorem onTimeout_cases (r : Receiver) :
    onTimeout r = .returned errTimeout { r with idle := r.idle + 1 } ∨
      onTimeout r = .next ({ r with idle := r.idle + 1 }.putc
        (if !r.haveHeader || r.trailer then crcC else nak)) := by
  unfold onTimeout
  dsimp only
  by_cases spent : maxIdle < r.idle + 1
  · exact .inl (if_pos spent)
  · exact .inr (if_neg spent)

/-- A timeout only counts, and prompts the sender. -/
theorem onTimeout_holds {P : Receiver → Prop} (returns : P { r with idle := r.idle + 1 })
    (prompts : ∀ prompt, P ({ r with idle := r.idle + 1 }.putc prompt)) : (onTimeout r).Holds P := by
  rcases onTimeout_cases r with spent | prompted
  · rw [spent]
    exact returns
  · rw [prompted]
    exact prompts _

/-- The verdict of a turn keeps the bounds, whether the function goes on or returns. -/
theorem Turn.inside {line rest : Line Byte} {verdict : Verdict}
    (bounded : dest.bufsz ≤ 2 ^ 32 - 1025) (turned : Turn dest r line rest verdict)
    (inside : Inside dest r) : verdict.Holds (Inside dest) := by
  cases turned with
  | timeout => exact onTimeout_holds (inside.keeps rfl rfl rfl) fun _ => inside.keeps rfl rfl rfl
  | eot => exact inside.keeps rfl rfl rfl
  | cancelled => exact inside.keeps rfl rfl rfl
  | junk => exact inside.keeps rfl rfl rfl
  | bad => exact inside.keeps rfl rfl rfl
  | block hdr used _ bn payload begins intact =>
      have holding : Inside dest { r with idle := 0, blk := overlay 0 payload r.blk } :=
        inside.keeps rfl rfl rfl
      exact holding.acceptBlock bounded (blockLength_le hdr)

theorem Confined.same {after : Receiver} (memory : after.memory = r.memory)
    (name : after.name = r.name) : Confined dest r after :=
  ⟨fun _ changed => absurd (congrFun memory _) changed,
    fun _ changed => absurd (congrFun name _) changed⟩

theorem Confined.header (fsize : Nat) : Confined dest r (headerTaken r fsize) := by
  refine ⟨fun _ changed => absurd rfl changed, fun k changed => ?_⟩
  by_contra outside
  have last := nameEnd_le r.blk 100 0
  apply changed
  change headerName r k = r.name k
  rw [headerName, if_neg (by omega), if_neg (by omega)]

theorem Confined.stored (bounded : dest.bufsz ≤ 2 ^ 32 - 1025) (small : len ≤ 1024)
    (inside : Inside dest r) : Confined dest r (storeBlock dest len r) := by
  obtain ⟨-, buffer, file⟩ := copied_bounds bounded inside small
  refine ⟨fun addr changed => ?_, fun _ changed => absurd rfl changed⟩
  have within : r.total ≤ offset dest.buf addr ∧
      offset dest.buf addr < r.total + copied dest r len := by
    by_contra outside
    apply changed
    change r.memory.store (dest.buf + BitVec.ofNat 32 r.total) _ _ _ = _
    rw [store_at _ _ _ _ (by omega), if_neg outside]
  exact ⟨by omega, fun known => Nat.lt_of_lt_of_le within.2 (file known)⟩

theorem Confined.acceptBlock (bounded : dest.bufsz ≤ 2 ^ 32 - 1025) (small : len ≤ 1024)
    (inside : Inside dest r) : (acceptBlock dest bn len r).Holds (Confined dest r) := by
  apply acceptBlock_holds
  · exact .same rfl rfl
  · exact fun _ => .same rfl rfl
  · exact fun _ => .header
  · exact fun _ => .stored bounded small inside

theorem Turn.confined {line rest : Line Byte} {verdict : Verdict}
    (bounded : dest.bufsz ≤ 2 ^ 32 - 1025) (turned : Turn dest r line rest verdict)
    (inside : Inside dest r) : verdict.Holds (Confined dest r) := by
  cases turned with
  | timeout => exact onTimeout_holds (.same rfl rfl) fun _ => .same rfl rfl
  | eot => exact .same rfl rfl
  | cancelled => exact .same rfl rfl
  | junk => exact .same rfl rfl
  | bad => exact .same rfl rfl
  | block hdr used _ bn payload begins intact =>
      have holding : Inside dest { r with idle := 0, blk := overlay 0 payload r.blk } :=
        inside.keeps rfl rfl rfl
      have kept := @Confined.acceptBlock dest _ _ bn bounded (blockLength_le hdr) holding
      cases accepted : Ymodem.acceptBlock dest bn (blockLength hdr)
          { r with idle := 0, blk := overlay 0 payload r.blk } with
      | next after =>
          rw [accepted] at kept
          exact ⟨kept.memory, kept.name⟩
      | returned result after =>
          rw [accepted] at kept
          exact ⟨kept.memory, kept.name⟩
      | outOfBounds => trivial

theorem start_inside (dest : Buffer) (memory : Memory 32) (blk name : Block) :
    Inside dest (.start memory blk name) :=
  ⟨Nat.zero_le _, fun known => absurd rfl known, fun _ => ⟨rfl, rfl⟩⟩

theorem Head.inside {memory : Memory 32} {blk name : Block}
    (bounded : dest.bufsz ≤ 2 ^ 32 - 1025) (head : Head dest (.start memory blk name) r) :
    Inside dest r := by
  induction head with
  | start => exact start_inside dest memory blk name
  | next _ turned induction_hypothesis =>
      exact turned.inside bounded induction_hypothesis
  | @beyond r bn payload fsize _ _ read _ induction_hypothesis =>
      have holding : Inside dest (r.holding payload) := induction_hypothesis.keeps rfl rfl rfl
      rcases acceptBlock_cases dest bn payload.length (r.holding payload) with ⟨-, -, ends⟩ |
        ⟨-, -, none_yet, -⟩ | ⟨-, -, -, stores⟩ | ⟨-, -, again⟩ | ⟨-, -, refused⟩
      · rw [ends] at read
        cases read
      · exact holding.header none_yet fsize
      · rw [stores] at read
        cases read
      · rw [again] at read
        cases read
      · rw [refused] at read
        cases read

/-- At every head the bounds hold, every block is written to indices inside the buffers without an
    overflow, and no turn changes anything else. -/
theorem ymodem_writes_inside {memory : Memory 32} {blk name : Block}
    (bounded : dest.bufsz ≤ 2 ^ 32 - 1025) (head : Head dest (.start memory blk name) r) :
    Inside dest r ∧
      (∀ bn hdr payload, WritesInside dest bn (blockLength hdr)
        { r with idle := 0, blk := overlay 0 payload r.blk }) ∧
      ∀ line rest verdict, Turn dest r line rest verdict →
        verdict.Holds (Inside dest) ∧ verdict.Holds (Confined dest r) := by
  have inside := head.inside bounded
  refine ⟨inside, fun bn hdr payload => ?_, fun line rest verdict turned => ?_⟩
  · have holding : Inside dest { r with idle := 0, blk := overlay 0 payload r.blk } :=
      inside.keeps rfl rfl rfl
    exact writesInside bounded holding (blockLength_le hdr)
  · exact ⟨turned.inside bounded inside, turned.confined bounded inside⟩

theorem Head.block {start after : Receiver} {payload : List Byte} (head : Head dest start r)
    (sized : BlockSized payload)
    (accepted : acceptBlock dest bn payload.length (r.holding payload) = .next after) :
    Head dest start after := by
  have turned := @Turn.block dest r _ _ [] bn payload (startByte_begins payload) (sized.intact bn)
  rw [sized.length] at turned
  exact .next head (accepted ▸ turned)

/-- The largest destination. -/
def largestBuffer : Buffer := ⟨0, 2 ^ 32 - 1025, by decide⟩

def emptyStart : Receiver := .start (fun _ => 0) (fun _ => 0) (fun _ => 0)

def headerRead : Receiver := fiveBytes.accept (emptyStart.holding fiveBytes.payload)

def blockHeld : Receiver := headerRead.holding (padded [1, 2, 3, 4, 5] 128)

def blockStored : Receiver := storeBlock largestBuffer 128 blockHeld

theorem headerRead_head : Head largestBuffer emptyStart headerRead :=
  .block .start fiveBytes.sized (fiveBytes.arrives largestBuffer rfl rfl rfl rfl)

/-- The block behind the header is cut at the end of the file. -/
theorem largest_writes_inside :
    largestBuffer.bufsz ≤ 2 ^ 32 - 1025 ∧
      bufWrites largestBuffer 1 (blockLength soh) blockHeld = [0, 1, 2, 3, 4] ∧
      WritesInside largestBuffer 1 (blockLength soh) blockHeld ∧
      Inside largestBuffer blockStored ∧ blockStored.total = 5 := by
  have accepted : acceptBlock largestBuffer 1 (padded [1, 2, 3, 4, 5] 128).length blockHeld = .next blockStored := rfl
  have stored : Head largestBuffer emptyStart blockStored := headerRead_head.block (.inl rfl) accepted
  exact ⟨by decide, by decide, (ymodem_writes_inside (by decide) headerRead_head).2.1 1 soh _,
    (ymodem_writes_inside (by decide) stored).1, by decide⟩

end

end Mackerel.Ymodem
