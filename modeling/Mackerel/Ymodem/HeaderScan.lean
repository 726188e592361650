import Mackerel.Ymodem.Bounds

namespace Mackerel.Ymodem

open Bytes Serial

instance : DecidablePred isDigit := fun byte =>
  inferInstanceAs (Decidable (0x30 ≤ byte ∧ byte ≤ 0x39))

def isSpace (byte : Byte) : Bool := byte == 0x20

def isNonzero (byte : Byte) : Bool := byte != 0

def isDecimal (byte : Byte) : Bool := decide (isDigit byte)

/-- The indices that the loop over the spaces reads, from `j` on; the last may be behind `blk`. -/
def spacesRead (blk : Block) : (left j : Nat) → List Nat
  | 0, j => [j]
  | left + 1, j => j :: if isSpace (blk j) then spacesRead blk left (j + 1) else []

/-- The indices that the loop over the digits reads. -/
def digitsRead (blk : Block) : (left j : Nat) → List Nat
  | 0, j => [j]
  | left + 1, j => j :: if isDecimal (blk j) then digitsRead blk left (j + 1) else []

/-- The indices that a header block is read at, in order. The loop over the name tests the byte
    before the index. -/
def headerReads (blk : Block) : List Nat :=
  if blk 0 = 0 then [0]
  else
    let i := nameEnd blk 100 0
    0 :: List.range (i + 1) ++ spacesRead blk (1024 - (i + 1)) (i + 1) ++
      match skipSpaces blk (1024 - (i + 1)) (i + 1) with
      | none => []
      | some j => digitsRead blk (1024 - j) j

section Payload

variable (payload : List Byte)

/-- The bytes before the first zero. -/
def statedName : List Byte := payload.takeWhile isNonzero

/-- The space for a name is 100 bytes. -/
def cutName : List Byte := (statedName payload).take 100

/-- What follows the spaces from an index on. -/
def sizeField (start : Nat) : List Byte :=
  (payload.drop start).dropWhile isSpace

def sizeDigits (start : Nat) : List Byte := (sizeField payload start).takeWhile isDecimal

/-- What follows the digits. -/
def sizeEnd (start : Nat) : List Byte := (sizeField payload start).dropWhile isDecimal

/-- The decimal number below 2^32 that follows the first zero, after spaces, if there is one. -/
def statedSize : Option Nat :=
  let digits := sizeDigits payload ((statedName payload).length + 1)
  if digits ≠ [] ∧ decimal 0 digits < 2 ^ 32 then some (decimal 0 digits) else none

end Payload

/-- A header block has been read out, from nothing but the block. -/
structure HeaderRead (dest : Buffer) (r : Receiver) (payload : List Byte) : Prop where
  inside : ∀ k ∈ headerReads (r.holding payload).blk, k < payload.length
  taken : (acceptBlock dest 0 payload.length (r.holding payload)).Holds fun after =>
    Spells after.name 0 (cutName payload ++ [0]) ∧
      ∀ size, statedSize payload = some size → after.fsize = size

/-- Something that is neither a space nor a digit ends the size field inside of the block, and the
    field is where it is looked for. -/
def HeaderSuits (payload : List Byte) : Prop :=
  if payload.head? = some 0 then ∀ size, statedSize payload = some size → size = 0
  else
    sizeEnd payload ((cutName payload).length + 1) ≠ [] ∧
      ((statedName payload).length ≤ 100 ∨ ∀ size, statedSize payload = some size →
        decimal 0 (sizeDigits payload ((cutName payload).length + 1)) % 2 ^ 32 = size)

section Loops

variable {blk : Block}

/-- The spaces end inside of a text, or are read to its end. -/
theorem spaces_scan {text : List Byte} {left j : Nat} (spells : Spells blk j text)
    (room : text.length ≤ left) :
    let field := text.dropWhile isSpace
    (field = [] ∧ j + text.length ∈ spacesRead blk left j) ∨
    ∃ before, j + text.length = before + field.length ∧ field ≠ [] ∧ Spells blk before field ∧
      skipSpaces blk left j = some before ∧ ∀ k ∈ spacesRead blk left j, k < j + text.length := by
  induction text generalizing left j with
  | nil =>
      refine .inl ⟨rfl, ?_⟩
      cases left with
      | zero => exact List.mem_singleton_self j
      | succ left => exact List.mem_cons_self
  | cons byte text induction_hypothesis =>
      rw [List.length_cons] at room
      obtain ⟨left, rfl⟩ := Nat.exists_eq_succ_of_ne_zero (by omega : left ≠ 0)
      rw [skipSpaces, spacesRead, spells.1, List.length_cons]
      dsimp only
      by_cases space : byte = 0x20
      · have skipped : isSpace byte = true := beq_iff_eq.mpr space
        rw [if_pos space, if_pos skipped, List.dropWhile_cons_of_pos skipped]
        have later := induction_hypothesis spells.2 (Nat.le_of_succ_le_succ room)
        dsimp only at later
        have same : j + 1 + text.length = j + (text.length + 1) := by omega
        rw [same] at later
        rcases later with ⟨empty, reached⟩ | ⟨before, place, some_, field, found, reads⟩
        · exact .inl ⟨empty, List.mem_cons_of_mem _ reached⟩
        · refine .inr ⟨before, place, some_, field, found, fun k member => ?_⟩
          rcases List.mem_cons.mp member with rfl | member
          · omega
          · exact reads k member
      · have kept : ¬isSpace byte = true := fun skipped => space (beq_iff_eq.mp skipped)
        rw [if_neg space, if_neg kept, List.dropWhile_cons_of_neg kept]
        refine .inr ⟨j, ?_, List.cons_ne_nil _ _, spells, rfl, fun k member => ?_⟩
        · rw [List.length_cons]
        · obtain rfl := List.mem_singleton.mp member
          omega

theorem decimal_mod (value : Nat) (digits : List Byte) :
    decimal (value % 2 ^ 32) digits % 2 ^ 32 = decimal value digits % 2 ^ 32 := by
  induction digits generalizing value with
  | nil => exact Nat.mod_mod _ _
  | cons digit digits induction_hypothesis =>
      change decimal (value % 2 ^ 32 * 10 + (digit.toNat - 0x30)) digits % 2 ^ 32 =
        decimal (value * 10 + (digit.toNat - 0x30)) digits % 2 ^ 32
      rw [← induction_hypothesis, ← induction_hypothesis (value * 10 + (digit.toNat - 0x30))]
      have same : (value % 2 ^ 32 * 10 + (digit.toNat - 0x30)) % 2 ^ 32 =
          (value * 10 + (digit.toNat - 0x30)) % 2 ^ 32 := by omega
      rw [same]

/-- The digits end inside of a text, or are read to its end. -/
theorem digits_scan {text : List Byte} {left j value : Nat} (spells : Spells blk j text)
    (room : text.length ≤ left) (word : value < 2 ^ 32) :
    (text.dropWhile isDecimal = [] ∧ j + text.length ∈ digitsRead blk left j) ∨
    text.dropWhile isDecimal ≠ [] ∧
      readSize blk left j value =
        some (decimal value (text.takeWhile isDecimal) % 2 ^ 32) ∧
      ∀ k ∈ digitsRead blk left j, k < j + text.length := by
  induction text generalizing left j value with
  | nil =>
      refine .inl ⟨rfl, ?_⟩
      cases left with
      | zero => exact List.mem_singleton_self j
      | succ left => exact List.mem_cons_self
  | cons byte text induction_hypothesis =>
      rw [List.length_cons] at room
      obtain ⟨left, rfl⟩ := Nat.exists_eq_succ_of_ne_zero (by omega : left ≠ 0)
      rw [readSize, digitsRead, spells.1, List.length_cons]
      by_cases digit : isDigit byte
      · have bounds : 0x30 ≤ byte ∧ byte ≤ 0x39 := digit
        have counted : isDecimal byte = true := decide_eq_true digit
        rw [if_pos bounds, if_pos counted, List.dropWhile_cons_of_pos counted,
          List.takeWhile_cons_of_pos counted]
        have next : u32 (value * 10 + (byte.toNat - 0x30)) =
            (value * 10 + (byte.toNat - 0x30)) % 2 ^ 32 := by
          have low : 0x30 ≤ byte.toNat := digit.1
          unfold u32
          omega
        have later := induction_hypothesis spells.2 (Nat.le_of_succ_le_succ room)
          (u32_lt (value * 10 + (byte.toNat - 0x30)))
        have same : j + 1 + text.length = j + (text.length + 1) := by omega
        rw [same] at later
        rcases later with ⟨empty, reached⟩ | ⟨some_, read, reads⟩
        · exact .inl ⟨empty, List.mem_cons_of_mem _ reached⟩
        · refine .inr ⟨some_, ?_, fun k member => ?_⟩
          · rw [read, next, decimal_mod]
            rfl
          · rcases List.mem_cons.mp member with rfl | member
            · omega
            · exact reads k member
      · have bounds : ¬(0x30 ≤ byte ∧ byte ≤ 0x39) := digit
        have ended : ¬isDecimal byte = true := fun counted => digit (of_decide_eq_true counted)
        rw [if_neg bounds, if_neg ended, List.dropWhile_cons_of_neg ended,
          List.takeWhile_cons_of_neg ended]
        refine .inr ⟨List.cons_ne_nil _ _, ?_, fun k member => ?_⟩
        · change some value = some (value % 2 ^ 32)
          rw [Nat.mod_eq_of_lt word]
        · obtain rfl := List.mem_singleton.mp member
          omega

theorem nameEnd_cut {text : List Byte} {left i : Nat} (spells : Spells blk i text)
    (long : left ≤ text.length) :
    nameEnd blk left i = i + ((text.takeWhile isNonzero).take left).length := by
  induction left generalizing i text with
  | zero => rw [List.take_zero]; rfl
  | succ left induction_hypothesis =>
      cases text with
      | nil => cases long
      | cons byte text =>
          rw [nameEnd, spells.1]
          by_cases zero : byte = 0
          · have ended : ¬isNonzero byte = true := fun goes => (bne_iff_ne.mp goes) zero
            rw [if_pos zero, List.takeWhile_cons_of_neg ended]
            rfl
          · have goes : isNonzero byte = true := bne_iff_ne.mpr zero
            rw [if_neg zero, List.takeWhile_cons_of_pos goes, List.take_succ_cons,
              induction_hypothesis spells.2 (Nat.le_of_succ_le_succ long), List.length_cons]
            omega

theorem Spells.congr {other : Block} {text : List Byte} {i : Nat} (spells : Spells blk i text)
    (same : ∀ k, i ≤ k → k < i + text.length → other k = blk k) : Spells other i text := by
  apply spells_of_getElem
  intro k inside
  rw [same (i + k) (by omega) (by omega)]
  exact spells.getElem inside

end Loops

section Scan

variable {payload : List Byte} {r : Receiver} {dest : Buffer}

theorem cutName_length_le (payload : List Byte) : (cutName payload).length ≤ 100 :=
  List.length_take_le _ _

theorem cutName_prefix (payload : List Byte) : cutName payload <+: payload :=
  (List.take_prefix _ _).trans (List.takeWhile_prefix _)

theorem holding_spells (payload : List Byte) (r : Receiver) :
    Spells (r.holding payload).blk 0 payload :=
  spells_overlay _ 0 _

/-- The loop over the name ends where the name is cut. -/
theorem nameEnd_holding (sized : BlockSized payload) :
    nameEnd (r.holding payload).blk 100 0 = (cutName payload).length := by
  have long : 100 ≤ payload.length := by
    rcases sized with short | full
    · omega
    · omega
  rw [nameEnd_cut (holding_spells payload r) long, Nat.zero_add]
  rfl

theorem Spells.drop {text : List Byte} {blk : Block} {start : Nat} (spells : Spells blk 0 text)
    (inside : start ≤ text.length) : Spells blk start (text.drop start) := by
  rw [← List.take_append_drop start text, spells_append, List.length_take, Nat.min_eq_left inside,
    Nat.zero_add] at spells
  exact spells.2

theorem holding_first (some_ : payload ≠ []) (named : payload.head? ≠ some 0) :
    (r.holding payload).blk 0 ≠ 0 := by
  have spells := holding_spells payload r
  cases payload with
  | nil => exact absurd rfl some_
  | cons byte rest =>
      rw [spells.1]
      intro zero
      exact named (congrArg some zero)

/-- The header that is taken over from a payload has its name. -/
theorem headerTaken_name (sized : BlockSized payload) (fsize : Nat) :
    Spells (headerTaken (r.holding payload) fsize).name 0 (cutName payload ++ [0]) := by
  have ending : nameEnd (r.holding payload).blk 100 0 = (cutName payload).length :=
    nameEnd_holding sized
  obtain ⟨rest, split⟩ := cutName_prefix payload
  have parts : Spells (r.holding payload).blk 0 (cutName payload ++ rest) := by
    rw [split]
    exact holding_spells payload r
  rw [spells_append, Nat.zero_add]
  refine ⟨(spells_append.mp parts).1.congr fun k _ inside => ?_, ?_, trivial⟩
  · change headerName (r.holding payload) k = _
    rw [headerName, ending, if_pos (by omega)]
  · change headerName (r.holding payload) _ = 0
    rw [headerName, ending, if_neg (Nat.lt_irrefl _), if_pos rfl]

/-- A number that follows a name of at most 100 bytes is where the size is looked for. -/
theorem statedSize_of_short {size : Nat} (short : (statedName payload).length ≤ 100)
    (stated : statedSize payload = some size) :
    decimal 0 (sizeDigits payload ((cutName payload).length + 1)) % 2 ^ 32 = size := by
  have cut : cutName payload = statedName payload := List.take_of_length_le short
  rw [statedSize] at stated
  rw [cut]
  split at stated
  · rename_i written
    cases stated
    exact Nat.mod_eq_of_lt written.2
  · cases stated

/-- What is read of a header that is not null, and what follows. -/
theorem header_scan (sized : BlockSized payload) (named : payload.head? ≠ some 0)
    (fresh : r.fsize = 0) :
    (sizeEnd payload ((cutName payload).length + 1) = [] ∧
      payload.length ∈ headerReads (r.holding payload).blk) ∨
    sizeEnd payload ((cutName payload).length + 1) ≠ [] ∧
      (∀ k ∈ headerReads (r.holding payload).blk, k < payload.length) ∧
      acceptHeader (r.holding payload) = .next (headerTaken (r.holding payload)
        (decimal 0 (sizeDigits payload ((cutName payload).length + 1)) % 2 ^ 32)) := by
  have long : 128 ≤ payload.length ∧ payload.length ≤ 1024 := by
    rcases sized with short | full
    · omega
    · omega
  have first : (r.holding payload).blk 0 ≠ 0 :=
    holding_first (List.ne_nil_of_length_pos (by omega)) named
  have ending : nameEnd (r.holding payload).blk 100 0 = (cutName payload).length :=
    nameEnd_holding sized
  have cut := cutName_length_le payload
  have rest : Spells (r.holding payload).blk ((cutName payload).length + 1)
      (payload.drop ((cutName payload).length + 1)) := (holding_spells payload r).drop (by omega)
  have total : (cutName payload).length + 1 +
      (payload.drop ((cutName payload).length + 1)).length = payload.length := by
    rw [List.length_drop]
    omega
  have names (k : Nat) (member : k ∈ 0 :: List.range ((cutName payload).length + 1)) :
      k < payload.length := by
    rcases List.mem_cons.mp member with rfl | member
    · omega
    · have before := List.mem_range.mp member
      omega
  have reads : headerReads (r.holding payload).blk =
      0 :: List.range ((cutName payload).length + 1) ++
        spacesRead (r.holding payload).blk (1024 - ((cutName payload).length + 1))
          ((cutName payload).length + 1) ++
        match skipSpaces (r.holding payload).blk (1024 - ((cutName payload).length + 1))
          ((cutName payload).length + 1) with
        | none => []
        | some j => digitsRead (r.holding payload).blk (1024 - j) j := by
    rw [headerReads, if_neg first]
    dsimp only
    rw [ending]
  have taken : acceptHeader (r.holding payload) =
      match skipSpaces (r.holding payload).blk (1024 - ((cutName payload).length + 1))
          ((cutName payload).length + 1) with
      | none => .outOfBounds
      | some j =>
          match readSize (r.holding payload).blk (1024 - j) j r.fsize with
          | none => .outOfBounds
          | some fsize => .next (headerTaken (r.holding payload) fsize) := by
    rw [acceptHeader, if_neg first]
    dsimp only
    rw [ending]
    unfold headerTaken headerName
    rw [ending]
    rfl
  rcases @spaces_scan (r.holding payload).blk _ (1024 - ((cutName payload).length + 1)) _ rest
    (by omega) with ⟨empty, reached⟩ | ⟨before, place, some_, field, found, inSpaces⟩
  · have blank : sizeField payload ((cutName payload).length + 1) = [] := empty
    refine .inl ⟨by rw [sizeEnd, blank]; rfl, ?_⟩
    rw [total] at reached
    rw [reads]
    exact List.mem_append_left _ (List.mem_append_right _ reached)
  · have start : Spells (r.holding payload).blk before
        (sizeField payload ((cutName payload).length + 1)) := field
    have end_ : (cutName payload).length + 1 +
        (payload.drop ((cutName payload).length + 1)).length =
          before + (sizeField payload ((cutName payload).length + 1)).length := place
    rw [total] at end_ inSpaces
    rw [found] at reads taken
    dsimp only at reads taken
    rw [fresh] at taken
    rcases @digits_scan (r.holding payload).blk _ (1024 - before) before 0 start (by omega)
      (by decide) with ⟨empty, reached⟩ | ⟨ends, read, inDigits⟩
    · refine .inl ⟨empty, ?_⟩
      rw [← end_] at reached
      rw [reads]
      exact List.mem_append_right _ reached
    · refine .inr ⟨ends, fun k member => ?_, ?_⟩
      · rw [reads, List.mem_append, List.mem_append] at member
        rcases member with (member | member) | member
        · exact names k member
        · exact inSpaces k member
        · rw [← end_] at inDigits
          exact inDigits k member
      · rw [taken, read]
        rfl

/-- A receiver without a header, and not after an end of transmission, waits for block 0. -/
structure Waiting (r : Receiver) : Prop where
  haveHeader : r.haveHeader = false
  trailer : r.trailer = false
  expect : r.expect = 0
  fsize : r.fsize = 0
  name : r.name 0 = 0

theorem Waiting.accepts (waits : Waiting r) (dest : Buffer) (len : Nat) :
    acceptBlock dest 0 len (r.holding payload) = acceptHeader (r.holding payload) := by
  have expected : (0 : Byte) = (r.holding payload).expect := waits.expect.symm
  have open_ : ¬(r.holding payload).trailer = true := Bool.eq_false_iff.mp waits.trailer
  have fresh : (!(r.holding payload).haveHeader) = true := by
    change (!r.haveHeader) = true
    rw [waits.haveHeader]
    rfl
  rw [acceptBlock, if_pos expected, if_neg open_, if_pos fresh]

theorem Waiting.null (waits : Waiting r) (sized : BlockSized payload)
    (null : payload.head? = some 0) :
    HeaderRead dest r payload ↔ ∀ size, statedSize payload = some size → size = 0 := by
  obtain ⟨rest, rfl⟩ : ∃ rest, payload = 0 :: rest := by
    cases payload with
    | nil => cases null
    | cons byte rest =>
        cases null
        exact ⟨rest, rfl⟩
  have first : (r.holding (0 :: rest)).blk 0 = 0 := (spells_overlay (0 :: rest) 0 r.blk).1
  have accepted : acceptBlock dest 0 (0 :: rest).length (r.holding (0 :: rest)) =
      .returned 0 ((r.holding (0 :: rest)).putc ack) := by
    rw [waits.accepts, acceptHeader, if_pos first]
  have reads : headerReads (r.holding (0 :: rest)).blk = [0] := by
    rw [headerReads, if_pos first]
  constructor
  · rintro ⟨-, taken⟩ size stated
    rw [accepted] at taken
    exact (taken.2 size stated).symm.trans waits.fsize
  · intro zero
    refine ⟨fun k member => ?_, ?_⟩
    · rw [reads, List.mem_singleton] at member
      rw [member]
      exact Nat.succ_pos _
    · rw [accepted]
      exact ⟨⟨waits.name, trivial⟩, fun size stated => waits.fsize.trans (zero size stated).symm⟩

theorem Waiting.headerRead_iff (waits : Waiting r) (sized : BlockSized payload) :
    HeaderRead dest r payload ↔ HeaderSuits payload := by
  unfold HeaderSuits
  by_cases null : payload.head? = some 0
  · rw [if_pos null]
    exact waits.null sized null
  · rw [if_neg null]
    rcases header_scan sized null waits.fsize with ⟨endless, reached⟩ | ⟨ends, inside, taken⟩
    · constructor
      · intro read
        exact absurd (read.inside _ reached) (Nat.lt_irrefl _)
      · intro suits
        exact absurd endless suits.1
    · constructor
      · intro read
        refine ⟨ends, .inr fun size stated => ?_⟩
        have holds := read.taken
        rw [waits.accepts, taken] at holds
        exact holds.2 size stated
      · rintro ⟨-, same⟩
        refine ⟨inside, ?_⟩
        rw [waits.accepts, taken]
        refine ⟨headerTaken_name sized _, fun size stated => ?_⟩
        rcases same with short | same
        · exact statedSize_of_short short stated
        · exact same size stated

end Scan

/-- What a receiver without a header has. -/
structure Unstarted (r : Receiver) : Prop where
  expect : r.haveHeader = false → r.expect = 0
  fsize : r.haveHeader = false → r.fsize = 0
  name : r.haveHeader = false → r.name 0 = 0

section Heads

variable {dest : Buffer} {r : Receiver}

theorem Unstarted.keeps {after : Receiver} (unstarted : Unstarted r)
    (haveHeader : after.haveHeader = r.haveHeader) (expect : after.expect = r.expect)
    (fsize : after.fsize = r.fsize) (name : after.name = r.name) : Unstarted after := by
  refine ⟨fun none_yet => ?_, fun none_yet => ?_, fun none_yet => ?_⟩
  · exact expect.trans (unstarted.expect (haveHeader.symm.trans none_yet))
  · exact fsize.trans (unstarted.fsize (haveHeader.symm.trans none_yet))
  · exact (congrFun name 0).trans (unstarted.name (haveHeader.symm.trans none_yet))

theorem Unstarted.of_header {after : Receiver} (taken : after.haveHeader = true) :
    Unstarted after := by
  refine ⟨fun none_yet => ?_, fun none_yet => ?_, fun none_yet => ?_⟩
  all_goals
    rw [taken] at none_yet
    cases none_yet

theorem Unstarted.acceptBlock {bn : Byte} {len : Nat} (unstarted : Unstarted r) :
    (acceptBlock dest bn len r).Holds Unstarted := by
  apply acceptBlock_holds
  · exact unstarted.keeps rfl rfl rfl rfl
  · exact fun _ => unstarted.keeps rfl rfl rfl rfl
  · exact fun _ _ => .of_header rfl
  · exact fun taken => .of_header taken

theorem Turn.unstarted {line rest : Line Byte} {verdict : Verdict}
    (turned : Turn dest r line rest verdict) (unstarted : Unstarted r) :
    verdict.Holds Unstarted := by
  cases turned with
  | timeout =>
      have kept : Unstarted { r with idle := r.idle + 1 } := unstarted.keeps rfl rfl rfl rfl
      exact onTimeout_holds kept fun _ => kept.keeps rfl rfl rfl rfl
  | eot => exact ⟨fun _ => rfl, unstarted.fsize, unstarted.name⟩
  | cancelled => exact unstarted.keeps rfl rfl rfl rfl
  | junk => exact unstarted.keeps rfl rfl rfl rfl
  | bad => exact unstarted.keeps rfl rfl rfl rfl
  | block hdr used _ bn payload begins intact =>
      have holding : Unstarted { r with idle := 0, blk := overlay 0 payload r.blk } :=
        unstarted.keeps rfl rfl rfl rfl
      exact holding.acceptBlock

theorem Head.unstarted {memory : Memory 32} {blk name : Block}
    (head : Head dest (.start memory blk name) r) : Unstarted r := by
  induction head with
  | start => exact ⟨fun _ => rfl, fun _ => rfl, fun _ => rfl⟩
  | next _ turned induction_hypothesis => exact turned.unstarted induction_hypothesis
  | beyond => exact .of_header rfl

end Heads

/-- In every run, a block 0 of any bytes that arrives before a header is read out from nothing but
    itself exactly if its size field ends inside of it and is where it is looked for. -/
theorem ymodem_header_read_iff {dest : Buffer} {memory : Memory 32} {blk name : Block}
    {r : Receiver} {payload : List Byte} (head : Head dest (.start memory blk name) r)
    (fresh : r.haveHeader = false) (open_ : r.trailer = false) (sized : BlockSized payload) :
    HeaderRead dest r payload ↔ HeaderSuits payload :=
  have unstarted := head.unstarted
  Waiting.headerRead_iff
    ⟨fresh, open_, unstarted.expect fresh, unstarted.fsize fresh, unstarted.name fresh⟩ sized

/-- A name of one byte, and a size of five bytes. -/
def smallHeader : List Byte := padded [0x41, 0, 0x35] 128

theorem smallHeader_suits : HeaderSuits smallHeader := by
  rw [HeaderSuits, if_neg (by decide +kernel)]
  exact ⟨by decide +kernel, .inl (by decide +kernel)⟩

theorem small_header_read :
    HeaderRead ⟨0x400, 4096, page_room⟩ (.start (fun _ => 0) (fun _ => 0x39) fun _ => 0)
      smallHeader :=
  (ymodem_header_read_iff .start rfl rfl (.inl (by decide +kernel))).mpr smallHeader_suits

/-- Digits up to the end of the block. -/
def endlessHeader : List Byte := [0x41, 0] ++ List.replicate 126 0x31

theorem endless_header_not_read :
    BlockSized endlessHeader ∧
      ¬HeaderRead ⟨0x400, 4096, page_room⟩ (.start (fun _ => 0) (fun _ => 0x39) fun _ => 0)
        endlessHeader := by
  refine ⟨.inl (by decide +kernel), fun read => ?_⟩
  exact absurd (read.inside 128 (by decide +kernel)) (by decide +kernel)

end Mackerel.Ymodem
