import Mackerel.Ymodem.Header

namespace Mackerel.Ymodem

open Bytes Serial

variable {dest : Buffer}

structure SamePlace (before after : Receiver) : Prop where
  total : after.total = before.total
  fsize : after.fsize = before.fsize
  expect : after.expect = before.expect
  haveHeader : after.haveHeader = before.haveHeader
  trailer : after.trailer = before.trailer

inductive Onward (dest : Buffer) (before : Receiver) (line : Line Byte) (after : Receiver) : Prop where
  | quiet (same : SamePlace before after) (head : line.head? ≠ some (some eot))
  | eot (same : after = onEot { before with idle := 0 }) (head : line.head? = some (some eot))
  | stored (open_ : before.trailer = false) (still : after.trailer = false)
      (word : before.total < 2 ^ 32 → after.total < 2 ^ 32) (head : line.head? ≠ some (some eot))

theorem acceptHeader_next {r after : Receiver} (accepted : acceptHeader r = .next after) :
    after.trailer = r.trailer ∧ after.total = r.total := by
  unfold acceptHeader at accepted
  split at accepted
  · cases accepted
  · dsimp only at accepted
    split at accepted
    · cases accepted
    · split at accepted
      · cases accepted
      · cases accepted
        exact ⟨rfl, rfl⟩

theorem acceptHeader_returned {r after : Receiver} {result : Int}
    (accepted : acceptHeader r = .returned result after) : after.haveHeader = r.haveHeader := by
  unfold acceptHeader at accepted
  split at accepted
  · cases accepted
    rfl
  · dsimp only at accepted
    split at accepted
    · cases accepted
    · split at accepted <;> cases accepted

theorem acceptBlock_next {r after : Receiver} {bn : Byte} {len : Nat}
    (accepted : acceptBlock dest bn len r = .next after) :
    SamePlace r after ∨
      r.trailer = false ∧ after.trailer = false ∧ (r.total < 2 ^ 32 → after.total < 2 ^ 32) := by
  unfold acceptBlock at accepted
  by_cases expected : bn = r.expect
  · rw [if_pos expected] at accepted
    cases trailing : r.trailer with
    | true =>
        rw [if_pos trailing] at accepted
        cases accepted
    | false =>
        rw [trailing, if_neg Bool.false_ne_true] at accepted
        right
        by_cases fresh : r.haveHeader = false
        · rw [fresh, Bool.not_false, if_pos rfl] at accepted
          obtain ⟨still, total⟩ := acceptHeader_next accepted
          exact ⟨rfl, still.trans trailing, fun word => total ▸ word⟩
        · rw [Bool.not_eq_false] at fresh
          rw [fresh, Bool.not_true, if_neg Bool.false_ne_true] at accepted
          cases accepted
          exact ⟨rfl, trailing, fun _ => u32_lt (r.total + copied dest r len)⟩
  · rw [if_neg expected] at accepted
    left
    by_cases duplicate : bn = r.expect - 1
    · rw [if_pos duplicate] at accepted
      cases accepted
      exact ⟨rfl, rfl, rfl, rfl, rfl⟩
    · rw [if_neg duplicate] at accepted
      cases accepted
      exact ⟨rfl, rfl, rfl, rfl, rfl⟩

theorem eot_ne_start {hdr : Byte} (begins : hdr = soh ∨ hdr = stx) : hdr ≠ eot := by
  rcases begins with rfl | rfl <;> decide

theorem Turn.onward {before after : Receiver} {line rest : Line Byte}
    (turned : Turn dest before line rest (.next after)) : Onward dest before line after := by
  generalize goes : Verdict.next after = verdict at turned
  cases turned with
  | timeout =>
      unfold onTimeout at goes
      dsimp only at goes
      split at goes
      · cases goes
      · cases goes
        exact .quiet ⟨rfl, rfl, rfl, rfl, rfl⟩ (by simp)
  | eot =>
      cases goes
      exact .eot rfl rfl
  | cancelled => cases goes
  | junk hdr line _ other =>
      cases goes
      exact .quiet ⟨rfl, rfl, rfl, rfl, rfl⟩ (by simpa using other)
  | bad hdr line _ blk other =>
      cases goes
      exact .quiet ⟨rfl, rfl, rfl, rfl, rfl⟩ (by simpa using other)
  | block hdr used _ bn payload begins intact =>
      have head : (some hdr :: (used ++ rest)).head? ≠ some (some Ymodem.eot) := by
        simpa using eot_ne_start begins
      rcases acceptBlock_next goes.symm with same | ⟨notTrailing, still, word⟩
      · exact .quiet ⟨same.total, same.fsize, same.expect, same.haveHeader, same.trailer⟩ head
      · exact .stored notTrailing still word head

/-- The turn after which a run returns a result that is not an error. -/
theorem Turn.success {before after : Receiver} {line rest : Line Byte} {result : Int}
    (turned : Turn dest before line rest (.returned result after)) (success : 0 ≤ result)
    (header : after.haveHeader = true) :
    before.trailer = true ∧ before.haveHeader = true ∧ result = int32 before.total ∧
      after.fsize = before.fsize ∧ ∃ hdr used payload, (hdr = soh ∨ hdr = stx) ∧ line = some hdr :: (used ++ rest) ∧
        Intact (blockLength hdr) used before.expect payload ∧ after.blk = overlay 0 payload before.blk := by
  generalize goes : Verdict.returned result after = verdict at turned
  cases turned with
  | timeout =>
      unfold onTimeout at goes
      dsimp only at goes
      split at goes
      · cases goes
        exact absurd success (by decide)
      · cases goes
  | eot => cases goes
  | cancelled =>
      cases goes
      exact absurd success (by decide)
  | junk => cases goes
  | bad => cases goes
  | block hdr used _ bn payload begins intact =>
      unfold acceptBlock at goes
      by_cases expected : bn = before.expect
      · rw [if_pos expected] at goes
        cases trailing : before.trailer with
        | true =>
            rw [if_pos trailing] at goes
            cases goes
            exact ⟨rfl, header, rfl, rfl, hdr, used, payload, begins, rfl, expected ▸ intact, rfl⟩
        | false =>
            exfalso
            rw [trailing, if_neg Bool.false_ne_true] at goes
            cases fresh : before.haveHeader with
            | false =>
                rw [fresh, Bool.not_false, if_pos rfl] at goes
                have none_yet := acceptHeader_returned goes.symm
                rw [header] at none_yet
                cases none_yet
            | true =>
                rw [fresh, Bool.not_true, if_neg Bool.false_ne_true] at goes
                cases goes
      · rw [if_neg expected] at goes
        by_cases duplicate : bn = before.expect - 1
        · rw [if_pos duplicate] at goes
          cases goes
        · rw [if_neg duplicate] at goes
          cases goes

structure Sound (r : Receiver) : Prop where
  word : r.total < 2 ^ 32
  expect : r.trailer = true → r.expect = 0

theorem Turn.sound {before after : Receiver} {line rest : Line Byte}
    (turned : Turn dest before line rest (.next after)) (sound : Sound before) : Sound after := by
  cases turned.onward with
  | quiet same _ =>
      refine ⟨same.total ▸ sound.word, ?_⟩
      intro trailing
      rw [same.expect, sound.expect (same.trailer ▸ trailing)]
  | eot same _ =>
      subst same
      exact ⟨sound.word, fun _ => rfl⟩
  | stored _ still word _ =>
      refine ⟨word sound.word, ?_⟩
      intro trailing
      rw [still] at trailing
      cases trailing

/-- After an end of transmission the transfer stays as it is. -/
structure Frozen (eotHead r : Receiver) : Prop where
  trailer : r.trailer = true
  total : r.total = eotHead.total
  fsize : r.fsize = eotHead.fsize

theorem Turn.frozen {eotHead before after : Receiver} {line rest : Line Byte}
    (turned : Turn dest before line rest (.next after)) (frozen : Frozen eotHead before) :
    Frozen eotHead after := by
  cases turned.onward with
  | quiet same _ =>
      exact ⟨same.trailer.trans frozen.trailer, same.total.trans frozen.total,
        same.fsize.trans frozen.fsize⟩
  | eot same _ =>
      subst same
      exact ⟨rfl, frozen.total, frozen.fsize⟩
  | stored notTrailing _ _ _ =>
      rw [frozen.trailer] at notTrailing
      cases notTrailing

/-- A head at which the rest of the line does no harm: no EOT before the last byte is stored, and
    after an EOT no block 0 that is not null. -/
structure Orderly (dest : Buffer) (head : Receiver) (line : Line Byte) : Prop where
  eot : line.head? = some (some Ymodem.eot) → head.haveHeader = true → head.fsize ≠ 0 →
    head.total = min head.fsize dest.bufsz
  null : head.trailer = true → ∀ hdr used rest payload, (hdr = soh ∨ hdr = stx) →
    line = some hdr :: (used ++ rest) → Intact (blockLength hdr) used 0 payload →
    payload.head? = some 0

/-- A trailer that has been reached in order. -/
def Whole (dest : Buffer) (r : Receiver) : Prop :=
  r.trailer = true → r.haveHeader = true → r.fsize ≠ 0 → r.total = min r.fsize dest.bufsz

theorem Turn.whole {before after : Receiver} {line rest : Line Byte}
    (turned : Turn dest before line rest (.next after)) (orderly : Orderly dest before line)
    (whole : Whole dest before) : Whole dest after := by
  cases turned.onward with
  | quiet same _ =>
      intro trailing header nonzero
      rw [same.trailer] at trailing
      rw [same.haveHeader] at header
      rw [same.fsize] at nonzero ⊢
      rw [same.total]
      exact whole trailing header nonzero
  | eot same head =>
      subst same
      intro _ header nonzero
      exact orderly.eot head header nonzero
  | stored _ still _ _ =>
      intro trailing
      rw [still] at trailing
      cases trailing

theorem Reaches.whole {r after : Receiver} {line last : Line Byte}
    (reaches : Reaches dest r line after last)
    (orderly : ∀ head rest, Reaches dest r line head rest → Orderly dest head rest)
    (whole : Whole dest r) : Whole dest after := by
  induction reaches with
  | here => exact whole
  | later ran _ induction_hypothesis =>
      apply induction_hypothesis
      · intro head rest further
        exact orderly head rest (.later ran further)
      · exact (turn_inversion ran).whole (orderly _ _ (.here _ _)) whole

theorem overlay_first {payload : List Byte} {len : Nat} {used : Line Byte} {bn : Byte} (blk : Block)
    (intact : Intact len used bn payload) (some_bytes : 0 < len) :
    payload.head? = some (overlay 0 payload blk 0) := by
  cases payload with
  | nil =>
      have length := intact.length
      rw [List.length_nil] at length
      omega
  | cons byte rest => rfl

theorem blockLength_pos (hdr : Byte) : 0 < blockLength hdr := by
  unfold blockLength
  split <;> decide

section Success

variable {memory : Memory 32} {blk name : Block} {line : Line Byte} {n : Int} {r : Receiver}

theorem start_sound : Sound (Receiver.start memory blk name) where
  word := Nat.two_pow_pos 32
  expect _ := rfl

theorem complete_of_orderly (ran : ymodemRecv dest memory blk name line = .returned n r)
    (success : 0 ≤ n) (header : r.haveHeader = true) (nonzero : r.fsize ≠ 0)
    (orderly : ∀ head rest, Reaches dest (.start memory blk name) line head rest →
      Orderly dest head rest) :
    n = (min r.fsize dest.bufsz : Nat) ∧ r.blk 0 = 0 := by
  obtain ⟨head, last, rest, reaches, turned⟩ := recv_last ran
  obtain ⟨trailing, had, result, fsize, hdr, used, payload, begins, shape, intact, stored⟩ :=
    (turn_inversion turned).success success header
  have sound := reaches.invariant Turn.sound start_sound
  have whole := reaches.whole orderly (fun trailing => by cases trailing) trailing had (fsize ▸ nonzero)
  constructor
  · rw [result, int32_nonnegative sound.word (result ▸ success), whole, fsize]
  · rw [sound.expect trailing] at intact
    have null := (orderly head last reaches).null trailing hdr used rest payload begins shape intact
    rw [overlay_first head.blk intact (blockLength_pos hdr), ← stored] at null
    exact Option.some.inj null

/-- An EOT that ends a complete transfer has come after the last byte. -/
theorem eot_of_complete {head : Receiver} {rest : Line Byte}
    (ran : ymodemRecv dest memory blk name line = .returned n r) (success : 0 ≤ n)
    (header : r.haveHeader = true) (complete : n = (min r.fsize dest.bufsz : Nat))
    (reaches : Reaches dest (.start memory blk name) line head rest)
    (eotNext : rest.head? = some (some eot)) : head.total = min head.fsize dest.bufsz := by
  cases rest with
  | nil => cases eotNext
  | cons first tail =>
      cases eotNext
      have turned : turn dest head (some eot :: tail) =
          some (.next (onEot { head with idle := 0 }), tail) :=
        turn_eot_consumes.result tail
      have later : recv dest (onEot { head with idle := 0 }) tail = .returned n r := by
        rw [← recv_next turned, ← recv_reaches reaches]
        exact ran
      obtain ⟨last, lastLine, _, further, ended⟩ := recv_last later
      obtain ⟨-, -, result, fsize, -⟩ := (turn_inversion ended).success success header
      have sound := further.invariant Turn.sound
        ((turn_inversion turned).sound (reaches.invariant Turn.sound start_sound))
      have frozen : Frozen head last := further.invariant Turn.frozen ⟨rfl, rfl, rfl⟩
      have total := int32_nonnegative sound.word (result ▸ success)
      rw [complete, total, frozen.total, fsize, frozen.fsize] at result
      exact (Int.natCast_inj.mp result).symm

/-- A block that ends a complete session is null. -/
theorem null_of_complete {head : Receiver} {rest used last : Line Byte} {hdr : Byte}
    {payload : List Byte} (ran : ymodemRecv dest memory blk name line = .returned n r)
    (null : r.blk 0 = 0) (reaches : Reaches dest (.start memory blk name) line head rest)
    (trailing : head.trailer = true) (begins : hdr = soh ∨ hdr = stx)
    (shape : rest = some hdr :: (used ++ last)) (intact : Intact (blockLength hdr) used 0 payload) :
    payload.head? = some 0 := by
  have sound := reaches.invariant Turn.sound start_sound
  have turned := (turn_block_consumes dest head begins intact).result last
  have accepted : acceptBlock dest 0 (blockLength hdr)
      { head with idle := 0, blk := overlay 0 payload head.blk } =
      .returned (int32 head.total)
        { { head with idle := 0, blk := overlay 0 payload head.blk }.putc ack with
          size := head.fsize } := by
    unfold acceptBlock
    rw [if_pos (sound.expect trailing).symm, if_pos trailing]
  rw [accepted] at turned
  have ended := recv_returned turned
  rw [List.cons_append, ← shape, ← recv_reaches reaches] at ended
  cases ran.symm.trans ended
  rw [overlay_first head.blk intact (blockLength_pos hdr)]
  exact congrArg some null

/-- A success after a header with a size means a complete transfer, exactly if the run is
    orderly at every head of the loop. -/
theorem ymodem_success_complete_iff (ran : ymodemRecv dest memory blk name line = .returned n r)
    (success : 0 ≤ n) (header : r.haveHeader = true) (nonzero : r.fsize ≠ 0) :
    (n = (min r.fsize dest.bufsz : Nat) ∧ r.blk 0 = 0) ↔
      ∀ head rest, Reaches dest (.start memory blk name) line head rest → Orderly dest head rest := by
  constructor
  · intro ⟨complete, null⟩ head rest reaches
    constructor
    · intro eotNext _ _
      exact eot_of_complete ran success header complete reaches eotNext
    · intro trailing hdr used last payload begins shape intact
      exact null_of_complete ran null reaches trailing begins shape intact
  · exact complete_of_orderly ran success header nonzero

end Success

def pageBuffer : Buffer := ⟨0x400, 4096, page_room⟩

def otherHeader : List Byte := padded [0x42, 0, 0x37] 128

/-- A stray EOT after a header for five bytes, and then the header of another file. -/
def strayEot : Line Byte :=
  (Item.block 0 fiveBytes.payload).wire ++ (Item.eot.wire ++ (Item.block 0 otherHeader).wire)

theorem strayEot_returned :
    ∃ r, ymodemRecv pageBuffer (fun _ => 0) (fun _ => 0) (fun _ => 0) strayEot = .returned 0 r ∧
      r.haveHeader = true ∧ r.fsize = 5 ∧ r.blk 0 = 0x42 := by
  have header := fiveBytes.arrives (r := .start (fun _ => 0) (fun _ => 0) fun _ => 0) pageBuffer
    rfl rfl rfl rfl
  have sized : BlockSized otherHeader := .inl rfl
  have opened := fiveBytes.sized.recv_next header (Item.eot.wire ++ (Item.block 0 otherHeader).wire)
  rw [recv_eot] at opened
  have last := sized.recv_returned
    (r := onEot { fiveBytes.accept ((Receiver.start (fun _ => 0) (fun _ => 0) fun _ => 0).holding
      fiveBytes.payload) with idle := 0 }) (Eq.refl (acceptBlock pageBuffer 0 _ _))
  exact ⟨_, opened.trans last, rfl, rfl, rfl⟩

theorem strayEot_complete_iff :
    ∃ r, ymodemRecv pageBuffer (fun _ => 0) (fun _ => 0) (fun _ => 0) strayEot = .returned 0 r ∧
      (((0 : Int) = (min r.fsize pageBuffer.bufsz : Nat) ∧ r.blk 0 = 0) ↔
        ∀ head rest, Reaches pageBuffer (.start (fun _ => 0) (fun _ => 0) fun _ => 0) strayEot head rest →
          Orderly pageBuffer head rest) := by
  obtain ⟨r, ran, header, size, -⟩ := strayEot_returned
  have nonzero : r.fsize ≠ 0 := by
    rw [size]
    decide
  exact ⟨r, ran, ymodem_success_complete_iff ran (Int.le_refl 0) header nonzero⟩

theorem stray_eot_reports_success :
    ¬∀ (dest : Buffer) (memory : Memory 32) (blk name : Block) (line : Line Byte) (n : Int) (r : Receiver),
      ymodemRecv dest memory blk name line = .returned n r → 0 ≤ n → r.haveHeader = true → r.fsize ≠ 0 →
        n = (min r.fsize dest.bufsz : Nat) ∧ r.blk 0 = 0 := by
  intro complete
  obtain ⟨r, ran, header, size, first⟩ := strayEot_returned
  have nonzero : r.fsize ≠ 0 := by
    rw [size]
    decide
  obtain ⟨-, null⟩ := complete _ _ _ _ _ _ r ran (Int.le_refl 0) header nonzero
  rw [first] at null
  exact absurd null (by decide)

end Mackerel.Ymodem
