import Mackerel.Ymodem.Bounds

namespace Mackerel.Ymodem

open Bytes Serial

/-- A block that has been accepted, with the answer to it. -/
structure Accepted where
  number : Byte
  payload : List Byte
  reply : List Byte
  header : Bool

/-- What a good block leads to. A header whose size field goes on behind `blk` is taken over with
    any size. -/
inductive Outcome (dest : Buffer) (number : Byte) (payload : List Byte) (r : Receiver) :
    Receiver → (running : Bool) → Prop where
  | next {after : Receiver}
      (accepted : acceptBlock dest number payload.length (r.holding payload) = .next after) :
      Outcome dest number payload r after true
  | returned {after : Receiver} {result : Int}
      (accepted : acceptBlock dest number payload.length (r.holding payload) =
        .returned result after) :
      Outcome dest number payload r after false
  | beyond {fsize : Nat}
      (accepted : acceptBlock dest number payload.length (r.holding payload) = .outOfBounds)
      (word : fsize < 2 ^ 32) :
      Outcome dest number payload r (headerTaken (r.holding payload) fsize) true

/-- The arrival of a good block, with the block that was accepted last. -/
structure BlockTurn where
  before : Receiver
  last : Option Accepted
  number : Byte
  payload : List Byte
  after : Receiver

namespace BlockTurn

variable (t : BlockTurn)

def reply : List Byte := t.after.sent.drop t.before.sent.length

def AcceptedNow : Prop := t.number = t.before.expect

instance : Decidable t.AcceptedNow := inferInstanceAs (Decidable (_ = _))

def CopyOf (accepted : Accepted) : Prop :=
  accepted.number = t.number ∧ accepted.payload = t.payload

/-- A re-sent copy of the block that was accepted last. -/
def Copy : Prop := ∃ accepted, t.last = some accepted ∧ t.CopyOf accepted

structure FollowsProtocol : Prop where
  ack : t.reply.head? = some Ymodem.ack ↔ t.AcceptedNow ∨ t.Copy
  nak : ¬t.AcceptedNow → ¬t.Copy → t.reply = [Ymodem.nak] ∧
    t.after = { t.before with idle := 0, blk := t.after.blk, sent := t.after.sent }
  same : ∀ accepted, t.last = some accepted → t.CopyOf accepted → t.reply = accepted.reply

/-- The number below the expected one is that of a re-sent copy of the last data block, and what is
    re-sent after an end of transmission is a data block whose number is 0 or 255. -/
structure Suits : Prop where
  below : t.number = t.before.expect - 1 →
    ∃ accepted, t.last = some accepted ∧ t.CopyOf accepted ∧ accepted.header = false
  ended : t.before.trailer = true → ∀ accepted, t.last = some accepted → t.CopyOf accepted →
    accepted.header = false ∧ (t.number = 0 ∨ t.number = 255)

/-- The block that was accepted last after the turn. -/
def nextLast : Option Accepted :=
  if t.AcceptedNow then
    some { number := t.number, payload := t.payload, reply := t.reply, header := !t.before.haveHeader }
  else t.last

end BlockTurn

/-- The runs of the loop, as far as they have come, with the good blocks in order. -/
inductive Run (dest : Buffer) (start : Receiver) :
    Receiver → (running : Bool) → Option Accepted → List BlockTurn → Prop where
  | start : Run dest start start true none []
  | timeout {r after : Receiver} {last : Option Accepted} {log : List BlockTurn}
      (run : Run dest start r true last log) (waits : onTimeout r = .next after) :
      Run dest start after true last log
  | eot {r : Receiver} {last : Option Accepted} {log : List BlockTurn}
      (run : Run dest start r true last log) :
      Run dest start (onEot { r with idle := 0 }) true last log
  | junk {r : Receiver} {last : Option Accepted} {log : List BlockTurn}
      (run : Run dest start r true last log) : Run dest start { r with idle := 0 } true last log
  | bad {r : Receiver} {last : Option Accepted} {log : List BlockTurn}
      (run : Run dest start r true last log) (blk : Block) :
      Run dest start ({ r with idle := 0, blk }.putc nak) true last log
  | block {r after : Receiver} {running : Bool} {last : Option Accepted} {log : List BlockTurn}
      {number : Byte} {payload : List Byte} (run : Run dest start r true last log)
      (sized : BlockSized payload) (outcome : Outcome dest number payload r after running) :
      Run dest start after running (BlockTurn.nextLast ⟨r, last, number, payload, after⟩)
        (log ++ [⟨r, last, number, payload, after⟩])

section

variable {dest : Buffer} {start r after : Receiver} {running : Bool} {last : Option Accepted}
  {log : List BlockTurn} {number : Byte} {payload : List Byte}

theorem blockSized_of_length {hdr : Byte} (length : payload.length = blockLength hdr) :
    BlockSized payload := by
  unfold blockLength at length
  split at length
  · exact .inl length
  · exact .inr length

/-- Every head of the loop is one of a run. -/
theorem run_of_head (head : Head dest start r) : ∃ last log, Run dest start r true last log := by
  induction head with
  | start => exact ⟨_, _, .start⟩
  | next _ turned induction_hypothesis =>
      obtain ⟨last, log, run⟩ := induction_hypothesis
      generalize goes : Verdict.next _ = verdict at turned
      cases turned with
      | timeout => exact ⟨_, _, run.timeout goes.symm⟩
      | eot =>
          cases goes
          exact ⟨_, _, run.eot⟩
      | cancelled => cases goes
      | junk =>
          cases goes
          exact ⟨_, _, run.junk⟩
      | bad hdr line _ blk =>
          cases goes
          exact ⟨_, _, run.bad blk⟩
      | block hdr used _ bn payload begins intact =>
          rw [← intact.length] at goes
          exact ⟨_, _, run.block (blockSized_of_length intact.length) (.next goes.symm)⟩
  | beyond _ sized read word induction_hypothesis =>
      obtain ⟨last, log, run⟩ := induction_hypothesis
      exact ⟨_, _, run.block sized (.beyond read word)⟩

/-- What the receiver knows of the block that it accepted last. -/
structure Recalls (r : Receiver) (last : Option Accepted) : Prop where
  trailer : r.trailer = true → r.expect = 0
  fresh : r.trailer = false → r.haveHeader = false → last = none ∧ r.expect = 0
  taken : r.trailer = false → r.haveHeader = true →
    ∃ accepted, last = some accepted ∧ accepted.number = r.expect - 1
  reply : ∀ accepted, last = some accepted →
    accepted.reply = if accepted.header then [ack, crcC] else [ack]

theorem Recalls.keeps (recalls : Recalls r last) (trailer : after.trailer = r.trailer)
    (expect : after.expect = r.expect) (haveHeader : after.haveHeader = r.haveHeader) :
    Recalls after last := by
  obtain ⟨ended, fresh, taken, reply⟩ := recalls
  refine ⟨?_, ?_, ?_, reply⟩
  · rw [trailer, expect]
    exact ended
  · rw [trailer, expect, haveHeader]
    exact fresh
  · rw [trailer, expect, haveHeader]
    exact taken

theorem sent_drop {before after : List Byte} {reply : List Byte} (grows : after = before ++ reply) :
    after.drop before.length = reply := by
  rw [grows, List.drop_left]

/-- What a good block does, and the answer, by the state that it finds. -/
inductive Answered (dest : Buffer) (t : BlockTurn) : (running : Bool) → Prop where
  | ended (expected : t.number = t.before.expect) (trailer : t.before.trailer = true)
      (reply : t.reply = [ack]) : Answered dest t false
  | null (expected : t.number = t.before.expect) (trailer : t.before.trailer = false)
      (fresh : t.before.haveHeader = false) (reply : t.reply = [ack]) : Answered dest t false
  | header (expected : t.number = t.before.expect) (trailer : t.before.trailer = false)
      (fresh : t.before.haveHeader = false) (reply : t.reply = [ack, crcC])
      (after : t.after.trailer = false ∧ t.after.haveHeader = true ∧ t.after.expect = 1) :
      Answered dest t true
  | data (expected : t.number = t.before.expect) (trailer : t.before.trailer = false)
      (taken : t.before.haveHeader = true) (reply : t.reply = [ack])
      (after : t.after.trailer = false ∧ t.after.haveHeader = true ∧
        t.after.expect = t.before.expect + 1) : Answered dest t true
  | below (other : t.number ≠ t.before.expect) (below : t.number = t.before.expect - 1)
      (reply : t.reply = [ack]) (after : t.after = (t.before.holding t.payload).putc ack) :
      Answered dest t true
  | refused (other : t.number ≠ t.before.expect) (below : t.number ≠ t.before.expect - 1)
      (reply : t.reply = [nak]) (after : t.after = (t.before.holding t.payload).putc nak) :
      Answered dest t true

theorem Outcome.of_next {next : Receiver} (outcome : Outcome dest number payload r after running)
    (goes : acceptBlock dest number payload.length (r.holding payload) = .next next) :
    after = next ∧ running = true := by
  cases outcome with
  | next accepted =>
      rw [goes] at accepted
      cases accepted
      exact ⟨rfl, rfl⟩
  | returned accepted =>
      rw [goes] at accepted
      cases accepted
  | beyond accepted =>
      rw [goes] at accepted
      cases accepted

theorem Outcome.of_returned {last : Receiver} {result : Int}
    (outcome : Outcome dest number payload r after running)
    (goes : acceptBlock dest number payload.length (r.holding payload) = .returned result last) :
    after = last ∧ running = false := by
  cases outcome with
  | next accepted =>
      rw [goes] at accepted
      cases accepted
  | returned accepted =>
      rw [goes] at accepted
      cases accepted
      exact ⟨rfl, rfl⟩
  | beyond accepted =>
      rw [goes] at accepted
      cases accepted

theorem Outcome.of_beyond (outcome : Outcome dest number payload r after running)
    (goes : acceptBlock dest number payload.length (r.holding payload) = .outOfBounds) :
    (∃ fsize, after = headerTaken (r.holding payload) fsize) ∧ running = true := by
  cases outcome with
  | next accepted =>
      rw [goes] at accepted
      cases accepted
  | returned accepted =>
      rw [goes] at accepted
      cases accepted
  | beyond accepted word => exact ⟨⟨_, rfl⟩, rfl⟩

theorem Outcome.answered (outcome : Outcome dest number payload r after running) :
    Answered dest ⟨r, last, number, payload, after⟩ running := by
  have header (fsize : Nat) : (headerTaken (r.holding payload) fsize).sent.drop r.sent.length =
      [ack, crcC] := sent_drop (List.append_assoc r.sent [ack] [crcC])
  rcases acceptBlock_cases dest number payload.length (r.holding payload) with
    ⟨expected, trailer, ends⟩ | ⟨expected, trailer, fresh, takes⟩ |
    ⟨expected, trailer, taken, stores⟩ | ⟨other, below, again⟩ | ⟨other, below, refused⟩
  · obtain ⟨rfl, rfl⟩ := outcome.of_returned ends
    exact .ended expected trailer (sent_drop rfl)
  · rcases acceptHeader_cases (r.holding payload) with ⟨null, -⟩ | ⟨-, beyond | ⟨fsize, goes⟩⟩
    · obtain ⟨rfl, rfl⟩ := outcome.of_returned (takes.trans null)
      exact .null expected trailer fresh (sent_drop rfl)
    · obtain ⟨⟨fsize, rfl⟩, rfl⟩ := outcome.of_beyond (takes.trans beyond)
      exact .header expected trailer fresh (header fsize) ⟨trailer, rfl, rfl⟩
    · obtain ⟨rfl, rfl⟩ := outcome.of_next (takes.trans goes)
      exact .header expected trailer fresh (header fsize) ⟨trailer, rfl, rfl⟩
  · obtain ⟨rfl, rfl⟩ := outcome.of_next stores
    exact .data expected trailer taken (sent_drop rfl) ⟨trailer, taken, rfl⟩
  · obtain ⟨rfl, rfl⟩ := outcome.of_next again
    exact .below other below (sent_drop rfl) rfl
  · obtain ⟨rfl, rfl⟩ := outcome.of_next refused
    exact .refused other below (sent_drop rfl) rfl

variable {t : BlockTurn}

theorem not_below (number : Byte) : number ≠ number - 1 := by
  intro same
  bv_omega

/-- The answer is copied right if an accepted block is not a copy of another header. -/
theorem BlockTurn.FollowsProtocol.of_accepted (expected : t.number = t.before.expect)
    (reply : t.reply = [Ymodem.ack] ∨ t.reply = [Ymodem.ack, crcC])
    (same : ∀ accepted, t.last = some accepted → t.CopyOf accepted → t.reply = accepted.reply) :
    t.FollowsProtocol := by
  refine ⟨?_, fun other => absurd expected other, same⟩
  have head : t.reply.head? = some Ymodem.ack := by
    rcases reply with reply | reply
    · rw [reply]
      rfl
    · rw [reply]
      rfl
  exact ⟨fun _ => .inl expected, fun _ => head⟩

theorem BlockTurn.Suits.of_expected (expected : t.number = t.before.expect)
    (trailer : t.before.trailer = false) : t.Suits := by
  refine ⟨fun below => absurd (expected.symm.trans below) (not_below _), fun ended => ?_⟩
  rw [trailer] at ended
  cases ended

/-- The expected block before an end of transmission is no copy. -/
theorem Recalls.not_copy (recalls : Recalls t.before t.last)
    (trailer : t.before.trailer = false) (expected : t.number = t.before.expect)
    {accepted : Accepted} (found : t.last = some accepted) : ¬t.CopyOf accepted := by
  rintro ⟨number, -⟩
  cases header : t.before.haveHeader with
  | false =>
      rw [(recalls.fresh trailer header).1] at found
      cases found
  | true =>
      obtain ⟨other, stored, below⟩ := recalls.taken trailer header
      rw [found] at stored
      cases stored
      rw [number, expected] at below
      exact not_below _ below

theorem Recalls.reply_data (recalls : Recalls t.before t.last) {accepted : Accepted}
    (found : t.last = some accepted) : accepted.reply = [ack] ↔ accepted.header = false := by
  rw [recalls.reply accepted found]
  cases accepted.header with
  | false => simp
  | true => simp

/-- Before an end of transmission the expected block is new, and an answer that begins with an ACK is
    right. -/
theorem Recalls.follows_iff_new (recalls : Recalls t.before t.last)
    (expected : t.number = t.before.expect) (trailer : t.before.trailer = false)
    (reply : t.reply = [ack] ∨ t.reply = [ack, crcC]) : t.FollowsProtocol ↔ t.Suits := by
  refine iff_of_true (.of_accepted expected reply fun accepted found copy => ?_)
    (.of_expected expected trailer)
  exact absurd copy (recalls.not_copy trailer expected found)

theorem Recalls.follows_iff_ended (recalls : Recalls t.before t.last)
    (expected : t.number = t.before.expect) (trailer : t.before.trailer = true)
    (reply : t.reply = [ack]) : t.FollowsProtocol ↔ t.Suits := by
  have zero := expected.trans (recalls.trailer trailer)
  constructor
  · intro follows
    refine ⟨fun below => absurd (expected.symm.trans below) (not_below _),
      fun _ accepted found copy => ⟨?_, .inl zero⟩⟩
    rw [← recalls.reply_data found, ← follows.same accepted found copy, reply]
  · intro suits
    refine .of_accepted expected (.inl reply) fun accepted found copy => ?_
    rw [reply, (recalls.reply_data found).mpr (suits.ended trailer accepted found copy).1]

theorem Recalls.follows_iff_below (recalls : Recalls t.before t.last)
    (other : t.number ≠ t.before.expect) (below : t.number = t.before.expect - 1)
    (reply : t.reply = [ack]) : t.FollowsProtocol ↔ t.Suits := by
  have head : t.reply.head? = some ack := by
    rw [reply]
    rfl
  constructor
  · intro follows
    rcases follows.ack.mp head with expected | ⟨accepted, found, copy⟩
    · exact absurd expected other
    · have data : accepted.header = false := by
        rw [← recalls.reply_data found, ← follows.same accepted found copy, reply]
      refine ⟨fun _ => ⟨accepted, found, copy, data⟩, fun ended again same _ => ?_⟩
      rw [found] at same
      cases same
      refine ⟨data, .inr ?_⟩
      rw [below, recalls.trailer ended]
      rfl
  · intro suits
    obtain ⟨accepted, found, copy, data⟩ := suits.below below
    refine ⟨⟨fun _ => .inr ⟨accepted, found, copy⟩, fun _ => head⟩,
      fun _ no_copy => absurd ⟨accepted, found, copy⟩ no_copy, fun again same _ => ?_⟩
    rw [found] at same
    cases same
    rw [reply, (recalls.reply_data found).mpr data]

/-- A block that suits the state, and is neither expected nor the one before, is no copy. -/
theorem Recalls.no_copy (recalls : Recalls t.before t.last) (suits : t.Suits)
    (other : t.number ≠ t.before.expect) (below : t.number ≠ t.before.expect - 1) : ¬t.Copy := by
  intro ⟨accepted, found, copy⟩
  cases trailer : t.before.trailer with
  | false =>
      cases header : t.before.haveHeader with
      | false =>
          rw [(recalls.fresh trailer header).1] at found
          cases found
      | true =>
          obtain ⟨stored, same, number⟩ := recalls.taken trailer header
          rw [found] at same
          cases same
          exact below (copy.1.symm.trans number)
  | true =>
      have expect := recalls.trailer trailer
      rcases (suits.ended trailer accepted found copy).2 with zero | top
      · exact other (zero.trans expect.symm)
      · apply below
        rw [top, expect]
        rfl

/-- A good block is answered by the protocol exactly if it suits the state. -/
theorem Answered.follows_iff (answered : Answered dest t running)
    (recalls : Recalls t.before t.last) : t.FollowsProtocol ↔ t.Suits := by
  cases answered with
  | ended expected trailer reply => exact recalls.follows_iff_ended expected trailer reply
  | null expected trailer _ reply => exact recalls.follows_iff_new expected trailer (.inl reply)
  | header expected trailer _ reply => exact recalls.follows_iff_new expected trailer (.inr reply)
  | data expected trailer _ reply => exact recalls.follows_iff_new expected trailer (.inl reply)
  | below other below reply => exact recalls.follows_iff_below other below reply
  | refused other below reply after =>
      have head : t.reply.head? ≠ some ack := by
        rw [reply]
        decide
      constructor
      · intro follows
        refine ⟨fun same => absurd same below, fun _ accepted found copy => ?_⟩
        exact absurd (follows.ack.mpr (.inr ⟨accepted, found, copy⟩)) head
      · intro suits
        have no_copy := recalls.no_copy suits other below
        refine ⟨⟨fun same => absurd same head, ?_⟩, fun _ _ => ⟨reply, ?_⟩,
          fun accepted found copy => absurd ⟨accepted, found, copy⟩ no_copy⟩
        · rintro (expected | copy)
          · exact absurd expected other
          · exact absurd copy no_copy
        · rw [after]
          rfl

/-- The receiver recalls the block that it accepted last after a turn that goes on. -/
theorem Answered.recalls (answered : Answered dest t true) (recalls : Recalls t.before t.last) :
    Recalls t.after t.nextLast := by
  cases answered with
  | header expected trailer fresh reply after =>
      obtain ⟨open_, taken, expect⟩ := after
      have next : t.nextLast = some ⟨t.number, t.payload, t.reply, !t.before.haveHeader⟩ :=
        if_pos expected
      refine ⟨fun ended => ?_, fun _ none_yet => ?_, fun _ _ => ⟨_, next, ?_⟩, fun accepted same => ?_⟩
      · rw [open_] at ended
        cases ended
      · rw [taken] at none_yet
        cases none_yet
      · change t.number = t.after.expect - 1
        rw [expected, (recalls.fresh trailer fresh).2, expect]
        rfl
      · rw [next] at same
        cases same
        dsimp only
        rw [fresh, reply]
        rfl
  | data expected trailer taken reply after =>
      obtain ⟨open_, still, expect⟩ := after
      have next : t.nextLast = some ⟨t.number, t.payload, t.reply, !t.before.haveHeader⟩ :=
        if_pos expected
      refine ⟨fun ended => ?_, fun _ none_yet => ?_, fun _ _ => ⟨_, next, ?_⟩, fun accepted same => ?_⟩
      · rw [open_] at ended
        cases ended
      · rw [still] at none_yet
        cases none_yet
      · change t.number = t.after.expect - 1
        rw [expected, expect, BitVec.add_sub_cancel]
      · rw [next] at same
        cases same
        dsimp only
        rw [taken, reply]
        rfl
  | below other below reply after =>
      have next : t.nextLast = t.last := if_neg other
      rw [next, after]
      exact recalls.keeps rfl rfl rfl
  | refused other below reply after =>
      have next : t.nextLast = t.last := if_neg other
      rw [next, after]
      exact recalls.keeps rfl rfl rfl

theorem Run.recalls (run : Run dest start r running last log) (going : running = true)
    (fresh : Recalls start none) : Recalls r last := by
  induction run with
  | start => exact fresh
  | timeout _ waits induction_hypothesis =>
      have recalls := induction_hypothesis rfl
      rename_i before after last log run
      rcases onTimeout_cases before with spent | prompts
      · rw [spent] at waits
        cases waits
      · rw [prompts] at waits
        cases waits
        exact recalls.keeps rfl rfl rfl
  | eot _ induction_hypothesis =>
      have recalls := induction_hypothesis rfl
      refine ⟨fun _ => rfl, fun open_ => ?_, fun open_ => ?_, recalls.reply⟩
      · cases open_
      · cases open_
  | junk _ induction_hypothesis => exact (induction_hypothesis rfl).keeps rfl rfl rfl
  | bad _ blk induction_hypothesis => exact (induction_hypothesis rfl).keeps rfl rfl rfl
  | block _ sized outcome induction_hypothesis =>
      subst going
      exact outcome.answered.recalls (induction_hypothesis rfl)

theorem start_recalls (memory : Memory 32) (blk name : Block) :
    Recalls (.start memory blk name) none := by
  refine ⟨fun ended => ?_, fun _ _ => ⟨rfl, rfl⟩, fun _ taken => ?_, fun accepted same => ?_⟩
  · cases ended
  · cases taken
  · cases same

/-- In a run every good block is answered by the protocol exactly if every one suits the state in
    which it arrives. -/
theorem ymodem_replies_iff {memory : Memory 32} {blk name : Block}
    (run : Run dest (.start memory blk name) r running last log) :
    (∀ t ∈ log, t.FollowsProtocol) ↔ ∀ t ∈ log, t.Suits := by
  induction run with
  | start => simp
  | timeout _ _ induction_hypothesis => exact induction_hypothesis
  | eot _ induction_hypothesis => exact induction_hypothesis
  | junk _ induction_hypothesis => exact induction_hypothesis
  | bad _ _ induction_hypothesis => exact induction_hypothesis
  | block run sized outcome induction_hypothesis =>
      have recalls := run.recalls rfl (start_recalls memory blk name)
      rw [List.forall_mem_append, List.forall_mem_append, induction_hypothesis,
        List.forall_mem_singleton, List.forall_mem_singleton]
      exact and_congr_right fun _ => outcome.answered.follows_iff recalls

end

def headerBefore : Receiver := .start (fun _ => 0) (fun _ => 0) fun _ => 0

def headerAfter : Receiver := fiveBytes.accept (headerBefore.holding fiveBytes.payload)

def firstHeader : BlockTurn := ⟨headerBefore, none, 0, fiveBytes.payload, headerAfter⟩

def resentHeader : BlockTurn :=
  ⟨headerAfter, firstHeader.nextLast, 0, fiveBytes.payload,
    (headerAfter.holding fiveBytes.payload).putc ack⟩

theorem headerRun : Run ⟨0x400, 4096, page_room⟩ headerBefore headerAfter true firstHeader.nextLast
    [firstHeader] :=
  .block .start fiveBytes.sized (.next (fiveBytes.arrives _ rfl rfl rfl rfl))

theorem header_answered :
    Run ⟨0x400, 4096, page_room⟩ headerBefore headerAfter true firstHeader.nextLast [firstHeader] ∧
      ∀ t ∈ [firstHeader], t.FollowsProtocol := by
  refine ⟨headerRun, (ymodem_replies_iff headerRun).mpr ?_⟩
  rw [List.forall_mem_singleton]
  exact .of_expected rfl rfl

theorem resentHeaderRun : Run ⟨0x400, 4096, page_room⟩ headerBefore resentHeader.after true
    resentHeader.nextLast [firstHeader, resentHeader] :=
  headerRun.block fiveBytes.sized (.next rfl)

/-- The answer to the second copy has no 'C'. -/
theorem resent_header_misanswered :
    Run ⟨0x400, 4096, page_room⟩ headerBefore resentHeader.after true resentHeader.nextLast
        [firstHeader, resentHeader] ∧
      ¬∀ t ∈ [firstHeader, resentHeader], t.FollowsProtocol := by
  refine ⟨resentHeaderRun, fun follows => ?_⟩
  have resent := follows resentHeader (List.mem_cons_of_mem _ List.mem_cons_self)
  have same := resent.same _ rfl ⟨rfl, rfl⟩
  exact absurd same (by decide)

end Mackerel.Ymodem
