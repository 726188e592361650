import Mackerel.Ymodem.Arrivals

namespace Mackerel.Ymodem

open Bytes Bytes.Memory Serial

/-- One round: timeouts of the receiver, the rest of the item if it is damaged, and whether the
    reply comes through. -/
structure Round where
  idle : Nat
  damage : Option (Line Byte)
  heard : Bool

namespace Round

/-- What a damaged item looks like: the block behind the start byte fails a check, whatever is in
    the block buffer. -/
def Damages (rest : Line Byte) : Item → Prop
  | .block _ payload =>
      ∀ blk, ∃ after,
        Poll.Consumes (receiveBlock (blockLength (startByte payload)) blk) rest (none, after)
  | .eot => False

def Valid (round : Round) (item : Item) : Prop := ∀ rest, round.damage = some rest → Damages rest item

def arrival (round : Round) : Item → Line Byte
  | .block number payload =>
      match round.damage with
      | some rest => some (startByte payload) :: rest
      | none => (Item.block number payload).wire
  | .eot => Item.eot.wire

def line (round : Round) (item : Item) : Line Byte :=
  List.replicate round.idle none ++ round.arrival item

/-- The sender goes on to the next item only after an ACK. -/
def next (round : Round) (position : Nat) (replies : List Byte) : Nat :=
  if round.heard = true ∧ ack ∈ replies then position + 1 else position

/-- The item has come through intact, to a receiver that has not given up. -/
def Through (round : Round) (item : Item) (now : Line Byte) : Prop :=
  round.damage = none ∧ round.idle ≤ maxIdle ∧ now = round.line item

instance (round : Round) (item : Item) (now : Line Byte) : Decidable (round.Through item now) :=
  inferInstanceAs (Decidable (_ ∧ _ ∧ _))

/-- How many items have come through after the polls `now` of a round. -/
def accepted (round : Round) (item : Item) (now : Line Byte) (position accepted : Nat) : Nat :=
  if round.Through item now then position + 1 else accepted

section

variable {round : Round} {item : Item} {now : Line Byte} {position accepted : Nat}

theorem accepted_of_intact (intact : round.damage = none)
    (patient : round.idle ≤ maxIdle) :
    round.accepted item (round.line item) position accepted = position + 1 :=
  if_pos ⟨intact, patient, rfl⟩

theorem accepted_of_not (missed : ¬round.Through item now) :
    round.accepted item now position accepted = accepted := if_neg missed

theorem arrival_begins (round : Round) (item : Item) :
    ∃ byte rest, round.arrival item = some byte :: rest := by
  cases item with
  | eot => exact ⟨_, _, rfl⟩
  | block number payload =>
      cases damage : round.damage with
      | none =>
          exact ⟨startByte payload, blockBody number payload, by simp only [Round.arrival, damage, Item.wire]⟩
      | some rest => exact ⟨startByte payload, rest, by simp only [Round.arrival, damage]⟩

end

end Round

/-- The timeouts in a row before the first byte. -/
def timeouts (line : Line Byte) : Nat := (line.takeWhile Option.isNone).length

theorem timeouts_replicate (idle : Nat) (rest : Line Byte) :
    timeouts (List.replicate idle none ++ rest) = idle + timeouts rest := by
  rw [timeouts, List.takeWhile_append_of_pos (by simp), List.length_append, List.length_replicate]
  rfl

def sentSince (before after : Receiver) : List Byte := after.sent.drop before.sent.length

/-- The polls of the receiver so far, the position of the sender, how many items have come through
    intact, and the receiver, between two rounds. -/
inductive Exchange (session : Session) (dest : Buffer) (start : Receiver) :
    Line Byte → Nat → Nat → Receiver → Prop where
  | start : Exchange session dest start [] 0 0 start
  | round {line : Line Byte} {position accepted : Nat} {before after : Receiver} {item : Item}
      (exchange : Exchange session dest start line position accepted before)
      (current : session.items[position]? = some item) (round : Round) (valid : round.Valid item)
      (received : recv dest before (round.line item) = .waiting after) :
      Exchange session dest start (line ++ round.line item) (round.next position (sentSince before after))
        (round.accepted item (round.line item) position accepted) after

/-- A receiver that has only sent prompts. -/
structure Prompted (before after : Receiver) : Prop where
  alike : Alike before after
  replies : ∃ replies, after.sent = before.sent ++ replies ∧ ack ∉ replies

theorem Prompted.refl (r : Receiver) : Prompted r r := ⟨.refl r, [], by simp, by simp⟩

theorem Prompted.trans {first second third : Receiver} (early : Prompted first second)
    (late : Prompted second third) : Prompted first third := by
  obtain ⟨replies, sent, none_yet⟩ := early.replies
  obtain ⟨more, sentMore, none_later⟩ := late.replies
  refine ⟨early.alike.trans late.alike, replies ++ more, ?_, ?_⟩
  · rw [sentMore, sent, List.append_assoc]
  · simp [none_yet, none_later]

theorem sentSince_of_sent {before after : Receiver} {bytes : List Byte}
    (sent : after.sent = before.sent ++ bytes) : sentSince before after = bytes := by
  rw [sentSince, sent, List.drop_left]

theorem Prompted.not_acknowledged {before after : Receiver} (prompts : Prompted before after) :
    ack ∉ sentSince before after := by
  obtain ⟨replies, sent, silent⟩ := prompts.replies
  rwa [sentSince_of_sent sent]

theorem Acknowledged.since {first before after : Receiver} (answered : Acknowledged before after)
    (prompts : Prompted first before) : ack ∈ sentSince first after := by
  obtain ⟨prompt, early, _⟩ := prompts.replies
  obtain ⟨reply, late, acked⟩ := answered.replies
  rw [early, List.append_assoc] at late
  rw [sentSince_of_sent late]
  exact List.mem_append_right _ acked

/-- Timeouts end in an error once they are too many, or leave the transfer where it is. -/
theorem idle_run (dest : Buffer) (before : Receiver) (idle : Nat) (awake : before.idle ≤ maxIdle) :
    ∃ after, Prompted before after ∧
      ((before.idle + idle ≤ maxIdle ∧
          ∀ rest, recv dest before (List.replicate idle none ++ rest) = recv dest after rest) ∨
        (maxIdle < before.idle + idle ∧
          ∀ rest, recv dest before (List.replicate idle none ++ rest) = .returned errTimeout after)) := by
  induction idle generalizing before with
  | zero => exact ⟨before, .refl before, .inl ⟨awake, fun _ => rfl⟩⟩
  | succ idle induction_hypothesis =>
      have turned (rest : Line Byte) :
          turn dest before (none :: rest) = some (onTimeout before, rest) :=
        turn_timeout_consumes.result rest
      unfold onTimeout at turned
      dsimp only at turned
      by_cases tired : maxIdle < before.idle + 1
      · simp only [if_pos tired] at turned
        refine ⟨{ before with idle := before.idle + 1 },
          ⟨⟨rfl, rfl, rfl, rfl, rfl, rfl, rfl⟩, [], (List.append_nil _).symm, by simp⟩,
          .inr ⟨by omega, ?_⟩⟩
        intro rest
        exact recv_returned (turned _)
      · simp only [if_neg tired] at turned
        have prompt : Prompted before ({ before with idle := before.idle + 1 }.putc
            (if !before.haveHeader || before.trailer then crcC else nak)) := by
          refine ⟨⟨rfl, rfl, rfl, rfl, rfl, rfl, rfl⟩, [_], rfl, ?_⟩
          split <;> decide
        obtain ⟨after, prompted, went⟩ := induction_hypothesis
          ({ before with idle := before.idle + 1 }.putc
            (if !before.haveHeader || before.trailer then crcC else nak)) (Nat.le_of_not_lt tired)
        simp only [Receiver.putc] at went
        refine ⟨after, prompt.trans prompted, ?_⟩
        rcases went with ⟨few, onward⟩ | ⟨many, ended⟩
        · refine .inl ⟨by omega, ?_⟩
          intro rest
          rw [← onward]
          exact recv_next (turned _)
        · refine .inr ⟨by omega, ?_⟩
          intro rest
          rw [← ended rest]
          exact recv_next (turned _)

namespace Session

variable {session : Session} {dest : Buffer}

/-- What a result that is not an error has to mean. -/
structure Received (session : Session) (dest : Buffer) (n : Int) (r : Receiver) : Prop where
  result : n = int32 session.file.length
  length : 0 ≤ n → n = session.file.length
  total : r.total = session.file.length
  contents : ∀ i, i < session.file.length → r.memory.load dest.buf i = session.byte i
  size : r.size = session.file.length
  name : Spells r.name 0 (session.header.name ++ [0])

/-- What a moment of the reception has to look like, after the polls `now` of a round that `before`
    has begun. The buffer holds the items that have come through; an item is acknowledged if and
    only if it has; the call ends with the last item, or when the line is silent for too long. -/
inductive Faithful (session : Session) (dest : Buffer) (round : Round) (item : Item) (accepted : Nat)
    (before : Receiver) (now : Line Byte) : Progress → Prop where
  | waiting {r : Receiver} (missing : accepted < session.items.length) (patient : timeouts now ≤ maxIdle)
      (stored : session.Stored dest accepted r)
      (acknowledged : ack ∈ sentSince before r ↔ round.Through item now) :
      Faithful session dest round item accepted before now (.waiting r)
  | tired {r : Receiver} (missing : accepted < session.items.length) (silent : maxIdle < timeouts now)
      (stored : session.Stored dest accepted r) :
      Faithful session dest round item accepted before now (.returned errTimeout r)
  | received {n : Int} {r : Receiver} (complete : accepted = session.items.length)
      (acknowledged : ack ∈ sentSince before r) (received : session.Received dest n r) :
      Faithful session dest round item accepted before now (.returned n r)

/-- Between two rounds the receiver has accepted the sender's item or is waiting for it. -/
structure InStep (session : Session) (dest : Buffer) (position accepted : Nat) (r : Receiver)
    (stage : Stage) : Prop where
  place : session.At dest r stage
  count : stage.accepted session = accepted
  near : accepted = position ∨ accepted = position + 1
  idle : r.idle = 0

theorem recv_nil (dest : Buffer) (r : Receiver) : recv dest r [] = .waiting r := recv_waiting rfl

theorem items_length (session : Session) : session.items.length = session.blocks.length + 3 := by
  simp [items, numbered_length]

/-- What a whole round leads to. -/
inductive Ended (session : Session) (dest : Buffer) (position accepted : Nat) (before : Receiver)
    (round : Round) (item : Item) : Prop where
  | next (after : Receiver) (stage : Stage)
      (goesOn : ∀ rest, recv dest before (round.line item ++ rest) = recv dest after rest)
      (inStep : session.InStep dest (round.next position (sentSince before after))
        (round.accepted item (round.line item) position accepted) after stage)
      (acknowledged : ack ∈ sentSince before after ↔ round.damage = none)
  | finished (n : Int) (after : Receiver) (last : position = session.blocks.length + 2)
      (intact : round.damage = none) (returns : recv dest before (round.line item) = .returned n after)
      (acknowledged : ack ∈ sentSince before after) (received : session.Received dest n after)

section Rounds

variable {start before after : Receiver} {position accepted : Nat} {stage : Stage} {item : Item}
  {round : Round}

theorem InStep.missing (inStep : session.InStep dest position accepted before stage) :
    accepted < session.items.length := by
  have bound := inStep.place.accepted_le
  have count := inStep.count
  rw [items_length]
  omega

/-- A few timeouts leave the transfer where it is. -/
theorem InStep.idles (inStep : session.InStep dest position accepted before stage) {idle : Nat}
    (patient : idle ≤ maxIdle) : ∃ after, Prompted before after ∧
      ∀ rest, recv dest before (List.replicate idle none ++ rest) = recv dest after rest := by
  have fresh := inStep.idle
  obtain ⟨after, prompts, ⟨-, onward⟩ | ⟨tired, -⟩⟩ := idle_run dest before idle (by omega)
  · exact ⟨after, prompts, onward⟩
  · omega

/-- Too many timeouts end the call, whatever would have come behind them. -/
theorem InStep.gives_up (inStep : session.InStep dest position accepted before stage) {idle : Nat}
    (tired : maxIdle < idle) (rest : Line Byte) : ∃ after, Prompted before after ∧
      recv dest before (List.replicate idle none ++ rest) = .returned errTimeout after := by
  have fresh := inStep.idle
  obtain ⟨after, prompts, ⟨few, -⟩ | ⟨-, ended⟩⟩ := idle_run dest before idle (by omega)
  · omega
  · exact ⟨after, prompts, ended rest⟩

theorem finished_received {r : Receiver} (header : session.HeaderTaken r)
    (stored : session.Stored dest (session.blocks.length + 2 + 1) r)
    (size : r.size = session.file.length) : session.Received dest (int32 session.file.length) r := by
  have word : session.file.length < 2 ^ 32 := by
    rw [← session.size]
    exact session.header.sizeWord
  have total : r.total = session.file.length := by
    rw [stored.total, session.carried_all (by omega)]
  exact ⟨rfl, int32_nonnegative word, total, fun i inside => stored.contents i (by omega), size,
    header.name⟩

/-- An intact item after some timeouts. -/
theorem InStep.intact (inStep : session.InStep dest position accepted before stage)
    (fits : session.file.length ≤ dest.bufsz) (current : session.items[position]? = some item)
    (patient : round.idle ≤ maxIdle) (intact : round.damage = none) :
    session.Ended dest position accepted before round item := by
  obtain ⟨prompted, prompts, onward⟩ := inStep.idles patient
  have near := inStep.near
  rw [← inStep.count] at near
  obtain ⟨verdict, consumes, arrived⟩ :=
    (inStep.place.alike prompts.alike).arrives (current_of_items current) fits near
  have line : round.line item = List.replicate round.idle none ++ item.wire := by
    cases item <;> simp [Round.line, Round.arrival, intact]
  cases arrived with
  | accepted after next place count answered =>
      have acked := answered.since prompts
      refine .next after next ?_ ⟨place, ?_, ?_, answered.idle⟩ (iff_of_true acked intact)
      · intro rest
        rw [line, List.append_assoc, onward]
        exact recv_next (consumes.result rest)
      · rw [Round.accepted_of_intact intact patient, count]
      · rw [Round.accepted_of_intact intact patient, Round.next]
        split
        · exact .inl rfl
        · exact .inr rfl
  | finished after last header stored size answered =>
      have went := consumes.result []
      rw [List.append_nil] at went
      refine .finished (int32 session.file.length) after last intact ?_
        (answered.since prompts) ?_
      · rw [line, onward]
        exact recv_returned went
      · exact finished_received header (last ▸ stored) size

/-- A damaged block is rejected. -/
theorem InStep.damaged {number : Byte} {payload : List Byte} {rest : Line Byte}
    (inStep : session.InStep dest position accepted before stage) (patient : round.idle ≤ maxIdle)
    (damage : round.damage = some rest) (valid : round.Valid (.block number payload)) :
    session.Ended dest position accepted before round (.block number payload) := by
  obtain ⟨prompted, prompts, onward⟩ := inStep.idles patient
  obtain ⟨blk, rejected⟩ := valid rest damage prompted.blk
  have consumes := @turn_rejected_consumes dest prompted _ _ _ (startByte_begins payload) rejected
  have line : round.line (.block number payload) =
      List.replicate round.idle none ++ some (startByte payload) :: rest := by
    simp [Round.line, Round.arrival, damage]
  have broken : round.damage ≠ none := by simp [damage]
  have missed : ¬round.Through (.block number payload) (round.line (.block number payload)) :=
    fun through => broken through.1
  have silent : ack ∉ sentSince before ({ prompted with idle := 0, blk }.putc nak) := by
    obtain ⟨prompt, sent, unacknowledged⟩ := prompts.replies
    have both : ({ prompted with idle := 0, blk }.putc nak).sent = before.sent ++ (prompt ++ [nak]) := by
      rw [← List.append_assoc, ← sent]
      rfl
    rw [sentSince_of_sent both, List.mem_append, not_or]
    exact ⟨unacknowledged, by decide⟩
  refine .next ({ prompted with idle := 0, blk }.putc nak) stage ?_ ⟨?_, ?_, ?_, rfl⟩
    (iff_of_false silent broken)
  · intro more
    rw [line, List.append_assoc, onward]
    exact recv_next (consumes.result more)
  · exact inStep.place.alike (prompts.alike.trans ⟨rfl, rfl, rfl, rfl, rfl, rfl, rfl⟩)
  · rw [Round.accepted_of_not missed, inStep.count]
  · rw [Round.accepted_of_not missed, Round.next, if_neg fun both => silent both.2]
    exact inStep.near

theorem InStep.ended (inStep : session.InStep dest position accepted before stage)
    (fits : session.file.length ≤ dest.bufsz) (current : session.items[position]? = some item)
    (valid : round.Valid item) (patient : round.idle ≤ maxIdle) :
    session.Ended dest position accepted before round item := by
  cases damage : round.damage with
  | none => exact inStep.intact fits current patient damage
  | some rest =>
      cases item with
      | eot => exact (valid rest damage).elim
      | block number payload => exact inStep.damaged patient damage valid

/-- Any receiver takes the polls of an item in one turn. -/
theorem arrival_consumes (round : Round) (current : session.items[position]? = some item)
    (valid : round.Valid item) (r : Receiver) :
    ∃ verdict, Poll.Consumes (turn dest r) (round.arrival item) verdict := by
  cases damage : round.damage with
  | none =>
      have arrival : round.arrival item = item.wire := by
        cases item <;> simp [Round.arrival, damage, Item.wire]
      rw [arrival]
      cases current_of_items current with
      | header => exact ⟨_, session.header.sized.arrives dest r 0⟩
      | data index within => exact ⟨_, (session.sized _ (List.getElem_mem within)).arrives dest r _⟩
      | eot => exact ⟨_, turn_eot_consumes⟩
      | null => exact ⟨_, session.nullSized.arrives dest r 0⟩
  | some rest =>
      cases item with
      | eot => exact (valid rest damage).elim
      | block number payload =>
          obtain ⟨blk, rejected⟩ := valid rest damage r.blk
          rw [Round.arrival, damage]
          exact ⟨_, turn_rejected_consumes (startByte_begins payload) rejected⟩

theorem InStep.exchanged (inStep : session.InStep dest position accepted before stage)
    (fits : session.file.length ≤ dest.bufsz) (current : session.items[position]? = some item)
    (valid : round.Valid item) (received : recv dest before (round.line item) = .waiting after) :
    (∀ rest, recv dest before (round.line item ++ rest) = recv dest after rest) ∧
      ∃ stage, session.InStep dest (round.next position (sentSince before after))
        (round.accepted item (round.line item) position accepted) after stage := by
  by_cases patient : round.idle ≤ maxIdle
  · cases inStep.ended fits current valid patient with
    | next reached stage goesOn next _ =>
        have here := goesOn []
        rw [List.append_nil, received, recv_nil] at here
        cases here
        exact ⟨goesOn, stage, next⟩
    | finished _ _ _ _ returns =>
        rw [returns] at received
        cases received
  · obtain ⟨ended, -, returns⟩ := inStep.gives_up (Nat.lt_of_not_le patient) (round.arrival item)
    rw [Round.line, returns] at received
    cases received

/-- All rounds, by induction on the exchange. -/
theorem InStep.exchange {line : Line Byte} (fresh : session.At dest start .fresh) (idle : start.idle = 0)
    (fits : session.file.length ≤ dest.bufsz)
    (exchange : Exchange session dest start line position accepted after) :
    (∀ rest, recv dest start (line ++ rest) = recv dest after rest) ∧
      ∃ stage, session.InStep dest position accepted after stage := by
  induction exchange with
  | start => exact ⟨fun _ => rfl, .fresh, fresh, rfl, .inl rfl, idle⟩
  | round _ current round valid received induction_hypothesis =>
      obtain ⟨resumes, stage, inStep⟩ := induction_hypothesis
      obtain ⟨goesOn, next⟩ := inStep.exchanged fits current valid received
      refine ⟨?_, next⟩
      intro rest
      rw [List.append_assoc, resumes, goesOn]

/-- A part of a round: some of its timeouts, or all of them and some of the item. -/
theorem prefix_of_round {idle : Nat} {arrival now : Line Byte}
    (soFar : now <+: List.replicate idle none ++ arrival) :
    (∃ fewer, now = List.replicate fewer none) ∨
      ∃ part, now = List.replicate idle none ++ part ∧ part <+: arrival := by
  rcases List.prefix_or_prefix_of_prefix soFar (List.prefix_append _ arrival) with few | all
  · exact .inl ⟨now.length, (List.prefix_replicate_iff.mp few).2⟩
  · obtain ⟨part, rfl⟩ := all
    exact .inr ⟨part, rfl, (List.prefix_append_right_inj _).mp soFar⟩

theorem timeouts_part {round : Round} {part : Line Byte} (within : part <+: round.arrival item) :
    timeouts part = 0 := by
  obtain ⟨byte, rest, begins⟩ := round.arrival_begins item
  rw [begins] at within
  cases part with
  | nil => rfl
  | cons head tail =>
      obtain ⟨rfl, -⟩ := List.cons_prefix_cons.mp within
      rfl

/-- The line has been silent so far. -/
theorem InStep.silent (inStep : session.InStep dest position accepted before stage) (fewer : Nat) :
    session.Faithful dest round item
      (round.accepted item (List.replicate fewer none) position accepted) before
      (List.replicate fewer none) (recv dest before (List.replicate fewer none)) := by
  have timed : timeouts (List.replicate fewer none) = fewer := by
    rw [← List.append_nil (List.replicate fewer none), timeouts_replicate]
    rfl
  have missed : ¬round.Through item (List.replicate fewer none) := by
    rintro ⟨-, -, whole⟩
    obtain ⟨byte, rest, begins⟩ := round.arrival_begins item
    have member : some byte ∈ List.replicate fewer (none : Option Byte) := by
      rw [whole, Round.line, begins]
      exact List.mem_append_right _ List.mem_cons_self
    cases (List.mem_replicate.mp member).2
  rw [Round.accepted_of_not missed]
  have stored := inStep.place.stored
  rw [inStep.count] at stored
  by_cases patient : fewer ≤ maxIdle
  · obtain ⟨prompted, prompts, onward⟩ := inStep.idles patient
    have here := onward []
    rw [List.append_nil, recv_nil] at here
    rw [here]
    exact .waiting inStep.missing (by rwa [timed]) (stored.alike prompts.alike)
      (iff_of_false prompts.not_acknowledged missed)
  · obtain ⟨after, prompts, ended⟩ := inStep.gives_up (Nat.lt_of_not_le patient) []
    rw [List.append_nil] at ended
    rw [ended]
    exact .tired inStep.missing (by omega) (stored.alike prompts.alike)

theorem InStep.faithful {now : Line Byte}
    (inStep : session.InStep dest position accepted before stage)
    (fits : session.file.length ≤ dest.bufsz) (current : session.items[position]? = some item)
    (valid : round.Valid item) (soFar : now <+: round.line item) :
    session.Faithful dest round item (round.accepted item now position accepted) before now
      (recv dest before now) := by
  rcases prefix_of_round soFar with ⟨fewer, rfl⟩ | ⟨part, rfl, within⟩
  · exact inStep.silent fewer
  · have timed : timeouts (List.replicate round.idle none ++ part) = round.idle := by
      rw [timeouts_replicate, timeouts_part within, Nat.add_zero]
    have stored := inStep.place.stored
    rw [inStep.count] at stored
    by_cases patient : round.idle ≤ maxIdle
    · by_cases whole : part = round.arrival item
      · subst whole
        cases inStep.ended fits current valid patient with
        | next after stage goesOn next acknowledged =>
            have here := goesOn []
            rw [List.append_nil, recv_nil] at here
            have held := next.place.stored
            rw [next.count] at held
            change session.Faithful dest round item _ before _ (recv dest before (round.line item))
            rw [here]
            refine .waiting next.missing (by rwa [timed]) held (acknowledged.trans ?_)
            exact ⟨fun intact => ⟨intact, patient, rfl⟩, fun through => through.1⟩
        | finished n after last intact returns acknowledged received =>
            change session.Faithful dest round item
              (round.accepted item (round.line item) position accepted) before _
              (recv dest before (round.line item))
            rw [returns, Round.accepted_of_intact intact patient]
            exact .received (by rw [items_length, last]) acknowledged received
      · have missed : ¬round.Through item (List.replicate round.idle none ++ part) := by
          rintro ⟨-, -, same⟩
          exact whole (List.append_cancel_left same)
        obtain ⟨prompted, prompts, onward⟩ := inStep.idles patient
        obtain ⟨verdict, consumes⟩ := arrival_consumes round current valid prompted
        rw [Round.accepted_of_not missed, onward, recv_waiting (consumes.waits part within whole)]
        exact .waiting inStep.missing (by rwa [timed]) (stored.alike prompts.alike)
          (iff_of_false prompts.not_acknowledged missed)
    · have missed : ¬round.Through item (List.replicate round.idle none ++ part) := by
        rintro ⟨-, few, -⟩
        exact patient few
      obtain ⟨after, prompts, ended⟩ := inStep.gives_up (Nat.lt_of_not_le patient) part
      rw [Round.accepted_of_not missed, ended]
      exact .tired inStep.missing (by omega) (stored.alike prompts.alike)

end Rounds

end Session

theorem start_fresh (session : Session) (dest : Buffer) (memory : Memory 32) (blk name : Block) :
    session.At dest (.start memory blk name) .fresh :=
  .fresh rfl rfl rfl rfl rfl

/-- At every moment of every exchange the buffer holds what has come through, in order and once; an
    item is acknowledged when it has come through, and with the last one the file has been
    received, with its name and size. -/
theorem ymodem_transfer_exact (session : Session) (dest : Buffer)
    (fits : session.file.length ≤ dest.bufsz) (memory : Memory 32) (blk name : Block)
    {line now : Line Byte} {position accepted : Nat} {r : Receiver} {item : Item} {round : Round}
    (exchange : Exchange session dest (.start memory blk name) line position accepted r)
    (current : session.items[position]? = some item) (valid : round.Valid item)
    (soFar : now <+: round.line item) :
    session.Faithful dest round item (round.accepted item now position accepted) r now
      (ymodemRecv dest memory blk name (line ++ now)) := by
  obtain ⟨resumes, stage, inStep⟩ :=
    Session.InStep.exchange (start_fresh session dest memory blk name) rfl fits exchange
  rw [ymodemRecv, resumes]
  exact inStep.faithful fits current valid soFar

/-- Any round that does not end the call carries an exchange on. -/
theorem Exchange.onward {session : Session} {dest : Buffer} {start before : Receiver} {line : Line Byte}
    {position accepted : Nat} {item : Item}
    (exchange : Exchange session dest start line position accepted before)
    (fresh : session.At dest start .fresh) (idle : start.idle = 0)
    (fits : session.file.length ≤ dest.bufsz) (current : session.items[position]? = some item)
    (round : Round) (valid : round.Valid item) (patient : round.idle ≤ maxIdle)
    (more : round.damage = none → position < session.blocks.length + 2) :
    ∃ after, Exchange session dest start (line ++ round.line item)
      (if round.heard = true ∧ round.damage = none then position + 1 else position)
      (if round.damage = none then position + 1 else accepted) after := by
  obtain ⟨-, stage, inStep⟩ := Session.InStep.exchange fresh idle fits exchange
  cases inStep.ended fits current valid patient with
  | next after stage goesOn _ acknowledged =>
      have received := goesOn []
      rw [List.append_nil, Session.recv_nil] at received
      have next := exchange.round current round valid received
      have moves : round.next position (sentSince before after) =
          if round.heard = true ∧ round.damage = none then position + 1 else position := by
        simp only [Round.next, acknowledged]
      have counts : round.accepted item (round.line item) position accepted =
          if round.damage = none then position + 1 else accepted := by
        simp only [Round.accepted, Round.Through, patient, and_true]
      exact ⟨after, moves ▸ counts ▸ next⟩
  | finished _ _ last intact => exact absurd (more intact) (by omega)

/-- A file of five bytes in one block: the reply to the header is lost, and the block is damaged. -/
def fiveByteSession : Session where
  header := fiveBytes
  file := [1, 2, 3, 4, 5]
  blocks := [padded [1, 2, 3, 4, 5] 128]
  null := padded [] 128
  size := rfl
  sized payload member := by
    rw [List.mem_singleton.mp member]
    exact .inl rfl
  carries := ⟨List.replicate 123 0, rfl⟩
  padding _ := by decide
  nullSized := .inl rfl
  nullZero byte member := List.eq_of_mem_replicate member

def smallBuffer : Buffer := ⟨0x400, 4096, page_room⟩

def promptedRound : Round where
  idle := 2
  damage := none
  heard := true

def lostReply : Round := { promptedRound with heard := false }

/-- The line falls silent behind the start byte. -/
def brokenOff : Round := { promptedRound with damage := some (List.replicate 6 none) }

def fiveByteLine : Line Byte :=
  [] ++ lostReply.line (.block 0 fiveBytes.payload) ++ promptedRound.line (.block 0 fiveBytes.payload) ++
    brokenOff.line (.block 1 (padded [1, 2, 3, 4, 5] 128)) ++
    promptedRound.line (.block 1 (padded [1, 2, 3, 4, 5] 128)) ++ promptedRound.line .eot

theorem valid_of_intact {round : Round} (intact : round.damage = none) (item : Item) : round.Valid item := by
  intro rest damage
  rw [intact] at damage
  cases damage

theorem drain_silent : Poll.Consumes drain ([none] : Line Byte) () where
  result _ := rfl
  waits shorter start other := by
    cases shorter with
    | nil => rfl
    | cons head tail =>
        obtain ⟨rfl, rest⟩ := List.cons_prefix_cons.mp start
        exact absurd (by rw [List.prefix_nil.mp rest]) other

theorem brokenOff_valid (number : Byte) (payload : List Byte) : brokenOff.Valid (.block number payload) := by
  intro rest damage blk
  cases damage
  refine ⟨blk, ?_⟩
  have silent : Poll.Consumes rxMs [none] (none : Option Byte) := Poll.consumes_poll none
  have unfilled : Poll.Consumes (fill (blockLength (startByte payload)) 0 blk) [none] (false, blk) := by
    have more : blockLength (startByte payload) ≠ 0 := by
      unfold blockLength
      split <;> decide
    obtain ⟨len, length⟩ := Nat.exists_eq_succ_of_ne_zero more
    rw [length]
    exact silent.bind (Poll.consumes_pure _)
  have drained : Poll.Consumes (settle blk none) [none] (none, blk) :=
    drain_silent.bind (Poll.consumes_pure _)
  exact silent.bind (silent.bind (unfilled.bind (silent.bind (silent.bind drained))))

theorem five_byte_transfer_exact : ∃ r, ymodemRecv smallBuffer (fun _ => 0) (fun _ => 0) (fun _ => 0)
      (fiveByteLine ++ promptedRound.line (.block 0 (padded [] 128))) = .returned 5 r ∧
    fiveByteSession.Received smallBuffer 5 r := by
  have fits : fiveByteSession.file.length ≤ smallBuffer.bufsz := by decide
  have fresh := start_fresh fiveByteSession smallBuffer (fun _ => 0) (fun _ => 0) (fun _ => 0)
  have valid (item : Item) := valid_of_intact (rfl : promptedRound.damage = none) item
  have lost (item : Item) := valid_of_intact (rfl : lostReply.damage = none) item
  have first : fiveByteSession.items[0]? = some (.block 0 fiveBytes.payload) := rfl
  have second : fiveByteSession.items[1]? = some (.block 1 (padded [1, 2, 3, 4, 5] 128)) := rfl
  have third : fiveByteSession.items[2]? = some .eot := rfl
  have last : fiveByteSession.items[3]? = some (.block 0 (padded [] 128)) := rfl
  obtain ⟨_, header⟩ : ∃ r, Exchange fiveByteSession smallBuffer _ _ 0 1 r :=
    Exchange.start.onward fresh rfl fits first lostReply (lost _) (by decide) (fun _ => by decide)
  obtain ⟨_, again⟩ : ∃ r, Exchange fiveByteSession smallBuffer _ _ 1 1 r :=
    header.onward fresh rfl fits first promptedRound (valid _) (by decide) (fun _ => by decide)
  obtain ⟨_, broken⟩ : ∃ r, Exchange fiveByteSession smallBuffer _ _ 1 1 r :=
    again.onward fresh rfl fits second brokenOff (brokenOff_valid _ _) (by decide) (fun _ => by decide)
  obtain ⟨_, data⟩ : ∃ r, Exchange fiveByteSession smallBuffer _ _ 2 2 r :=
    broken.onward fresh rfl fits second promptedRound (valid _) (by decide) (fun _ => by decide)
  obtain ⟨_, ended⟩ : ∃ r, Exchange fiveByteSession smallBuffer _ _ 3 3 r :=
    data.onward fresh rfl fits third promptedRound (valid _) (by decide) (fun _ => by decide)
  have faithful := ymodem_transfer_exact fiveByteSession smallBuffer fits (fun _ => 0) (fun _ => 0)
    (fun _ => 0) ended last (valid _) (List.prefix_refl _)
  rw [Round.accepted_of_intact rfl (by decide)] at faithful
  change fiveByteSession.Faithful smallBuffer promptedRound (.block 0 (padded [] 128)) 4 _ _
    (ymodemRecv _ _ _ _ (fiveByteLine ++ _)) at faithful
  generalize ymodemRecv _ _ _ _ _ = progress at faithful ⊢
  cases faithful with
  | waiting missing => exact absurd missing (by decide)
  | tired missing => exact absurd missing (by decide)
  | received _ _ received =>
      obtain rfl := received.result
      exact ⟨_, rfl, received⟩

end Mackerel.Ymodem
