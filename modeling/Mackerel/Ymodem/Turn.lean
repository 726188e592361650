import Mackerel.Ymodem.Receiver
import Mathlib.Data.List.Basic

namespace Mackerel.Ymodem

open Bytes Serial

/-- A block after the bytes of a payload have been stored in it from index `i` on. -/
def overlay (i : Nat) (payload : List Byte) (blk : Block) : Block :=
  fun j => if i ≤ j then payload.getD (j - i) (blk j) else blk j

theorem overlay_nil (i : Nat) (blk : Block) : overlay i [] blk = blk := by
  funext j
  simp [overlay]

theorem overlay_cons (i : Nat) (byte : Byte) (payload : List Byte) (blk : Block) :
    overlay (i + 1) payload (fun j => if j = i then byte else blk j) = overlay i (byte :: payload) blk := by
  funext j
  dsimp only [overlay]
  by_cases later : i + 1 ≤ j
  · have index : j - i = (j - (i + 1)) + 1 := by omega
    rw [if_pos later, if_pos (by omega : i ≤ j), if_neg (by omega : ¬j = i), index,
      List.getD_cons_succ]
  · rw [if_neg later]
    by_cases here : j = i
    · subst here
      simp
    · rw [if_neg here, if_neg (by omega : ¬i ≤ j)]

/-- The only way to fill a block. -/
theorem fill_inversion {left i : Nat} {blk filled : Block} {line rest : Line Byte}
    (ran : fill left i blk line = some ((true, filled), rest)) :
    ∃ payload, payload.length = left ∧ line = payload.map some ++ rest ∧
      filled = overlay i payload blk := by
  induction left generalizing i blk line with
  | zero =>
      cases ran
      exact ⟨[], rfl, rfl, (overlay_nil i filled).symm⟩
  | succ left induction_hypothesis =>
      rw [fill, Poll.bind_run] at ran
      match line with
      | [] => cases ran
      | none :: tail => cases ran
      | some byte :: tail =>
          obtain ⟨payload, length, split, stored⟩ := induction_hypothesis ran
          change tail = _ at split
          refine ⟨byte :: payload, by rw [List.length_cons, length], by rw [split]; rfl, ?_⟩
          rw [stored, overlay_cons]

theorem fill_consumes (payload : List Byte) (i : Nat) (blk : Block) :
    Poll.Consumes (fill payload.length i blk) (payload.map some) (true, overlay i payload blk) := by
  induction payload generalizing i blk with
  | nil =>
      rw [overlay_nil]
      exact Poll.consumes_pure _
  | cons byte payload induction_hypothesis =>
      rw [← overlay_cons]
      exact (Poll.consumes_poll (some byte)).bind (induction_hypothesis (i + 1) _)

theorem shrinks_fill (left i : Nat) (blk : Block) : Poll.Shrinks (fill left i blk) := by
  induction left generalizing i blk with
  | zero => exact Poll.shrinks_pure _
  | succ left induction_hypothesis =>
      apply Poll.shrinks_poll.bind
      intro result
      cases result with
      | none => exact Poll.shrinks_pure _
      | some byte => exact induction_hypothesis _ _

theorem shrinks_drain : Poll.Shrinks drain := by
  intro line value rest ran
  induction line with
  | nil => cases ran
  | cons result tail induction_hypothesis =>
      cases result with
      | none =>
          cases ran
          exact Nat.le_succ _
      | some byte => exact Nat.le_succ_of_le (induction_hypothesis ran)

theorem crc16_congr {first second : Block} {n : Nat} (same : ∀ i, i < n → first i = second i) :
    crc16 first n = crc16 second n := by
  apply List.foldl_ext
  intro crc i member
  rw [same i (List.mem_range.mp member)]

def payloadBlock (payload : List Byte) : Block := fun i => payload.getD i 0

theorem crc16_overlay (payload : List Byte) (blk : Block) :
    crc16 (overlay 0 payload blk) payload.length = crc16 (payloadBlock payload) payload.length := by
  apply crc16_congr
  intro i inside
  simp [overlay, payloadBlock, List.getElem?_eq_getElem inside]

/-- The polls after the start byte of an intact block. -/
structure Intact (len : Nat) (used : Line Byte) (bn : Byte) (payload : List Byte) : Prop where
  length : payload.length = len
  shape : ∃ bnc ch cl, used = some bn :: some bnc :: (payload.map some ++ [some ch, some cl]) ∧
    bn + bnc = 0xFF ∧ crc16 (payloadBlock payload) len = ch ++ cl

theorem Intact.consumes {len : Nat} {used : Line Byte} {bn : Byte} {payload : List Byte}
    (intact : Intact len used bn payload) (blk : Block) :
    Poll.Consumes (receiveBlock len blk) used (some bn, overlay 0 payload blk) := by
  obtain ⟨rfl, bnc, ch, cl, rfl, number, crc⟩ := intact
  rw [← crc16_overlay payload blk] at crc
  have accepted : checked true (crc16 (overlay 0 payload blk) payload.length)
      (some bn) (some bnc) (some ch) (some cl) = some bn := if_pos ⟨number, rfl, crc⟩
  have ending : Poll.Consumes (settle (overlay 0 payload blk)
      (checked true (crc16 (overlay 0 payload blk) payload.length)
        (some bn) (some bnc) (some ch) (some cl))) [] (some bn, overlay 0 payload blk) := by
    rw [accepted]
    exact Poll.consumes_pure _
  exact (Poll.consumes_poll (some bn)).bind ((Poll.consumes_poll (some bnc)).bind
    ((fill_consumes payload 0 blk).bind ((Poll.consumes_poll (some ch)).bind
      ((Poll.consumes_poll (some cl)).bind ending))))

theorem checked_inversion {filled : Bool} {crc : BitVec 16} {first second high low : Option Byte}
    {bn : Byte} (accepted : checked filled crc first second high low = some bn) :
    filled = true ∧ first = some bn ∧
      ∃ bnc ch cl, second = some bnc ∧ high = some ch ∧ low = some cl ∧
        bn + bnc = 0xFF ∧ crc = ch ++ cl := by
  unfold checked at accepted
  split at accepted
  · split at accepted
    case isTrue passes =>
      cases accepted
      exact ⟨passes.2.1, rfl, _, _, _, rfl, rfl, rfl, passes.1, passes.2.2⟩
    case isFalse => cases accepted
  · cases accepted

theorem settle_inversion {blk after : Block} {number : Option Byte} {bn : Byte}
    {line rest : Line Byte} (ran : settle blk number line = some ((some bn, after), rest)) :
    number = some bn ∧ after = blk ∧ rest = line := by
  cases number with
  | some number =>
      cases ran
      exact ⟨rfl, rfl, rfl⟩
  | none =>
      rw [settle, Poll.bind_run, Option.bind_eq_some_iff] at ran
      obtain ⟨drained, -, ended⟩ := ran
      cases ended

theorem poll_inversion {line rest : Line Byte} {result : Option Byte}
    (ran : rxMs line = some (result, rest)) : line = result :: rest := by
  cases line with
  | nil => cases ran
  | cons head tail =>
      cases ran
      rfl

theorem receiveBlock_inversion {len : Nat} {blk after : Block} {line rest : Line Byte} {bn : Byte}
    (ran : receiveBlock len blk line = some ((some bn, after), rest)) :
    ∃ used payload, line = used ++ rest ∧ Intact len used bn payload ∧ after = overlay 0 payload blk := by
  unfold receiveBlock at ran
  simp only [Poll.bind_run, Option.bind_eq_some_iff] at ran
  obtain ⟨⟨number, afterNumber⟩, first, ⟨complement, afterComplement⟩, second,
    ⟨⟨filled, stored⟩, afterData⟩, data, ⟨high, afterHigh⟩, third, ⟨low, afterLow⟩, fourth, ending⟩ := ran
  dsimp only at second data third fourth ending
  obtain ⟨accepted, rfl, rfl⟩ := settle_inversion ending
  obtain ⟨rfl, rfl, bnc, ch, cl, rfl, rfl, rfl, sum, crc⟩ := checked_inversion accepted
  obtain ⟨payload, rfl, split, rfl⟩ := fill_inversion data
  rw [crc16_overlay] at crc
  refine ⟨_, payload, ?_, ⟨rfl, bnc, ch, cl, rfl, sum, crc⟩, rfl⟩
  rw [poll_inversion first, poll_inversion second, split, poll_inversion third, poll_inversion fourth]
  simp

theorem shrinks_settle (blk : Block) (number : Option Byte) : Poll.Shrinks (settle blk number) := by
  cases number with
  | some bn => exact Poll.shrinks_pure _
  | none => exact shrinks_drain.bind fun _ => Poll.shrinks_pure _

theorem shrinks_receiveBlock (len : Nat) (blk : Block) : Poll.Shrinks (receiveBlock len blk) :=
  Poll.shrinks_poll.bind fun _ => Poll.shrinks_poll.bind fun _ =>
    (shrinks_fill len 0 blk).bind fun _ => Poll.shrinks_poll.bind fun _ =>
      Poll.shrinks_poll.bind fun _ => shrinks_settle _ _

theorem shrinks_onByte (dest : Buffer) (r : Receiver) (hdr : Byte) :
    Poll.Shrinks (onByte dest r hdr) := by
  unfold onByte
  split
  · exact Poll.shrinks_pure _
  · split
    · exact Poll.shrinks_poll.bind fun _ => Poll.shrinks_pure _
    · split
      · exact Poll.shrinks_pure _
      · apply (shrinks_receiveBlock _ _).bind
        intro ⟨number, blk⟩
        cases number with
        | none => exact Poll.shrinks_pure _
        | some bn => exact Poll.shrinks_pure _

/-- Every turn polls. -/
theorem turn_shorter {dest : Buffer} {r : Receiver} {line rest : Line Byte} {verdict : Verdict}
    (ran : turn dest r line = some (verdict, rest)) : rest.length < line.length := by
  match line with
  | [] => cases ran
  | none :: tail =>
      cases ran
      exact Nat.lt_succ_self _
  | some hdr :: tail => exact Nat.lt_succ_of_le (shrinks_onByte dest _ hdr tail _ _ ran)

inductive Turn (dest : Buffer) (r : Receiver) : (line rest : Line Byte) → Verdict → Prop where
  | timeout (rest : Line Byte) : Turn dest r (none :: rest) rest (onTimeout r)
  | eot (rest : Line Byte) : Turn dest r (some eot :: rest) rest (.next (onEot { r with idle := 0 }))
  | cancelled (rest : Line Byte) :
      Turn dest r (some can :: some can :: rest) rest (.returned errCancel { r with idle := 0 })
  | junk (hdr : Byte) (line rest : Line Byte) (other : hdr ≠ Ymodem.eot) :
      Turn dest r (some hdr :: line) rest (.next { r with idle := 0 })
  | bad (hdr : Byte) (line rest : Line Byte) (blk : Block) (other : hdr ≠ Ymodem.eot) :
      Turn dest r (some hdr :: line) rest (.next ({ r with idle := 0, blk }.putc nak))
  | block (hdr : Byte) (used rest : Line Byte) (bn : Byte) (payload : List Byte)
      (begins : hdr = soh ∨ hdr = stx) (intact : Intact (blockLength hdr) used bn payload) :
      Turn dest r (some hdr :: (used ++ rest)) rest
        (acceptBlock dest bn (blockLength hdr)
          { r with idle := 0, blk := overlay 0 payload r.blk })

theorem turn_inversion {dest : Buffer} {r : Receiver} {line rest : Line Byte} {verdict : Verdict}
    (ran : turn dest r line = some (verdict, rest)) : Turn dest r line rest verdict := by
  match line with
  | [] => cases ran
  | none :: tail =>
      cases ran
      exact .timeout _
  | some hdr :: tail =>
      change onByte dest { r with idle := 0 } hdr tail = _ at ran
      unfold onByte at ran
      split at ran
      case isTrue isEot =>
        cases ran
        rw [isEot]
        exact .eot _
      case isFalse notEot =>
        split at ran
        case isTrue isCan =>
          rw [Poll.bind_run, Option.bind_eq_some_iff] at ran
          obtain ⟨⟨second, remaining⟩, polled, ended⟩ := ran
          obtain rfl := poll_inversion polled
          by_cases twice : second = some can
          · rw [if_pos twice] at ended
            cases ended
            rw [isCan, twice]
            exact .cancelled _
          · rw [if_neg twice] at ended
            cases ended
            exact .junk hdr _ _ notEot
        case isFalse notCan =>
          split at ran
          case isTrue =>
            cases ran
            exact .junk hdr _ _ notEot
          case isFalse starts =>
            have begins : hdr = soh ∨ hdr = stx := by
              rw [not_and_or, not_not, not_not] at starts
              exact starts
            rw [onBlock, Poll.bind_run, Option.bind_eq_some_iff] at ran
            obtain ⟨⟨⟨number, blk⟩, remaining⟩, received, ended⟩ := ran
            cases number with
            | none =>
                cases ended
                exact .bad hdr _ _ blk notEot
            | some bn =>
                cases ended
                obtain ⟨used, payload, rfl, intact, rfl⟩ := receiveBlock_inversion received
                exact .block hdr used _ bn payload begins intact

section Forward

variable {dest : Buffer} {r : Receiver}

theorem turn_timeout_consumes : Poll.Consumes (turn dest r) [none] (onTimeout r) :=
  (Poll.consumes_poll none).bind (Poll.consumes_pure _)

theorem turn_eot_consumes :
    Poll.Consumes (turn dest r) [some eot] (.next (onEot { r with idle := 0 })) :=
  (Poll.consumes_poll (some eot)).bind (Poll.consumes_pure _)

/-- A byte that starts a block. -/
theorem turn_onBlock_consumes {hdr : Byte} {used : Line Byte} {verdict : Verdict}
    (begins : hdr = soh ∨ hdr = stx)
    (rest : Poll.Consumes (onBlock dest (blockLength hdr) { r with idle := 0 }) used verdict) :
    Poll.Consumes (turn dest r) (some hdr :: used) verdict := by
  have starts : onByte dest { r with idle := 0 } hdr =
      onBlock dest (blockLength hdr) { r with idle := 0 } := by
    rcases begins with rfl | rfl <;> rfl
  rw [← starts] at rest
  exact (Poll.consumes_poll (some hdr)).bind rest

theorem turn_block_consumes (dest : Buffer) (r : Receiver) {hdr bn : Byte} {used : Line Byte}
    {payload : List Byte}
    (begins : hdr = soh ∨ hdr = stx) (intact : Intact (blockLength hdr) used bn payload) :
    Poll.Consumes (turn dest r) (some hdr :: used)
      (acceptBlock dest bn (blockLength hdr)
        { r with idle := 0, blk := overlay 0 payload r.blk }) := by
  apply turn_onBlock_consumes begins
  rw [← List.append_nil used]
  exact (intact.consumes r.blk).bind (Poll.consumes_pure _)

theorem turn_rejected_consumes {hdr : Byte} {used : Line Byte} {blk : Block}
    (begins : hdr = soh ∨ hdr = stx)
    (rejected : Poll.Consumes (receiveBlock (blockLength hdr) r.blk) used (none, blk)) :
    Poll.Consumes (turn dest r) (some hdr :: used)
      (.next ({ r with idle := 0, blk }.putc nak)) := by
  apply turn_onBlock_consumes begins
  rw [← List.append_nil used]
  exact rejected.bind (Poll.consumes_pure _)

end Forward

section Loop

variable {dest : Buffer}

theorem loop_enough {fuel other : Nat} {r : Receiver} {line : Line Byte} (enough : line.length < fuel)
    (otherEnough : line.length < other) : loop dest fuel r line = loop dest other r line := by
  induction fuel generalizing other r line with
  | zero => omega
  | succ fuel induction_hypothesis =>
      obtain ⟨other, rfl⟩ := Nat.exists_eq_succ_of_ne_zero (by omega : other ≠ 0)
      rw [loop, loop]
      cases ran : turn dest r line with
      | none => rfl
      | some result =>
          obtain ⟨verdict, rest⟩ := result
          have shorter := turn_shorter ran
          cases verdict with
          | next after => exact induction_hypothesis (by omega) (by omega)
          | returned result after => rfl
          | outOfBounds => rfl

theorem recv_waiting {r : Receiver} {line : Line Byte} (ran : turn dest r line = none) :
    recv dest r line = .waiting r := by
  rw [recv, loop, ran]

theorem recv_next {r after : Receiver} {line rest : Line Byte}
    (ran : turn dest r line = some (.next after, rest)) : recv dest r line = recv dest after rest := by
  have shorter := turn_shorter ran
  rw [recv, loop, ran]
  exact loop_enough shorter (Nat.lt_succ_self _)

theorem recv_returned {r after : Receiver} {line rest : Line Byte} {result : Int}
    (ran : turn dest r line = some (.returned result after, rest)) :
    recv dest r line = .returned result after := by
  rw [recv, loop, ran]

/-- The heads of the loop that a run comes to. -/
inductive Reaches (dest : Buffer) : Receiver → Line Byte → Receiver → Line Byte → Prop where
  | here (r : Receiver) (line : Line Byte) : Reaches dest r line r line
  | later {r middle after : Receiver} {line rest last : Line Byte}
      (ran : turn dest r line = some (.next middle, rest))
      (reaches : Reaches dest middle rest after last) : Reaches dest r line after last

theorem recv_reaches {r after : Receiver} {line last : Line Byte}
    (reaches : Reaches dest r line after last) : recv dest r line = recv dest after last := by
  induction reaches with
  | here => rfl
  | later ran _ induction_hypothesis => rw [recv_next ran, induction_hypothesis]

/-- An invariant of the turns holds at every head. -/
theorem Reaches.invariant {Holds : Receiver → Prop} {r after : Receiver} {line last : Line Byte}
    (reaches : Reaches dest r line after last)
    (step : ∀ {before next : Receiver} {line rest : Line Byte}, Turn dest before line rest (.next next) →
      Holds before → Holds next)
    (holds : Holds r) : Holds after := by
  induction reaches with
  | here => exact holds
  | later ran _ induction_hypothesis => exact induction_hypothesis (step (turn_inversion ran) holds)

/-- A run that returns has a last turn. -/
theorem recv_last {r after : Receiver} {line : Line Byte} {result : Int}
    (ran : recv dest r line = .returned result after) :
    ∃ head last rest, Reaches dest r line head last ∧
      turn dest head last = some (.returned result after, rest) := by
  generalize length : line.length = count
  induction count using Nat.strongRecOn generalizing r line with
  | ind count induction_hypothesis =>
      cases turned : turn dest r line with
      | none =>
          rw [recv_waiting turned] at ran
          cases ran
      | some outcome =>
          obtain ⟨verdict, rest⟩ := outcome
          cases verdict with
          | next middle =>
              have shorter := turn_shorter turned
              rw [recv_next turned] at ran
              obtain ⟨head, last, tail, reaches, ended⟩ :=
                induction_hypothesis rest.length (by omega) ran rfl
              exact ⟨head, last, tail, .later turned reaches, ended⟩
          | returned result after =>
              rw [recv_returned turned] at ran
              cases ran
              exact ⟨r, line, rest, .here r line, turned⟩
          | outOfBounds =>
              rw [recv, loop, turned] at ran
              cases ran

end Loop

end Mackerel.Ymodem
