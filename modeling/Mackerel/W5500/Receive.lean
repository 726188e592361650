import Mackerel.W5500.Access

namespace Mackerel.W5500

open Bytes Device Loops

/-- An open connection with `remaining` still to be received; of the buffered bytes the first
    `consumed` are behind `S0_RX_RD`. -/
structure Flows (network : Network) (consumed : Nat) (remaining : List Byte) (nic : Nic) : Prop where
  work : nic.chip.work = .none
  status : nic.chip.status = if nic.ended then srCloseWait else srEstablished
  stream : nic.chip.buffered ++ nic.inFlight = remaining
  pointer : nic.chip.rxRd = nic.chip.start + BitVec.ofNat 16 consumed
  consumed : consumed ≤ nic.chip.buffered.length
  capacity : nic.chip.buffered.length ≤ network.capacity
  ended : nic.ended = true → nic.inFlight = []

/-- What has arrived stays so. -/
structure Onward (before after : Nic) : Prop where
  arrived : before.inFlight = [] → after.inFlight = []
  ended : before.ended = true → after.ended = true

theorem Onward.trans {first second third : Nic} (early : Onward first second)
    (late : Onward second third) : Onward first third :=
  ⟨fun arrived => late.arrived (early.arrived arrived), fun ended => late.ended (early.ended ended)⟩

section Connection

variable {network : Network} {consumed : Nat} {remaining : List Byte} {nic : Nic}

structure Grown (before after : Nic) : Prop where
  onward : Onward before after
  start : after.chip.start = before.chip.start
  buffered : before.chip.buffered <+: after.chip.buffered

theorem Flows.deliver (flows : Flows network consumed remaining nic) (arrival : Arrival) :
    Flows network consumed remaining ((nic.deliver network arrival).close arrival) ∧
      Grown nic ((nic.deliver network arrival).close arrival) := by
  have room := flows.capacity
  unfold Nic.deliver
  generalize count : min arrival.segment (network.capacity - nic.chip.buffered.length) = n
  have stream : nic.chip.buffered ++ nic.inFlight.take n ++ nic.inFlight.drop n = remaining := by
    rw [List.append_assoc, List.take_append_drop, flows.stream]
  have capacity : (nic.chip.buffered ++ nic.inFlight.take n).length ≤ network.capacity := by
    rw [List.length_append, List.length_take]
    omega
  have consumed : consumed ≤ (nic.chip.buffered ++ nic.inFlight.take n).length := by
    rw [List.length_append]
    exact Nat.le_add_right_of_le flows.consumed
  have arrived : nic.inFlight = [] → nic.inFlight.drop n = [] := by
    intro none_left
    rw [none_left, List.drop_nil]
  unfold Nic.close
  dsimp only
  by_cases fin : arrival.fin = true ∧ nic.inFlight.drop n = []
  · rw [if_pos fin]
    exact ⟨⟨flows.work, rfl, stream, flows.pointer, consumed, capacity, fun _ => fin.2⟩,
      ⟨arrived, fun _ => rfl⟩, rfl, List.prefix_append _ _⟩
  · rw [if_neg fin]
    exact ⟨⟨flows.work, flows.status, stream, flows.pointer, consumed, capacity,
      fun ended => arrived (flows.ended ended)⟩, ⟨arrived, id⟩, rfl, List.prefix_append _ _⟩

theorem Flows.arrive (flows : Flows network consumed remaining nic) (arrival : Arrival) :
    Flows network consumed remaining (nic.arrive network arrival) ∧
      Grown nic (nic.arrive network arrival) := by
  have idle : nic.finish network arrival = nic := by
    unfold Nic.finish
    rw [flows.work]
  unfold Nic.arrive
  dsimp only
  rw [idle]
  by_cases established : nic.chip.status = srEstablished
  · rw [if_pos established]
    exact flows.deliver arrival
  · rw [if_neg established]
    exact ⟨flows, ⟨id, id⟩, rfl, List.prefix_refl _⟩

theorem Flows.later (flows : Flows network consumed remaining nic) :
    Flows network consumed remaining (nic.later network) ∧ Grown nic (nic.later network) := by
  obtain ⟨flows, grown⟩ := flows.arrive (network.arrivals nic.accesses)
  exact ⟨⟨flows.work, flows.status, flows.stream, flows.pointer, flows.consumed, flows.capacity,
    flows.ended⟩, ⟨grown.onward.arrived, grown.onward.ended⟩, grown.start, grown.buffered⟩

theorem Flows.rxRsr (flows : Flows network consumed remaining nic) :
    nic.chip.rxRsr.toNat = nic.chip.buffered.length := by
  have room := flows.capacity
  have bound := network.bound
  rw [Chip.rxRsr, BitVec.toNat_ofNat, Nat.mod_eq_of_lt (by omega)]

theorem Flows.rxRsr_zero (flows : Flows network consumed remaining nic) :
    nic.chip.rxRsr = 0 ↔ nic.chip.buffered = [] := by
  rw [← List.length_eq_zero_iff, ← flows.rxRsr]
  constructor
  · intro none_buffered
    rw [none_buffered]
    rfl
  · intro none_buffered
    exact BitVec.eq_of_toNat_eq none_buffered

theorem reads_buffered {chip : Chip} {k len : Nat} (inside : k + len ≤ chip.buffered.length)
    (bound : chip.buffered.length < 2 ^ 16) :
    chip.reads bsbS0Rx (chip.start + BitVec.ofNat 16 k) len = (chip.buffered.drop k).take len := by
  induction len generalizing k with
  | zero => rfl
  | succ len induction_hypothesis =>
      have next : chip.start + BitVec.ofNat 16 k + 1 = chip.start + BitVec.ofNat 16 (k + 1) := by
        rw [BitVec.add_assoc, BitVec.ofNat_add]
        rfl
      have place : Memory.offset chip.start (chip.start + BitVec.ofNat 16 k) = k :=
        Memory.offset_add chip.start (by omega)
      have first : chip.read bsbS0Rx (chip.start + BitVec.ofNat 16 k) = chip.buffered[k] := by
        change chip.buffered.getD (Memory.offset chip.start (chip.start + BitVec.ofNat 16 k)) _ = _
        rw [place, List.getD_eq_getElem]
      rw [Chip.reads, next, induction_hypothesis (by omega), first,
        List.drop_eq_getElem_cons (by omega : k < chip.buffered.length), List.take_succ_cons]

/-- `S0_RX_RD` is moved over some of the buffered bytes, and RECV frees them. -/
theorem Flows.advance (flows : Flows network 0 remaining nic) (inside : consumed ≤ nic.chip.buffered.length) :
    Flows network consumed remaining
      { nic with chip := { nic.chip with rxRd := nic.chip.start + BitVec.ofNat 16 consumed } } :=
  ⟨flows.work, flows.status, flows.stream, rfl, inside, flows.capacity, flows.ended⟩

theorem Flows.recv (flows : Flows network consumed remaining nic) :
    Flows network 0 (remaining.drop consumed) { nic with chip := nic.chip.command crRecv } := by
  have room := flows.capacity
  have bound := network.bound
  have inside := flows.consumed
  have freed : (nic.chip.rxRd - nic.chip.start).toNat = consumed := by
    rw [flows.pointer]
    exact Memory.offset_add nic.chip.start (by omega)
  have command : nic.chip.command crRecv =
      { nic.chip with buffered := nic.chip.buffered.drop consumed, start := nic.chip.rxRd } := by
    rw [← freed]
    rfl
  rw [command]
  refine ⟨flows.work, flows.status, ?_, (BitVec.add_zero _).symm, Nat.zero_le _, ?_, flows.ended⟩
  · rw [← flows.stream, List.drop_append_of_le_length inside]
  · rw [List.length_drop]
    omega

theorem receiveChunk_exact {chunk : BitVec 16} (flows : Flows network 0 remaining nic)
    (inside : chunk.toNat ≤ nic.chip.buffered.length) :
    (receiveChunk (exchange network) chunk nic).1 = remaining.take chunk.toNat ∧
      Flows network 0 (remaining.drop chunk.toNat) (receiveChunk (exchange network) chunk nic).2 ∧
      Onward nic (receiveChunk (exchange network) chunk nic).2 := by
  simp only [receiveChunk, bind_run, pure_run, rxRd_run, w5Read_run (.inr (.inr rfl)), rxRd_write,
    command_run]
  obtain ⟨atRead, first⟩ := flows.later
  generalize nic.later network = afterRead at atRead first ⊢
  obtain ⟨atBurst, second⟩ := atRead.later
  generalize afterRead.later network = afterBurst at atBurst second ⊢
  obtain ⟨atWrite, third⟩ := atBurst.later
  generalize afterBurst.later network = afterWrite at atWrite third ⊢
  have rd : afterRead.chip.rxRd = afterBurst.chip.start := by
    rw [atRead.pointer, second.start]
    exact BitVec.add_zero _
  have buffered : chunk.toNat ≤ afterBurst.chip.buffered.length :=
    Nat.le_trans (Nat.le_trans inside first.buffered.length_le) second.buffered.length_le
  have moved := atWrite.advance (Nat.le_trans buffered third.buffered.length_le)
  rw [third.start, ← rd, BitVec.ofNat_toNat, BitVec.setWidth_eq] at moved
  obtain ⟨atCommand, fourth⟩ := moved.later
  have received : afterBurst.chip.reads bsbS0Rx afterRead.chip.rxRd chunk.toNat =
      afterBurst.chip.buffered.take chunk.toNat := by
    have bound := Nat.lt_of_le_of_lt atBurst.capacity network.bound
    rw [rd, ← BitVec.add_zero afterBurst.chip.start]
    exact reads_buffered (by omega : 0 + chunk.toNat ≤ _) bound
  refine ⟨?_, atCommand.recv, ?_⟩
  · rw [received, ← atBurst.stream, List.take_append_of_le_length buffered]
  · have written := fourth.onward
    exact first.onward.trans (second.onward.trans (third.onward.trans ⟨written.arrived, written.ended⟩))

theorem closedAndDrained_exact (flows : Flows network 0 remaining nic) :
    Flows network 0 remaining (closedAndDrained (exchange network) nic).2 ∧
      Onward nic (closedAndDrained (exchange network) nic).2 ∧
      if (closedAndDrained (exchange network) nic).1 then remaining = [] else nic.ended = true → remaining ≠ [] := by
  simp only [closedAndDrained, bind_run, status_run]
  obtain ⟨atStatus, first⟩ := flows.later
  generalize nic.later network = afterStatus at atStatus first ⊢
  have status := atStatus.status
  cases ended : afterStatus.ended with
  | false =>
      rw [ended, if_neg Bool.false_ne_true] at status
      rw [status, if_neg (by decide)]
      refine ⟨atStatus, first.onward, ?_⟩
      intro earlier
      rw [first.onward.ended earlier] at ended
      cases ended
  | true =>
      rw [ended, if_pos rfl] at status
      rw [status, if_pos (.inl rfl)]
      simp only [bind_run, pure_run, rxRsr_run]
      obtain ⟨atCount, second⟩ := atStatus.later
      generalize afterStatus.later network = afterCount at atCount second ⊢
      refine ⟨atCount, first.onward.trans second.onward, ?_⟩
      have drained := atCount.stream
      rw [second.onward.arrived (atStatus.ended ended), List.append_nil] at drained
      rw [← drained]
      by_cases empty : afterCount.chip.rxRsr = 0
      · rw [decide_eq_true empty, if_pos rfl]
        exact atCount.rxRsr_zero.mp empty
      · rw [decide_eq_false empty, if_neg Bool.false_ne_true]
        exact fun _ none_left => empty (atCount.rxRsr_zero.mpr none_left)

/-- What a turn of the loop takes from the stream. A turn without bytes after all of them have
    arrived finds the stream at its end and the connection open. -/
inductive Turned (network : Network) (want : Nat) (remaining : List Byte) (before : Nic) :
    Option (List Byte) × Nic → Prop where
  | short {after : Nic} (flows : Flows network 0 remaining after) (onward : Onward before after)
      (empty : remaining = []) : Turned network want remaining before (none, after)
  | bytes {data rest : List Byte} {after : Nic} (split : remaining = data ++ rest)
      (wanted : data.length ≤ want) (flows : Flows network 0 rest after) (onward : Onward before after)
      (idle : data = [] → before.inFlight = [] → remaining = [] ∧ before.ended = false) :
      Turned network want remaining before (some data, after)

theorem receiveTurn_exact {want : Nat} (wanted : 0 < want) (flows : Flows network 0 remaining nic) :
    Turned network want remaining nic (receiveTurn (exchange network) want nic) := by
  simp only [receiveTurn, bind_run, rxRsr_run]
  obtain ⟨atCount, first⟩ := flows.later
  generalize nic.later network = afterCount at atCount first ⊢
  by_cases empty : afterCount.chip.rxRsr = 0
  · rw [if_pos empty]
    simp only [bind_run, pure_run]
    obtain ⟨drained, onward, outcome⟩ := closedAndDrained_exact atCount
    cases short : (closedAndDrained (exchange network) afterCount).1 with
    | true =>
        rw [short, if_pos rfl] at outcome
        exact .short drained (first.onward.trans onward) outcome
    | false =>
        rw [short, if_neg Bool.false_ne_true] at outcome
        refine .bytes rfl (Nat.zero_le _) drained (first.onward.trans onward) ?_
        intro _ arrived
        have nothing : remaining = [] := by
          rw [← atCount.stream, first.onward.arrived arrived, atCount.rxRsr_zero.mp empty, List.append_nil]
        refine ⟨nothing, ?_⟩
        rw [← Bool.not_eq_true]
        exact fun ended => outcome (first.onward.ended ended) nothing
  · rw [if_neg empty]
    simp only [bind_run, pure_run]
    have some_bytes : 0 < afterCount.chip.rxRsr.toNat := by
      rw [atCount.rxRsr]
      exact List.length_pos_iff.mpr fun none_left => empty (atCount.rxRsr_zero.mpr none_left)
    generalize chosen : (if afterCount.chip.rxRsr.toNat < want then afterCount.chip.rxRsr
      else BitVec.ofNat 16 want) = chunk
    have size : chunk.toNat = min afterCount.chip.rxRsr.toNat want := by
      rw [← chosen]
      split
      · omega
      · rw [BitVec.toNat_ofNat, Nat.mod_eq_of_lt (by omega)]
        omega
    have inside : chunk.toNat ≤ afterCount.chip.buffered.length := by
      rw [← atCount.rxRsr]
      omega
    obtain ⟨data, after, onward⟩ := receiveChunk_exact atCount inside
    have stream := congrArg List.length atCount.stream
    rw [List.length_append] at stream
    rw [data]
    refine .bytes (List.take_append_drop _ _).symm ?_ after (first.onward.trans onward) ?_
    · rw [List.length_take]
      omega
    · intro no_bytes
      have length := congrArg List.length no_bytes
      rw [List.length_take, List.length_nil] at length
      omega

end Connection

section Loop

variable {network : Network} {dst : BitVec 32} {len : Nat} {object : Memory 32} {stream : List Byte}
  {origin : Nic}

/-- Between two turns: what has been received is stored, and the rest is on its way. -/
structure Receiving.Stage (network : Network) (dst : BitVec 32) (len : Nat) (object : Memory 32)
    (stream : List Byte) (origin : Nic) (r : Receiving Nic) : Prop where
  within : r.got ≤ stream.length
  wanted : r.got ≤ len
  stored : r.object = object.storeBytes dst (stream.take r.got)
  flows : Flows network 0 (stream.drop r.got) r.nic
  onward : Onward origin r.nic

/-- The function stores as much as the stream has and says whether that was all. -/
structure Returned.Exact (network : Network) (dst : BitVec 32) (len : Nat) (object : Memory 32)
    (stream : List Byte) (origin : Nic) (r : Returned Nic) : Prop where
  ok : r.ok = decide (len ≤ stream.length)
  stored : r.object = object.storeBytes dst (stream.take len)
  flows : Flows network 0 (stream.drop len) r.nic
  onward : Onward origin r.nic

theorem Receiving.Stage.start {nic : Nic} (flows : Flows network 0 stream nic) :
    Receiving.Stage network dst len object stream nic ⟨object, 0, nic⟩ :=
  ⟨Nat.zero_le _, Nat.zero_le _, Memory.storeBytes_nil.symm, flows, id, id⟩

theorem Receiving.Stage.stores {before : Receiving Nic} {data rest : List Byte} {nic : Nic}
    (stage : before.Stage network dst len object stream origin) (word : len < 2 ^ 32)
    (split : stream.drop before.got = data ++ rest) (wanted : data.length ≤ len - before.got)
    (flows : Flows network 0 rest nic) (onward : Onward before.nic nic) :
    Receiving.Stage network dst len object stream origin
      { object := before.object.storeBytes (dst + BitVec.ofNat 32 before.got) data
        got := u32 (before.got + data.length)
        nic } := by
  have within := stage.within
  have fits := stage.wanted
  have length := congrArg List.length split
  rw [List.length_drop, List.length_append] at length
  have got : u32 (before.got + data.length) = before.got + data.length :=
    u32_of_lt (by omega : before.got + data.length < 2 ^ 32)
  have received : stream.take before.got ++ data = stream.take (before.got + data.length) := by
    rw [List.take_add, split, List.take_left]
  have place : (stream.take before.got).length = before.got := List.length_take_of_le within
  refine ⟨?_, ?_, ?_, ?_, stage.onward.trans onward⟩ <;> dsimp only <;> rw [got]
  · omega
  · omega
  · rw [stage.stored, ← received]
    have joined := @Memory.storeBytes_append 32 object dst (stream.take before.got) data
      (by rw [place]; omega)
    rw [place] at joined
    exact joined
  · rw [← List.drop_drop, split, List.drop_left]
    exact flows

theorem recvTurn_exact (word : len < 2 ^ 32) (before : Receiving Nic)
    (stage : before.Stage network dst len object stream origin) :
    (recvTurn (exchange network) dst len before).Satisfies (Receiving.Stage network dst len object stream origin)
      (Returned.Exact network dst len object stream origin) := by
  have wanted := stage.wanted
  have within := stage.within
  unfold recvTurn
  by_cases more : before.got < len
  · rw [if_pos more]
    have turned := receiveTurn_exact (Nat.sub_pos_of_lt more) stage.flows
    generalize receiveTurn (exchange network) (len - before.got) before.nic = outcome at turned
    cases turned with
    | short flows onward empty =>
        have all := List.drop_eq_nil_iff.mp empty
        refine ⟨?_, ?_, ?_, stage.onward.trans onward⟩
        · exact (decide_eq_false (by omega)).symm
        · rw [stage.stored, List.take_of_length_le all, List.take_of_length_le (by omega)]
        · rw [List.drop_eq_nil_of_le (by omega), ← empty]
          exact flows
    | bytes split small flows onward idle => exact stage.stores word split small flows onward
  · rw [if_neg more]
    have all : before.got = len := by omega
    refine ⟨?_, ?_, ?_, stage.onward⟩
    · exact (decide_eq_true (by omega)).symm
    · rw [← all]
      exact stage.stored
    · rw [← all]
      exact stage.flows

theorem recvTurn_again {before after : Receiving Nic}
    (stage : before.Stage network dst len object stream origin)
    (turned : recvTurn (exchange network) dst len before = .again after) :
    before.got < len ∧ ∃ data, Turned network (len - before.got) (stream.drop before.got) before.nic
      (some data, after.nic) ∧ after.got = u32 (before.got + data.length) := by
  unfold recvTurn at turned
  by_cases more : before.got < len
  · rw [if_pos more] at turned
    refine ⟨more, ?_⟩
    have received := receiveTurn_exact (Nat.sub_pos_of_lt more) stage.flows
    generalize receiveTurn (exchange network) (len - before.got) before.nic = result at turned received
    obtain ⟨outcome, nic⟩ := result
    cases outcome with
    | none => cases turned
    | some data =>
        cases turned
        exact ⟨data, received, rfl⟩
  · rw [if_neg more] at turned
    cases turned

/-- Everything has arrived, and is enough or known to be the end. -/
structure Receiving.Supplied (network : Network) (dst : BitVec 32) (len : Nat) (object : Memory 32)
    (stream : List Byte) (origin : Nic) (r : Receiving Nic) : Prop where
  stage : r.Stage network dst len object stream origin
  arrived : r.nic.inFlight = []
  enough : len ≤ stream.length ∨ r.nic.ended = true

theorem recvTurn_progress (word : len < 2 ^ 32) (before after : Receiving Nic)
    (supplied : before.Supplied network dst len object stream origin)
    (turned : recvTurn (exchange network) dst len before = .again after) :
    after.Supplied network dst len object stream origin ∧
      stream.length - after.got < stream.length - before.got := by
  have next := recvTurn_exact word before supplied.stage
  rw [turned] at next
  obtain ⟨more, data, received, got⟩ := recvTurn_again supplied.stage turned
  cases received with
  | bytes split small flows onward idle =>
      refine ⟨⟨next, onward.arrived supplied.arrived, supplied.enough.imp_right onward.ended⟩, ?_⟩
      have within := next.within
      have length : 0 < data.length := by
        rw [List.length_pos_iff]
        intro nothing
        obtain ⟨all, still⟩ := idle nothing supplied.arrived
        have drained := List.drop_eq_nil_iff.mp all
        rcases supplied.enough with long | ended
        · omega
        · rw [still] at ended
          cases ended
      have sum : u32 (before.got + data.length) = before.got + data.length :=
        u32_of_lt (by omega : before.got + data.length < 2 ^ 32)
      omega

theorem recv_returns {start : Receiving Nic} (word : len < 2 ^ 32)
    (supplied : start.Supplied network dst len object stream origin) :
    ∃ result, Returns (recvTurn (exchange network) dst len) start result :=
  returns_of_measure (fun r => stream.length - r.got) (recvTurn_progress word) supplied

/-- The function returns if everything has arrived at some moment of it. -/
theorem w5500TcpRecv_returns {nic : Nic} {fuel : Nat} (word : len < 2 ^ 32)
    (flows : Flows network 0 stream nic)
    (supplied : ∀ r, w5500TcpRecv (exchange network) dst len fuel object nic = .again r →
      r.nic.inFlight = [] ∧ (len ≤ stream.length ∨ r.nic.ended = true)) :
    ∃ result, Returns (recvTurn (exchange network) dst len) ⟨object, 0, nic⟩ result ∧
      result.Exact network dst len object stream nic ∧
      ∀ r, w5500TcpRecv (exchange network) dst len fuel object nic = .again r → Onward r.nic result.nic := by
  have start : Receiving.Stage network dst len object stream nic ⟨object, 0, nic⟩ := .start flows
  have stage := run_satisfies (recvTurn_exact word) start fuel
  unfold w5500TcpRecv at supplied ⊢
  cases ran : run (recvTurn (exchange network) dst len) fuel ⟨object, 0, nic⟩ with
  | done result =>
      have returns := run_done ran
      refine ⟨result, returns, returns.satisfies (recvTurn_exact word) start, ?_⟩
      intro r running
      cases running
  | again r =>
      rw [ran] at stage
      obtain ⟨arrived, enough⟩ := supplied r ran
      have fresh : r.Stage network dst len object stream r.nic :=
        ⟨stage.within, stage.wanted, stage.stored, stage.flows, id, id⟩
      obtain ⟨result, later⟩ := recv_returns word ⟨fresh, arrived, enough⟩
      have returns := returns_of_run ran later
      refine ⟨result, returns, returns.satisfies (recvTurn_exact word) start, ?_⟩
      intro running same
      cases same
      exact (later.satisfies (recvTurn_exact word) fresh).onward

end Loop

end Mackerel.W5500
