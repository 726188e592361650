import Mackerel.Loading.Loads
import Mackerel.Netboot.ExactTransfer

namespace Mackerel.Loading

open Bytes Bytes.Memory Device Fat16 Loops W5500 Netboot

section Kept

variable {network : Network} {lb memory : Memory 32} {nic : Nic} {fuel : Nat} {length : BitVec 32}

theorem storeBytes_kept (base : BitVec 32) (memory : Memory 32) {bytes : List Byte} {size : Nat}
    (short : bytes.length ≤ size) : Kept base 0 size memory (memory.storeBytes base bytes) := by
  intro addr outside
  exact store_outside (by omega)

theorem blobLength_eq (lb : Memory 32) {peer : List Byte} (announced : lengthWord peer = some length) :
    blobLength (lb.storeBytes 0 (peer.take 4)) = length.toNat := by
  match peer, announced with
  | first :: second :: third :: fourth :: rest, announced =>
      cases announced
      rfl

variable (network fuel) in
/-- A receive, at any moment of it. -/
theorem w5500TcpRecv_moment {len : Nat} {stream : List Byte} (dst : BitVec 32) (word : len < 2 ^ 32)
    (flows : Flows network 0 stream nic) (object : Memory 32) :
    (w5500TcpRecv (exchange network) dst len fuel object nic).Satisfies
      (Receiving.Stage network dst len object stream nic) (Returned.Exact network dst len object stream nic) :=
  run_satisfies (recvTurn_exact word) (.start flows) fuel

variable (lb memory fuel) in
theorem netbootBlob_kept (addr : BitVec 32) (announced : lengthWord network.peer = some length)
    (flows : Flows network 0 network.peer nic) :
    Kept addr 0 length.toNat memory (netbootMemory (netbootBlob network addr lb fuel memory nic)) := by
  have header := w5500TcpRecv_moment network fuel 0 (by decide : 4 < 2 ^ 32) flows lb
  unfold netbootBlob
  cases received : w5500TcpRecv (exchange network) 0 4 fuel lb nic with
  | again r => exact .refl _ _ _ _
  | done result =>
      obtain ⟨ok, object, after⟩ := result
      cases ok with
      | false => exact .refl _ _ _ _
      | true =>
          rw [received] at header
          obtain ⟨-, stored, rest, -⟩ := header
          dsimp only at stored rest ⊢
          rw [stored, blobLength_eq lb announced]
          have blob := w5500TcpRecv_moment network fuel addr length.isLt rest memory
          cases received : w5500TcpRecv (exchange network) addr length.toNat fuel memory after with
          | again r =>
              rw [received] at blob
              change Kept addr 0 length.toNat memory r.object
              rw [blob.stored]
              exact storeBytes_kept addr memory (Nat.le_trans (List.length_take_le _ _) blob.wanted)
          | done result =>
              rw [received] at blob
              obtain ⟨-, stored, -, -⟩ := blob
              change Kept addr 0 length.toNat memory result.object
              rw [stored]
              exact storeBytes_kept addr memory (List.length_take_le _ _)

theorem netbootLoad_unconnected (refused : ¬Connected network nic) :
    netbootMemory (netbootLoad network lb fuel memory nic) = memory := by
  unfold netbootLoad
  cases init : w5500Init (exchange network) mac ip gw sub nic with
  | mk found after =>
      cases found with
      | false => rfl
      | true =>
          dsimp only
          cases connect : w5500TcpConnect (exchange network) srv serverPort srcPort after with
          | mk accepted start =>
              cases accepted with
              | false => rfl
              | true => exact absurd ⟨by rw [init], by rw [init, connect]⟩ refused

/-- A netboot writes only as many bytes as the server announces. -/
theorem netboot_kept {target : Target} {changed : Memory 32}
    (moment : Moment target (.netboot length) memory changed) :
    Kept target.programStart 0 length.toNat memory changed := by
  cases moment with
  | @netboot network _ lb _ nic fuel available announced =>
      by_cases connected : Connected network nic
      · obtain ⟨start, flows, load⟩ := netbootLoad_connected lb memory connected
        have blob := netbootBlob_kept lb memory fuel programStart announced flows
        rw [load]
        cases ran : netbootBlob network programStart lb fuel memory start with
        | again machine =>
            rw [ran] at blob
            exact blob
        | done loaded =>
            rw [ran] at blob
            exact blob
      · rw [netbootLoad_unconnected connected]
        exact .refl _ _ _ _

end Kept

namespace SlowServer

def image (length : BitVec 32) : List Byte := List.replicate length.toNat 1

def network (length : BitVec 32) : Network where
  peer := [length.extractLsb' 24 8, length.extractLsb' 16 8, length.extractLsb' 8 8,
    length.extractLsb' 0 8] ++ image length
  arrivals _ := { done := true, refused := false, pointer := 0, segment := 1, fin := false }
  capacity := 1024
  bound := by decide

theorem connected (length : BitVec 32) : Connected (network length) freshNic := by
  constructor
  · with_unfolding_all rfl
  · with_unfolding_all rfl

theorem announced (length : BitVec 32) : lengthWord (network length).peer = some length := by
  change some (length.extractLsb' 24 8 ++ length.extractLsb' 16 8 ++ length.extractLsb' 8 8 ++
    length.extractLsb' 0 8) = some length
  rw [word_of_bytes]

variable {length dst : BitVec 32} {remaining stream : List Byte} {nic origin : Nic} {len want : Nat}
  {object : Memory 32}

theorem later_buffered (flows : Flows (network length) 0 remaining nic) (left : remaining ≠ []) :
    (nic.later (network length)).chip.buffered ≠ [] := by
  have idle : nic.finish (network length) ((network length).arrivals nic.accesses) = nic := by
    rw [Nic.finish, flows.work]
  have stream := flows.stream
  have status := flows.status
  change (nic.arrive (network length) ((network length).arrivals nic.accesses)).chip.buffered ≠ []
  unfold Nic.arrive
  dsimp only
  rw [idle]
  cases ended : nic.ended with
  | true =>
      rw [ended, if_pos rfl] at status
      rw [flows.ended ended, List.append_nil] at stream
      rw [status, if_neg (by decide), stream]
      exact left
  | false =>
      rw [ended, if_neg Bool.false_ne_true] at status
      rw [status, if_pos rfl]
      have open_ : (network length).arrivals nic.accesses =
          { done := true, refused := false, pointer := 0, segment := 1, fin := false } := rfl
      rw [Nic.close, open_, if_neg (by simp), Nic.deliver]
      cases here : nic.chip.buffered with
      | cons byte rest => simp
      | nil =>
          rw [here, List.nil_append] at stream
          cases remaining with
          | nil => exact absurd rfl left
          | cons byte rest =>
              rw [stream]
              simp [network]

/-- No turn is in vain before the end of the stream. -/
theorem receiveTurn_some (wanted : 0 < want) (flows : Flows (network length) 0 remaining nic)
    (left : remaining ≠ []) :
    ∃ data, (receiveTurn (exchange (network length)) want nic).1 = some data ∧ data ≠ [] := by
  obtain ⟨atCount, -⟩ := flows.later
  have buffered := later_buffered flows left
  have counted : (nic.later (network length)).chip.rxRsr ≠ 0 :=
    fun zero => buffered (atCount.rxRsr_zero.mp zero)
  simp only [receiveTurn, bind_run, rxRsr_run, if_neg counted, pure_run]
  generalize chosen : (if (nic.later (network length)).chip.rxRsr.toNat < want then
    (nic.later (network length)).chip.rxRsr else BitVec.ofNat 16 want) = chunk
  have room := List.length_pos_iff.mpr buffered
  have more := List.length_pos_iff.mpr left
  have size : chunk.toNat = min (nic.later (network length)).chip.rxRsr.toNat want := by
    rw [← chosen]
    split
    · omega
    · rw [BitVec.toNat_ofNat, Nat.mod_eq_of_lt (by omega)]
      omega
  rw [atCount.rxRsr] at size
  obtain ⟨data, -⟩ := receiveChunk_exact atCount (by omega : chunk.toNat ≤ _)
  refine ⟨_, rfl, ?_⟩
  rw [data, ← List.length_pos_iff, List.length_take]
  omega

theorem recvTurn_grows {before after : Receiving Nic} (word : len < 2 ^ 32) (enough : len ≤ stream.length)
    (stage : before.Stage (network length) dst len object stream origin)
    (turned : recvTurn (exchange (network length)) dst len before = .again after) : before.got < after.got := by
  obtain ⟨more, -⟩ := recvTurn_again stage turned
  have wanted := Nat.sub_pos_of_lt more
  have left : stream.drop before.got ≠ [] := fun all => by
    have short := List.drop_eq_nil_iff.mp all
    omega
  obtain ⟨data, received, some_bytes⟩ := receiveTurn_some wanted stage.flows left
  have result := receiveTurn_exact wanted stage.flows
  have pair : receiveTurn (exchange (network length)) (len - before.got) before.nic =
      (some data, (receiveTurn (exchange (network length)) (len - before.got) before.nic).2) := Prod.ext received rfl
  rw [recvTurn, if_pos more, pair] at turned
  rw [pair] at result
  cases turned
  cases result with
  | bytes split small flows onward idle =>
      have length := List.length_pos_iff.mpr some_bytes
      have got : u32 (before.got + data.length) = before.got + data.length :=
        u32_of_lt (by omega : before.got + data.length < 2 ^ 32)
      dsimp only
      omega

variable (dst) in
/-- After so many turns at least so many bytes are stored, or all. -/
theorem recv_turns (word : len < 2 ^ 32) (enough : len ≤ stream.length) (fuel : Nat) (before : Receiving Nic)
    (stage : before.Stage (network length) dst len object stream origin) :
    (run (recvTurn (exchange (network length)) dst len) fuel before).Satisfies
      (fun r => r.Stage (network length) dst len object stream origin ∧ before.got + fuel ≤ r.got)
      (Returned.Exact (network length) dst len object stream origin) := by
  induction fuel generalizing before with
  | zero => exact ⟨stage, Nat.le_refl _⟩
  | succ fuel ih =>
      have next := recvTurn_exact word before stage
      rw [run]
      cases turned : recvTurn (exchange (network length)) dst len before with
      | done result =>
          rw [turned] at next
          exact next
      | again after =>
          rw [turned] at next
          have grows := recvTurn_grows word enough stage turned
          have rest := ih after next
          dsimp only
          cases ran : run (recvTurn (exchange (network length)) dst len) fuel after with
          | done result =>
              rw [ran] at rest
              exact rest
          | again last =>
              rw [ran] at rest
              exact ⟨rest.1, Nat.le_trans (by omega) rest.2⟩

variable (dst) in
theorem w5500TcpRecv_all (word : len < 2 ^ 32) (enough : len ≤ stream.length) {fuel : Nat}
    (turns : len < fuel) (flows : Flows (network length) 0 stream nic) (object : Memory 32) :
    ∃ result, w5500TcpRecv (exchange (network length)) dst len fuel object nic = .done result ∧
      result.Exact (network length) dst len object stream nic := by
  have ran := recv_turns dst word enough fuel ⟨object, 0, nic⟩ (.start flows)
  unfold w5500TcpRecv
  cases ended : run (recvTurn (exchange (network length)) dst len) fuel ⟨object, 0, nic⟩ with
  | done result =>
      rw [ended] at ran
      exact ⟨result, rfl, ran⟩
  | again r =>
      rw [ended] at ran
      have wanted := ran.1.wanted
      have turned := ran.2
      dsimp only at turned
      omega

theorem loads (length : BitVec 32) : ∃ loaded : Netboot.Loaded,
    netbootLoad (network length) (fun _ => 0) (length.toNat + 5) (fun _ => 0) freshNic = .done loaded ∧
      loaded.memory = storeBytes (fun _ => 0) programStart (image length) := by
  obtain ⟨start, flows, load⟩ := netbootLoad_connected (fun _ => 0) (fun _ => 0) (connected length)
  have header : 4 ≤ (network length).peer.length := by simp [network]
  have size : (image length).length = length.toNat := List.length_replicate
  obtain ⟨⟨ok, object, after⟩, received, ⟨complete, stored, rest, -⟩⟩ :=
    w5500TcpRecv_all 0 (by decide : 4 < 2 ^ 32) header (by omega : 4 < length.toNat + 5) flows fun _ => 0
  rw [decide_eq_true header] at complete
  dsimp only at complete stored rest
  obtain ⟨result, blob, ⟨-, contents, -, -⟩⟩ := w5500TcpRecv_all programStart length.isLt
    (Nat.le_of_eq size.symm : length.toNat ≤ ((network length).peer.drop 4).length)
    (by omega : length.toNat < length.toNat + 5) rest fun _ => 0
  have word : blobLength object = length.toNat := by
    rw [stored]
    exact blobLength_eq _ (announced length)
  have sent : ((network length).peer.drop 4).take length.toNat = image length :=
    List.take_of_length_le (Nat.le_of_eq size)
  rw [load, netbootBlob, received, complete]
  dsimp only
  rw [word, blob]
  exact ⟨_, rfl, sent ▸ contents⟩

/-- A netboot overwrites every byte as far as its length word goes. -/
theorem overwrites {target : Target} (available : target.hasNetboot = true) :
    ∃ after, Moment target (.netboot length) (fun _ => 0) after ∧
      ∀ addr, offset target.programStart addr < length.toNat → after addr = 1 := by
  obtain ⟨loaded, ran, contents⟩ := loads length
  have moment : Moment target (.netboot length) (fun _ => 0)
      (netbootMemory (netbootLoad (network length) (fun _ => 0) (length.toNat + 5) (fun _ => 0) freshNic)) :=
    .netboot available (announced length)
  refine ⟨_, moment, fun addr inside => ?_⟩
  have place : offset programStart addr < (image length).length := by
    rw [image, List.length_replicate]
    exact inside
  rw [ran]
  change loaded.memory addr = 1
  rw [contents, storeBytes, store_inside place, ofList, List.getD_eq_getElem _ _ place]
  exact List.getElem_replicate _

end SlowServer

end Mackerel.Loading
