import Mackerel.Netboot.Load
import Mackerel.W5500.Connect

namespace Mackerel.Netboot

open Bytes Loops W5500

/-- What the server writes in front of the image is what the board reads as its length. -/
theorem structPack_exact {value : Nat} {length : List Byte} (packed : structPack value = some length) :
    value < 2 ^ 32 ∧ length.length = 4 ∧ ∀ lb : Memory 32, blobLength (lb.storeBytes 0 length) = value := by
  unfold structPack at packed
  split at packed
  case isFalse => cases packed
  case isTrue small =>
    cases packed
    refine ⟨small, rfl, ?_⟩
    intro lb
    have read : blobLength (lb.storeBytes 0
        [(BitVec.ofNat 32 value).extractLsb' 24 8, (BitVec.ofNat 32 value).extractLsb' 16 8,
          (BitVec.ofNat 32 value).extractLsb' 8 8, (BitVec.ofNat 32 value).extractLsb' 0 8]) =
        ((BitVec.ofNat 32 value).extractLsb' 24 8 ++ (BitVec.ofNat 32 value).extractLsb' 16 8 ++
          (BitVec.ofNat 32 value).extractLsb' 8 8 ++ (BitVec.ofNat 32 value).extractLsb' 0 8).toNat := rfl
    rw [read, word_of_bytes, BitVec.toNat_ofNat, Nat.mod_eq_of_lt small]

section Transfer

variable {network : Network} {image stream length : List Byte} {lb memory : Memory 32} {nic : Nic}

/-- How the load ends, whatever fuel above some number it gets. -/
def Ends (run : Nat → Status Machine Loaded) (ok : Bool) (memory : Memory 32) : Prop :=
  ∃ count nic, ∀ fuel, count ≤ fuel → run fuel = .done ⟨ok, memory, nic⟩

/-- At the end of a moment everything that comes has arrived. -/
structure Supplied (wire stream : List Byte) (nic : Nic) : Prop where
  arrived : nic.inFlight = []
  enough : stream = wire ∨ nic.ended = true

theorem front_of_part (four : length.length = 4) (part : stream <+: length ++ image)
    (header : 4 ≤ stream.length) : stream.take 4 = length := by
  obtain ⟨behind, split⟩ := part
  have taken := congrArg (List.take 4) split
  rw [List.take_append_of_le_length header, ← four, List.take_left] at taken
  rw [← four]
  exact taken

section Blob

variable {addr : BitVec 32} {fuel : Nat} {object loaded : Memory 32} {after last : Nic} {ok : Bool}

theorem netbootBlob_cut
    (returns : Returns (recvTurn (exchange network) 0 4) ⟨lb, 0, nic⟩ ⟨false, object, after⟩) :
    Ends (fun fuel => netbootBlob network addr lb fuel memory nic) false memory := by
  obtain ⟨count, done⟩ := returns
  refine ⟨count, after, ?_⟩
  intro fuel enough
  have received : w5500TcpRecv (exchange network) 0 4 fuel lb nic = _ := done fuel enough
  dsimp only
  rw [netbootBlob, received]

theorem netbootBlob_received
    (lengthReturns : Returns (recvTurn (exchange network) 0 4) ⟨lb, 0, nic⟩ ⟨true, object, after⟩)
    (imageReturns : Returns (recvTurn (exchange network) addr (blobLength object)) ⟨memory, 0, after⟩ ⟨ok, loaded, last⟩) :
    Ends (fun fuel => netbootBlob network addr lb fuel memory nic) ok loaded := by
  obtain ⟨lengthCount, lengthDone⟩ := lengthReturns
  obtain ⟨imageCount, imageDone⟩ := imageReturns
  refine ⟨max lengthCount imageCount, last, ?_⟩
  intro fuel enough
  have received : w5500TcpRecv (exchange network) 0 4 fuel lb nic = _ := lengthDone fuel (by omega)
  have stored : w5500TcpRecv (exchange network) addr (blobLength object) fuel memory after = _ :=
    imageDone fuel (by omega)
  dsimp only
  rw [netbootBlob, received]
  dsimp only
  rw [stored]

/-- Some moment of the second receive is supplied as well. -/
theorem image_supplied {wire : List Byte}
    (lengthReturns : Returns (recvTurn (exchange network) 0 4) ⟨lb, 0, nic⟩ ⟨true, object, after⟩)
    (onward : ∀ r, w5500TcpRecv (exchange network) 0 4 fuel lb nic = .again r → Onward r.nic after)
    (supplied : ∀ machine, netbootBlob network addr lb fuel memory nic = .again machine →
      Supplied wire stream machine.nic) :
    ∃ fuel, ∀ r, w5500TcpRecv (exchange network) addr (blobLength object) fuel memory after = .again r →
      Supplied wire stream r.nic := by
  cases moment : w5500TcpRecv (exchange network) 0 4 fuel lb nic with
  | again r =>
      have before := supplied ⟨memory, r.nic⟩ (by rw [netbootBlob, moment])
      refine ⟨0, ?_⟩
      intro start running
      cases running
      exact ⟨(onward r moment).arrived before.arrived, before.enough.imp_right (onward r moment).ended⟩
  | done result =>
      obtain rfl := lengthReturns.result_eq moment
      refine ⟨fuel, ?_⟩
      intro r running
      apply supplied ⟨r.object, r.nic⟩
      rw [netbootBlob, moment]
      dsimp only
      rw [running]

theorem netbootBlob_ends (fuel : Nat) (packed : structPack image.length = some length)
    (flows : Flows network 0 stream nic) (part : stream <+: length ++ image)
    (supplied : ∀ machine, netbootBlob network addr lb fuel memory nic = .again machine →
      Supplied (length ++ image) stream machine.nic) :
    Ends (fun fuel => netbootBlob network addr lb fuel memory nic)
      (decide (stream = length ++ image)) (memory.storeBytes addr (stream.drop 4)) := by
  obtain ⟨word, four, reads⟩ := structPack_exact packed
  have wireLength : (length ++ image).length = 4 + image.length := by rw [List.length_append, four]
  have within := part.length_le
  have lengthSupplied (r : Receiving Nic) (running : w5500TcpRecv (exchange network) 0 4 fuel lb nic = .again r) :
      r.nic.inFlight = [] ∧ (4 ≤ stream.length ∨ r.nic.ended = true) := by
    obtain ⟨arrived, enough⟩ := supplied ⟨memory, r.nic⟩ (by rw [netbootBlob, running])
    refine ⟨arrived, enough.imp_left ?_⟩
    rintro rfl
    omega
  obtain ⟨⟨ok, object, after⟩, lengthReturns, ⟨success, stored, rest, -⟩, onward⟩ :=
    w5500TcpRecv_returns (by decide) flows lengthSupplied
  dsimp only at success stored rest onward
  by_cases header : 4 ≤ stream.length
  · rw [decide_eq_true header] at success
    subst success
    have size : blobLength object = image.length := by
      rw [stored, front_of_part four part header]
      exact reads lb
    obtain ⟨imageFuel, imageSupplied⟩ := image_supplied lengthReturns onward supplied
    rw [size] at imageSupplied
    have imageLength : (stream.drop 4).length = stream.length - 4 := List.length_drop
    have whole : image.length ≤ (stream.drop 4).length ↔ stream = length ++ image := by
      constructor
      · intro long
        exact part.eq_of_length_le (by omega)
      · rintro rfl
        omega
    obtain ⟨⟨ok, loaded, last⟩, imageReturns, ⟨complete, contents, -, -⟩, -⟩ :=
      w5500TcpRecv_returns word rest (by
        intro r running
        exact ⟨(imageSupplied r running).arrived, (imageSupplied r running).enough.imp_left whole.mpr⟩)
    dsimp only at complete contents
    rw [List.take_of_length_le (by omega)] at contents
    rw [← decide_eq_decide.mpr whole, ← complete, ← contents]
    rw [← size] at imageReturns
    exact netbootBlob_received lengthReturns imageReturns
  · have different : stream ≠ length ++ image := by
      rintro rfl
      omega
    rw [decide_eq_false header] at success
    subst success
    rw [decide_eq_false different, List.drop_eq_nil_of_le (by omega), Memory.storeBytes_nil]
    exact netbootBlob_cut lengthReturns

theorem netbootBlob_flows (flows : Flows network 0 stream nic) {machine : Machine}
    (running : netbootBlob network addr lb fuel memory nic = .again machine) :
    ∃ rest, Flows network 0 rest machine.nic := by
  have length := run_satisfies (recvTurn_exact (by decide : 4 < 2 ^ 32))
    (.start flows : Receiving.Stage network 0 4 lb stream nic ⟨lb, 0, nic⟩) fuel
  change (w5500TcpRecv (exchange network) 0 4 fuel lb nic).Satisfies _ _ at length
  unfold netbootBlob at running
  split at running
  case h_1 r receiving =>
    cases running
    rw [receiving] at length
    exact ⟨_, length.flows⟩
  case h_2 => cases running
  case h_3 object after received =>
    rw [received] at length
    have image := run_satisfies (recvTurn_exact (BitVec.isLt _ : blobLength object < 2 ^ 32))
      (.start length.flows : Receiving.Stage network addr _ memory _ after ⟨memory, 0, after⟩) fuel
    change (w5500TcpRecv (exchange network) addr (blobLength object) fuel memory after).Satisfies _ _ at image
    split at running
    case h_1 r receiving =>
      cases running
      rw [receiving] at image
      exact ⟨_, image.flows⟩
    case h_2 => cases running

end Blob

/-- Where the load is, or the connection when it has returned. -/
def moment : Status Machine Loaded → Nic
  | .again machine => machine.nic
  | .done loaded => loaded.nic

/-- The chip has been found and the server has accepted the connection. -/
structure Connected (network : Network) (nic : Nic) : Prop where
  initialized : (w5500Init (exchange network) mac ip gw sub nic).1 = true
  established : (w5500TcpConnect (exchange network) srv serverPort srcPort
    (w5500Init (exchange network) mac ip gw sub nic).2).1 = true

theorem netbootLoad_connected (lb memory : Memory 32) (connected : Connected network nic) :
    ∃ start, Flows network 0 network.peer start ∧ ∀ fuel, netbootLoad network lb fuel memory nic =
      match netbootBlob network programStart lb fuel memory start with
      | .again machine => .again machine
      | .done ⟨ok, memory, nic⟩ => .done ⟨ok, memory, (w5500TcpClose (exchange network) nic).2⟩ := by
  obtain ⟨initialized, established⟩ := connected
  have calm := w5500Init_calm network mac ip gw sub nic
  refine ⟨_, w5500TcpConnect_flows rfl calm established, ?_⟩
  intro fuel
  unfold netbootLoad
  generalize w5500Init (exchange network) mac ip gw sub nic = first at initialized established ⊢
  obtain ⟨found, afterInit⟩ := first
  cases initialized
  dsimp only at established ⊢
  generalize w5500TcpConnect (exchange network) srv serverPort srcPort afterInit = second at established ⊢
  obtain ⟨accepted, start⟩ := second
  cases established
  rfl

theorem netbootLoad_ends (lb memory : Memory 32) (fuel : Nat) (packed : structPack image.length = some length)
    (connected : Connected network nic) (part : network.peer <+: length ++ image)
    (supplied : ∀ machine, netbootLoad network lb fuel memory nic = .again machine →
      machine.nic.inFlight = [] ∧ network.peer = length ++ image ∨ machine.nic.ended = true) :
    Ends (fun fuel => netbootLoad network lb fuel memory nic)
      (decide (network.peer = length ++ image)) (memory.storeBytes programStart (network.peer.drop 4)) := by
  obtain ⟨start, flows, load⟩ := netbootLoad_connected lb memory connected
  have blob : Ends (fun fuel => netbootBlob network programStart lb fuel memory start)
      (decide (network.peer = length ++ image)) (memory.storeBytes programStart (network.peer.drop 4)) := by
    apply netbootBlob_ends fuel packed flows part
    intro machine running
    have moment := supplied machine (by rw [load, running])
    obtain ⟨rest, open_⟩ := netbootBlob_flows flows running
    rcases moment with ⟨arrived, whole⟩ | ended
    · exact ⟨arrived, .inl whole⟩
    · exact ⟨open_.ended ended, .inr ended⟩
  obtain ⟨count, last, done⟩ := blob
  refine ⟨count, (w5500TcpClose (exchange network) last).2, ?_⟩
  intro more enough
  dsimp only at done ⊢
  rw [load, done more enough]

end Transfer

/-- Once the connection is established: if all bytes of the server arrive, the load returns true
    with the image at `PROGRAM_START`; if the connection ends behind a proper prefix of them, it
    returns false, with no more than the image bytes in it. Nothing else is written. -/
theorem netboot_exact_transfer (network : Network) (image wire : List Byte) (lb memory : Memory 32)
    (nic : Nic) (packed : lengthPrefixed image = some wire) (connected : Connected network nic) :
    (network.peer = wire →
      (∃ fuel, (moment (netbootLoad network lb fuel memory nic)).inFlight = []) →
      Ends (fun fuel => netbootLoad network lb fuel memory nic) true
        (memory.storeBytes programStart image)) ∧
    (network.peer <+: wire → network.peer ≠ wire →
      (∃ fuel, (moment (netbootLoad network lb fuel memory nic)).ended = true) →
      Ends (fun fuel => netbootLoad network lb fuel memory nic) false
        (memory.storeBytes programStart (network.peer.drop 4))) := by
  obtain ⟨length, size, wired⟩ := Option.bind_eq_some_iff.mp packed
  obtain rfl : length ++ image = wire := Option.some.inj wired
  have four := (structPack_exact size).2.1
  constructor
  · intro sent ⟨fuel, arrived⟩
    have ends := netbootLoad_ends lb memory fuel size connected
      (sent ▸ List.prefix_refl _) (by
        intro machine running
        rw [running] at arrived
        exact .inl ⟨arrived, sent⟩)
    rw [decide_eq_true sent, sent, ← four, List.drop_left] at ends
    exact ends
  · intro part cut ⟨fuel, ended⟩
    have ends := netbootLoad_ends lb memory fuel size connected part (by
      intro machine running
      rw [running] at ended
      exact .inr ended)
    rw [decide_eq_false cut] at ends
    exact ends

def twoBytes : List Byte := [0x60, 0xFE]

def threeByteSegments (peer : List Byte) : Network where
  peer
  arrivals _ := { done := true, refused := false, pointer := 0xFFFE, segment := 3, fin := true }
  capacity := 2048
  bound := by decide

def freshNic : Nic where
  chip := { register := fun _ _ => 4, work := .none, status := srClosed, buffered := [], start := 0, rxRd := 0 }
  inFlight := []
  ended := false
  accesses := 0

theorem two_byte_transfer :
    Ends (fun fuel => netbootLoad (threeByteSegments [0, 0, 0, 2, 0x60, 0xFE]) (fun _ => 0) fuel (fun _ => 0)
      freshNic) true (Memory.storeBytes (fun _ => 0) programStart twoBytes) ∧
    Ends (fun fuel => netbootLoad (threeByteSegments [0, 0, 0, 2, 0x60]) (fun _ => 0) fuel (fun _ => 0)
      freshNic) false (Memory.storeBytes (fun _ => 0) programStart [0x60]) := by
  have packed : lengthPrefixed twoBytes = some [0, 0, 0, 2, 0x60, 0xFE] := by decide
  constructor
  · have connected : Connected (threeByteSegments [0, 0, 0, 2, 0x60, 0xFE]) freshNic :=
      ⟨by decide +kernel, by decide +kernel⟩
    exact (netboot_exact_transfer _ twoBytes _ _ _ freshNic packed connected).1 rfl ⟨2, by decide +kernel⟩
  · have connected : Connected (threeByteSegments [0, 0, 0, 2, 0x60]) freshNic :=
      ⟨by decide +kernel, by decide +kernel⟩
    exact (netboot_exact_transfer _ twoBytes _ _ _ freshNic packed connected).2 (by decide) (by decide)
      ⟨2, by decide +kernel⟩

end Mackerel.Netboot
