import Mackerel.W5500.Receive

namespace Mackerel.W5500

open Bytes Device

variable {network : Network} {nic : Nic}

def Open (nic : Nic) : Prop := nic.chip.status = srEstablished ∨ nic.chip.status = srCloseWait

/-- No byte of the peer is taken before there is a connection. -/
def Calm (network : Network) (nic : Nic) : Prop := Open nic → Flows network 0 network.peer nic

theorem calm_of_status (closed : nic.chip.status ≠ srEstablished) (opens : nic.chip.status ≠ srCloseWait) :
    Calm network nic := by
  rintro (established | closeWait)
  · exact (closed established).elim
  · exact (opens closeWait).elim

theorem Calm.finish (calm : Calm network nic) (arrival : Arrival) :
    Calm network (nic.finish network arrival) := by
  unfold Nic.finish
  cases work : nic.chip.work with
  | none => exact calm
  | reset =>
      dsimp only
      split
      · intro opened
        have busy := (calm opened).work
        rw [work] at busy
        cases busy
      · exact calm
  | opening =>
      dsimp only
      split
      · exact calm_of_status (by decide : srInit ≠ _) (by decide : srInit ≠ _)
      · exact calm
  | connecting =>
      dsimp only
      split
      · exact calm_of_status (by decide : srClosed ≠ _) (by decide : srClosed ≠ _)
      · split
        · exact fun _ => ⟨rfl, rfl, rfl, (BitVec.add_zero _).symm, Nat.zero_le _, Nat.zero_le _,
            fun ended => by cases ended⟩
        · exact calm

theorem Calm.later (calm : Calm network nic) : Calm network (nic.later network) := by
  have finished := calm.finish (network.arrivals nic.accesses)
  have arrived : Calm network (nic.arrive network (network.arrivals nic.accesses)) := by
    unfold Nic.arrive
    dsimp only
    split
    case isTrue established => exact fun _ => ((finished (.inl established)).deliver _).1
    case isFalse => exact finished
  intro opened
  have flows := arrived opened
  exact ⟨flows.work, flows.status, flows.stream, flows.pointer, flows.consumed, flows.capacity,
    flows.ended⟩

theorem Calm.command (calm : Calm network nic) (cr : Byte) :
    Calm network { nic with chip := nic.chip.command cr } := by
  by_cases recv : cr = crRecv
  · subst recv
    exact fun opened => (calm opened).recv
  · unfold Chip.command
    rw [if_neg recv]
    split
    · exact calm_of_status (by decide : srClosed ≠ _) (by decide : srClosed ≠ _)
    · split
      · exact calm_of_status (by decide : srSynSent ≠ _) (by decide : srSynSent ≠ _)
      · split
        · exact calm_of_status (by decide : srFinWait ≠ _) (by decide : srFinWait ≠ _)
        · split
          · exact calm_of_status (by decide : srClosed ≠ _) (by decide : srClosed ≠ _)
          · exact calm

theorem Calm.write {bsb byte : Byte} {addr : BitVec 16} (calm : Calm network nic)
    (other : bsb = bsbCommon ∨ addr.toNat < s0RxRd.toNat) :
    Calm network { nic with chip := nic.chip.write bsb addr byte } := by
  have elsewhere : ¬(bsb = bsbS0Reg ∧ addr = s0RxRd) ∧ ¬(bsb = bsbS0Reg ∧ addr = s0RxRd + 1) := by
    rcases other with rfl | below
    · exact ⟨fun both => absurd both.1 (by decide), fun both => absurd both.1 (by decide)⟩
    · constructor
      · rintro ⟨-, rfl⟩
        exact Nat.lt_irrefl _ below
      · rintro ⟨-, rfl⟩
        exact absurd below (by decide)
  unfold Chip.write
  rw [if_neg elsewhere.1, if_neg elsewhere.2]
  split
  · exact calm_of_status (by decide : srClosed ≠ _) (by decide : srClosed ≠ _)
  · split
    · exact calm.command byte
    · intro opened
      have flows := calm opened
      exact ⟨flows.work, flows.status, flows.stream, flows.pointer, flows.consumed, flows.capacity,
        flows.ended⟩

theorem Calm.writes {bsb : Byte} {addr : BitVec 16} {data : List Byte} (calm : Calm network nic)
    (other : bsb = bsbCommon ∨ addr.toNat + data.length ≤ s0RxRd.toNat) :
    Calm network { nic with chip := nic.chip.writes bsb addr data } := by
  induction data generalizing nic addr with
  | nil => exact calm
  | cons byte rest induction_hypothesis =>
      rw [List.length_cons] at other
      have here : bsb = bsbCommon ∨ addr.toNat < s0RxRd.toNat := other.imp_right fun fits => by omega
      apply induction_hypothesis (calm.write here)
      refine other.imp_right fun fits => ?_
      have small : addr.toNat + 1 < 2 ^ 16 := Nat.lt_of_le_of_lt (by omega) (by decide : s0RxRd.toNat < 2 ^ 16)
      rw [BitVec.toNat_add]
      change (addr.toNat + 1) % 2 ^ 16 + rest.length ≤ _
      rw [Nat.mod_eq_of_lt small]
      omega

theorem keeps_write {bsb : Byte} {addr : BitVec 16} {data : List Byte} (known : Known bsb)
    (other : bsb = bsbCommon ∨ addr.toNat + data.length ≤ s0RxRd.toNat) :
    Keeps (Calm network) (w5Write (exchange network) addr bsb data) := by
  intro nic calm
  rw [w5Write_run known]
  exact calm.later.writes other

theorem keeps_reading {bsb : Byte} {addr : BitVec 16} (known : Known bsb) :
    Keeps (Calm network) (w5Rb (exchange network) addr bsb) := by
  intro nic calm
  rw [w5Rb_run known]
  exact calm.later

theorem keeps_pollWhile {reading : Driver Byte} {again : Byte → Bool} (keeps : Keeps (Calm network) reading)
    (count : Nat) : Keeps (Calm network) (pollWhile reading again count) := by
  induction count with
  | zero => exact .pure ()
  | succ count induction_hypothesis =>
      exact .bind keeps fun value => .ite induction_hypothesis (.pure ())

theorem keeps_awaitConnect (count : Nat) : Keeps (Calm network) (awaitConnect (exchange network) count) := by
  induction count with
  | zero => exact .pure false
  | succ count induction_hypothesis =>
      exact .bind (keeps_reading (.inr (.inl rfl))) fun sr =>
        .ite (.pure true) (.ite (.pure false) induction_hypothesis)

/-- After the reset there is no connection, whatever was before. -/
theorem w5500Init_calm (network : Network) (mac ip gw sub : List Byte) (nic : Nic) :
    Calm network (w5500Init (exchange network) mac ip gw sub nic).2 := by
  have reset : Calm network (w5Wb (exchange network) w5Mr bsbCommon mrReset nic).2 := by
    rw [w5Wb, w5Write_run (.inl rfl)]
    exact calm_of_status (by decide : srClosed ≠ _) (by decide : srClosed ≠ _)
  have common (addr : BitVec 16) (data : List Byte) :
      Keeps (Calm network) (w5Write (exchange network) addr bsbCommon data) := keeps_write (.inl rfl) (.inl rfl)
  rw [w5500Init, bind_run]
  refine Keeps.bind (keeps_pollWhile (keeps_reading (.inl rfl)) _) (fun _ => ?_) _ reset
  refine .bind (keeps_reading (.inl rfl)) fun version => .ite (.pure false) ?_
  exact .bind (common _ mac) fun _ => .bind (common _ ip) fun _ => .bind (common _ gw) fun _ =>
    .bind (common _ sub) fun _ => .pure true

theorem w5500TcpConnect_keeps {dip : List Byte} (octets : dip.length = 4) (dport sport : BitVec 16) :
    Keeps (Calm network) (w5500TcpConnect (exchange network) dip dport sport) := by
  have socket {addr : BitVec 16} {data : List Byte} (below : addr.toNat + data.length ≤ s0RxRd.toNat) :
      Keeps (Calm network) (w5Write (exchange network) addr bsbS0Reg data) :=
    keeps_write (.inr (.inl rfl)) (.inr below)
  have status : Keeps (Calm network) (w5Rb (exchange network) s0Sr bsbS0Reg) := keeps_reading (.inr (.inl rfl))
  refine .bind (socket (by decide)) fun _ => .bind (socket (Nat.le_of_ble_eq_true rfl)) fun _ => ?_
  refine .bind (socket (by decide)) fun _ => .bind (keeps_pollWhile status _) fun _ => ?_
  refine .bind status fun sr => .ite (.pure false) ?_
  refine .bind (socket ?_) fun _ => .bind (socket (Nat.le_of_ble_eq_true rfl)) fun _ => ?_
  · rw [octets]
    decide
  · exact .bind (socket (by decide)) fun _ => keeps_awaitConnect _

theorem awaitConnect_established {count : Nat} (connected : (awaitConnect (exchange network) count nic).1 = true) :
    (awaitConnect (exchange network) count nic).2.chip.status = srEstablished := by
  induction count generalizing nic with
  | zero => cases connected
  | succ count induction_hypothesis =>
      simp only [awaitConnect, bind_run, status_run] at connected ⊢
      by_cases established : (nic.later network).chip.status = srEstablished
      · rw [if_pos established]
        exact established
      · rw [if_neg established] at connected ⊢
        by_cases closed : (nic.later network).chip.status = srClosed
        · rw [if_pos closed] at connected
          cases connected
        · rw [if_neg closed] at connected ⊢
          exact induction_hypothesis connected

theorem w5500TcpConnect_flows {dip : List Byte} {dport sport : BitVec 16} (octets : dip.length = 4)
    (calm : Calm network nic) (connected : (w5500TcpConnect (exchange network) dip dport sport nic).1 = true) :
    Flows network 0 network.peer (w5500TcpConnect (exchange network) dip dport sport nic).2 := by
  apply w5500TcpConnect_keeps octets dport sport nic calm
  left
  simp only [w5500TcpConnect, bind_run] at connected ⊢
  split at connected
  case isTrue => cases connected
  case isFalse initial =>
    rw [if_neg initial]
    exact awaitConnect_established connected

end Mackerel.W5500
