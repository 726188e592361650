import Mackerel.Device.Keeps
import Mackerel.W5500.Driver

namespace Mackerel.W5500

open Bytes Device Loops

variable {σ : Type} {exchange : List Byte → StateM σ (List Byte)} {Related : σ → σ → Prop} [IsPreorder σ Related]
  (exchanges : ∀ mosi, Follows Related (exchange mosi))

include exchanges

theorem w5Write_follows (addr : BitVec 16) (bsb : Byte) (data : List Byte) :
    Follows Related (w5Write exchange addr bsb data) :=
  (exchanges _).bind fun _ => .pure _

theorem w5Read_follows (addr : BitVec 16) (bsb : Byte) (len : Nat) :
    Follows Related (w5Read exchange addr bsb len) :=
  (exchanges _).bind fun _ => .pure _

theorem w5Rb_follows (addr : BitVec 16) (bsb : Byte) : Follows Related (w5Rb exchange addr bsb) :=
  (w5Read_follows exchanges addr bsb 1).bind fun _ => .pure _

theorem w5Rw_follows (addr : BitVec 16) (bsb : Byte) : Follows Related (w5Rw exchange addr bsb) :=
  (w5Read_follows exchanges addr bsb 2).bind fun _ => .pure _

theorem w5Wb_follows (addr : BitVec 16) (bsb v : Byte) : Follows Related (w5Wb exchange addr bsb v) :=
  w5Write_follows exchanges addr bsb [v]

theorem w5Ww_follows (addr : BitVec 16) (bsb : Byte) (v : BitVec 16) :
    Follows Related (w5Ww exchange addr bsb v) :=
  w5Write_follows exchanges addr bsb [high v, low v]

omit exchanges in
theorem pollWhile_follows {reading : StateM σ Byte} (reads : Follows Related reading)
    (again : Byte → Bool) (count : Nat) : Follows Related (pollWhile reading again count) := by
  induction count with
  | zero => exact .pure ()
  | succ count ih => exact reads.bind fun value => .ite ih (.pure ())

theorem awaitConnect_follows (count : Nat) : Follows Related (awaitConnect exchange count) := by
  induction count with
  | zero => exact .pure false
  | succ count ih =>
      refine (w5Rb_follows exchanges s0Sr bsbS0Reg).bind fun sr => ?_
      exact .ite (.pure true) (.ite (.pure false) ih)

theorem w5500Init_follows (mac ip gw sub : List Byte) :
    Follows Related (w5500Init exchange mac ip gw sub) := by
  have common (addr : BitVec 16) (data : List Byte) := w5Write_follows exchanges addr bsbCommon data
  have poll := pollWhile_follows (w5Rb_follows exchanges w5Mr bsbCommon) (fun mr => mr &&& mrReset ≠ 0) 100000
  refine (w5Wb_follows exchanges w5Mr bsbCommon mrReset).bind fun _ => poll.bind fun _ => ?_
  refine (w5Rb_follows exchanges w5Versionr bsbCommon).bind fun version => .ite (.pure false) ?_
  exact (common _ _).bind fun _ => (common _ _).bind fun _ => (common _ _).bind fun _ =>
    (common _ _).bind fun _ => .pure true

theorem w5500TcpConnect_follows (dip : List Byte) (dport sport : BitVec 16) :
    Follows Related (w5500TcpConnect exchange dip dport sport) := by
  have status := w5Rb_follows exchanges s0Sr bsbS0Reg
  have write (addr : BitVec 16) (v : Byte) := w5Wb_follows exchanges addr bsbS0Reg v
  have word (addr v : BitVec 16) := w5Ww_follows exchanges addr bsbS0Reg v
  have poll := pollWhile_follows status (fun sr => sr ≠ srInit) 100000
  refine (write _ _).bind fun _ => (word _ _).bind fun _ => (write _ _).bind fun _ => poll.bind fun _ => ?_
  refine status.bind fun sr => .ite (.pure false) ?_
  exact (w5Write_follows exchanges s0Dipr bsbS0Reg dip).bind fun _ => (word _ _).bind fun _ =>
    (write _ _).bind fun _ => awaitConnect_follows exchanges _

theorem receiveTurn_follows (want : Nat) : Follows Related (receiveTurn exchange want) := by
  have word (addr : BitVec 16) := w5Rw_follows exchanges addr bsbS0Reg
  have drained : Follows Related (closedAndDrained exchange) := by
    refine (w5Rb_follows exchanges s0Sr bsbS0Reg).bind fun sr => .ite ?_ (.pure false)
    exact (word _).bind fun _ => .pure _
  have chunk (size : BitVec 16) : Follows Related (receiveChunk exchange size) := by
    refine (word _).bind fun rd => (w5Read_follows exchanges rd bsbS0Rx _).bind fun data => ?_
    exact (w5Ww_follows exchanges _ _ _).bind fun _ => (w5Wb_follows exchanges _ _ _).bind fun _ => .pure _
  refine (word _).bind fun rsr => .ite ?_ ?_
  · exact drained.bind fun _ => .pure _
  · exact (chunk _).bind fun _ => .pure _

theorem recvTurn_follows (dst : BitVec 32) (len : Nat) (before : Receiving σ) :
    (recvTurn exchange dst len before).Satisfies
      (fun receiving => Related before.nic receiving.nic)
      (fun returned => Related before.nic returned.nic) := by
  have turn := receiveTurn_follows exchanges (len - before.got) before.nic
  rw [recvTurn]
  by_cases more : before.got < len
  · rw [if_pos more]
    cases ran : receiveTurn exchange (len - before.got) before.nic with
    | mk data after =>
        rw [ran] at turn
        cases data with
        | none => exact turn
        | some bytes => exact turn
  · rw [if_neg more]
    exact refl before.nic

/-- Also as far as it has got, if the loop does not end. -/
theorem w5500TcpRecv_follows (dst : BitVec 32) (len fuel : Nat) (object : Memory 32) (nic : σ) :
    (w5500TcpRecv exchange dst len fuel object nic).Satisfies
      (fun receiving => Related nic receiving.nic) (fun returned => Related nic returned.nic) := by
  have step (before : Receiving σ) (reached : Related nic before.nic) :
      (recvTurn exchange dst len before).Satisfies (fun receiving => Related nic receiving.nic)
        (fun returned => Related nic returned.nic) := by
    have turn := recvTurn_follows exchanges dst len before
    cases ran : recvTurn exchange dst len before with
    | done returned =>
        rw [ran] at turn
        exact IsTrans.trans _ _ _ reached turn
    | again receiving =>
        rw [ran] at turn
        exact IsTrans.trans _ _ _ reached turn
  exact run_satisfies step (refl nic) fuel

theorem w5500TcpClose_follows : Follows Related (w5500TcpClose exchange) :=
  (w5Wb_follows exchanges s0Cr bsbS0Reg crDiscon).bind fun _ => w5Wb_follows exchanges s0Cr bsbS0Reg crClose

end Mackerel.W5500
