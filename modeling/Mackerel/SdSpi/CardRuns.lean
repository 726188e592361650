import Mackerel.Device.Leads
import Mackerel.M08.SdRequests
import Mackerel.SdSpi.Driver

namespace Mackerel.F.SdSpi

open Bytes Device
open M08 (SdCard SdState between)

/-- The card on the board. Its chip select is bit 6 of the GPIO register, inverted. -/
def hear (c : SdCard) (s : SdState) : Event → SdState
  | .gpio value => { s with selected := value &&& SD_CS ≠ 0 }
  | .sd mosi => c.receive s mosi
  | .nic _ => s

def stateOf (c : SdCard) (events : List Event) : SdState := events.foldl (hear c) SdCard.powerUp

def slot (c : SdCard) : Devices := fun events => SdCard.answer (stateOf c events)

variable {c : SdCard} {events : List Event} {s : SdState}

theorem stateOf_append (events more : List Event) :
    stateOf c (events ++ more) = more.foldl (hear c) (stateOf c events) := List.foldl_append

abbrev CardLeads (c : SdCard) {α : Type} (s : SdState) (program : Firmware α) (value : α) (after : SdState) : Prop :=
  Leads (stateOf c) s program value after

theorem csLow_leads (s : SdState) : CardLeads c s csLow () { s with selected := true } := by
  rintro events rfl
  refine ⟨rfl, (stateOf_append _ _).trans ?_⟩
  have on : decide ((gpioOf events ||| SD_CS) &&& SD_CS ≠ 0) = true := by
    refine decide_eq_true fun zero => ?_
    have bit := congrArg (fun byte => byte.getLsbD 6) zero
    simp [SD_CS] at bit
  simp only [List.foldl_cons, List.foldl_nil, hear, on]

theorem csHigh_leads (s : SdState) : CardLeads c s csHigh () { s with selected := false } := by
  rintro events rfl
  refine ⟨rfl, (stateOf_append _ _).trans ?_⟩
  have off : decide ((gpioOf events &&& ~~~SD_CS) &&& SD_CS ≠ 0) = false := by
    refine decide_eq_false (not_not_intro ?_)
    rw [BitVec.and_assoc]
    simp [SD_CS]
  simp only [List.foldl_cons, List.foldl_nil, hear, off]

theorem spiTransfer_leads (s : SdState) (mosi : Byte) :
    CardLeads c s (spiTransfer (slot c) mosi) (SdCard.answer s) (c.receive s mosi) := by
  rintro events rfl
  exact ⟨rfl, stateOf_append _ _⟩

theorem sendBytes_leads (bytes : List Byte) (s : SdState) :
    CardLeads c s (sendBytes (slot c) bytes) () (bytes.foldl c.receive s) := by
  induction bytes generalizing s with
  | nil => exact .pure ()
  | cons byte bytes ih => exact (spiTransfer_leads s byte).bind (ih _)

/-- A selected card, with the rest of an answer. -/
def listening (out : List Byte) (ready app : Bool) (polls commands : Nat) : SdState :=
  ⟨true, [], out, none, ready, app, polls, commands⟩

variable {ready app ready' app' : Bool} {polls commands polls' commands' : Nat} {rest : List Byte}

theorem rx_leads (byte : Byte) (rest : List Byte) :
    CardLeads c (listening (byte :: rest) ready app polls commands) (rx (slot c)) byte
      (listening rest ready app polls commands) := by
  have shifted : c.receive (listening (byte :: rest) ready app polls commands) 0xFF =
      listening rest ready app polls commands := by cases rest <;> rfl
  have leads := spiTransfer_leads (c := c) (listening (byte :: rest) ready app polls commands) 0xFF
  rwa [shifted] at leads

theorem rx_silent : CardLeads c (listening [] ready app polls commands) (rx (slot c)) 0xFF
    (listening [] ready app polls commands) := spiTransfer_leads _ _

theorem rx_deselected : CardLeads c (between ready app polls commands) (rx (slot c)) 0xFF
    (between ready app polls commands) := spiTransfer_leads _ _

theorem rxBytes_leads (bytes rest : List Byte) :
    CardLeads c (listening (bytes ++ rest) ready app polls commands) (rxBytes (slot c) bytes.length) bytes
      (listening rest ready app polls commands) := by
  induction bytes with
  | nil => exact .pure []
  | cons byte bytes ih => exact (rx_leads byte _).bind (ih.bind (.pure _))

theorem rxBytes_silent (count : Nat) :
    CardLeads c (listening [] ready app polls commands) (rxBytes (slot c) count) (List.replicate count 0xFF)
      (listening [] ready app polls commands) := by
  induction count with
  | zero => exact .pure []
  | succ count ih => exact rx_silent.bind (ih.bind (.pure _))

theorem rxBytes_deselected (count : Nat) :
    CardLeads c (between ready app polls commands) (rxBytes (slot c) count) (List.replicate count 0xFF)
      (between ready app polls commands) := by
  induction count with
  | zero => exact .pure []
  | succ count ih => exact rx_deselected.bind (ih.bind (.pure _))

theorem rxWhile_leads (again : Byte → Bool) {delay count : Nat} {value : Byte} (idle : again 0xFF = true)
    (stops : again value = false) (soon : delay < count) :
    CardLeads c (listening (List.replicate delay 0xFF ++ value :: rest) ready app polls commands)
      (rxWhile (slot c) again count 0xFF) value (listening rest ready app polls commands) := by
  obtain ⟨count, rfl⟩ := Nat.exists_eq_succ_of_ne_zero (Nat.ne_zero_of_lt soon)
  induction delay generalizing count with
  | zero =>
      have ends : CardLeads c (listening rest ready app polls commands)
          (rxWhile (slot c) again count value) value (listening rest ready app polls commands) := by
        cases count with
        | zero => exact .pure _
        | succ count => exact .ite_neg (Bool.eq_false_iff.mp stops) (.pure _)
      exact .ite_pos idle ((rx_leads value rest).bind ends)
  | succ delay ih =>
      obtain ⟨count, rfl⟩ := Nat.exists_eq_succ_of_ne_zero (by omega : count ≠ 0)
      exact .ite_pos idle ((rx_leads 0xFF _).bind (ih count (by omega)))

/-- A command and R1. -/
theorem sdCmd_leads {cmd crc response : Byte} {arg : BitVec 32} {delay : Nat}
    (begins : (0x40 ||| cmd) &&& 0xC0 = 0x40) (quick : delay ≤ 8) (valid : response &&& 0x80 = 0)
    (executes : ∀ frame out stream, c.execute ⟨true, frame, out, stream, ready, app, polls, commands⟩
        ((0x40 ||| cmd) &&& 0x3F).toNat arg =
      listening (List.replicate delay 0xFF ++ response :: rest) ready' app' polls' commands') :
    CardLeads c (listening [] ready app polls commands) (sdCmd (slot c) cmd arg crc) response
      (listening rest ready' app' polls' commands') := by
  obtain ⟨out, stream, ran⟩ := @M08.receive_command c (listening [] ready app polls commands) rfl rfl
    (0x40 ||| cmd) (arg.extractLsb' 24 8) (arg.extractLsb' 16 8) (arg.extractLsb' 8 8) (arg.extractLsb' 0 8)
    crc begins
  rw [M08.argument_bytes] at ran
  have sent := sendBytes_leads (c := c) (frame cmd arg crc) (listening [] ready app polls commands)
  rw [frame, ran] at sent
  have answered := executes [0x40 ||| cmd, arg.extractLsb' 24 8, arg.extractLsb' 16 8, arg.extractLsb' 8 8,
    arg.extractLsb' 0 8] out stream
  have stops : decide (response &&& 0x80 ≠ 0) = false := decide_eq_false (not_not_intro valid)
  refine rx_silent.bind (.bind sent ?_)
  have state : c.execute { listening [] ready app polls commands with
      frame := [0x40 ||| cmd, arg.extractLsb' 24 8, arg.extractLsb' 16 8, arg.extractLsb' 8 8, arg.extractLsb' 0 8],
      out := out, stream := stream } ((0x40 ||| cmd) &&& 0x3F).toNat arg = _ := answered
  rw [state]
  exact rxWhile_leads (fun r1 => r1 &&& 0x80 ≠ 0) (by decide) stops (by omega)

end Mackerel.F.SdSpi
