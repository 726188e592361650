import Mackerel.F.GpioSharing
import Mathlib.Tactic.IntervalCases

namespace Mackerel.F

open Bytes Device Loops

def leds : Byte := 0x3F

variable {α : Type} {mask other : Byte} {before events after : List Event}

theorem within_other (within : Within mask before after) (apart : other &&& mask = 0)
    (lower : before <+: events) (upper : events <+: after) :
    gpioOf events &&& other = gpioOf before &&& other := by
  have outside : ~~~mask &&& other = other := by
    apply BitVec.eq_of_getLsbD_eq
    intro i bound
    have bit : (other.getLsbD i && mask.getLsbD i) = false := by
      simpa using congrArg (fun byte => byte.getLsbD i) apart
    simp only [BitVec.getLsbD_and, BitVec.getLsbD_not, bound, decide_true, Bool.true_and]
    cases here : other.getLsbD i with
    | false => exact Bool.and_false _
    | true =>
        rw [here, Bool.true_and] at bit
        rw [bit, Bool.not_false, Bool.and_true]
  calc
    gpioOf events &&& other = gpioOf events &&& ~~~mask &&& other := by rw [BitVec.and_assoc, outside]
    _ = gpioOf before &&& ~~~mask &&& other := by rw [within.2 events lower upper]
    _ = gpioOf before &&& other := by rw [BitVec.and_assoc, outside]

theorem ledsShow_within (mask : Byte) : Follows (Within leds) (ledsShow mask) := by
  refine update_within fun gpio => ?_
  have inside : mask &&& leds &&& ~~~leds = 0 := by
    rw [BitVec.and_assoc, self_inside]
    exact BitVec.and_zero
  show (gpio &&& ~~~leds ||| mask &&& leds) &&& ~~~leds = gpio &&& ~~~leds
  rw [set_leaves inside, clear_leaves (self_inside leds)]

/-- The bit of an LED. -/
theorem bit_within {led : Byte} (small : ¬5 < led) : (1 <<< led.toNat : Byte) &&& ~~~leds = 0 := by
  have bound : led.toNat < 6 := by
    have five : (5 : Byte).toNat = 5 := rfl
    rw [BitVec.lt_def, five] at small
    omega
  generalize led.toNat = n at bound
  interval_cases n <;> rfl

theorem handlerGpio_within (numStr valStr : Option (List Byte)) :
    Follows (Within leds) (handlerGpio numStr valStr) := by
  cases numStr with
  | none => exact readGpio_follows.bind fun gpio => .pure _
  | some num =>
      cases valStr with
      | none => exact .pure none
      | some val =>
          unfold handlerGpio
          dsimp only
          split
          · exact .pure none
          · rename_i small
            have outside := bit_within small
            intro events
            refine within_append ?_
            rw [gpioOf_gpio]
            split
            · exact set_leaves outside (gpioOf events)
            · exact clear_leaves outside (gpioOf events)

inductive Call where
  | sdSpiInit
  | sdSpiRead (lba buf count : BitVec 32)
  | sdSpiPrintInfo
  | w5500Init (mac ip gw sub : List Byte)
  | w5500TcpConnect (dip : List Byte) (dport sport : BitVec 16)
  | w5500TcpRecv (dst len : BitVec 32)
  | w5500TcpClose
  | ledsShow (mask : Byte)
  | handlerGpio (numStr valStr : Option (List Byte))

/-- Neither device is selected. -/
structure Idle (events : List Event) : Prop where
  sd : Released SdSpi.SD_CS events
  nic : Released Nic.NIC_CS_MASK events

/-- `sdhc` of `sd_spi.c`, the memory that buffers point into, and the bus. -/
structure Board where
  sdhc : Bool
  memory : Memory 32
  events : List Event

namespace Call

/-- The select of the device of a call. -/
def select : Call → Byte
  | .sdSpiInit | .sdSpiRead _ _ _ | .sdSpiPrintInfo => SdSpi.SD_CS
  | .w5500Init _ _ _ _ | .w5500TcpConnect _ _ _ | .w5500TcpRecv _ _ | .w5500TcpClose => Nic.NIC_CS_MASK
  | .ledsShow _ | .handlerGpio _ _ => 0

variable (devices : Devices)

/-- A call, or what it has done in so many turns of the loop of `w5500_tcp_recv`. -/
def run (fuel : Nat) (board : Board) : Call → Status Board Board
  | .sdSpiInit =>
      let (result, events) := SdSpi.sdSpiInit devices board.events
      .done { board with sdhc := result.getD board.sdhc, events }
  | .sdSpiRead lba buf count =>
      let (read, events) := SdSpi.sdSpiRead devices board.sdhc lba buf count.toNat board.memory board.events
      .done { board with memory := read.memory, events }
  | .sdSpiPrintInfo => .done { board with events := (SdSpi.sdSpiPrintInfo devices board.events).2 }
  | .w5500Init mac ip gw sub =>
      .done { board with events := (Nic.w5500Init devices mac ip gw sub board.events).2 }
  | .w5500TcpConnect dip dport sport =>
      .done { board with
        events := (W5500.w5500TcpConnect (Nic.exchange devices) dip dport sport board.events).2 }
  | .w5500TcpRecv dst len =>
      match W5500.w5500TcpRecv (Nic.exchange devices) dst len.toNat fuel board.memory board.events with
      | .done returned => .done { board with memory := returned.object, events := returned.nic }
      | .again receiving => .again { board with memory := receiving.object, events := receiving.nic }
  | .w5500TcpClose =>
      .done { board with events := (W5500.w5500TcpClose (Nic.exchange devices) board.events).2 }
  | .ledsShow mask => .done { board with events := (F.ledsShow mask board.events).2 }
  | .handlerGpio numStr valStr => .done { board with events := (F.handlerGpio numStr valStr board.events).2 }

/-- The bits that a call may change. -/
def bits : Call → Byte
  | .ledsShow _ | .handlerGpio _ _ => leds
  | call => call.select

/-- From one boundary to the next, or to a turn of the loop of `w5500_tcp_recv`. -/
structure Respects (call : Call) (before after : Board) : Prop where
  within : Within call.bits before.events after.events
  released : Idle before.events → Idle after.events

variable {call : Call} {start finish : Board}

theorem respects_sd (bits : call.bits = SdSpi.SD_CS) (uses : Uses SdSpi.SD_CS start.events finish.events) :
    call.Respects start finish where
  within := bits ▸ uses.within
  released idle := ⟨uses.released idle.sd,
    (within_other uses.within rfl uses.within.1 List.prefix_rfl).trans idle.nic⟩

theorem respects_nic (bits : call.bits = Nic.NIC_CS_MASK)
    (uses : Uses Nic.NIC_CS_MASK start.events finish.events) : call.Respects start finish where
  within := bits ▸ uses.within
  released idle := ⟨(within_other uses.within rfl uses.within.1 List.prefix_rfl).trans idle.sd,
    uses.released idle.nic⟩

theorem respects_leds (bits : call.bits = leds) (within : Within leds start.events finish.events) :
    call.Respects start finish where
  within := bits ▸ within
  released idle := ⟨(within_other within rfl within.1 List.prefix_rfl).trans idle.sd,
    (within_other within rfl within.1 List.prefix_rfl).trans idle.nic⟩

theorem run_respects (fuel : Nat) (board : Board) (call : Call) :
    (call.run devices fuel board).Satisfies (call.Respects board) (call.Respects board) := by
  have nic := Nic.exchange_uses devices
  cases call with
  | sdSpiInit => exact respects_sd rfl (SdSpi.sdSpiInit_uses board.events)
  | sdSpiRead lba buf count =>
      exact respects_sd rfl (SdSpi.readBlocks_uses board.sdhc lba buf count.toNat 0 board.memory board.events)
  | sdSpiPrintInfo => exact respects_sd rfl (SdSpi.sdSpiPrintInfo_uses board.events)
  | w5500Init mac ip gw sub => exact respects_nic rfl (Nic.w5500Init_uses devices mac ip gw sub board.events)
  | w5500TcpConnect dip dport sport =>
      exact respects_nic rfl (W5500.w5500TcpConnect_follows nic dip dport sport board.events)
  | w5500TcpRecv dst len =>
      have follows := W5500.w5500TcpRecv_follows nic dst len.toNat fuel board.memory board.events
      rw [run]
      cases ran : W5500.w5500TcpRecv (Nic.exchange devices) dst len.toNat fuel board.memory
        board.events with
      | done returned =>
          rw [ran] at follows
          exact respects_nic rfl follows
      | again receiving =>
          rw [ran] at follows
          exact respects_nic rfl follows
  | w5500TcpClose => exact respects_nic rfl (W5500.w5500TcpClose_follows nic board.events)
  | ledsShow mask => exact respects_leds rfl (ledsShow_within mask board.events)
  | handlerGpio numStr valStr => exact respects_leds rfl (handlerGpio_within numStr valStr board.events)

end Call

/-- Where a call has got to. -/
def progress : Status Board Board → Board
  | .done board => board
  | .again board => board

/-- Between the calls of a sequence that starts with GPIO = 0. -/
inductive Boundary (devices : Devices) : Board → Prop where
  | start (board : Board) : gpioOf board.events = 0 → Boundary devices board
  | call (before after : Board) (call : Call) (fuel : Nat) :
      Boundary devices before → call.run devices fuel before = .done after → Boundary devices after

/-- No call disturbs another device, or the LEDs if it is not about them. -/
structure Undisturbed (devices : Devices) (board : Board) : Prop where
  idle : Idle board.events
  select : ∀ (call : Call) (fuel : Nat) (events : List Event), board.events <+: events →
    events <+: (progress (call.run devices fuel board)).events →
      (call.select ≠ SdSpi.SD_CS → Released SdSpi.SD_CS events) ∧
        (call.select ≠ Nic.NIC_CS_MASK → Released Nic.NIC_CS_MASK events)
  leds : ∀ (call : Call) (fuel : Nat) (events : List Event), board.events <+: events →
    events <+: (progress (call.run devices fuel board)).events → call.select ≠ 0 →
      gpioOf events &&& leds = gpioOf board.events &&& leds

variable {devices : Devices} {board : Board}

theorem Boundary.idle (boundary : Boundary devices board) : Idle board.events := by
  induction boundary with
  | start board zero => exact ⟨by simp [Released, zero], by simp [Released, zero]⟩
  | call before after call fuel _ ran ih =>
      have respects := call.run_respects devices fuel before
      rw [ran] at respects
      exact respects.released ih

theorem progress_respects (devices : Devices) (board : Board) (call : Call) (fuel : Nat) :
    call.Respects board (progress (call.run devices fuel board)) := by
  have respects := call.run_respects devices fuel board
  cases ran : call.run devices fuel board with
  | done after =>
      rw [ran] at respects
      exact respects
  | again after =>
      rw [ran] at respects
      exact respects

/-- There are calls of the card, calls of the W5500 and calls about the LEDs. -/
theorem Call.kinds (call : Call) :
    (call.select = SdSpi.SD_CS ∧ call.bits = SdSpi.SD_CS) ∨
      (call.select = Nic.NIC_CS_MASK ∧ call.bits = Nic.NIC_CS_MASK) ∨
        (call.select = 0 ∧ call.bits = leds) := by
  cases call <;> simp [Call.select, Call.bits]

theorem apart_sd {call : Call} (other : call.select ≠ SdSpi.SD_CS) : SdSpi.SD_CS &&& call.bits = 0 := by
  rcases call.kinds with ⟨card, _⟩ | ⟨_, bits⟩ | ⟨_, bits⟩
  · exact absurd card other
  · rw [bits]
    rfl
  · rw [bits]
    rfl

theorem apart_nic {call : Call} (other : call.select ≠ Nic.NIC_CS_MASK) :
    Nic.NIC_CS_MASK &&& call.bits = 0 := by
  rcases call.kinds with ⟨_, bits⟩ | ⟨nic, _⟩ | ⟨_, bits⟩
  · rw [bits]
    rfl
  · exact absurd nic other
  · rw [bits]
    rfl

theorem apart_leds {call : Call} (device : call.select ≠ 0) : leds &&& call.bits = 0 := by
  rcases call.kinds with ⟨_, bits⟩ | ⟨_, bits⟩ | ⟨none, _⟩
  · rw [bits]
    rfl
  · rw [bits]
    rfl
  · exact absurd none device

theorem gpio_undisturbed (boundary : Boundary devices board) : Undisturbed devices board where
  idle := boundary.idle
  select call fuel events lower upper := by
    have within := (progress_respects devices board call fuel).within
    have idle := boundary.idle
    exact ⟨fun other => (within_other within (apart_sd other) lower upper).trans idle.sd,
      fun other => (within_other within (apart_nic other) lower upper).trans idle.nic⟩
  leds call fuel events lower upper device := by
    have within := (progress_respects devices board call fuel).within
    exact within_other within (apart_leds device) lower upper

/-- After a lit LED and a card that does not answer. -/
theorem lit_undisturbed : Undisturbed (fun _ => 0xFF)
    (progress (Call.run (fun _ => 0xFF) 0 ⟨false, fun _ => 0, [.gpio 8]⟩ .w5500TcpClose)) := by
  have start : Boundary (fun _ => 0xFF) ⟨false, fun _ => 0, []⟩ := .start _ rfl
  have lit := Boundary.call _ ⟨false, fun _ => 0, [.gpio 8]⟩
    (.handlerGpio (some [0x33]) (some [0x31])) 0 start rfl
  exact gpio_undisturbed (Boundary.call _ _ .w5500TcpClose 0 lit rfl)

end Mackerel.F
