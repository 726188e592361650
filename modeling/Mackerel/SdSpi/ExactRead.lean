import Mackerel.Device.Keeps
import Mackerel.SdSpi.Driver
import Mackerel.Spi.Wire

namespace Mackerel.F.SdSpi

open Bytes Device Spi

/-- The contents of a block. -/
structure Payload where
  bytes : List Byte
  length : bytes.length = 512

/-- What follows an accepted command: the data token and the block with its CRC, or an error token. -/
inductive Data where
  | block (payload : Payload) (crc : Byte × Byte)
  | error (token : Byte) (notIdle : token ≠ 0xFF) (notData : token ≠ 0xFE)

structure Answer where
  r1Delay : Nat
  r1 : Byte
  valid : r1 &&& 0x80 = 0
  tokenDelay : Nat
  data : Data

def Data.stream : Data → List Byte
  | .block payload crc => 0xFE :: (payload.bytes ++ [crc.1, crc.2])
  | .error token _ _ => [token]

namespace Answer

/-- R1 accepts the command within 10 polls, and the data token comes within 8192. -/
structure Delivers (answer : Answer) (payload : Payload) : Prop where
  r1Delay : answer.r1Delay < 10
  r1 : answer.r1 = 0
  tokenDelay : answer.tokenDelay < 8192
  data : ∃ crc, answer.data = .block payload crc

/-- The bytes from the end of the command on. -/
def stream (answer : Answer) : List Byte :=
  List.replicate answer.r1Delay 0xFF ++ answer.r1 ::
    (if answer.r1 = 0 then List.replicate answer.tokenDelay 0xFF ++ answer.data.stream else [])

/-- The block that comes within the polls of the driver. -/
def delivered (answer : Answer) : Option Payload :=
  if answer.r1Delay < 10 ∧ answer.r1 = 0 ∧ answer.tokenDelay < 8192 then
    match answer.data with
    | .block payload _ => some payload
    | .error _ _ _ => none
  else none

theorem delivered_eq_some {answer : Answer} {payload : Payload} :
    answer.delivered = some payload ↔ answer.Delivers payload := by
  unfold delivered
  constructor
  · intro delivered
    split at delivered
    · rename_i timely
      split at delivered
      · rename_i found
        cases delivered
        exact ⟨timely.1, timely.2.1, timely.2.2, _, found⟩
      · cases delivered
    · cases delivered
  · intro ⟨r1Delay, r1, tokenDelay, crc, data⟩
    rw [if_pos ⟨r1Delay, r1, tokenDelay⟩, data]

/-- The bytes that the driver reads behind the command. -/
def polls (answer : Answer) : Nat :=
  if answer.r1Delay < 10 then
    answer.r1Delay + 1 +
      if answer.r1 = 0 then
        if answer.tokenDelay < 8192 then
          answer.tokenDelay + 1 +
            match answer.data with
            | .block _ _ => 514
            | .error _ _ _ => 0
        else 8192
      else 0
  else 10

end Answer

def Selected (events : List Event) : Prop := gpioOf events &&& SD_CS ≠ 0

/-- The card answers every CMD17 frame with an end bit that comes behind idle bytes in a chip-select
    window; how it does may depend on everything before. -/
def Answers (card : Devices) (script : List Event → Answer) : Prop :=
  ∀ (before : List Event) (value : Byte) (idle : Nat) (arg : BitVec 32) (crc : Byte),
    ¬Selected before → value &&& SD_CS ≠ 0 → 1 ≤ idle → crc &&& 1 = 1 →
      let asked := before ++ .gpio value ::
        (List.replicate idle (.sd 0xFF) ++ (frame 17 arg crc).map Event.sd)
      Gives card (.sd 0xFF) asked (script asked).stream

variable {card : Devices} {events : List Event}

/-- The select edge, the idle byte and the command. -/
def asked (before : List Event) (cmd : Byte) (arg : BitVec 32) : List Event :=
  before ++ .gpio (gpioOf before ||| SD_CS) :: ([.sd 0xFF] ++ (frame cmd arg 0x01).map Event.sd)

/-- The deselect, and the byte behind it. -/
def closed (events : List Event) : List Event :=
  events ++ [.gpio (gpioOf events &&& ~~~SD_CS), .sd 0xFF]

section Reading

variable {script : List Event → Answer}

/-- The window of a CMD17. -/
def window (script : List Event → Answer) (before : List Event) (arg : BitVec 32) : List Event :=
  closed (asked before 17 arg ++ List.replicate (script (asked before 17 arg)).polls (.sd 0xFF))

variable (script) (sdhc : Bool) (lba : BitVec 32) (before : List Event)

/-- What has happened when the driver gets to block `b`. -/
def history : (b : Nat) → List Event
  | 0 => before
  | b + 1 => window script (history b) (blockAddress sdhc lba b)

def answerAt (b : Nat) : Answer :=
  script (asked (history script sdhc lba before b) 17 (blockAddress sdhc lba b))

/-- The blocks from `first` on are in the buffer, and nothing else has changed. -/
structure Stored (buf : BitVec 32) (first last : Nat) (memory after : Memory 32) : Prop where
  inside : ∀ b, first ≤ b → b < last → ∀ payload,
    (answerAt script sdhc lba before b).Delivers payload →
      ∀ i < 512, after (buf + BitVec.ofNat 32 (512 * b + i)) = payload.bytes.getD i 0
  outside : ∀ addr, Memory.offset buf addr < 512 * first ∨ 512 * last ≤ Memory.offset buf addr →
    after addr = memory addr

variable {script sdhc lba before} {buf : BitVec 32} {memory : Memory 32} {first last b : Nat}

theorem Stored.cons {payload : Payload} {after : Memory 32}
    (delivers : (answerAt script sdhc lba before b).Delivers payload) (fits : last ≤ 2 ^ 23) (more : b < last)
    (rest : Stored script sdhc lba before buf (b + 1) last
      (memory.storeBytes (buf + BitVec.ofNat 32 (b * 512)) payload.bytes) after) :
    Stored script sdhc lba before buf b last memory after := by
  have store (addr : BitVec 32) := Memory.store_at memory buf addr (Memory.ofList payload.bytes)
    (by omega : b * 512 + 512 ≤ 2 ^ 32)
  have stored : memory.storeBytes (buf + BitVec.ofNat 32 (b * 512)) payload.bytes =
      memory.store (buf + BitVec.ofNat 32 (b * 512)) 512 (Memory.ofList payload.bytes) := by
    rw [Memory.storeBytes, payload.length]
  constructor
  · intro k lower upper other delivered i inside
    rcases Nat.eq_or_lt_of_le lower with rfl | later
    · obtain rfl : payload = other := by
        have both := (Answer.delivered_eq_some.mpr delivers).symm.trans
          (Answer.delivered_eq_some.mpr delivered)
        exact Option.some.inj both
      have place : Memory.offset buf (buf + BitVec.ofNat 32 (512 * b + i)) = 512 * b + i :=
        Memory.offset_add buf (by omega)
      rw [rest.outside _ (.inl (by omega)), stored, store, place, if_pos (by omega), Memory.ofList]
      congr 1
      omega
    · exact rest.inside k later upper other delivered i inside
  · intro addr outside
    rw [rest.outside addr (by omega), stored, store, if_neg (by omega)]

/-- The address does not overflow, and neither does the buffer. -/
def Addressable (sdhc : Bool) (lba : BitVec 32) (count : Nat) : Prop :=
  if sdhc then lba.toNat + count ≤ 2 ^ 32 ∧ count ≤ 2 ^ 23
  else 512 * (lba.toNat + count) ≤ 2 ^ 32

theorem Addressable.count_le {count : Nat} (addressable : Addressable sdhc lba count) :
    count ≤ 2 ^ 23 := by
  unfold Addressable at addressable
  split at addressable
  · exact addressable.2
  · omega

variable (script sdhc lba before)

/-- An exact read of `count` blocks, or an error from the first block that is not delivered. -/
structure Exact (buf : BitVec 32) (count : Nat) (memory : Memory 32)
    (outcome : ReadResult × List Event) : Prop where
  address : ∀ b < count, (blockAddress sdhc lba b).toNat =
    if sdhc then lba.toNat + b else 512 * (lba.toNat + b)
  succeeds : outcome.1.result = 0 ↔
    ∀ b < count, ∃ payload, (answerAt script sdhc lba before b).Delivers payload
  complete : outcome.1.result = 0 → outcome.2 = history script sdhc lba before count ∧
    Stored script sdhc lba before buf 0 count memory outcome.1.memory
  fails : ∀ b < count, (∀ k < b, ∃ payload, (answerAt script sdhc lba before k).Delivers payload) →
    (¬∃ payload, (answerAt script sdhc lba before b).Delivers payload) →
      outcome.1.result = -1 ∧ outcome.2 = history script sdhc lba before (b + 1) ∧
        Stored script sdhc lba before buf 0 b memory outcome.1.memory
  released : ¬Selected outcome.2

end Reading

/-- The bytes of the SD card since the last write to the GPIO register. -/
def bytesOf (events : List Event) : List Byte :=
  events.foldl (fun bytes event => match event with
    | .gpio _ => []
    | .sd mosi => bytes ++ [mosi]
    | .nic _ => bytes) []

def zeroAnswer : Answer where
  r1Delay := 3
  r1 := 0
  valid := rfl
  tokenDelay := 20
  data := .block ⟨List.replicate 512 0, List.length_replicate⟩ (0, 0)

/-- A card of zeros. -/
def zeroCard : Devices := fun events =>
  zeroAnswer.stream.getD (((bytesOf events).dropWhile (· = 0xFF)).length - 6) 0xFF

end Mackerel.F.SdSpi
