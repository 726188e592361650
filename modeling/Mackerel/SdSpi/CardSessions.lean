import Mackerel.SdSpi.CardInit

namespace Mackerel.F.SdSpi

open Bytes Device
open M08 (SdCard SdState Contents between placed)

variable {c : SdCard} {app : Bool} {polls commands : Nat}

theorem readData_leads (data : List Byte) {delay : Nat} (soon : delay < 8192) (crc : Byte × Byte) :
    CardLeads c (listening (List.replicate delay 0xFF ++ 0xFE :: (data ++ [crc.1, crc.2])) true false polls commands)
      (readData (slot c) data.length) (some data) (listening [] true false polls commands) :=
  (rxWhile_leads (fun t => t = 0xFF) (by decide) (by decide) soon).bind (.ite_neg (not_not_intro rfl)
    ((rxBytes_leads data [crc.1, crc.2]).bind ((rx_leads crc.1 _).bind ((rx_leads crc.2 []).bind (.pure _)))))

theorem readCommand_leads {cmd : Byte} {arg : BitVec 32} {data : List Byte} {len delay : Nat} {crc : Byte × Byte}
    (size : data.length = len) (begins : (0x40 ||| cmd) &&& 0xC0 = 0x40) (soon : delay < 8192)
    (executes : ∀ frame out stream, c.execute ⟨true, frame, out, stream, true, app, polls, commands⟩
        ((0x40 ||| cmd) &&& 0x3F).toNat arg =
      listening (List.replicate (c.r1Delay commands) 0xFF ++ 0x00 ::
        (List.replicate delay 0xFF ++ 0xFE :: (data ++ [crc.1, crc.2]))) true false polls (commands + 1)) :
    CardLeads c (between true app polls commands) (readCommand (slot c) cmd arg len) (some data)
      (between true false polls (commands + 1)) := by
  have accepted : CardLeads c (listening [] true app polls commands) (sdCmd (slot c) cmd arg 0x01) 0x00 _ :=
    sdCmd_leads begins (c.quick commands) rfl executes
  have closing : CardLeads c (listening [] true false polls (commands + 1))
      (do csHigh; let _ ← rx (slot c); pure (some data)) (some data) (between true false polls (commands + 1)) :=
    (csHigh_leads _).bind (rx_deselected.bind (.pure _))
  subst size
  exact (csLow_leads _).bind (accepted.bind (Leads.ite_pos rfl ((readData_leads data soon crc).bind closing)))

/-- The blocks that a card has which counts bytes. -/
def OnCard (c : SdCard) (lba : BitVec 32) (count : Nat) : Prop :=
  c.highCapacity = true ∨ lba.toNat + count ≤ 2 ^ 23

theorem block?_blockAddress {lba : BitVec 32} {count b : Nat} (inside : b < count) (fits : OnCard c lba count) :
    c.block? (blockAddress c.highCapacity lba b) = some (lba + BitVec.ofNat 32 b) := by
  cases high : c.highCapacity with
  | true => exact if_pos high
  | false =>
      have bytes : lba.toNat + count ≤ 2 ^ 23 := fits.resolve_left (by simp [high])
      have block : (lba + BitVec.ofNat 32 b).toNat = lba.toNat + b := by
        rw [BitVec.toNat_add, BitVec.toNat_ofNat, Nat.mod_eq_of_lt (by omega : b < 2 ^ 32),
          Nat.mod_eq_of_lt (by omega)]
      have address : (blockAddress false lba b).toNat = (lba.toNat + b) * 512 := by
        have size : (512 : BitVec 32).toNat = 512 := rfl
        rw [blockAddress, if_neg Bool.false_ne_true, BitVec.toNat_mul, block, size,
          Nat.mod_eq_of_lt (by omega)]
      rw [SdCard.block?, if_neg (by simp [high]), if_pos (by rw [address]; omega), address,
        Nat.mul_div_cancel _ (by decide), ← block, BitVec.ofNat_toNat, BitVec.setWidth_eq]

theorem readBlock_leads {arg block : BitVec 32} (found : c.block? arg = some block) :
    CardLeads c (between true app polls commands) (readCommand (slot c) 17 arg 512)
      (some (c.contents block).toList) (between true false polls (commands + 1)) := by
  have executes (frame : List Byte) (out : List Byte) (stream : Option (Nat × BitVec 32 × Nat)) :
      c.execute ⟨true, frame, out, stream, true, app, polls, commands⟩ 17 arg =
        listening (List.replicate (c.r1Delay commands) 0xFF ++ 0x00 :: c.blockBytes commands block 0)
          true false polls (commands + 1) := by
    simp only [SdCard.execute, found]
    rfl
  rw [SdCard.blockBytes, BitVec.add_zero] at executes
  exact readCommand_leads Vector.length_toList (by decide) (c.timing commands 0).quick executes

theorem readRegister_leads {cmd : Byte} {register : Vector Byte 16} (begins : (0x40 ||| cmd) &&& 0xC0 = 0x40)
    (executes : ∀ frame out stream, c.execute ⟨true, frame, out, stream, true, app, polls, commands⟩
        ((0x40 ||| cmd) &&& 0x3F).toNat 0 =
      listening (List.replicate (c.r1Delay commands) 0xFF ++ 0x00 :: c.registerBytes commands register)
        true false polls (commands + 1)) :
    CardLeads c (between true app polls commands) (readCommand (slot c) cmd 0 16) (some register.toList)
      (between true false polls (commands + 1)) :=
  readCommand_leads Vector.length_toList begins (c.timing commands 0).quick executes

theorem readBlocks_leads {lba : BitVec 32} {count : Nat} (fits : OnCard c lba count) (buf : BitVec 32)
    (blocks b : Nat) (total : b + blocks = count) (memory : Memory 32) : ∃ later,
      CardLeads c (between true false polls commands) (readBlocks (slot c) c.highCapacity lba buf blocks b memory)
        ⟨0, placed c.contents lba buf blocks b memory⟩ (between true false polls later) := by
  induction blocks generalizing b memory commands with
  | zero => exact ⟨commands, .pure _⟩
  | succ blocks ih =>
      have found := block?_blockAddress (by omega : b < count) fits
      obtain ⟨later, rest⟩ := @ih (commands + 1) (b + 1) (by omega)
        (memory.storeBytes (buf + BitVec.ofNat 32 (b * 512)) (c.contents (lba + BitVec.ofNat 32 b)).toList)
      refine ⟨later, (readBlock_leads found).bind ?_⟩
      rw [placed, Nat.mul_comm 512 b]
      exact rest

theorem sdSpiPrintInfo_leads : CardLeads c (between true false polls commands) (sdSpiPrintInfo (slot c))
    (some c.cid.toList, some c.csd.toList) (between true false polls (commands + 2)) := by
  have cid : CardLeads c (between true false polls commands) (readCommand (slot c) 10 0 16) (some c.cid.toList)
      (between true false polls (commands + 1)) := readRegister_leads (by decide) fun _ _ _ => rfl
  have csd : CardLeads c (between true false polls (commands + 1)) (readCommand (slot c) 9 0 16)
      (some c.csd.toList) (between true false polls (commands + 2)) := readRegister_leads (by decide) fun _ _ _ => rfl
  exact cid.bind (csd.bind (.pure _))

/-- Calls of the driver, and what other code does between them: writes to the GPIO register that leave
    the card alone, and bytes to the network interface. -/
inductive Call where
  | init
  | read (lba buf : BitVec 32) (count : Nat)
  | printInfo
  | gpio (value : Byte) (off : value &&& SD_CS = 0)
  | nic (mosi : Byte)

inductive Outcome where
  | initialised (ok : Bool)
  | read (result : Int)
  | info (cid csd : Option (List Byte))
  | other
deriving DecidableEq

/-- The static `sdhc`, and the memory of the callers. -/
structure Statics where
  sdhc : Bool
  memory : Memory 32

def perform (card : Devices) (statics : Statics) : Call → Firmware (Outcome × Statics)
  | .init => do
      let found ← sdSpiInit card
      pure (.initialised found.isSome, { statics with sdhc := found.getD statics.sdhc })
  | .read lba buf count => do
      let result ← sdSpiRead card statics.sdhc lba buf count statics.memory
      pure (.read result.result, { statics with memory := result.memory })
  | .printInfo => do
      let info ← sdSpiPrintInfo card
      pure (.info info.1 info.2, statics)
  | .gpio value _ => do
      writeGpio value
      pure (.other, statics)
  | .nic mosi => do
      let _ ← spi2 card mosi
      pure (.other, statics)

def performs (card : Devices) : List Call → Statics → Firmware (List Outcome × Statics)
  | [], statics => pure ([], statics)
  | first :: rest, statics => do
      let done ← perform card statics first
      let later ← performs card rest done.2
      pure (done.1 :: later.1, later.2)

/-- What a call should return. -/
def Call.outcome (c : SdCard) : Call → Outcome
  | .init => .initialised true
  | .read _ _ _ => .read 0
  | .printInfo => .info (some c.cid.toList) (some c.csd.toList)
  | .gpio _ _ | .nic _ => .other

/-- What a call should do to memory. -/
def Call.effect (contents : Contents) (memory : Memory 32) : Call → Memory 32
  | .read lba buf count => placed contents lba buf count 0 memory
  | _ => memory

/-- A call that asks for blocks of the card only. -/
def Call.Fits (c : SdCard) : Call → Prop
  | .read lba _ count => OnCard c lba count
  | _ => True

theorem perform_leads (timely : c.busy < 1000) (call : Call) (fits : call.Fits c) (memory : Memory 32) :
    ∃ polls' later, CardLeads c (between true false polls commands) (perform (slot c) ⟨c.highCapacity, memory⟩ call)
      (call.outcome c, ⟨c.highCapacity, call.effect c.contents memory⟩) (between true false polls' later) := by
  cases call with
  | init =>
      obtain ⟨later, leads⟩ := (sdSpiInit_leads c true false polls commands).1 timely
      exact ⟨c.busy, later, leads.bind (.pure _)⟩
  | read lba buf count =>
      obtain ⟨later, leads⟩ := readBlocks_leads fits buf count 0 (Nat.zero_add count) memory
      exact ⟨polls, later, leads.bind (.pure _)⟩
  | printInfo => exact ⟨polls, _, sdSpiPrintInfo_leads.bind (.pure _)⟩
  | gpio value off =>
      have write : CardLeads c (between true false polls commands) (writeGpio value) ()
          (between true false polls commands) := by
        intro events same
        refine ⟨rfl, (stateOf_append _ _).trans ?_⟩
        rw [same, List.foldl_cons, List.foldl_nil, hear, decide_eq_false (not_not_intro off)]
        rfl
      exact ⟨polls, commands, write.bind (.pure _)⟩
  | nic mosi =>
      refine ⟨polls, commands, fun events same => ⟨rfl, (stateOf_append _ _).trans ?_⟩⟩
      rw [same]
      rfl

theorem performs_leads (timely : c.busy < 1000) (calls : List Call) (fits : ∀ call ∈ calls, call.Fits c)
    (memory : Memory 32) : ∃ polls' later, CardLeads c (between true false polls commands)
      (performs (slot c) calls ⟨c.highCapacity, memory⟩)
      (calls.map (Call.outcome c), ⟨c.highCapacity, calls.foldl (Call.effect c.contents) memory⟩)
      (between true false polls' later) := by
  induction calls generalizing polls commands memory with
  | nil => exact ⟨polls, commands, .pure _⟩
  | cons first rest ih =>
      obtain ⟨polls', middle, now⟩ := perform_leads timely first (fits first List.mem_cons_self) memory
      obtain ⟨polls'', later, behind⟩ := ih (fun call member => fits call (List.mem_cons_of_mem first member))
        (first.effect c.contents memory)
      exact ⟨polls'', later, now.bind (behind.bind (.pure _))⟩

/-- From power-up, `sd_spi_init` succeeds with exactly the cards that are ready within a thousand
    ACMD41, of both versions, and then every later call in any order does what it should: reads of
    existing blocks bring them, whether the card counts blocks or bytes. -/
theorem sd_spi_sessions_exact (c : SdCard) (memory : Memory 32) :
    ((perform (slot c) ⟨false, memory⟩ .init []).1.1 = .initialised true ↔ c.busy < 1000) ∧
    (c.busy < 1000 → ∀ calls : List Call, (∀ call ∈ calls, call.Fits c) →
      (performs (slot c) (.init :: calls) ⟨false, memory⟩ []).1 = (.initialised true :: calls.map (Call.outcome c),
        ⟨c.highCapacity, calls.foldl (Call.effect c.contents) memory⟩)) := by
  obtain ⟨good, bad⟩ := sdSpiInit_leads c false false 0 0
  have start : stateOf c [] = between false false 0 0 := rfl
  have init (soon : c.busy < 1000) : ∃ later, CardLeads c (between false false 0 0)
      (perform (slot c) ⟨false, memory⟩ .init) (.initialised true, ⟨c.highCapacity, memory⟩)
      (between true false c.busy later) := by
    obtain ⟨later, leads⟩ := good soon
    exact ⟨later, leads.bind (.pure _)⟩
  refine ⟨⟨fun succeeded => ?_, fun soon => ?_⟩, fun soon calls fits => ?_⟩
  · by_contra late
    obtain ⟨app', polls', later, leads⟩ := bad (Nat.le_of_not_lt late)
    have failed : CardLeads c (between false false 0 0) (perform (slot c) ⟨false, memory⟩ .init)
        (.initialised false, ⟨false, memory⟩) (between false app' polls' later) := leads.bind (.pure _)
    rw [(failed [] start).1] at succeeded
    exact absurd succeeded (by simp)
  · obtain ⟨later, leads⟩ := init soon
    rw [(leads [] start).1]
  · obtain ⟨later, leads⟩ := init soon
    obtain ⟨polls', last, behind⟩ := performs_leads soon calls fits memory
    have whole : CardLeads c (between false false 0 0) (performs (slot c) (.init :: calls) ⟨false, memory⟩)
        (.initialised true :: calls.map (Call.outcome c), ⟨c.highCapacity, calls.foldl (Call.effect c.contents) memory⟩)
        (between true false polls' last) := leads.bind (behind.bind (.pure _))
    exact (whole [] start).1

end Mackerel.F.SdSpi
