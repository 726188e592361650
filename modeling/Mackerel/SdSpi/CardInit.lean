import Mackerel.SdSpi.CardRuns

namespace Mackerel.F.SdSpi

open Bytes Device
open M08 (SdCard SdState between)

variable {c : SdCard} {ready app ready' app' : Bool} {polls commands polls' commands' : Nat}

theorem sdCmd0_leads : CardLeads c (listening [] ready app polls commands) (sdCmd (slot c) 0 0 0x95) 0x01
    (listening [] false false 0 (commands + 1)) :=
  sdCmd_leads (by decide) (c.quick commands) (by decide) fun _ _ _ => rfl

theorem resetCard_leads : CardLeads c (between ready app polls commands) (resetCard (slot c) 10 0xFF) 0x01
    (between false false 0 (commands + 1)) := by
  have again : CardLeads c (between false false 0 (commands + 1)) (resetCard (slot c) 9 0x01) 0x01
      (between false false 0 (commands + 1)) := .ite_neg (not_not_intro rfl) (.pure _)
  have first : (0xFF : Byte) ≠ 0x01 := by decide
  exact .ite_pos first ((csLow_leads _).bind (sdCmd0_leads.bind
    ((csHigh_leads _).bind (rx_deselected.bind again))))

/-- A card that knows CMD8 echoes the pattern. -/
theorem sdCmd8_leads (version2 : c.version2 = true) :
    CardLeads c (listening [] false app polls commands) (sdCmd (slot c) 8 0x1AA 0x87) 0x01
      (listening [0x00, 0x00, 0x01, 0xAA] false false polls (commands + 1)) := by
  refine sdCmd_leads (by decide) (c.quick commands) (by decide) fun _ _ _ => ?_
  exact (if_pos version2).trans rfl

theorem sdCmd8_illegal (version1 : c.version2 = false) :
    CardLeads c (listening [] false app polls commands) (sdCmd (slot c) 8 0x1AA 0x87) 0x05
      (listening [] false false polls (commands + 1)) := by
  refine sdCmd_leads (by decide) (c.quick commands) (by decide) fun _ _ _ => ?_
  have five : (0x01 ||| 0x04 : Byte) = 0x05 := rfl
  refine (if_neg (by simp [version1])).trans ?_
  rw [SdCard.illegal, SdCard.r1, if_neg Bool.false_ne_true, five]
  rfl

theorem sdCmd55_leads : CardLeads c (listening [] false app polls commands) (sdCmd (slot c) 55 0 0x01) 0x01
    (listening [] false true polls (commands + 1)) :=
  sdCmd_leads (by decide) (c.quick commands) (by decide) fun _ _ _ => rfl

theorem sdCmd41_ready {hcs : BitVec 32} (done : c.busy ≤ polls) (agrees : c.hostAgrees hcs = true) :
    CardLeads c (listening [] false true polls commands) (sdCmd (slot c) 41 hcs 0x01) 0x00
      (listening [] true false polls (commands + 1)) := by
  refine sdCmd_leads (by decide) (c.quick commands) (by decide) fun _ _ _ => ?_
  have ready : (decide (c.busy ≤ polls) && c.hostAgrees hcs) = true := by
    rw [decide_eq_true done, agrees, Bool.and_true]
  exact (if_pos ready).trans rfl

theorem sdCmd41_busy {hcs : BitVec 32} (waits : polls < c.busy) :
    CardLeads c (listening [] false true polls commands) (sdCmd (slot c) 41 hcs 0x01) 0x01
      (listening [] false false (polls + 1) (commands + 1)) := by
  refine sdCmd_leads (by decide) (c.quick commands) (by decide) fun _ _ _ => ?_
  have early : ¬(decide (c.busy ≤ polls) && c.hostAgrees hcs) = true := by
    rw [decide_eq_false (Nat.not_le.mpr waits), Bool.false_and]
    exact Bool.false_ne_true
  exact (if_neg early).trans rfl

/-- One turn of the loop over ACMD41. -/
theorem initCard_turn {hcs : BitVec 32} {count : Nat} {r1 answer : Byte} (more : r1 ≠ 0x00) {after : SdState}
    {result : Byte} (answers : CardLeads c (listening [] false true polls (commands + 1)) (sdCmd (slot c) 41 hcs 0x01)
      answer (listening [] ready' app' polls' commands'))
    (rest : CardLeads c (between ready' app' polls' commands') (initCard (slot c) hcs count answer) result after) :
    CardLeads c (between false app polls commands) (initCard (slot c) hcs (count + 1) r1) result after :=
  .ite_pos more ((csLow_leads _).bind (sdCmd55_leads.bind (answers.bind
    ((csHigh_leads _).bind (rx_deselected.bind rest)))))

/-- The loop ends when the card is ready, or with all its turns used. -/
theorem initCard_leads (count : Nat) {r1 : Byte} (more : r1 ≠ 0x00) (early : polls ≤ c.busy) :
    (c.busy < polls + count → ∃ later, ∀ hcs, c.hostAgrees hcs = true →
      CardLeads c (between false app polls commands) (initCard (slot c) hcs count r1) 0x00
        (between true false c.busy later)) ∧
    (polls + count ≤ c.busy → ∃ r1' app' polls' later, r1' ≠ 0x00 ∧ ∀ hcs,
      CardLeads c (between false app polls commands) (initCard (slot c) hcs count r1) r1'
        (between false app' polls' later)) := by
  induction count generalizing polls commands app r1 with
  | zero =>
      exact ⟨fun soon => absurd soon (Nat.not_lt.mpr early),
        fun _ => ⟨r1, app, polls, commands, more, fun _ => .pure _⟩⟩
  | succ count ih =>
      by_cases done : c.busy ≤ polls
      · obtain rfl : polls = c.busy := Nat.le_antisymm early done
        have stop (hcs : BitVec 32) : CardLeads c (between true false c.busy (commands + 1 + 1))
            (initCard (slot c) hcs count 0x00) 0x00 (between true false c.busy (commands + 1 + 1)) := by
          cases count with
          | zero => exact .pure _
          | succ count => exact .ite_neg (not_not_intro rfl) (.pure _)
        exact ⟨fun _ => ⟨_, fun hcs agrees => initCard_turn more (sdCmd41_ready done agrees) (stop hcs)⟩,
          fun late => absurd late (by omega)⟩
      · have waits : polls < c.busy := Nat.lt_of_not_le done
        have rest := @ih false (polls + 1) (commands + 1 + 1) 0x01 (by decide) waits
        refine ⟨fun soon => ?_, fun late => ?_⟩
        · obtain ⟨later, leads⟩ := rest.1 (by omega)
          exact ⟨later, fun hcs agrees => initCard_turn more (sdCmd41_busy waits) (leads hcs agrees)⟩
        · obtain ⟨r1', app', polls', later, fails, leads⟩ := rest.2 (by omega)
          exact ⟨r1', app', polls', later, fails, fun hcs => initCard_turn more (sdCmd41_busy waits) (leads hcs)⟩

theorem sdCmd58_leads : CardLeads c (listening [] ready app polls commands) (sdCmd (slot c) 58 0 0x01)
    (if ready then 0x00 else 0x01) (listening c.ocr.toList ready false polls (commands + 1)) := by
  refine sdCmd_leads (by decide) (c.quick commands) (by cases ready <;> decide) fun _ _ _ => rfl

theorem hostAgrees_of_version1 (version1 : c.version2 = false) (arg : BitVec 32) : c.hostAgrees arg = true := by
  have blocks : c.highCapacity = false := by
    by_contra high
    have known := c.known (by simpa using high)
    rw [version1] at known
    exact Bool.false_ne_true known
  rw [SdCard.hostAgrees, blocks]
  rfl

/-- CCS is bit 30 of the OCR. -/
theorem ccs_bit (c : SdCard) : decide (c.ocr.toList.getD 0 0 &&& 0x40 ≠ 0) = c.highCapacity := by
  have first : c.ocr.toList.getD 0 0 = c.ocr[0] := by
    rw [List.getD_eq_getElem _ _ (by simp), Vector.getElem_toList]
  have mask : Duart.pinMask 6 = 0x40 := rfl
  have bit := Duart.and_pinMask_ne_zero c.ocr[0] (by decide : 6 < 8)
  rw [mask] at bit
  rw [first, ← c.ccs]
  exact Bool.eq_iff_iff.mpr (decide_eq_true_iff.trans bit)

/-- `sd_spi_init` behind the answer to CMD8. -/
def awaitReady (c : SdCard) (hcs : BitVec 32) : Firmware (Option Bool) := do
  let r1 ← initCard (slot c) hcs 1000 0xFF
  if r1 ≠ 0x00 then pure none
  else do
    csLow
    let _ ← sdCmd (slot c) 58 0 0x01
    let ocr ← rxBytes (slot c) 4
    csHigh
    let _ ← rx (slot c)
    pure (some (ocr.getD 0 0 &&& 0x40 ≠ 0))

theorem awaitReady_leads :
    (c.busy < 1000 → ∃ later, ∀ hcs, c.hostAgrees hcs = true →
      CardLeads c (between false app 0 commands) (awaitReady c hcs) (some c.highCapacity)
        (between true false c.busy later)) ∧
    (1000 ≤ c.busy → ∃ app' polls' later, ∀ hcs, CardLeads c (between false app 0 commands) (awaitReady c hcs)
      none (between false app' polls' later)) := by
  have loop := @initCard_leads c app 0 commands 1000 0xFF (by decide) (Nat.zero_le _)
  constructor
  · intro soon
    obtain ⟨later, ready⟩ := loop.1 (by omega)
    have ocr : CardLeads c (listening c.ocr.toList true false c.busy (later + 1))
        (rxBytes (slot c) c.ocr.toList.length) c.ocr.toList (listening [] true false c.busy (later + 1)) := by
      have leads := @rxBytes_leads c true false c.busy (later + 1) c.ocr.toList []
      rwa [List.append_nil] at leads
    rw [Vector.length_toList] at ocr
    refine ⟨later + 1, fun hcs agrees => (ready hcs agrees).bind (.ite_neg (not_not_intro rfl) ?_)⟩
    refine (csLow_leads _).bind (sdCmd58_leads.bind (ocr.bind ((csHigh_leads _).bind (rx_deselected.bind ?_))))
    rw [← ccs_bit c]
    exact .pure _
  · intro late
    obtain ⟨r1, app', polls', later, fails, leads⟩ := loop.2 (by omega)
    exact ⟨app', polls', later, fun hcs => (leads hcs).bind (.ite_pos fails (.pure none))⟩

/-- `sd_spi_init` behind the reset of the card. -/
def identify (c : SdCard) : Firmware (Option Bool) := do
  csLow
  let r1 ← sdCmd (slot c) 8 0x1AA 0x87
  let r7 ← rxBytes (slot c) 4
  csHigh
  let _ ← rx (slot c)
  let v2 := r1 = 0x01 ∧ r7.getD 2 0 = 0x01 ∧ r7.getD 3 0 = 0xAA
  awaitReady c (if v2 then 0x40000000 else 0)

theorem sdSpiInit_eq (c : SdCard) : sdSpiInit (slot c) = (do
    csHigh
    let _ ← rxBytes (slot c) 10
    let r1 ← resetCard (slot c) 10 0xFF
    if r1 ≠ 0x01 then pure none else identify c) := rfl

/-- The pattern comes back from a card that knows CMD8, and HCS is set for it. -/
theorem identify_leads {result : Option Bool} {after : SdState}
    (rest : ∀ hcs, c.hostAgrees hcs = true →
      CardLeads c (between false false 0 (commands + 1)) (awaitReady c hcs) result after) :
    CardLeads c (between false app 0 commands) (identify c) result after := by
  cases version : c.version2 with
  | true =>
      have r7 := @rxBytes_leads c false false 0 (commands + 1) [0x00, 0x00, 0x01, 0xAA] []
      exact (csLow_leads _).bind ((sdCmd8_leads version).bind (r7.bind ((csHigh_leads _).bind
        (rx_deselected.bind (rest _ c.hostAgrees_hcs)))))
  | false =>
      have silent := @rxBytes_silent c false false 0 (commands + 1) 4
      exact (csLow_leads _).bind ((sdCmd8_illegal version).bind (silent.bind ((csHigh_leads _).bind
        (rx_deselected.bind (rest _ (hostAgrees_of_version1 version _))))))

/-- `sd_spi_init` accepts the cards of both versions that are ready within a thousand ACMD41, and
    finds how they count. -/
theorem sdSpiInit_leads (c : SdCard) (ready app : Bool) (polls commands : Nat) :
    (c.busy < 1000 → ∃ later, CardLeads c (between ready app polls commands) (sdSpiInit (slot c))
      (some c.highCapacity) (between true false c.busy later)) ∧
    (1000 ≤ c.busy → ∃ app' polls' later, CardLeads c (between ready app polls commands) (sdSpiInit (slot c))
      none (between false app' polls' later)) := by
  have opened {result : Option Bool} {after : SdState}
      (leads : CardLeads c (between false false 0 (commands + 1)) (identify c) result after) :
      CardLeads c (between ready app polls commands) (sdSpiInit (slot c)) result after := by
    rw [sdSpiInit_eq]
    exact (csHigh_leads _).bind ((rxBytes_deselected 10).bind (resetCard_leads.bind
      (.ite_neg (not_not_intro rfl) leads)))
  have await := @awaitReady_leads c false (commands + 1 + 1)
  constructor
  · intro soon
    obtain ⟨later, leads⟩ := await.1 soon
    exact ⟨later, opened (identify_leads leads)⟩
  · intro late
    obtain ⟨app', polls', later, leads⟩ := await.2 late
    exact ⟨app', polls', later, opened (identify_leads fun hcs _ => leads hcs)⟩

end Mackerel.F.SdSpi
