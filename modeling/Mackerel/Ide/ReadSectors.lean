import Mackerel.Clocked.Latches
import Mackerel.Ide.Transfers

namespace Mackerel.Ide

open Bytes Device

variable (drive : Drive)

/-- The first status from `i` on that passes a test, within a number of reads. -/
structure First (Passes : Byte → Prop) (limit i found : Nat) : Prop where
  lower : i ≤ found
  upper : found < i + limit
  first : Clocked.First (fun k => Passes (drive.status k)) i found

variable {drive} {Passes : Byte → Prop} {limit i found other : Nat}

theorem First.passes (first : First drive Passes limit i found) : Passes (drive.status found) := first.first.1

theorem First.before (first : First drive Passes limit i found) :
    ∀ k, i ≤ k → k < found → ¬Passes (drive.status k) := first.first.2

theorem First.unique (first : First drive Passes limit i found) (second : First drive Passes limit i other) :
    found = other := by
  rcases Nat.lt_trichotomy found other with early | same | late
  · exact absurd first.passes (second.before found first.lower early)
  · exact same
  · exact absurd second.passes (first.before other second.lower late)

theorem First.later (skipped : ¬Passes (drive.status i)) (first : First drive Passes limit (i + 1) found) :
    First drive Passes (limit + 1) i found where
  lower := Nat.le_of_succ_le first.lower
  upper := by
    have upper := first.upper
    omega
  first := by
    refine ⟨first.passes, fun k lower upper => ?_⟩
    rcases Nat.eq_or_lt_of_le lower with rfl | more
    · exact skipped
    · exact first.before k more upper

variable (drive)

def polled : (count : Nat) → Bus → Bus
  | 0, bus => bus
  | count + 1, bus => polled count (readStatus drive bus).2

theorem polled_succ (count : Nat) (bus : Bus) :
    polled drive (count + 1) bus = (readStatus drive (polled drive count bus)).2 := by
  induction count generalizing bus with
  | zero => rfl
  | succ count ih => exact ih _

theorem polled_statuses (count : Nat) (bus : Bus) :
    (polled drive count bus).statuses = bus.statuses + count := by
  induction count with
  | zero => rfl
  | succ count ih =>
      rw [polled_succ]
      exact congrArg (· + 1) ih

theorem polled_last (count : Nat) (bus : Bus) : (polled drive (count + 1) bus).accesses.getLast? =
    some (.status (drive.status (bus.statuses + count))) := by
  rw [polled_succ, ← polled_statuses]
  exact List.getLast?_concat

theorem polled_good {sectors : List (List Word)} (count : Nat) {bus : Bus}
    (good : Good bus.accesses sectors) : Good (polled drive count bus).accesses sectors := by
  induction count with
  | zero => exact good
  | succ count ih =>
      rw [polled_succ]
      exact ih.other id

theorem polled_length (count : Nat) (bus : Bus) :
    (polled drive count bus).accesses.length = bus.accesses.length + count := by
  induction count with
  | zero => rfl
  | succ count ih =>
      rw [polled_succ, readStatus, List.length_append, ih]
      rfl

/-- The loop ends with the first status that decides, or runs out. -/
theorem pollStatus_run (verdict : Byte → Option Bool) (count : Nat) (bus : Bus) :
    (∃ found result, First drive (fun status => verdict status ≠ none) count bus.statuses found ∧
        verdict (drive.status found) = some result ∧
        pollStatus drive verdict count bus = (result, polled drive (found - bus.statuses + 1) bus)) ∨
      ((¬∃ found, First drive (fun status => verdict status ≠ none) count bus.statuses found) ∧
        pollStatus drive verdict count bus = (false, polled drive count bus)) := by
  induction count generalizing bus with
  | zero =>
      refine .inr ⟨fun ⟨found, first⟩ => ?_, rfl⟩
      have lower := first.lower
      have upper := first.upper
      omega
  | succ count ih =>
      cases decided : verdict (drive.status bus.statuses) with
      | some result =>
          have first :
              First drive (fun status => verdict status ≠ none) (count + 1) bus.statuses bus.statuses :=
            ⟨Nat.le_refl _, by omega, by simp [decided], fun k lower upper => by omega⟩
          refine .inl ⟨bus.statuses, result, first, decided, ?_⟩
          rw [pollStatus, bind_run]
          simp only [readStatus, decided, Nat.sub_self]
          rfl
      | none =>
          have skipped : ¬verdict (drive.status bus.statuses) ≠ none := not_not_intro decided
          have run : pollStatus drive verdict (count + 1) bus =
              pollStatus drive verdict count (readStatus drive bus).2 := by
            rw [pollStatus, bind_run]
            simp only [readStatus, decided]
          rw [run]
          rcases ih (readStatus drive bus).2 with ⟨found, result, first, settled, ran⟩ | ⟨never, ran⟩
          · have lower := first.lower
            have next : (readStatus drive bus).2.statuses = bus.statuses + 1 := rfl
            rw [next] at lower ran first
            refine .inl ⟨found, result, first.later skipped, settled, ?_⟩
            have count : found - bus.statuses + 1 = found - (bus.statuses + 1) + 1 + 1 := by omega
            rw [ran, count]
            rfl
          · refine .inr ⟨fun ⟨found, first⟩ => never ⟨found, ?_⟩, ran⟩
            have later : found ≠ bus.statuses := by
              rintro rfl
              exact first.passes decided
            have lower := first.lower
            have upper := first.upper
            have next : (readStatus drive bus).2.statuses = bus.statuses + 1 := rfl
            exact ⟨by omega, by omega, first.passes, fun k more => first.before k (by omega)⟩

theorem readWords_run (count : Nat) (bus : Bus) : ∃ words : List Word, words.length = count ∧
    readWords drive count bus =
      (words, { bus with accesses := bus.accesses ++ words.map .data, words := bus.words + count }) := by
  induction count generalizing bus with
  | zero => exact ⟨[], rfl, by simp [readWords, pure_run]⟩
  | succ count ih =>
      obtain ⟨words, size, ran⟩ := ih (readData drive bus).2
      refine ⟨drive.data bus.words :: words, congrArg (· + 1) size, ?_⟩
      rw [readWords, bind_run, bind_run, ran]
      simp [readData, pure_run, Nat.add_assoc, Nat.add_comm 1 count]

/-- DRQ, or an error. -/
def Signals (status : Byte) : Prop := status &&& (IDE_SR_DRQ ||| (IDE_SR_ERR ||| IDE_SR_DF)) ≠ 0

def IsReady (status : Byte) : Prop := status &&& (IDE_SR_BSY ||| IDE_SR_DRDY) = IDE_SR_DRDY

theorem readyVerdict_ne_none (status : Byte) : readyVerdict status ≠ none ↔ IsReady status := by
  simp [readyVerdict, IsReady]

theorem dataVerdict_ne_none (status : Byte) : dataVerdict status ≠ none ↔ Signals status := by
  rw [Signals, BitVec.and_or_distrib_left]
  by_cases drq : status &&& IDE_SR_DRQ = 0
  · simp [dataVerdict, drq]
  · have signals : status &&& IDE_SR_DRQ ||| status &&& (IDE_SR_ERR ||| IDE_SR_DF) ≠ 0 := by
      intro zero
      exact drq (BitVec.or_eq_zero_iff.mp zero).1
    rw [dataVerdict, if_pos drq]
    exact iff_of_true (by simp) signals

/-- In the waits that are reached, from status `i` on, DRQ does not come together with BSY. -/
def HonestFrom : (sectors i : Nat) → Prop
  | 0, _ => True
  | sectors + 1, i => ∀ found, First drive Signals IDE_TIMEOUT_DRQ i found →
      drive.status found &&& IDE_SR_DRQ ≠ 0 → drive.status found &&& IDE_SR_BSY = 0 ∧
        (drive.status (found + 1) &&& (IDE_SR_ERR ||| IDE_SR_DF) = 0 → HonestFrom sectors (found + 2))

def Honest (count : Nat) : Prop :=
  ∀ found, First drive IsReady IDE_TIMEOUT_READY 0 found → HonestFrom drive count (found + 1)

theorem polled_words (count : Nat) (bus : Bus) : (polled drive count bus).words = bus.words := by
  induction count with
  | zero => rfl
  | succ count ih =>
      rw [polled_succ]
      exact ih

/-- Behind a sector that was offered by status `found`. -/
def behind (bus : Bus) (found : Nat) (words : List Word) : Bus where
  accesses := (polled drive (found - bus.statuses + 1) bus).accesses ++ words.map .data ++
    [.status (drive.status (found + 1))]
  statuses := found + 2
  words := bus.words + 256

variable (MACKEREL_30 : Bool) (buf : BitVec 32)

def storedAt (memory : Memory 32) (s : Nat) (words : List Word) : Memory 32 :=
  memory.storeBytes (buf + BitVec.ofNat 32 (s * 512)) (words.flatMap (stored MACKEREL_30))

/-- A turn of the loop. -/
theorem readFrom_turn (sectors s : Nat) (memory : Memory 32) (bus : Bus) :
    (∃ count ≤ IDE_TIMEOUT_DRQ,
      (∀ found, First drive Signals IDE_TIMEOUT_DRQ bus.statuses found →
          drive.status found &&& IDE_SR_DRQ = 0) ∧
        readFrom drive MACKEREL_30 buf (sectors + 1) s memory bus = (⟨-1, memory⟩, polled drive count bus)) ∨
      ∃ found words, First drive Signals IDE_TIMEOUT_DRQ bus.statuses found ∧
        drive.status found &&& IDE_SR_DRQ ≠ 0 ∧ words.length = 256 ∧
        readFrom drive MACKEREL_30 buf (sectors + 1) s memory bus =
          if drive.status (found + 1) &&& (IDE_SR_ERR ||| IDE_SR_DF) ≠ 0 then
            (⟨-1, storedAt MACKEREL_30 buf memory s words⟩,
              (readError drive (behind drive bus found words)).2)
          else readFrom drive MACKEREL_30 buf sectors (s + 1) (storedAt MACKEREL_30 buf memory s words)
            (behind drive bus found words) := by
  have poll := pollStatus_run drive dataVerdict IDE_TIMEOUT_DRQ bus
  simp only [dataVerdict_ne_none] at poll
  rcases poll with ⟨found, result, first, decided, ran⟩ | ⟨never, ran⟩
  · by_cases drq : drive.status found &&& IDE_SR_DRQ = 0
    · have failed : result = false := by
        rw [dataVerdict, if_neg (not_not_intro drq)] at decided
        split at decided
        · exact (Option.some.inj decided).symm
        · cases decided
      have lower := first.lower
      have upper := first.upper
      refine .inl ⟨found - bus.statuses + 1, by omega, fun other another => ?_, ?_⟩
      · rw [← first.unique another]
        exact drq
      · rw [readFrom, bind_run, ideWaitForDataReady, ran, failed, if_pos rfl, pure_run]
    · have passed : result = true := by
        rw [dataVerdict, if_pos drq] at decided
        exact (Option.some.inj decided).symm
      obtain ⟨words, size, sector⟩ :=
        readWords_run drive 256 (polled drive (found - bus.statuses + 1) bus)
      refine .inr ⟨found, words, first, drq, size, ?_⟩
      have next : bus.statuses + (found - bus.statuses + 1) = found + 1 := by
        have lower := first.lower
        omega
      have status : readStatus drive
          { accesses := (polled drive (found - bus.statuses + 1) bus).accesses ++ words.map .data
            statuses := found + 1
            words := bus.words + 256 } = (drive.status (found + 1), behind drive bus found words) := rfl
      rw [readFrom, bind_run, ideWaitForDataReady, ran, passed, if_neg (by simp), bind_run,
        readSectorInternal, sector, polled_statuses, polled_words, next, bind_run, status]
      by_cases wrong : drive.status (found + 1) &&& (IDE_SR_ERR ||| IDE_SR_DF) ≠ 0
      · rw [if_pos wrong, if_pos wrong]
        rfl
      · rw [if_neg wrong, if_neg wrong]
        rfl
  · refine .inl ⟨IDE_TIMEOUT_DRQ, Nat.le_refl _, fun found first => absurd ⟨found, first⟩ never, ?_⟩
    rw [readFrom, bind_run, ideWaitForDataReady, ran, if_pos rfl, pure_run]

variable (memory : Memory 32)

/-- The sectors of a call, from `accesses` on: they were offered, and success means that they are all
    there, without an error, and in order. -/
structure Served (count : Nat) (sectors : List (List Word)) (outcome : ReadResult × Bus) : Prop where
  runs : Runs outcome.2.accesses sectors
  offered : outcome.2.accesses.IsChain Access.Offers
  result : outcome.1.result = 0 ∨ outcome.1.result = -1
  succeeds : outcome.1.result = 0 ↔ sectors.length = count ∧ outcome.2.accesses.IsChain Access.Clean
  stored : outcome.1.result = 0 →
    outcome.1.memory = memory.storeBytes buf (sectors.flatten.flatMap (Ide.stored MACKEREL_30))

variable {drive MACKEREL_30 buf memory} {sectors : List (List Word)} {bus : Bus} {count : Nat}

theorem Served.failed {outcome : ReadResult × Bus} (runs : Runs outcome.2.accesses sectors)
    (offered : outcome.2.accesses.IsChain Access.Offers) (failed : outcome.1.result = -1)
    (why : sectors.length = count → ¬outcome.2.accesses.IsChain Access.Clean) :
    Served MACKEREL_30 buf memory count sectors outcome where
  runs := runs
  offered := offered
  result := .inr failed
  succeeds := by
    rw [failed]
    exact iff_of_false (by decide) fun ⟨all, clean⟩ => why all clean
  stored zero := by
    rw [failed] at zero
    exact absurd zero (by decide)

theorem stored_length (words : List Word) :
    (words.flatMap (stored MACKEREL_30)).length = 2 * words.length := by
  induction words with
  | nil => rfl
  | cons word words ih =>
      rw [List.flatMap_cons, List.length_append, ih, List.length_cons]
      simp [stored]
      omega

theorem flatten_length (sizes : ∀ words ∈ sectors, words.length = 256) :
    sectors.flatten.length = 256 * sectors.length := by
  induction sectors with
  | nil => rfl
  | cons words sectors ih =>
      have rest := ih fun sector member => sizes sector (List.mem_cons_of_mem _ member)
      rw [List.flatten_cons, List.length_append, sizes words List.mem_cons_self, rest, List.length_cons]
      omega

theorem storedAt_append {words : List Word} (runs : Runs bus.accesses sectors) (size : words.length = 256)
    (fits : sectors.length < 256) :
    storedAt MACKEREL_30 buf (memory.storeBytes buf (sectors.flatten.flatMap (stored MACKEREL_30)))
        sectors.length words =
      memory.storeBytes buf ((sectors ++ [words]).flatten.flatMap (stored MACKEREL_30)) := by
  have total : sectors.flatten.length = 256 * sectors.length := flatten_length runs.sizes
  have before : (sectors.flatten.flatMap (stored MACKEREL_30)).length = sectors.length * 512 := by
    rw [stored_length, total]
    omega
  have next : (words.flatMap (stored MACKEREL_30)).length = 512 := by rw [stored_length, size]
  rw [storedAt, ← before, Memory.storeBytes_append (by omega), List.flatten_append, List.flatMap_append,
    List.flatten_singleton]

variable (MACKEREL_30 buf memory) in
/-- The loop, behind sectors that were read without an error. -/
theorem readFrom_served (left : Nat) (honest : HonestFrom drive left bus.statuses)
    (good : Good bus.accesses sectors) (bound : sectors.length + left < 256) :
    ∃ all, Served MACKEREL_30 buf memory (sectors.length + left) all
      (readFrom drive MACKEREL_30 buf left sectors.length
        (memory.storeBytes buf (sectors.flatten.flatMap (stored MACKEREL_30))) bus) := by
  induction left generalizing bus sectors with
  | zero =>
      exact ⟨sectors, good.runs, good.offered, .inl rfl, iff_of_true rfl ⟨rfl, good.clean⟩,
        fun _ => rfl⟩
  | succ left ih =>
      rcases readFrom_turn drive MACKEREL_30 buf left sectors.length
        (memory.storeBytes buf (sectors.flatten.flatMap (stored MACKEREL_30))) bus with
        ⟨count, _, _, ran⟩ | ⟨found, words, first, drq, size, ran⟩
      · have polled := polled_good drive count good
        rw [ran]
        exact ⟨sectors, .failed polled.runs polled.offered rfl fun all => by omega⟩
      · obtain ⟨idle, rest⟩ := honest found first drq
        have place : bus.statuses + (found - bus.statuses) = found := by
          have lower := first.lower
          omega
        have last := polled_last drive (found - bus.statuses) bus
        rw [place] at last
        have sector := (polled_good drive (found - bus.statuses + 1) good).sector last idle drq size
          (drive.status (found + 1))
        rw [ran]
        by_cases clean : drive.status (found + 1) &&& (IDE_SR_ERR ||| IDE_SR_DF) = 0
        · have left_honest : HonestFrom drive left (behind drive bus found words).statuses := rest clean
          have next := ih left_honest (sector.good clean) (by rw [List.length_append, List.length_singleton]; omega)
          have count : (sectors ++ [words]).length + left = sectors.length + (left + 1) := by
            rw [List.length_append, List.length_singleton]
            omega
          rw [if_neg (not_not_intro clean), storedAt_append good.runs size (by omega)]
          rw [count, List.length_append, List.length_singleton] at next
          exact next
        · rw [if_pos clean]
          refine ⟨sectors ++ [words], .failed (.other _ _ _ sector.runs id) ?_ rfl fun _ chain => ?_⟩
          · exact sector.offered.append (.singleton _) fun first _ second head => by
              obtain rfl : Access.error drive.error = second := by simpa using head
              exact first.offers_other id
          · exact clean (sector.clean.mp chain.left_of_append)

theorem polled_extends (count : Nat) : bus.accesses <+: (polled drive count bus).accesses := by
  induction count with
  | zero => exact List.prefix_rfl
  | succ count ih =>
      rw [polled_succ]
      exact ih.trans (List.prefix_append _ _)

theorem behind_extends (drive : Drive) (bus : Bus) (found : Nat) (words : List Word) :
    bus.accesses <+: (behind drive bus found words).accesses :=
  (polled_extends _).trans ((List.prefix_append _ _).trans (List.prefix_append _ _))

variable (drive MACKEREL_30 buf) in
theorem readFrom_extends (left s : Nat) (memory : Memory 32) (bus : Bus) :
    bus.accesses <+: (readFrom drive MACKEREL_30 buf left s memory bus).2.accesses := by
  induction left generalizing s memory bus with
  | zero => exact List.prefix_rfl
  | succ left ih =>
      rcases readFrom_turn drive MACKEREL_30 buf left s memory bus with
        ⟨count, _, _, ran⟩ | ⟨found, words, _, _, _, ran⟩
      · rw [ran]
        exact polled_extends count
      · rw [ran]
        have extends_ := behind_extends drive bus found words
        split
        · exact extends_.trans (List.prefix_append _ _)
        · exact extends_.trans (ih _ _ _)

/-- The status before the sector is the one that was found. -/
theorem idle_of_offered {found : Nat} {words : List Word} (reached : bus.statuses ≤ found)
    (size : words.length = 256) (offered : (behind drive bus found words).accesses.IsChain Access.Offers) :
    drive.status found &&& IDE_SR_BSY = 0 := by
  have place : bus.statuses + (found - bus.statuses) = found := by omega
  have last := polled_last drive (found - bus.statuses) bus
  rw [place] at last
  cases words with
  | nil => simp at size
  | cons word words =>
      have pair := (List.isChain_append.mp offered.left_of_append).2.2 _ last _ rfl
      exact pair.1

theorem readFrom_dishonest (left s : Nat) (memory : Memory 32) (bus : Bus)
    (dishonest : ¬HonestFrom drive left bus.statuses) :
    ¬(readFrom drive MACKEREL_30 buf left s memory bus).2.accesses.IsChain Access.Offers := by
  induction left generalizing s memory bus with
  | zero => exact absurd trivial dishonest
  | succ left ih =>
      rcases readFrom_turn drive MACKEREL_30 buf left s memory bus with
        ⟨count, _, none, _⟩ | ⟨found, words, first, drq, size, ran⟩
      · exact absurd (fun found first drq => absurd (none found first) drq) dishonest
      · rw [ran]
        intro chain
        have idle : drive.status found &&& IDE_SR_BSY = 0 := by
          refine idle_of_offered first.lower size ?_
          split at chain
          · exact chain.left_of_append
          · obtain ⟨later, extended⟩ := readFrom_extends drive MACKEREL_30 buf left (s + 1)
              (storedAt MACKEREL_30 buf memory s words) (behind drive bus found words)
            rw [← extended] at chain
            exact chain.left_of_append
        refine dishonest fun other another _ => ?_
        obtain rfl := first.unique another
        refine ⟨idle, fun clean => ?_⟩
        rw [if_neg (not_not_intro clean)] at chain
        by_contra left_dishonest
        exact ih _ _ _ left_dishonest chain

variable (drive MACKEREL_30 buf) in
theorem readFrom_length (left s : Nat) (memory : Memory 32) (bus : Bus) :
    (readFrom drive MACKEREL_30 buf left s memory bus).2.accesses.length ≤
      bus.accesses.length + left * (IDE_TIMEOUT_DRQ + 257) + 1 := by
  induction left generalizing s memory bus with
  | zero => exact Nat.le_add_right _ _
  | succ left ih =>
      rw [Nat.add_mul, Nat.one_mul]
      rcases readFrom_turn drive MACKEREL_30 buf left s memory bus with
        ⟨count, few, _, ran⟩ | ⟨found, words, first, _, size, ran⟩
      · rw [ran, polled_length]
        omega
      · have upper := first.upper
        have lower := first.lower
        have whole : (behind drive bus found words).accesses.length ≤
            bus.accesses.length + (IDE_TIMEOUT_DRQ + 257) := by
          simp only [behind, List.length_append, polled_length, List.length_map, size, List.length_singleton]
          omega
        rw [ran]
        split
        · rw [readError, List.length_append, List.length_singleton]
          exact Nat.succ_le_succ (whole.trans (Nat.add_le_add_left (Nat.le_add_left _ _) _))
        · refine (ih (s + 1) _ (behind drive bus found words)).trans (Nat.succ_le_succ ?_)
          rw [Nat.add_comm (left * _), ← Nat.add_assoc]
          exact Nat.add_le_add_right whole _

/-- What is claimed of a call. -/
structure Correct (MACKEREL_30 : Bool) (buf : BitVec 32) (memory : Memory 32) (count : Nat)
    (outcome : ReadResult × Bus) : Prop where
  served : ∃ sectors, Served MACKEREL_30 buf memory count sectors outcome
  finite : outcome.2.accesses.length ≤ IDE_TIMEOUT_READY + 7 + count * (IDE_TIMEOUT_DRQ + 257)

/-- The writes to the registers of the drive. -/
def commanded (lba : BitVec 32) (count : Byte) (bus : Bus) : Bus :=
  { bus with
    accesses := bus.accesses ++ [.write .driveSel 0xE0] ++ [.write .sectorCount count] ++
      [.write .sectorStart (lba.extractLsb' 0 8)] ++ [.write .lbaMid (lba.extractLsb' 8 8)] ++
      [.write .lbaHigh (lba.extractLsb' 16 8)] ++ [.write .command 0x20] }

theorem commanded_good {lba : BitVec 32} {count : Byte} (good : Good bus.accesses sectors) :
    Good (commanded lba count bus).accesses sectors :=
  (((((good.other id).other id).other id).other id).other id).other id

variable (drive MACKEREL_30 buf) in
/-- A call is the wait for the drive, and the loop. -/
theorem ideReadSectors_run (lba : BitVec 32) (count : Byte) (memory : Memory 32) :
    ((¬∃ found, First drive IsReady IDE_TIMEOUT_READY 0 found) ∧
        ideReadSectors drive MACKEREL_30 buf lba count memory .start =
          (⟨-1, memory⟩, polled drive IDE_TIMEOUT_READY .start)) ∨
      ∃ found, First drive IsReady IDE_TIMEOUT_READY 0 found ∧
        ideReadSectors drive MACKEREL_30 buf lba count memory .start =
          readFrom drive MACKEREL_30 buf count.toNat 0 memory
            (commanded lba count (polled drive (found + 1) .start)) := by
  have poll := pollStatus_run drive readyVerdict IDE_TIMEOUT_READY .start
  simp only [readyVerdict_ne_none] at poll
  rcases poll with ⟨found, result, first, decided, ran⟩ | ⟨never, ran⟩
  · have passed : result = true := by
      have ready : drive.status found &&& (IDE_SR_BSY ||| IDE_SR_DRDY) = IDE_SR_DRDY := first.passes
      rw [readyVerdict, if_pos ready] at decided
      exact (Option.some.inj decided).symm
    refine .inr ⟨found, first, ?_⟩
    rw [ideReadSectors, bind_run, ideWaitForDeviceReady, ran, passed, if_neg (by simp)]
    rfl
  · refine .inl ⟨never, ?_⟩
    rw [ideReadSectors, bind_run, ideWaitForDeviceReady, ran, if_pos rfl, pure_run]

theorem commanded_statuses (lba : BitVec 32) (count : Byte) (found : Nat) :
    (commanded lba count (polled drive (found + 1) .start)).statuses = found + 1 :=
  (polled_statuses drive (found + 1) .start).trans (Nat.zero_add _)

theorem ideReadSectors_served (lba : BitVec 32) {count : Byte} (some : count ≠ 0)
    (honest : Honest drive count.toNat) : ∃ sectors, Served MACKEREL_30 buf memory count.toNat sectors
      (ideReadSectors drive MACKEREL_30 buf lba count memory .start) := by
  have good_polled (reads : Nat) : Good (polled drive reads .start).accesses [] := polled_good drive reads good_start
  rcases ideReadSectors_run drive MACKEREL_30 buf lba count memory with ⟨_, ran⟩ | ⟨found, first, ran⟩
  · have positive : count.toNat ≠ 0 := fun zero => some (BitVec.eq_of_toNat_eq zero)
    have good := good_polled IDE_TIMEOUT_READY
    rw [ran]
    exact ⟨[], .failed good.runs good.offered rfl fun all => absurd all.symm positive⟩
  · have loop_honest : HonestFrom drive count.toNat
        (commanded lba count (polled drive (found + 1) .start)).statuses := by
      rw [commanded_statuses]
      exact honest found first
    have served := readFrom_served MACKEREL_30 buf memory count.toNat loop_honest
      (commanded_good (good_polled (found + 1)))
      (by rw [List.length_nil, Nat.zero_add]; exact count.isLt)
    rw [List.length_nil, Nat.zero_add, List.flatten_nil, List.flatMap_nil, Memory.storeBytes_nil] at served
    rw [ran]
    exact served

theorem ideReadSectors_dishonest (lba : BitVec 32) {count : Byte} (dishonest : ¬Honest drive count.toNat) :
    ¬(ideReadSectors drive MACKEREL_30 buf lba count memory .start).2.accesses.IsChain Access.Offers := by
  rcases ideReadSectors_run drive MACKEREL_30 buf lba count memory with ⟨never, _⟩ | ⟨found, first, ran⟩
  · exact absurd (fun found first => absurd ⟨found, first⟩ never) dishonest
  · rw [ran]
    refine readFrom_dishonest count.toNat 0 memory _ fun loop_honest => dishonest fun other another => ?_
    rw [commanded_statuses] at loop_honest
    rw [← first.unique another]
    exact loop_honest

theorem ideReadSectors_length (lba : BitVec 32) (count : Byte) :
    (ideReadSectors drive MACKEREL_30 buf lba count memory .start).2.accesses.length ≤
      IDE_TIMEOUT_READY + 7 + count.toNat * (IDE_TIMEOUT_DRQ + 257) := by
  rcases ideReadSectors_run drive MACKEREL_30 buf lba count memory with ⟨_, ran⟩ | ⟨found, first, ran⟩
  · rw [ran, polled_length]
    exact Nat.le_trans (Nat.le_of_eq (Nat.zero_add _)) (Nat.le_trans (Nat.le_add_right _ 7) (Nat.le_add_right _ _))
  · have upper : found < 0 + IDE_TIMEOUT_READY := first.upper
    have start : (commanded lba count (polled drive (found + 1) .start)).accesses.length = found + 1 + 6 := by
      simp only [commanded, List.length_append, polled_length, List.length_singleton]
      exact congrArg (· + 6) (Nat.zero_add _)
    have loop := readFrom_length drive MACKEREL_30 buf count.toNat 0 memory
      (commanded lba count (polled drive (found + 1) .start))
    rw [ran]
    rw [start] at loop
    generalize count.toNat * (IDE_TIMEOUT_DRQ + 257) = turns at loop ⊢
    omega

/-- A call reads only what is offered exactly if, in each wait, the first status that ends it does not
    show DRQ together with BSY. -/
theorem ideReadSectors_correct_iff (drive : Drive) (MACKEREL_30 : Bool) (buf lba : BitVec 32) (count : Byte)
    (memory : Memory 32) (some : count ≠ 0) :
    Correct MACKEREL_30 buf memory count.toNat
        (ideReadSectors drive MACKEREL_30 buf lba count memory .start) ↔
      Honest drive count.toNat := by
  constructor
  · intro correct
    by_contra dishonest
    obtain ⟨sectors, served⟩ := correct.served
    exact ideReadSectors_dishonest lba dishonest served.offered
  · intro honest
    exact ⟨ideReadSectors_served lba some honest, ideReadSectors_length lba count⟩

/-- A drive that has always a sector to offer. -/
def readyDrive : Drive where
  status _ := IDE_SR_DRDY ||| IDE_SR_DRQ
  data _ := 0
  error := 0

theorem readyDrive_correct : Correct true 0x10000 (fun _ => 0x55) 2
    (ideReadSectors readyDrive true 0x10000 0 2 (fun _ => 0x55) .start) := by
  have idle : (IDE_SR_DRDY ||| IDE_SR_DRQ) &&& IDE_SR_BSY = 0 := rfl
  refine (ideReadSectors_correct_iff readyDrive true 0x10000 0 2 _ (by decide)).mpr fun _ _ => ?_
  exact fun _ _ _ => ⟨idle, fun _ _ _ _ => ⟨idle, fun _ => trivial⟩⟩

/-- A drive that shows DRQ while it is busy with the command. -/
def busyDrive : Drive where
  status read := if read = 0 then IDE_SR_DRDY else IDE_SR_BSY ||| IDE_SR_DRQ
  data _ := 0
  error := 0

theorem busyDrive_not_correct : ¬Correct false 0x10000 (fun _ => 0x55) 1
    (ideReadSectors busyDrive false 0x10000 0 1 (fun _ => 0x55) .start) := by
  intro correct
  obtain ⟨sectors, served⟩ := correct.served
  have ready : First busyDrive IsReady IDE_TIMEOUT_READY 0 0 :=
    ⟨Nat.le_refl 0, by decide, rfl, fun k _ upper => by omega⟩
  have signal : First busyDrive Signals IDE_TIMEOUT_DRQ 1 1 :=
    ⟨Nat.le_refl 1, by decide, by simp [Signals, busyDrive, IDE_SR_BSY, IDE_SR_DRQ, IDE_SR_ERR, IDE_SR_DF],
      fun k lower upper => by omega⟩
  have dishonest : ¬Honest busyDrive 1 := by
    intro honest
    have idle := (honest 0 ready 1 signal (by simp [busyDrive, IDE_SR_BSY, IDE_SR_DRQ])).1
    simp [busyDrive, IDE_SR_BSY, IDE_SR_DRQ] at idle
  exact ideReadSectors_dishonest 0 dishonest served.offered

end Mackerel.Ide
