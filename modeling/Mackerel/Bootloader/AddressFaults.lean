import Mackerel.Bootloader.MemoryRanges
import Mackerel.Loops.Computations
import Mackerel.Storage.Readback

namespace Mackerel.Bootloader.AddressTest

open Device Loops Storage

/-- The lines and dots that the test prints. -/
inductive Printed where
  /-- `32-bit Mem Test: %lX to %lX` -/
  | range (first last : BitVec 32)
  | writing
  | reading
  | dot
  /-- `Error at 0x%lX, expected 0x%lX, got 0x%lX` -/
  | error (place expected got : BitVec 32)
  | complete
deriving DecidableEq

def Printed.isError : Printed → Bool
  | error _ _ _ => true
  | _ => false

/-- A longword in each cell; what the test has accessed and printed. -/
structure Bench (κ : Type) where
  cells : κ → BitVec 32
  accesses : List Access
  printed : List Printed

variable {κ : Type}

def Bench.fresh (contents : κ → BitVec 32) : Bench κ := { cells := contents, accesses := [], printed := [] }

/-- The errors that were reported. -/
def Bench.errors (bench : Bench κ) : Nat := bench.printed.countP Printed.isError

def emit (line : Printed) : StateM (Bench κ) Unit := fun bench =>
  ((), { bench with printed := bench.printed ++ [line] })

def emitIf (condition : Bool) (line : Printed) : StateM (Bench κ) Unit :=
  if condition then emit line else pure ()

def print (line : Printed) : Task (Bench κ) Unit := monadLift (emit line : StateM (Bench κ) Unit)

section Test

variable [DecidableEq κ] (cell : BitVec 32 → κ)

/-- The address lines lead a read to a cell. -/
def read (addr : BitVec 32) : StateM (Bench κ) (BitVec 32) := fun bench =>
  (bench.cells (cell addr),
    { bench with accesses := bench.accesses ++ [{ addr, width := 4, written := none }] })

def write (addr value : BitVec 32) : StateM (Bench κ) Unit := fun bench =>
  ((), { bench with
    cells := Function.update bench.cells (cell addr) value
    accesses := bench.accesses ++ [{ addr, width := 4, written := some value }] })

variable (stop : BitVec 32)

/-- The body of the loop that writes: `*i = (uint32_t)i`. -/
def writeTurn (i : BitVec 32) : StateM (Bench κ) (BitVec 32 ⊕ Unit) :=
  if i < stop then do
    write cell i i
    let echo ← read cell i
    emitIf (echo % 0x10000 == 0) .dot
    pure (.inl (i + 4))
  else pure (.inr ())

/-- The body of the loop that reads. -/
def readTurn (i : BitVec 32) : StateM (Bench κ) (BitVec 32 ⊕ Unit) :=
  if i < stop then do
    let got ← read cell i
    emitIf (got != i) (.error i i got)
    emitIf (got % 0x10000 == 0) .dot
    pure (.inl (i + 4))
  else pure (.inr ())

def memtest32 (start size : BitVec 32) : Task (Bench κ) Unit := do
  print (.range start (start + size))
  print .writing
  Task.loop (writeTurn cell (start + 4 * (size / 4))) start
  print .reading
  Task.loop (readTurn cell (start + 4 * (size / 4))) start
  print .complete

end Test

/-- An address that the test takes. -/
def Tested (start size addr : BitVec 32) : Prop := ∃ k < size.toNat / 4, addr.toNat = start.toNat + 4 * k

/-- All of them, in their order. -/
def tested (start : BitVec 32) (count : Nat) : List (BitVec 32) :=
  (List.range count).map fun k => start + BitVec.ofNat 32 (4 * k)

section Addresses

variable {start size : BitVec 32} {count : Nat}

theorem tested_succ (count : Nat) :
    tested start (count + 1) = tested start count ++ [start + BitVec.ofNat 32 (4 * count)] := by
  rw [tested, List.range_succ, List.map_append]
  rfl

theorem mem_tested_iff (fits : start.toNat + size.toNat < 2 ^ 32) (addr : BitVec 32) :
    addr ∈ tested start (size.toNat / 4) ↔ Tested start size addr := by
  have place : ∀ k < size.toNat / 4, (start + BitVec.ofNat 32 (4 * k)).toNat = start.toNat + 4 * k :=
    fun k below => toNat_add_ofNat (by omega)
  rw [tested, List.mem_map]
  constructor
  · rintro ⟨k, member, rfl⟩
    have below := List.mem_range.mp member
    exact ⟨k, below, place k below⟩
  · rintro ⟨k, below, at_⟩
    exact ⟨k, List.mem_range.mpr below, BitVec.eq_of_toNat_eq ((place k below).trans at_.symm)⟩

/-- A loop over the tested addresses, by what its body makes of the state. -/
theorem tested_computes {σ : Type} {body : BitVec 32 → StateM σ (BitVec 32 ⊕ Unit)}
    (effect : σ → BitVec 32 → σ)
    (shape : ∀ i state, body i state =
      if i < start + BitVec.ofNat 32 (4 * count) then (.inl (i + 4), effect state i)
      else (.inr (), state))
    (fits : start.toNat + 4 * count < 2 ^ 32) (state : σ) :
    (Task.loop body start).Computes state ((), (tested start count).foldl effect state) := by
  have place : ∀ k ≤ count, (start + BitVec.ofNat 32 (4 * k)).toNat = start.toNat + 4 * k :=
    fun k within => toNat_add_ofNat (by omega)
  have goes : ∀ k, k < count →
      start + BitVec.ofNat 32 (4 * k) < start + BitVec.ofNat 32 (4 * count) ∧
        start + BitVec.ofNat 32 (4 * k) + 4 = start + BitVec.ofNat 32 (4 * (k + 1)) := by
    intro k more
    constructor
    · rw [BitVec.lt_def, place k (Nat.le_of_lt more), place count (Nat.le_refl _)]
      omega
    · rw [Nat.mul_succ, BitVec.ofNat_add, ← BitVec.add_assoc]
      rfl
  have makes : ∀ k, k < count →
      effect ((tested start k).foldl effect state) (start + BitVec.ofNat 32 (4 * k)) =
        (tested start (k + 1)).foldl effect state := by
    intro k _
    rw [tested_succ, List.foldl_append]
    rfl
  have computed := Task.computes_while shape (fun k => start + BitVec.ofNat 32 (4 * k))
    (fun k => (tested start k).foldl effect state) goes makes (BitVec.lt_irrefl _)
  rwa [show start + BitVec.ofNat 32 (4 * 0) = start from BitVec.add_zero start] at computed

end Addresses

def dots (value : BitVec 32) : List Printed := if value % 0x10000 = 0 then [.dot] else []

/-- What the test prints about a longword that it got from an address. -/
def report (i got : BitVec 32) : List Printed := (if got = i then [] else [.error i i got]) ++ dots got

def writeAccesses (i : BitVec 32) : List Access :=
  [{ addr := i, width := 4, written := some i }, { addr := i, width := 4, written := none }]

def readAccesses (i : BitVec 32) : List Access := [{ addr := i, width := 4, written := none }]

theorem dots_emitted (value : BitVec 32) (bench : Bench κ) :
    emitIf (value % 0x10000 == 0) .dot bench =
      ((), { bench with printed := bench.printed ++ dots value }) := by
  rw [emitIf, dots]
  by_cases multiple : value % 0x10000 = 0
  · rw [if_pos (beq_iff_eq.mpr multiple), if_pos multiple]
    rfl
  · rw [if_neg (mt beq_iff_eq.mp multiple), if_neg multiple, List.append_nil]
    rfl

theorem error_emitted (i got : BitVec 32) (bench : Bench κ) :
    emitIf (got != i) (.error i i got) bench =
      ((), { bench with printed := bench.printed ++ if got = i then [] else [.error i i got] }) := by
  rw [emitIf]
  by_cases same : got = i
  · rw [if_neg (by rw [bne_iff_ne, not_ne_iff]; exact same), if_pos same, List.append_nil]
    rfl
  · rw [if_pos (bne_iff_ne.mpr same), if_neg same]
    rfl

theorem countP_dots (value : BitVec 32) : (dots value).countP Printed.isError = 0 := by
  rw [dots]
  split <;> rfl

theorem countP_report (i got : BitVec 32) :
    (report i got).countP Printed.isError = if got = i then 0 else 1 := by
  rw [report, List.countP_append, countP_dots]
  split <;> rfl

theorem countP_flatMap_dots (addrs : List (BitVec 32)) : (addrs.flatMap dots).countP Printed.isError = 0 := by
  rw [List.countP_eq_zero]
  intro line member
  obtain ⟨value, _, printed⟩ := List.mem_flatMap.mp member
  exact List.countP_eq_zero.mp (countP_dots value) line printed

/-- An error for each address where something else is read. -/
theorem countP_flatMap_report (got : BitVec 32 → BitVec 32) (addrs : List (BitVec 32)) :
    (addrs.flatMap fun i => report i (got i)).countP Printed.isError = addrs.countP fun i => got i ≠ i := by
  induction addrs with
  | nil => rfl
  | cons i addrs ih =>
      rw [List.flatMap_cons, List.countP_append, ih, countP_report, List.countP_cons]
      by_cases same : got i = i <;> simp [same, Nat.add_comm]

section Passes

variable [DecidableEq κ] (cell : BitVec 32 → κ)

/-- What one turn of the first loop makes of the bench. -/
def wrote (bench : Bench κ) (i : BitVec 32) : Bench κ where
  cells := Function.update bench.cells (cell i) i
  accesses := bench.accesses ++ writeAccesses i
  printed := bench.printed ++ dots i

/-- The same of the second loop. -/
def compared (bench : Bench κ) (i : BitVec 32) : Bench κ where
  cells := bench.cells
  accesses := bench.accesses ++ readAccesses i
  printed := bench.printed ++ report i (bench.cells (cell i))

theorem writeTurn_eq (stop i : BitVec 32) (bench : Bench κ) :
    writeTurn cell stop i bench =
      if i < stop then (.inl (i + 4), wrote cell bench i) else (.inr (), bench) := by
  rw [writeTurn]
  split
  · simp only [bind_run, pure_run, write, read, dots_emitted, Function.update_self, List.append_assoc]
    rfl
  · rfl

omit [DecidableEq κ] in
theorem readTurn_eq (stop i : BitVec 32) (bench : Bench κ) :
    readTurn cell stop i bench =
      if i < stop then (.inl (i + 4), compared cell bench i) else (.inr (), bench) := by
  rw [readTurn]
  split
  · simp only [bind_run, pure_run, read, error_emitted, dots_emitted, List.append_assoc]
    rfl
  · rfl

/-- The pass that writes. -/
theorem wrote_all (bench : Bench κ) (addrs : List (BitVec 32)) :
    addrs.foldl (wrote cell) bench =
      { cells := writeAll cell id bench.cells addrs
        accesses := bench.accesses ++ addrs.flatMap writeAccesses
        printed := bench.printed ++ addrs.flatMap dots } := by
  induction addrs generalizing bench with
  | nil => simp [writeAll]
  | cons i addrs ih => simp [ih, wrote, writeAll]

omit [DecidableEq κ] in
/-- The pass that reads. -/
theorem compared_all (bench : Bench κ) (addrs : List (BitVec 32)) :
    addrs.foldl (compared cell) bench =
      { cells := bench.cells
        accesses := bench.accesses ++ addrs.flatMap readAccesses
        printed := bench.printed ++ addrs.flatMap fun i => report i (bench.cells (cell i)) } := by
  induction addrs generalizing bench with
  | nil => simp
  | cons i addrs ih => simp [ih, compared]

end Passes

section Results

variable [DecidableEq κ] (cell : BitVec 32 → κ) (contents : κ → BitVec 32) (start size : BitVec 32)

/-- The cells between the passes. -/
def written : κ → BitVec 32 := writeAll cell id contents (tested start (size.toNat / 4))

/-- The bench after the test. -/
def finished : Bench κ where
  cells := written cell contents start size
  accesses := (tested start (size.toNat / 4)).flatMap writeAccesses ++
    (tested start (size.toNat / 4)).flatMap readAccesses
  printed := [.range start (start + size), .writing] ++ (tested start (size.toNat / 4)).flatMap dots ++
    [.reading] ++ ((tested start (size.toNat / 4)).flatMap fun i =>
      report i (written cell contents start size (cell i))) ++ [.complete]

variable {start size}

theorem stop_eq (size : BitVec 32) : 4 * (size / 4) = BitVec.ofNat 32 (4 * (size.toNat / 4)) :=
  mul_udiv_eq size (by decide)

omit [DecidableEq κ] in
theorem print_computes (line : Printed) (bench : Bench κ) :
    (print line).Computes bench ((), { bench with printed := bench.printed ++ [line] }) :=
  Task.computes_lift _

theorem memtest32_computes (fits : start.toNat + size.toNat < 2 ^ 32) :
    (memtest32 cell start size).Computes (Bench.fresh contents) ((), finished cell contents start size) := by
  have rounded : 4 * (size.toNat / 4) ≤ size.toNat := Nat.mul_div_le _ _
  have inside : start.toNat + 4 * (size.toNat / 4) < 2 ^ 32 := by omega
  have writes := tested_computes (wrote cell) (writeTurn_eq cell _) inside
    ⟨contents, [], [.range start (start + size), .writing]⟩
  have reads := tested_computes (compared cell) (readTurn_eq cell _) inside
    ⟨written cell contents start size, (tested start (size.toNat / 4)).flatMap writeAccesses,
      [.range start (start + size), .writing] ++ (tested start (size.toNat / 4)).flatMap dots ++ [.reading]⟩
  rw [wrote_all] at writes
  rw [compared_all] at reads
  rw [memtest32, stop_eq]
  exact (print_computes _ _).bind <| (print_computes _ _).bind <| writes.bind <| (print_computes _ _).bind <|
    reads.bind <| print_computes _ _

/-- An error for each address whose cell has a longword of another one. -/
theorem errors_finished : (finished cell contents start size).errors =
    (tested start (size.toNat / 4)).countP fun i => written cell contents start size (cell i) ≠ i := by
  rw [Bench.errors, finished, List.countP_append, List.countP_append, List.countP_append,
    List.countP_append, countP_flatMap_dots, countP_flatMap_report]
  exact Nat.zero_add _

theorem errors_eq_zero_iff (fits : start.toNat + size.toNat < 2 ^ 32) :
    (finished cell contents start size).errors = 0 ↔ Set.InjOn cell {addr | Tested start size addr} := by
  have same : {addr | addr ∈ tested start (size.toNat / 4)} = {addr | Tested start size addr} :=
    Set.ext fun addr => mem_tested_iff fits addr
  have back : (∀ i ∈ tested start (size.toNat / 4), written cell contents start size (cell i) = i) ↔
      Set.InjOn cell {addr | addr ∈ tested start (size.toNat / 4)} := readback_id_iff
  rw [errors_finished, List.countP_eq_zero, ← same, ← back]
  simp only [decide_eq_true_eq, ne_eq, not_not]

end Results

/-- The test with the printed text makes the accesses of the one without it. -/
theorem memtest32_accesses [DecidableEq κ] (cell : BitVec 32 → κ) (contents : κ → BitVec 32)
    (ram : Ram) {start size : BitVec 32} (fits : start.toNat + size.toNat < 2 ^ 32) :
    (Bootloader.memtest32 ram start size).Computes []
      (.returned, (finished cell contents start size).accesses) := by
  have rounded : 4 * (size.toNat / 4) ≤ size.toNat := Nat.mul_div_le _ _
  have inside : start.toNat + 4 * (size.toNat / 4) < 2 ^ 32 := by omega
  have fill : ∀ stop i log,
      fillTurn ram { width := 4, value := id, echoes := true, repeats := false } stop i log =
        if i < stop then (.inl (i + 4), log ++ writeAccesses i) else (.inr (), log) := by
    intro stop i log
    rw [fillTurn]
    split
    · rw [writeAccesses, List.append_cons]
      rfl
    · rfl
  have compare : ∀ stop i log,
      compareTurn ram { width := 4, value := id, echoes := true, repeats := false } stop i log =
        if i < stop then (.inl (i + 4), log ++ readAccesses i) else (.inr (), log) := by
    intro stop i log
    rw [compareTurn]
    split <;> rfl
  have writes := tested_computes (fun log i => log ++ writeAccesses i) (fill _) inside []
  rw [List.foldl_append_eq_append, ← List.flatMap_def, List.nil_append] at writes
  have reads := tested_computes (fun log i => log ++ readAccesses i) (compare _) inside
    ((tested start (size.toNat / 4)).flatMap writeAccesses)
  rw [List.foldl_append_eq_append, ← List.flatMap_def] at reads
  rw [Bootloader.memtest32, stop_eq]
  exact writes.bind <| reads.bind <| Task.computes_pure _

/-- The test reports no error if every tested address has a cell of its own, and an error if two
    share one. -/
theorem memtest32_detects [DecidableEq κ] (cell : BitVec 32 → κ) (contents : κ → BitVec 32)
    (start size : BitVec 32) (fits : start.toNat + size.toNat < 2 ^ 32) :
    ∃ after : Bench κ, (memtest32 cell start size).Computes (Bench.fresh contents) ((), after) ∧
      (Set.InjOn cell {addr | Tested start size addr} → after.errors = 0) ∧
      ((∃ a b, Tested start size a ∧ Tested start size b ∧ a ≠ b ∧ cell a = cell b) → 1 ≤ after.errors) := by
  refine ⟨finished cell contents start size, memtest32_computes cell contents fits,
    (errors_eq_zero_iff cell contents fits).mpr, ?_⟩
  rintro ⟨a, b, aTested, bTested, distinct, shared⟩
  rw [Nat.one_le_iff_ne_zero]
  intro silent
  exact distinct ((errors_eq_zero_iff cell contents fits).mp silent aTested bTested shared)

/-- An address line that is stuck at 0. -/
theorem stuck_line_detected :
    (0x1000 : BitVec 32).toNat + (0x20 : BitVec 32).toNat < 2 ^ 32 ∧
      ∃ after : Bench (BitVec 32),
        (memtest32 (fun addr => addr &&& 0xFFFFFFF7) 0x1000 0x20).Computes (Bench.fresh fun _ => 0)
          ((), after) ∧ 1 ≤ after.errors := by
  obtain ⟨after, computed, _, detects⟩ :=
    memtest32_detects (fun addr => addr &&& 0xFFFFFFF7) (fun _ => 0) 0x1000 0x20 (by decide)
  refine ⟨by decide, after, computed, detects ⟨0x1000, 0x1008, ⟨0, ?_⟩, ⟨2, ?_⟩, ?_⟩⟩ <;> decide

end Mackerel.Bootloader.AddressTest
