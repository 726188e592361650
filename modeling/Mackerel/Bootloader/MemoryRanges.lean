import Mackerel.Bootloader.MemoryCommands

namespace Mackerel.Bootloader

open Device Loops

section Accesses

variable {ram : Ram} {first length width : Nat} {addr value : BitVec 32}

theorem InRange.push {log : List Access} {access : Access} (inside : InRange first length log)
    (low : first ≤ access.addr.toNat) (high : access.addr.toNat + access.width ≤ first + length) :
    InRange first length (log ++ [access]) := by
  intro other member
  rcases List.mem_append.mp member with earlier | last
  · exact inside other earlier
  · rw [List.mem_singleton.mp last]
    exact ⟨low, high⟩

theorem readAt_keeps (ram : Ram) (low : first ≤ addr.toNat) (high : addr.toNat + width ≤ first + length) :
    Keeps (InRange first length) (readAt ram addr width) :=
  fun _ inside => inside.push low high

theorem writeAt_keeps (value : BitVec 32) (low : first ≤ addr.toNat)
    (high : addr.toNat + width ≤ first + length) :
    Keeps (InRange first length) (writeAt addr width value) :=
  fun _ inside => inside.push low high

theorem readIf_keeps {test : MemTest} (ram : Ram) (condition : Bool) (low : first ≤ addr.toNat)
    (high : addr.toNat + test.width ≤ first + length) :
    Keeps (InRange first length) (readIf ram test condition addr) :=
  .ite (.bind (readAt_keeps ram low high) fun _ => .pure ()) (.pure ())

end Accesses

/-- An address at a distance behind another, below the end of the address space. -/
theorem toNat_add_ofNat {start : BitVec 32} {distance : Nat} (fits : start.toNat + distance < 2 ^ 32) :
    (start + BitVec.ofNat 32 distance).toNat = start.toNat + distance := by
  rw [BitVec.toNat_add, BitVec.toNat_ofNat, Nat.mod_eq_of_lt (by omega : distance < 2 ^ 32),
    Nat.mod_eq_of_lt fits]

section Tests

variable {ram : Ram} {test : MemTest} {start : BitVec 32} {count length : Nat}

/-- A pointer of a test: some elements behind the start. -/
def Pointer (test : MemTest) (start : BitVec 32) (count : Nat) (i : BitVec 32) : Prop :=
  ∃ index ≤ count, i = start + BitVec.ofNat 32 (test.width * index)

/-- What holds of a pointer before the end: it points to an element, and the next one is behind it. -/
structure Pointer.Element (test : MemTest) (start : BitVec 32) (count : Nat) (i : BitVec 32) : Prop where
  low : start.toNat ≤ i.toNat
  high : i.toNat + test.width ≤ start.toNat + test.width * count
  next : Pointer test start count (i + BitVec.ofNat 32 test.width)
  advance : (i + BitVec.ofNat 32 test.width).toNat = i.toNat + test.width

theorem Pointer.element {i : BitVec 32} (fits : start.toNat + test.width * count ≤ 2 ^ 32)
    (pointer : Pointer test start count i) (more : i < start + BitVec.ofNat 32 (test.width * count)) :
    Pointer.Element test start count i := by
  obtain ⟨index, within, rfl⟩ := pointer
  have below : index < count := by
    rcases Nat.lt_or_eq_of_le within with below | rfl
    · exact below
    · exact absurd more (BitVec.lt_irrefl _)
  have element := Nat.mul_le_mul_left test.width (Nat.succ_le_of_lt below)
  rw [Nat.mul_succ] at element
  -- a range up to the end of the address space ends at address 0, and no pointer is below that
  have inside : start.toNat + test.width * count < 2 ^ 32 := by
    rcases Nat.lt_or_eq_of_le fits with inside | whole
    · exact inside
    · have zero : (start + BitVec.ofNat 32 (test.width * count)).toNat = 0 := by
        rw [BitVec.toNat_add, BitVec.toNat_ofNat, Nat.add_mod_mod, whole, Nat.mod_self]
      have less := BitVec.lt_def.mp more
      omega
  have place : (start + BitVec.ofNat 32 (test.width * index)).toNat = start.toNat + test.width * index :=
    toNat_add_ofNat (by omega)
  have advance : (start + BitVec.ofNat 32 (test.width * index) + BitVec.ofNat 32 test.width).toNat =
      start.toNat + test.width * index + test.width := by
    rw [toNat_add_ofNat (by omega), place]
  refine ⟨by omega, by omega, ⟨index + 1, below, ?_⟩, by omega⟩
  rw [Nat.mul_succ, BitVec.ofNat_add, BitVec.add_assoc]

/-- A loop of a test, by what its body accesses at a pointer before the end. -/
theorem pointer_loop {body : BitVec 32 → Bus (BitVec 32 ⊕ Unit)} (access : BitVec 32 → Bus Unit)
    (wide : 0 < test.width) (fits : start.toNat + test.width * count ≤ 2 ^ 32)
    (within : test.width * count ≤ length)
    (shape : ∀ i, body i = if i < start + BitVec.ofNat 32 (test.width * count) then do
        access i
        pure (.inl (i + BitVec.ofNat 32 test.width))
      else pure (.inr ()))
    (accesses : ∀ i, start.toNat ≤ i.toNat → i.toNat + test.width ≤ start.toNat + length →
      Keeps (InRange start.toNat length) (access i)) :
    Task.Total (InRange start.toNat length) (fun _ => True) (Task.loop body start) := by
  apply Task.whileLoop_total (Pointer test start count)
    (fun i => (start + BitVec.ofNat 32 (test.width * count)).toNat - i.toNat)
    access (fun i => i + BitVec.ofNat 32 test.width) (fun _ => ()) shape
  case keeps =>
    intro i pointer more
    have element := pointer.element fits more
    have high := element.high
    exact accesses i element.low (by omega)
  case advance =>
    intro i pointer more
    have element := pointer.element fits more
    have less := BitVec.lt_def.mp more
    have advance := element.advance
    refine ⟨element.next, ?_⟩
    omega
  case ends => exact fun _ _ _ => trivial
  case begins => exact ⟨0, Nat.zero_le _, by rw [Nat.mul_zero]; exact (BitVec.add_zero start).symm⟩

/-- A test of elements that lie in the range. -/
theorem memtest_total (ram : Ram) (wide : 0 < test.width) (fits : start.toNat + test.width * count ≤ 2 ^ 32)
    (within : test.width * count ≤ length) :
    Task.Total (InRange start.toNat length) (· = .returned)
      (memtest ram test (start + BitVec.ofNat 32 (test.width * count)) start) := by
  have fill : Task.Total (InRange start.toNat length) (fun _ => True)
      (Task.loop (fillTurn ram test (start + BitVec.ofNat 32 (test.width * count))) start) := by
    apply pointer_loop (fun i => do
      writeAt i test.width (test.value i)
      readIf ram test test.echoes i) wide fits within fun _ => rfl
    intro i low high
    exact .bind (writeAt_keeps _ low high) fun _ => readIf_keeps ram _ low high
  have compare : Task.Total (InRange start.toNat length) (fun _ => True)
      (Task.loop (compareTurn ram test (start + BitVec.ofNat 32 (test.width * count))) start) := by
    apply pointer_loop (fun i => do
      let got ← readAt ram i test.width
      readIf ram test (test.repeats && got != test.value i) i) wide fits within fun _ => rfl
    intro i low high
    exact .bind (readAt_keeps ram low high) fun _ => readIf_keeps ram _ low high
  exact fill.bind fun _ _ => compare.bind fun _ _ => .pure rfl

end Tests

section Rounding

/-- The bytes of the whole units in a size. -/
theorem mul_udiv_eq (size : BitVec 32) {unit : Nat} (word : unit < 2 ^ 32) :
    BitVec.ofNat 32 unit * (size / BitVec.ofNat 32 unit) = BitVec.ofNat 32 (unit * (size.toNat / unit)) := by
  apply BitVec.eq_of_toNat_eq
  rw [BitVec.toNat_mul, BitVec.toNat_udiv, BitVec.toNat_ofNat, BitVec.toNat_ofNat, Nat.mod_eq_of_lt word]

/-- `& ~3`. -/
theorem toNat_and_not_three (value : BitVec 32) :
    (value &&& ~~~(3 : BitVec 32)).toNat = 4 * (value.toNat / 4) := by
  have masks : ∀ i < 32, (~~~(3 : BitVec 32)).getLsbD i = decide (2 ≤ i) := by decide
  have shifted : value &&& ~~~(3 : BitVec 32) = (value >>> 2) <<< 2 := by
    apply BitVec.eq_of_getLsbD_eq
    intro i bound
    rw [BitVec.getLsbD_and, masks i bound, BitVec.getLsbD_shiftLeft, BitVec.getLsbD_ushiftRight]
    grind
  have word := value.isLt
  rw [shifted, BitVec.toNat_shiftLeft, BitVec.toNat_ushiftRight, Nat.shiftRight_eq_div_pow,
    Nat.shiftLeft_eq]
  omega

/-- `& 3`. -/
theorem toNat_and_three (value : BitVec 32) : (value &&& 3).toNat = value.toNat % 4 := by
  rw [BitVec.toNat_and]
  exact Nat.and_two_pow_sub_one_eq_mod value.toNat 2

end Rounding

section Tests

variable {start size : BitVec 32}

theorem memtest8_total (ram : Ram) (target : BitVec 8) (fits : start.toNat + size.toNat ≤ 2 ^ 32) :
    Task.Total (InRange start.toNat size.toNat) (· = .returned) (memtest8 ram start size target) := by
  have stop : size = BitVec.ofNat 32 (1 * size.toNat) := by
    rw [Nat.one_mul, BitVec.ofNat_toNat, BitVec.setWidth_eq]
  have whole : 1 * size.toNat = size.toNat := Nat.one_mul _
  rw [memtest8]
  nth_rewrite 2 [stop]
  exact memtest_total ram Nat.one_pos (by dsimp only; omega) (by dsimp only; omega)

theorem memtest16_total (ram : Ram) (target : BitVec 16) (fits : start.toNat + size.toNat ≤ 2 ^ 32) :
    Task.Total (InRange start.toNat size.toNat) (· = .returned) (memtest16 ram start size target) := by
  have stop : 2 * (size / 2) = BitVec.ofNat 32 (2 * (size.toNat / 2)) := mul_udiv_eq size (by decide)
  have rounded : 2 * (size.toNat / 2) ≤ size.toNat := Nat.mul_div_le _ _
  rw [memtest16, stop]
  exact memtest_total ram Nat.two_pos (by dsimp only; omega) (by dsimp only; omega)

theorem memtest32_total (ram : Ram) (fits : start.toNat + size.toNat ≤ 2 ^ 32) :
    Task.Total (InRange start.toNat size.toNat) (· = .returned) (memtest32 ram start size) := by
  have stop : 4 * (size / 4) = BitVec.ofNat 32 (4 * (size.toNat / 4)) := mul_udiv_eq size (by decide)
  have rounded : 4 * (size.toNat / 4) ≤ size.toNat := Nat.mul_div_le _ _
  rw [memtest32, stop]
  exact memtest_total ram (by decide) (by dsimp only; omega) (by dsimp only; omega)

end Tests

section Zero

variable {start : BitVec 32} {units length : Nat}

theorem storeZeros_keeps {p : BitVec 32} (count : Nat) (low : start.toNat ≤ p.toNat)
    (high : p.toNat + 4 * count ≤ start.toNat + length) (fits : p.toNat + 4 * count ≤ 2 ^ 32) :
    Keeps (InRange start.toNat length) (storeZeros p count) := by
  induction count with
  | zero => exact .pure ()
  | succ count ih =>
      have place : (p + BitVec.ofNat 32 (4 * count)).toNat = p.toNat + 4 * count := toNat_add_ofNat (by omega)
      exact .bind (ih (by omega) (by omega)) fun _ => writeAt_keeps _ (by omega) (by omega)

/-- The variables of the first two loops: so many words are done, and `n` are left. -/
def ZeroAt (start : BitVec 32) (units : Nat) (vars : BitVec 32 × BitVec 32) : Prop :=
  ∃ done, vars.1 = start + BitVec.ofNat 32 (4 * done) ∧ done + vars.2.toNat = units

theorem ZeroAt.place {p n : BitVec 32} (fits : start.toNat + 4 * units ≤ 2 ^ 32)
    (at_ : ZeroAt start units (p, n)) (more : 0 < n.toNat) :
    start.toNat ≤ p.toNat ∧ p.toNat + 4 * n.toNat = start.toNat + 4 * units := by
  obtain ⟨done, place, left⟩ := at_
  dsimp only at place left
  rw [place, toNat_add_ofNat (by omega)]
  omega

theorem ZeroAt.advance {p n : BitVec 32} {step : Nat} (at_ : ZeroAt start units (p, n))
    (positive : 0 < step) (enough : step ≤ n.toNat) :
    ZeroAt start units (p + BitVec.ofNat 32 (4 * step), n - BitVec.ofNat 32 step) ∧
      (n - BitVec.ofNat 32 step).toNat < n.toNat := by
  obtain ⟨done, place, left⟩ := at_
  dsimp only at place left
  have bound := n.isLt
  have word : (BitVec.ofNat 32 step).toNat = step := by
    rw [BitVec.toNat_ofNat, Nat.mod_eq_of_lt (by omega)]
  have rest : (n - BitVec.ofNat 32 step).toNat = n.toNat - step := by
    rw [BitVec.toNat_sub_of_le (BitVec.le_def.mpr (by omega)), word]
  refine ⟨⟨done + step, ?_, ?_⟩, by omega⟩
  · rw [place, Nat.mul_add, BitVec.ofNat_add, ← BitVec.add_assoc]
  · dsimp only
    omega

theorem zeroEight_total (fits : start.toNat + 4 * units ≤ 2 ^ 32) (within : 4 * units ≤ length)
    {vars : BitVec 32 × BitVec 32} (begins : ZeroAt start units vars) :
    Task.Total (InRange start.toNat length) (ZeroAt start units) (Task.loop zeroEightTurn vars) := by
  apply Task.whileLoop_total (ZeroAt start units) (fun vars => vars.2.toNat)
    (fun vars => storeZeros vars.1 8) (fun vars => (vars.1 + 32, vars.2 - 8)) id fun _ => rfl
  case keeps =>
    intro ⟨p, n⟩ at_ more
    have eight : 8 ≤ n.toNat := BitVec.le_def.mp more
    obtain ⟨low, high⟩ := at_.place fits (by omega)
    exact storeZeros_keeps 8 low (by dsimp only; omega) (by dsimp only; omega)
  case advance => exact fun ⟨p, n⟩ at_ more => at_.advance (by decide : 0 < 8) (BitVec.le_def.mp more)
  case ends => exact fun _ at_ _ => at_
  case begins => exact begins

theorem zeroWord_total (fits : start.toNat + 4 * units ≤ 2 ^ 32) (within : 4 * units ≤ length)
    {vars : BitVec 32 × BitVec 32} (begins : ZeroAt start units vars) :
    Task.Total (InRange start.toNat length) (fun _ => True) (Task.loop zeroWordTurn vars) := by
  have positive : ∀ n : BitVec 32, n ≠ 0 → 0 < n.toNat := fun n nonzero =>
    Nat.pos_of_ne_zero fun zero => nonzero (BitVec.eq_of_toNat_eq zero)
  apply Task.whileLoop_total (ZeroAt start units) (fun vars => vars.2.toNat)
    (fun vars => writeAt vars.1 4 0) (fun vars => (vars.1 + 4, vars.2 - 1)) (fun _ => ()) fun _ => rfl
  case keeps =>
    intro ⟨p, n⟩ at_ more
    have one := positive n more
    obtain ⟨low, high⟩ := at_.place fits one
    exact writeAt_keeps 0 low (by dsimp only; omega)
  case advance => exact fun ⟨p, n⟩ at_ more => at_.advance Nat.one_pos (positive n more)
  case ends => exact fun _ _ _ => trivial
  case begins => exact begins

end Zero

/-- A loop `for (i = 0; i < n; i++)`, by what its body accesses. -/
theorem index_loop {first length : Nat} {body : BitVec 32 → Bus (BitVec 32 ⊕ Unit)} {n : BitVec 32}
    (access : BitVec 32 → Bus Unit)
    (shape : ∀ i, body i = if i < n then do
        access i
        pure (.inl (i + 1))
      else pure (.inr ()))
    (accesses : ∀ i, i < n → Keeps (InRange first length) (access i)) :
    Task.Total (InRange first length) (fun _ => True) (Task.loop body 0) := by
  apply Task.whileLoop_total (fun _ => True) (fun i => n.toNat - i.toNat) access (fun i => i + 1)
    (fun _ => ()) shape
  case keeps => exact fun i _ more => accesses i more
  case advance =>
    intro i _ more
    have less := BitVec.lt_def.mp more
    have bound := n.isLt
    have next : (i + 1).toNat = i.toNat + 1 := toNat_add_ofNat (by omega : i.toNat + 1 < 2 ^ 32)
    refine ⟨trivial, ?_⟩
    omega
  case ends => exact fun _ _ _ => trivial
  case begins => trivial

theorem handlerZero_total {start size : BitVec 32} (fits : start.toNat + size.toNat ≤ 2 ^ 32)
    (aligned : start.toNat % 4 = 0) :
    Task.Total (InRange start.toNat size.toNat) (· = .returned) (handlerZero start size) := by
  have units : start.toNat + 4 * (size.toNat / 4) ≤ 2 ^ 32 := by omega
  have within : 4 * (size.toNat / 4) ≤ size.toNat := by omega
  have begins : ZeroAt start (size.toNat / 4) (start, size / 4) :=
    ⟨0, (BitVec.add_zero start).symm, by rw [BitVec.toNat_udiv]; exact Nat.zero_add _⟩
  have tail : Task.Total (InRange start.toNat size.toNat) (fun _ => True)
      (Task.loop (zeroByteTurn (start + (size &&& ~~~3)) (size &&& 3)) 0) := by
    apply index_loop (fun i => writeAt (start + (size &&& ~~~3) + i) 1 0) fun _ => rfl
    intro i more
    have less := BitVec.lt_def.mp more
    rw [toNat_and_three] at less
    have words := toNat_and_not_three size
    have behind : (start + (size &&& ~~~(3 : BitVec 32))).toNat = start.toNat + 4 * (size.toNat / 4) := by
      rw [BitVec.toNat_add, words, Nat.mod_eq_of_lt (by omega)]
    have place : (start + (size &&& ~~~(3 : BitVec 32)) + i).toNat =
        start.toNat + 4 * (size.toNat / 4) + i.toNat := by
      rw [BitVec.toNat_add, behind, Nat.mod_eq_of_lt (by omega)]
    exact writeAt_keeps 0 (by omega) (by omega)
  exact (zeroEight_total units within begins).bind fun _ rest =>
    (zeroWord_total units within rest).bind fun _ _ => tail.bind fun _ _ => .pure rfl

section Dtest

variable {ram : Ram} {addr n : BitVec 32} {length : Nat}

theorem slot_toNat {i : BitVec 32} (fits : addr.toNat + 4 * i.toNat < 2 ^ 32) :
    (slot addr i).toNat = addr.toNat + 4 * i.toNat := by
  have four : (4 : BitVec 32).toNat = 4 := rfl
  rw [slot, BitVec.toNat_add, BitVec.toNat_mul, four, Nat.mod_eq_of_lt (by omega : i.toNat * 4 < 2 ^ 32),
    Nat.mod_eq_of_lt (by omega)]
  omega

theorem slot_inside {i : BitVec 32} (fits : addr.toNat + 4 * n.toNat ≤ 2 ^ 32) (within : 4 * n.toNat ≤ length)
    (more : i < n) : addr.toNat ≤ (slot addr i).toNat ∧
      (slot addr i).toNat + 4 ≤ addr.toNat + length := by
  have less := BitVec.lt_def.mp more
  rw [slot_toNat (by omega)]
  omega

theorem randomTurn_total (ram : Ram) (fits : addr.toNat + 4 * n.toNat ≤ 2 ^ 32)
    (within : 4 * n.toNat ≤ length) (slots : n ≠ 0) :
    Task.Total (InRange addr.toNat length) (· = .returned) (Task.loop (randomTurn ram addr n) (0, 0)) := by
  have positive : 0 < n := BitVec.lt_def.mpr
    (Nat.pos_of_ne_zero fun zero => slots (BitVec.eq_of_toNat_eq zero))
  have shape : ∀ vars, randomTurn ram addr n vars = if vars.1 < 1024 then do
        let _ ← readAt ram (slot addr ((vars.2 * 1664525 + 1013904223) % n)) 4
        pure (.inl (vars.1 + 1, vars.2 * 1664525 + 1013904223))
      else pure (.inr .returned) := by
    intro ⟨k, seed⟩
    dsimp only [randomTurn]
    rw [if_neg slots]
  apply Task.whileLoop_total (fun _ => True) (fun vars => 1024 - vars.1)
    (fun vars => do
      let _ ← readAt ram (slot addr ((vars.2 * 1664525 + 1013904223) % n)) 4
      pure ())
    (fun vars => (vars.1 + 1, vars.2 * 1664525 + 1013904223)) (fun _ => .returned) shape
  case keeps =>
    intro vars _ _
    have inside := slot_inside fits within (BitVec.umod_lt (vars.2 * 1664525 + 1013904223) positive)
    exact .bind (readAt_keeps ram inside.1 inside.2) fun _ => .pure _
  case advance =>
    intro vars _ more
    refine ⟨trivial, ?_⟩
    dsimp only
    omega
  case ends => exact fun _ _ _ => rfl
  case begins => trivial

theorem dtestSlots_total (ram : Ram) (fits : addr.toNat + 4 * n.toNat ≤ 2 ^ 32)
    (within : 4 * n.toNat ≤ length) (slots : n ≠ 0) :
    Task.Total (InRange addr.toNat length) (· = .returned) (dtestSlots ram addr n) := by
  have pattern : Task.Total (InRange addr.toNat length) (fun _ => True)
      (Task.loop (patternTurn addr n) 0) := by
    apply index_loop (fun i => writeAt (slot addr i) 4 (addr + i * 4)) fun _ => rfl
    intro i more
    have inside := slot_inside fits within more
    exact writeAt_keeps _ inside.1 inside.2
  have scan : Task.Total (InRange addr.toNat length) (fun _ => True) (Task.loop (scanTurn ram addr n) 0) := by
    apply index_loop (fun i => do
      let _ ← readAt ram (slot addr i) 4
      pure ()) fun _ => rfl
    intro i more
    have inside := slot_inside fits within more
    exact .bind (readAt_keeps ram inside.1 inside.2) fun _ => .pure _
  refine pattern.bind fun _ _ => (randomTurn_total ram fits within slots).bind fun ending returned => ?_
  subst returned
  exact scan.bind fun _ _ => .pure rfl

/-- Without a slot the first random index divides by zero. -/
theorem dtestSlots_divides (ram : Ram) (addr : BitVec 32) (fuel : Nat) :
    dtestSlots ram addr 0 [] (fuel + 1) = .done (.dividedByZero, []) := rfl

def patternAccess (addr : BitVec 32) (i : Nat) : Access where
  addr := slot addr (BitVec.ofNat 32 i)
  width := 4
  written := some (addr + BitVec.ofNat 32 i * 4)

/-- The first turns of the loop that writes the pattern. -/
theorem pattern_run (addr : BitVec 32) {turns : Nat} (within : turns ≤ n.toNat) :
    run (Task.turn (patternTurn addr n)) turns (0, []) =
      .again (BitVec.ofNat 32 turns, (List.range turns).map (patternAccess addr)) := by
  induction turns with
  | zero => rfl
  | succ turns ih =>
      have word := n.isLt
      have more : BitVec.ofNat 32 turns < n := by
        rw [BitVec.lt_def, BitVec.toNat_ofNat, Nat.mod_eq_of_lt (by omega)]
        omega
      rw [run_add (ih (by omega)), run, Task.turn, patternTurn, if_pos more, List.range_succ, List.map_append,
        BitVec.ofNat_add]
      rfl

/-- A pattern that goes on behind the end of the address space writes to address 0. -/
theorem dtestSlots_wraps (ram : Ram) (aligned : addr.toNat % 4 = 0) (slots : 2 ^ 32 < addr.toNat + 4 * n.toNat) :
    ∃ fuel log, dtestSlots ram addr n [] fuel = .again log ∧ ∃ access ∈ log, access.addr.toNat = 0 := by
  have bound := addr.isLt
  obtain ⟨last, behind⟩ : ∃ last, addr.toNat + 4 * last = 2 ^ 32 := ⟨(2 ^ 32 - addr.toNat) / 4, by omega⟩
  have place : (patternAccess addr last).addr.toNat = 0 := by
    have four : (4 : BitVec 32).toNat = 4 := rfl
    change (addr + BitVec.ofNat 32 last * 4).toNat = 0
    rw [BitVec.toNat_add, BitVec.toNat_mul, four, BitVec.toNat_ofNat]
    omega
  refine ⟨last + 1, (List.range (last + 1)).map (patternAccess addr), ?_, patternAccess addr last, ?_, place⟩
  · rw [dtestSlots, Task.bind_eq, Task.loop, pattern_run addr (by omega : last + 1 ≤ n.toNat)]
  · exact List.mem_map_of_mem (List.mem_range.mpr (Nat.lt_succ_self last))

end Dtest

/-- `dtest` needs a slot, and a range that the defaults do not carry behind the end of the address
    space; the other commands take any range. -/
def MemoryCommand.Sound (start size : BitVec 32) : MemoryCommand → Prop
  | .dtest => 4 ≤ (dtestSize size).toNat ∧
      (dtestAddr start).toNat + 4 * ((dtestSize size).toNat / 4) ≤ 2 ^ 32
  | _ => True

variable {ram : Ram} {command : MemoryCommand} {start size : BitVec 32}

theorem contained_of_total
    (total : Task.Total (InRange (command.first start) (command.length size)) (· = .returned)
      (command.task ram start size)) : Contained ram command start size := by
  have nothing : InRange (command.first start) (command.length size) [] := fun _ member => by cases member
  obtain ⟨⟨ending, log⟩, count, ended⟩ := total.returns [] nothing
  have kept := total.keeps [] nothing count
  rw [ended count (Nat.le_refl _)] at kept
  obtain ⟨rfl, -⟩ := kept
  refine ⟨fun fuel => ?_, log, count, ended⟩
  have moment := total.keeps [] nothing fuel
  cases ran : command.task ram start size [] fuel with
  | again middle =>
      rw [ran] at moment
      exact moment
  | done outcome =>
      rw [ran] at moment
      exact moment.2

theorem dtestAddr_aligned (aligned : start.toNat % 4 = 0) : (dtestAddr start).toNat % 4 = 0 := by
  unfold dtestAddr
  split
  · rfl
  · exact aligned

theorem dtest_first (aligned : start.toNat % 4 = 0) :
    dtestAddr start &&& ~~~3 = dtestAddr start := by
  apply BitVec.eq_of_toNat_eq
  have four := dtestAddr_aligned aligned
  rw [toNat_and_not_three]
  omega

theorem dtest_slots (size : BitVec 32) :
    ((dtestSize size &&& ~~~3) / 4).toNat = (dtestSize size).toNat / 4 := by
  have four : (4 : BitVec 32).toNat = 4 := rfl
  rw [BitVec.toNat_udiv, toNat_and_not_three, four]
  omega

theorem dtest_contained (ram : Ram) (aligned : start.toNat % 4 = 0)
    (sound : MemoryCommand.dtest.Sound start size) : Contained ram .dtest start size := by
  obtain ⟨some_slot, fits⟩ := sound
  have slots := dtest_slots size
  have nonzero : (dtestSize size &&& ~~~3) / 4 ≠ 0 := by
    intro zero
    rw [zero] at slots
    change 0 = _ at slots
    omega
  apply contained_of_total
  change Task.Total (InRange (dtestAddr start).toNat (dtestSize size).toNat) (· = .returned)
    (dtestSlots ram (dtestAddr start &&& ~~~3) ((dtestSize size &&& ~~~3) / 4))
  rw [dtest_first aligned]
  exact dtestSlots_total ram (by rw [slots]; exact fits) (by rw [slots]; omega) nonzero

theorem dtestAddr_pos (start : BitVec 32) : 0 < (dtestAddr start).toNat := by
  unfold dtestAddr
  split
  case isTrue => decide
  case isFalse nonzero => exact Nat.pos_of_ne_zero fun zero => nonzero (BitVec.eq_of_toNat_eq zero)

/-- Without a slot `dtest` divides by zero, and a range that goes on at address 0 is left. -/
theorem dtest_not_contained (ram : Ram) (aligned : start.toNat % 4 = 0)
    (unsound : ¬MemoryCommand.dtest.Sound start size) : ¬Contained ram .dtest start size := by
  intro ⟨inside, log, count, ended⟩
  have slots := dtest_slots size
  have task : MemoryCommand.dtest.task ram start size =
      dtestSlots ram (dtestAddr start) ((dtestSize size &&& ~~~3) / 4) := by
    rw [← dtest_first aligned]
    rfl
  rw [task] at inside ended
  by_cases some_slot : 4 ≤ (dtestSize size).toNat
  · have long : 2 ^ 32 < (dtestAddr start).toNat + 4 * ((dtestSize size).toNat / 4) :=
      Nat.lt_of_not_le fun fits => unsound ⟨some_slot, fits⟩
    rw [← slots] at long
    obtain ⟨fuel, reached, ran, access, member, zero⟩ :=
      dtestSlots_wraps ram (dtestAddr_aligned aligned) long
    have moment := inside fuel
    rw [ran] at moment
    have low : (dtestAddr start).toNat ≤ access.addr.toNat := (moment access member).1
    have positive := dtestAddr_pos start
    omega
  · have none_left : (dtestSize size &&& ~~~3) / 4 = 0 := by
      apply BitVec.eq_of_toNat_eq
      rw [slots]
      change _ = 0
      omega
    have returned := ended (count + 1) (Nat.le_succ count)
    rw [none_left, dtestSlots_divides] at returned
    cases returned

/-- A memory command stays in its range and returns, whatever the memory does, exactly if its range
    is sound. -/
theorem memory_command_contained_iff (ram : Ram) (command : MemoryCommand) (start size : BitVec 32)
    (aligned : start.toNat % 4 = 0) (fits : start.toNat + size.toNat ≤ 2 ^ 32) :
    Contained ram command start size ↔ command.Sound start size := by
  cases command with
  | memtest8 target => exact ⟨fun _ => trivial, fun _ => contained_of_total (memtest8_total ram target fits)⟩
  | memtest16 target => exact ⟨fun _ => trivial, fun _ => contained_of_total (memtest16_total ram target fits)⟩
  | memtest32 => exact ⟨fun _ => trivial, fun _ => contained_of_total (memtest32_total ram fits)⟩
  | zero => exact ⟨fun _ => trivial, fun _ => contained_of_total (handlerZero_total fits aligned)⟩
  | dtest =>
      refine ⟨fun contained => ?_, dtest_contained ram aligned⟩
      by_contra unsound
      exact dtest_not_contained ram aligned unsound contained

/-- `memtest16` on an odd size at the end of the address space. -/
theorem odd_size_contained :
    (0xFFFFFFF0 : BitVec 32).toNat % 4 = 0 ∧ (0xFFFFFFF0 : BitVec 32).toNat + (7 : BitVec 32).toNat ≤ 2 ^ 32 ∧
      Contained (fun _ => 0) (.memtest16 0xAABB) 0xFFFFFFF0 7 :=
  ⟨by decide, by decide, (memory_command_contained_iff _ _ _ _ (by decide) (by decide)).mpr trivial⟩

/-- `dtest 0x1000 3`. -/
theorem three_bytes_not_contained : ¬Contained (fun _ => 0) .dtest 0x1000 3 :=
  dtest_not_contained _ (by decide) fun sound => absurd sound.1 (by decide)

end Mackerel.Bootloader
