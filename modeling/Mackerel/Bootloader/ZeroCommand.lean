import Mackerel.Bootloader.MemoryRanges
import Mackerel.Bytes.Memory
import Mackerel.Loops.Computations

namespace Mackerel.Bootloader

open Bytes Bytes.Memory Loops

/-- The memory after an access; a store is big-endian. -/
def Access.apply (memory : Memory 32) (access : Access) : Memory 32 :=
  match access.written with
  | none => memory
  | some value =>
      memory.store access.addr access.width fun i => value.extractLsb' (8 * (access.width - 1 - i)) 8

def contents (memory : Memory 32) (log : List Access) : Memory 32 := log.foldl Access.apply memory

/-- The plain loop, with a zero for each byte. -/
def zeroBytes (addr size : BitVec 32) : MemoryTask Ending := do
  Task.loop (zeroByteTurn addr size) 0
  pure .returned

/-- Stores of zero, one behind the other. -/
def zeroStores (width : Nat) (start : BitVec 32) (count : Nat) : List Access :=
  (List.range count).map fun i => { addr := start + BitVec.ofNat 32 (width * i), width, written := some 0 }

section Stores

variable {memory : Memory 32} {start : BitVec 32} {width count : Nat}

theorem zeroStores_add (first second : Nat) :
    zeroStores width start (first + second) = zeroStores width start first ++
      zeroStores width (start + BitVec.ofNat 32 (width * first)) second := by
  simp [zeroStores, List.range_add, Nat.mul_add, BitVec.ofNat_add, BitVec.add_assoc]

theorem zeroStores_succ (count : Nat) : zeroStores width start (count + 1) =
    zeroStores width start count ++
      [{ addr := start + BitVec.ofNat 32 (width * count), width, written := some 0 }] := by
  simp [zeroStores, List.range_succ]

/-- Zeros behind zeros. -/
theorem store_zeros {first second : Nat} (fits : first + second ≤ 2 ^ 32) :
    (memory.store start first fun _ => 0).store (start + BitVec.ofNat 32 first) second (fun _ => 0) =
      memory.store start (first + second) fun _ => 0 := by
  rw [store_append fits]
  simp only [ite_self]

theorem contents_append (first second : List Access) :
    contents memory (first ++ second) = contents (contents memory first) second :=
  List.foldl_append

theorem contents_zeroStores (fits : width * count ≤ 2 ^ 32) :
    contents memory (zeroStores width start count) = memory.store start (width * count) fun _ => 0 := by
  induction count with
  | zero =>
      funext addr
      exact (store_outside (Nat.zero_le _)).symm
  | succ count ih =>
      rw [Nat.mul_succ] at fits
      rw [zeroStores_succ, contents_append, ih (by omega), Nat.mul_succ, ← store_zeros fits]
      simp [contents, Access.apply]

/-- A store below the end of the address space, by the addresses. -/
theorem store_zeros_apply (fits : start.toNat + count ≤ 2 ^ 32) (addr : BitVec 32) :
    memory.store start count (fun _ => 0) addr =
      if start.toNat ≤ addr.toNat ∧ addr.toNat < start.toNat + count then 0 else memory addr := by
  have distance : offset start addr = (2 ^ 32 - start.toNat + addr.toNat) % 2 ^ 32 :=
    BitVec.toNat_sub addr start
  have top := addr.isLt
  have inside : offset start addr < count ↔
      start.toNat ≤ addr.toNat ∧ addr.toNat < start.toNat + count := by
    omega
  rw [Memory.store]
  exact if_congr inside rfl rfl

end Stores

section Loops

variable {start base n : BitVec 32} {units : Nat} {log : List Access}

theorem storeZeros_eq (p : BitVec 32) (count : Nat) :
    storeZeros p count log = ((), log ++ zeroStores 4 p count) := by
  induction count with
  | zero =>
      rw [zeroStores, List.range_zero, List.map_nil, List.append_nil]
      rfl
  | succ count ih =>
      rw [zeroStores_succ, ← List.append_assoc]
      change writeAt _ 4 0 (storeZeros p count log).2 = _
      rw [ih]
      rfl

/-- The variables of the first two loops, when so many words are done. -/
def zeroPlace (start : BitVec 32) (units done : Nat) : BitVec 32 × BitVec 32 :=
  (start + BitVec.ofNat 32 (4 * done), BitVec.ofNat 32 (units - done))

theorem zeroPlace_left {done : Nat} (word : units < 2 ^ 32) :
    (zeroPlace start units done).2.toNat = units - done := by
  rw [zeroPlace, BitVec.toNat_ofNat, Nat.mod_eq_of_lt (by omega)]

theorem zeroPlace_advance {done step : Nat} (word : units < 2 ^ 32) (enough : done + step ≤ units) :
    ((zeroPlace start units done).1 + BitVec.ofNat 32 (4 * step),
      (zeroPlace start units done).2 - BitVec.ofNat 32 step) = zeroPlace start units (done + step) := by
  refine Prod.ext ?_ (BitVec.eq_of_toNat_eq ?_)
  · rw [zeroPlace, zeroPlace, Nat.mul_add, BitVec.ofNat_add, BitVec.add_assoc]
  · have steps : (BitVec.ofNat 32 step).toNat = step := by
      rw [BitVec.toNat_ofNat, Nat.mod_eq_of_lt (by omega)]
    have left : (zeroPlace start units done).2.toNat = units - done := zeroPlace_left word
    rw [zeroPlace_left word, BitVec.toNat_sub_of_le (BitVec.le_def.mpr (by omega)), left, steps]
    omega

theorem zeroEightTurn_eq (vars : BitVec 32 × BitVec 32) (log : List Access) :
    zeroEightTurn vars log =
      if 8 ≤ vars.2 then (.inl (vars.1 + 32, vars.2 - 8), log ++ zeroStores 4 vars.1 8)
      else (.inr vars, log) := by
  obtain ⟨p, n⟩ := vars
  rw [zeroEightTurn]
  split
  · change (Sum.inl _, (storeZeros p 8 log).2) = _
    rw [storeZeros_eq]
  · rfl

theorem zeroWordTurn_eq (vars : BitVec 32 × BitVec 32) (log : List Access) :
    zeroWordTurn vars log =
      if vars.2 ≠ 0 then
        (.inl (vars.1 + 4, vars.2 - 1), log ++ [{ addr := vars.1, width := 4, written := some 0 }])
      else (.inr (), log) := by
  obtain ⟨p, n⟩ := vars
  rw [zeroWordTurn]
  split <;> rfl

theorem zeroByteTurn_eq (i : BitVec 32) (log : List Access) :
    zeroByteTurn base n i log =
      if i < n then (.inl (i + 1), log ++ [{ addr := base + i, width := 1, written := some 0 }])
      else (.inr (), log) := by
  rw [zeroByteTurn]
  split <;> rfl

/-- The loop with eight stores does all whole eights. -/
theorem zeroEight_computes (word : units < 2 ^ 32) :
    (Task.loop zeroEightTurn (zeroPlace start units 0)).Computes []
      (zeroPlace start units (8 * (units / 8)), zeroStores 4 start (8 * (units / 8))) := by
  have goes : ∀ k, k < units / 8 → 8 ≤ (zeroPlace start units (8 * k)).2 ∧
      ((zeroPlace start units (8 * k)).1 + 32, (zeroPlace start units (8 * k)).2 - 8) =
        zeroPlace start units (8 * (k + 1)) := by
    intro k more
    refine ⟨?_, zeroPlace_advance word (by omega : 8 * k + 8 ≤ units)⟩
    rw [BitVec.le_def, zeroPlace_left word]
    change 8 ≤ _
    omega
  have makes : ∀ k, k < units / 8 →
      zeroStores 4 start (8 * k) ++ zeroStores 4 (zeroPlace start units (8 * k)).1 8 =
        zeroStores 4 start (8 * (k + 1)) :=
    fun k _ => (zeroStores_add (8 * k) 8).symm
  have ends : ¬8 ≤ (zeroPlace start units (8 * (units / 8))).2 := by
    rw [BitVec.le_def, zeroPlace_left word]
    change ¬8 ≤ _
    omega
  exact Task.computes_while zeroEightTurn_eq (fun k => zeroPlace start units (8 * k))
    (fun k => zeroStores 4 start (8 * k)) goes makes ends

/-- The next loop does the words that are left. -/
theorem zeroWord_computes {done : Nat} (word : units < 2 ^ 32) (within : done ≤ units) :
    (Task.loop zeroWordTurn (zeroPlace start units done)).Computes (zeroStores 4 start done)
      ((), zeroStores 4 start units) := by
  have whole : done + (units - done) = units := Nat.add_sub_of_le within
  have goes : ∀ k, k < units - done → (zeroPlace start units (done + k)).2 ≠ 0 ∧
      ((zeroPlace start units (done + k)).1 + 4, (zeroPlace start units (done + k)).2 - 1) =
        zeroPlace start units (done + (k + 1)) := by
    intro k more
    refine ⟨fun zero => ?_, zeroPlace_advance word (by omega : done + k + 1 ≤ units)⟩
    have left := @zeroPlace_left start units (done + k) word
    rw [zero] at left
    change 0 = _ at left
    omega
  have makes : ∀ k, k < units - done → zeroStores 4 start (done + k) ++
      [{ addr := (zeroPlace start units (done + k)).1, width := 4, written := some 0 }] =
        zeroStores 4 start (done + (k + 1)) :=
    fun k _ => (zeroStores_succ (done + k)).symm
  have ends : (zeroPlace start units (done + (units - done))).2 = 0 := by
    apply BitVec.eq_of_toNat_eq
    rw [zeroPlace_left word, whole]
    exact Nat.sub_self _
  have computed := Task.computes_while zeroWordTurn_eq (fun k => zeroPlace start units (done + k))
    (fun k => zeroStores 4 start (done + k)) goes makes (not_not_intro ends)
  rwa [whole] at computed

/-- A loop with a zero for each byte. -/
theorem zeroByte_computes (log : List Access) :
    (Task.loop (zeroByteTurn base n) 0).Computes log ((), log ++ zeroStores 1 base n.toNat) := by
  have word := n.isLt
  have index : ∀ k, k ≤ n.toNat → (BitVec.ofNat 32 k).toNat = k := by
    intro k within
    rw [BitVec.toNat_ofNat, Nat.mod_eq_of_lt (by omega)]
  have goes : ∀ k, k < n.toNat →
      BitVec.ofNat 32 k < n ∧ BitVec.ofNat 32 k + 1 = BitVec.ofNat 32 (k + 1) := by
    intro k more
    refine ⟨?_, (BitVec.ofNat_add k 1).symm⟩
    rw [BitVec.lt_def, index k (Nat.le_of_lt more)]
    exact more
  have makes : ∀ k, k < n.toNat →
      log ++ zeroStores 1 base k ++ [{ addr := base + BitVec.ofNat 32 k, width := 1, written := some 0 }] =
        log ++ zeroStores 1 base (k + 1) := by
    intro k _
    rw [zeroStores_succ, Nat.one_mul, List.append_assoc]
  have ends : ¬BitVec.ofNat 32 n.toNat < n := by
    rw [BitVec.lt_def, index n.toNat (Nat.le_refl _)]
    exact Nat.lt_irrefl _
  have computed := Task.computes_while zeroByteTurn_eq (BitVec.ofNat 32)
    (fun k => log ++ zeroStores 1 base k) goes makes ends
  rwa [show zeroStores 1 base 0 = [] from rfl, List.append_nil] at computed

variable {memory : Memory 32} {addr size : BitVec 32}

/-- The stores of the zero command: words first, and the last bytes behind them. -/
def zeroLog (addr size : BitVec 32) : List Access :=
  zeroStores 4 addr (size.toNat / 4) ++ zeroStores 1 (addr + (size &&& ~~~3)) (size.toNat % 4)

theorem handlerZero_computes (addr size : BitVec 32) :
    (handlerZero addr size).Computes [] (.returned, zeroLog addr size) := by
  have word : size.toNat / 4 < 2 ^ 32 := Nat.lt_of_le_of_lt (Nat.div_le_self _ _) size.isLt
  have eights : 8 * (size.toNat / 4 / 8) ≤ size.toNat / 4 := Nat.mul_div_le _ _
  have begins : (addr, size / 4) = zeroPlace addr (size.toNat / 4) 0 := by
    refine Prod.ext (BitVec.add_zero addr).symm (BitVec.eq_of_toNat_eq ?_)
    rw [zeroPlace_left word]
    exact BitVec.toNat_udiv
  have bytes : (Task.loop (zeroByteTurn (addr + (size &&& ~~~3)) (size &&& 3)) 0).Computes
      (zeroStores 4 addr (size.toNat / 4)) ((), zeroLog addr size) := by
    rw [zeroLog, ← toNat_and_three]
    exact zeroByte_computes _
  rw [handlerZero, begins]
  exact (zeroEight_computes word).bind <| (zeroWord_computes word eights).bind <| bytes.bind <|
    Task.computes_pure _

theorem zeroBytes_computes (addr size : BitVec 32) :
    (zeroBytes addr size).Computes [] (.returned, zeroStores 1 addr size.toNat) :=
  (zeroByte_computes []).bind (Task.computes_pure _)

theorem contents_zeroLog :
    contents memory (zeroLog addr size) = memory.store addr size.toNat fun _ => 0 := by
  have top := size.isLt
  have whole : 4 * (size.toNat / 4) + size.toNat % 4 = size.toNat := Nat.div_add_mod _ _
  have base : size &&& ~~~3 = BitVec.ofNat 32 (4 * (size.toNat / 4)) := by
    rw [← toNat_and_not_three, BitVec.ofNat_toNat, BitVec.setWidth_eq]
  rw [zeroLog, contents_append, contents_zeroStores (by omega), contents_zeroStores (by omega), base,
    Nat.one_mul, store_zeros (by omega), whole]

end Loops

/-- The zero command leaves zeros in its range and the other bytes as they were, as the plain loop does. -/
theorem handlerZero_eq_zeroBytes (addr size : BitVec 32) (fits : addr.toNat + size.toNat < 2 ^ 32) :
    ∃ log bytes, (handlerZero addr size).Computes [] (.returned, log) ∧
      (zeroBytes addr size).Computes [] (.returned, bytes) ∧
      ∀ memory : Memory 32, contents memory log = contents memory bytes ∧
        ∀ a, contents memory log a =
          if addr.toNat ≤ a.toNat ∧ a.toNat < addr.toNat + size.toNat then 0 else memory a := by
  refine ⟨zeroLog addr size, zeroStores 1 addr size.toNat, handlerZero_computes addr size,
    zeroBytes_computes addr size, fun memory => ⟨?_, fun a => ?_⟩⟩
  · rw [contents_zeroLog, contents_zeroStores (by omega), Nat.one_mul]
  · rw [contents_zeroLog, store_zeros_apply (by omega)]

/-- One turn with eight words, three single words and three bytes. -/
theorem zero_0x2F_bytes :
    (0x1000 : BitVec 32).toNat + (0x2F : BitVec 32).toNat < 2 ^ 32 ∧
      ∃ log bytes, (handlerZero 0x1000 0x2F).Computes [] (.returned, log) ∧
        (zeroBytes 0x1000 0x2F).Computes [] (.returned, bytes) ∧
        ∀ memory : Memory 32, contents memory log = contents memory bytes ∧
          ∀ a, contents memory log a =
            if (0x1000 : BitVec 32).toNat ≤ a.toNat ∧
                a.toNat < (0x1000 : BitVec 32).toNat + (0x2F : BitVec 32).toNat then 0
            else memory a :=
  ⟨by decide, handlerZero_eq_zeroBytes 0x1000 0x2F (by decide)⟩

end Mackerel.Bootloader
