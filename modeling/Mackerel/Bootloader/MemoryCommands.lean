import Mackerel.Loops.Tasks
import Mathlib.Algebra.Group.Nat.Defs

namespace Mackerel.Bootloader

open Loops

/-! The commands that test and clear memory, by the accesses that they make; without their console
output. -/

/-- An access of `width` bytes. A write has a value. -/
structure Access where
  addr : BitVec 32
  width : Nat
  written : Option (BitVec 32)
deriving DecidableEq

/-- What a read gives, by the accesses before it: a memory with any contents and any faults. -/
abbrev Ram := List Access → BitVec 32

abbrev Bus := StateM (List Access)

def readAt (ram : Ram) (addr : BitVec 32) (width : Nat) : Bus (BitVec 32) := fun log =>
  (BitVec.ofNat 32 ((ram log).toNat % 2 ^ (8 * width)), log ++ [{ addr, width, written := none }])

def writeAt (addr : BitVec 32) (width : Nat) (value : BitVec 32) : Bus Unit := fun log =>
  ((), log ++ [{ addr, width, written := some value }])

/-- How a command ends, if it does. -/
inductive Ending where
  | returned
  | dividedByZero
deriving DecidableEq

abbrev MemoryTask (α : Type) := Task (List Access) α

/-- What the memory tests differ in: the width, what is written to an address, whether it is read
    again after the write, and whether a wrong value is read again for the message. -/
structure MemTest where
  width : Nat
  value : BitVec 32 → BitVec 32
  echoes : Bool
  repeats : Bool

section Tests

variable (ram : Ram) (test : MemTest) (stop : BitVec 32)

def readIf (condition : Bool) (addr : BitVec 32) : Bus Unit :=
  if condition then do
    let _ ← readAt ram addr test.width
    pure ()
  else pure ()

/-- The body of the loop that writes. -/
def fillTurn (i : BitVec 32) : Bus (BitVec 32 ⊕ Unit) :=
  if i < stop then do
    writeAt i test.width (test.value i)
    readIf ram test test.echoes i
    pure (.inl (i + BitVec.ofNat 32 test.width))
  else pure (.inr ())

/-- The body of the loop that compares. -/
def compareTurn (i : BitVec 32) : Bus (BitVec 32 ⊕ Unit) :=
  if i < stop then do
    let got ← readAt ram i test.width
    readIf ram test (test.repeats && got != test.value i) i
    pure (.inl (i + BitVec.ofNat 32 test.width))
  else pure (.inr ())

def memtest (start : BitVec 32) : MemoryTask Ending := do
  Task.loop (fillTurn ram test stop) start
  Task.loop (compareTurn ram test stop) start
  pure .returned

end Tests

def memtest8 (ram : Ram) (start size : BitVec 32) (target : BitVec 8) : MemoryTask Ending :=
  memtest ram { width := 1, value := fun _ => target.setWidth 32, echoes := false, repeats := true }
    (start + size) start

def memtest16 (ram : Ram) (start size : BitVec 32) (target : BitVec 16) : MemoryTask Ending :=
  memtest ram { width := 2, value := fun _ => target.setWidth 32, echoes := false, repeats := true }
    (start + 2 * (size / 2)) start

/-- The value is the address; it is read again for the dots. -/
def memtest32 (ram : Ram) (start size : BitVec 32) : MemoryTask Ending :=
  memtest ram { width := 4, value := id, echoes := true, repeats := false }
    (start + 4 * (size / 4)) start

/-- `p[0] = 0; p[1] = 0; ...` -/
def storeZeros (p : BitVec 32) : (count : Nat) → Bus Unit
  | 0 => pure ()
  | count + 1 => do
      storeZeros p count
      writeAt (p + BitVec.ofNat 32 (4 * count)) 4 0

/-- The loop with eight stores; it leaves `p` and `n` to the next one. -/
def zeroEightTurn : BitVec 32 × BitVec 32 → Bus ((BitVec 32 × BitVec 32) ⊕ (BitVec 32 × BitVec 32))
  | (p, n) =>
      if 8 ≤ n then do
        storeZeros p 8
        pure (.inl (p + 32, n - 8))
      else pure (.inr (p, n))

def zeroWordTurn : BitVec 32 × BitVec 32 → Bus ((BitVec 32 × BitVec 32) ⊕ Unit)
  | (p, n) =>
      if n ≠ 0 then do
        writeAt p 4 0
        pure (.inl (p + 4, n - 1))
      else pure (.inr ())

def zeroByteTurn (addr count i : BitVec 32) : Bus (BitVec 32 ⊕ Unit) :=
  if i < count then do
    writeAt (addr + i) 1 0
    pure (.inl (i + 1))
  else pure (.inr ())

def handlerZero (addr size : BitVec 32) : MemoryTask Ending := do
  let rest ← Task.loop zeroEightTurn (addr, size / 4)
  Task.loop zeroWordTurn rest
  Task.loop (zeroByteTurn (addr + (size &&& ~~~3)) (size &&& 3)) 0
  pure .returned

section Dtest

variable (ram : Ram) (addr n : BitVec 32)

/-- `p[i]`. -/
def slot (i : BitVec 32) : BitVec 32 := addr + i * 4

def patternTurn (i : BitVec 32) : Bus (BitVec 32 ⊕ Unit) :=
  if i < n then do
    writeAt (slot addr i) 4 (addr + i * 4)
    pure (.inl (i + 1))
  else pure (.inr ())

/-- The variables `k` and `seed`. -/
def randomTurn : Nat × BitVec 32 → Bus ((Nat × BitVec 32) ⊕ Ending)
  | (k, seed) =>
      if k < 1024 then
        let seed := seed * 1664525 + 1013904223
        if n = 0 then pure (.inr .dividedByZero)
        else do
          let _ ← readAt ram (slot addr (seed % n)) 4
          pure (.inl (k + 1, seed))
      else pure (.inr .returned)

def scanTurn (i : BitVec 32) : Bus (BitVec 32 ⊕ Unit) :=
  if i < n then do
    let _ ← readAt ram (slot addr i) 4
    pure (.inl (i + 1))
  else pure (.inr ())

def dtestSlots : MemoryTask Ending := do
  Task.loop (patternTurn addr n) 0
  match ← Task.loop (randomTurn ram addr n) (0, 0) with
  | .dividedByZero => pure .dividedByZero
  | .returned => do
      Task.loop (scanTurn ram addr n) 0
      pure .returned

end Dtest

def dtestAddr (addr : BitVec 32) : BitVec 32 := if addr = 0 then 0x1000 else addr

def dtestSize (size : BitVec 32) : BitVec 32 := if size = 0 then 0x200000 else size

def handlerDtest (ram : Ram) (addr size : BitVec 32) : MemoryTask Ending :=
  dtestSlots ram (dtestAddr addr &&& ~~~3) ((dtestSize size &&& ~~~3) / 4)

inductive MemoryCommand where
  | memtest8 (target : BitVec 8)
  | memtest16 (target : BitVec 16)
  | memtest32
  | zero
  | dtest

namespace MemoryCommand

def task (ram : Ram) (start size : BitVec 32) : MemoryCommand → MemoryTask Ending
  | memtest8 target => Bootloader.memtest8 ram start size target
  | memtest16 target => Bootloader.memtest16 ram start size target
  | memtest32 => Bootloader.memtest32 ram start size
  | zero => handlerZero start size
  | dtest => handlerDtest ram start size

/-- The start and the size, after a command has replaced them. -/
def first (start : BitVec 32) : MemoryCommand → Nat
  | dtest => (dtestAddr start).toNat
  | _ => start.toNat

def length (size : BitVec 32) : MemoryCommand → Nat
  | dtest => (dtestSize size).toNat
  | _ => size.toNat

end MemoryCommand

/-- All accesses are in the range. -/
def InRange (first length : Nat) (log : List Access) : Prop :=
  ∀ access ∈ log, first ≤ access.addr.toNat ∧ access.addr.toNat + access.width ≤ first + length

/-- The command stays in its range at every moment, and returns, without a division by zero. -/
structure Contained (ram : Ram) (command : MemoryCommand) (start size : BitVec 32) : Prop where
  inside : ∀ fuel, (command.task ram start size [] fuel).Satisfies
    (InRange (command.first start) (command.length size))
    fun outcome => InRange (command.first start) (command.length size) outcome.2
  returns : ∃ log count, ∀ fuel, count ≤ fuel → command.task ram start size [] fuel = .done (.returned, log)

end Mackerel.Bootloader
