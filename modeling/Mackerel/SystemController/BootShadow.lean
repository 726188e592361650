import Mackerel.Clocked.EventRuns
import Mackerel.M10.SystemController
import Mackerel.M30.SystemController

namespace Mackerel.BootShadow

open Clocked.EventRuns

/-- A board: its `boot_signal` and how its decoder reads `BOOT`. -/
structure Board where
  width : Nat
  bootCycleMax : Nat
  /-- ROM answers every strobed cycle, and nothing else is selected. -/
  RomOnly : Bool → Prop
  positive : 1 ≤ bootCycleMax
  counts : ∀ b : BitVec width, b.toNat ≤ bootCycleMax → (b + 1).toNat = b.toNat + 1
  romOnly_iff : ∀ boot, RomOnly boot ↔ boot = false

inductive Event where
  | asN (level : Bool)
  | resetN (level : Bool)

/-- `boot_signal` and its pins. `cycles` are the bus cycles begun since `RESET_n` was
    released. -/
structure System (board : Board) where
  signal : BootSignal board.width
  asN : Bool
  resetN : Bool
  cycles : Nat

variable {board : Board}

namespace System

def powerUp (board : Board) (asN : Bool) : System board :=
  { signal := .powerUp, asN, resetN := false, cycles := 0 }

def setAs (s : System board) (level : Bool) : System board :=
  { s with
    signal := if !s.asN && level then s.signal.posedge board.bootCycleMax s.resetN else s.signal
    asN := level
    cycles := if s.asN && !level then s.cycles + 1 else s.cycles }

def setReset (s : System board) (level : Bool) : System board :=
  { s with
    resetN := level
    cycles := if !s.resetN && level then 0 else s.cycles }

def step (s : System board) : Event → System board
  | .asN level => s.setAs level
  | .resetN level => s.setReset level

/-- The first `BOOT_CYCLE_MAX` bus cycles after a release of `RESET_n` see ROM only. -/
def Shadowed (s : System board) : Prop :=
  s.resetN = true → s.asN = false → 1 ≤ s.cycles → s.cycles ≤ board.bootCycleMax →
    board.RomOnly s.signal.boot

/-- The counted rises of `AS_n`, with the bus cycle in progress. -/
def counted (s : System board) : Nat := s.signal.busCycles.toNat + if s.asN then 0 else 1

/-- The shadow is armed: at most one bus cycle has been counted or is in progress. -/
def Rearmed (s : System board) : Prop := s.signal.boot = false ∧ s.counted ≤ 1

/-- While `BOOT` is low the counter has not passed `BOOT_CYCLE_MAX`. -/
def Bounded (s : System board) : Prop :=
  s.signal.boot = false → s.signal.busCycles.toNat ≤ board.bootCycleMax

variable {s : System board} {event : Event}

theorem posedge_booted (booted : s.signal.boot = true) :
    s.signal.posedge board.bootCycleMax true = s.signal := by
  simp [BootSignal.posedge, booted]

theorem posedge_counting (low : s.signal.boot = false) :
    s.signal.posedge board.bootCycleMax true =
      { busCycles := s.signal.busCycles + 1
        boot := decide (s.signal.busCycles.toNat = board.bootCycleMax) } := by
  by_cases last : s.signal.busCycles.toNat = board.bootCycleMax <;>
    simp [BootSignal.posedge, low, last]

theorem Bounded.step (bounded : s.Bounded) : (s.step event).Bounded := by
  cases event with
  | resetN level => exact bounded
  | asN level =>
      intro low
      simp only [step, setAs] at low ⊢
      split at low
      · rename_i rises
        rw [if_pos rises]
        cases resetN : s.resetN with
        | false => simp [BootSignal.posedge]
        | true =>
            cases booted : s.signal.boot with
            | true => simp [resetN, posedge_booted booted, booted] at low
            | false =>
                have before := bounded booted
                simp only [resetN, posedge_counting booted, decide_eq_false_iff_not] at low ⊢
                rw [board.counts _ before]
                omega
      · rename_i still
        rw [if_neg still]
        exact bounded low

theorem bounded_of_powerUp (asN : Bool) (events : List Event) :
    (after step (powerUp board asN) events).Bounded :=
  (always_of_step (P := Bounded) (fun _ => Nat.zero_le _) (fun _ _ => Bounded.step) events).last

/-- Since a release at which `q` had been counted. -/
structure Tracks (s : System board) (q : Nat) : Prop where
  counting : s.signal.boot = false → s.counted = q + s.cycles
  booted : s.signal.boot = true →
    board.bootCycleMax + 1 + (if s.asN then 0 else 1) ≤ q + s.cycles

theorem Tracks.step {q : Nat} (tracks : s.Tracks q) (bounded : s.Bounded)
    (released : s.resetN = true) (still : (s.step event).resetN = true) :
    (s.step event).Tracks q := by
  cases event with
  | resetN level =>
      have level : level = true := still
      exact ⟨by simpa [System.step, setReset, counted, level, released] using tracks.counting,
        by simpa [System.step, setReset, level, released] using tracks.booted⟩
  | asN level =>
      have counting := tracks.counting
      have booted := tracks.booted
      simp only [counted] at counting
      cases before : s.asN <;> cases level <;>
        simp only [before, Bool.false_eq_true, if_true, if_false] at counting booted
      · exact ⟨by simpa [System.step, setAs, counted, before] using counting,
          by simpa [System.step, setAs, before] using booted⟩
      · -- the end of a bus cycle
        have next : (s.setAs true).signal = s.signal.posedge board.bootCycleMax true := by
          simp [setAs, before, released]
        cases low : s.signal.boot with
        | true =>
            rw [posedge_booted low] at next
            have count := booted low
            exact ⟨fun absent => absurd ((congrArg BootSignal.boot next).symm.trans absent)
                (by simp [low]),
              fun _ => by simp [System.step, setAs, before]; omega⟩
        | false =>
            have count := counting low
            have room := bounded low
            rw [posedge_counting low] at next
            constructor
            · intro _
              simp only [System.step, counted, next, board.counts _ room]
              simp [setAs, before]
              omega
            · intro high
              simp only [System.step, next, decide_eq_true_eq] at high
              simp [System.step, setAs, before]
              omega
      · constructor
        · intro low
          have count := counting (by simpa [System.step, setAs, before] using low)
          simp [System.step, setAs, counted, before]
          omega
        · intro high
          have count := booted (by simpa [System.step, setAs, before] using high)
          simp [System.step, setAs, before]
          omega
      · exact ⟨by simpa [System.step, setAs, counted, before] using counting,
          by simpa [System.step, setAs, before] using booted⟩

theorem Tracks.of_release (low : s.signal.boot = false) (fresh : s.cycles = 0) :
    s.Tracks s.counted :=
  ⟨fun _ => by simp [fresh], fun high => absurd low (ne_false_of_eq_true high)⟩

abbrev Released (s : System board) (events : List Event) : Prop :=
  Always step s events fun s => s.resetN = true

theorem Tracks.run {q : Nat} {events : List Event} (tracks : s.Tracks q) (bounded : s.Bounded)
    (released : s.Released events) :
    (after System.step s events).Tracks q ∧ (after System.step s events).Bounded := by
  induction events using List.reverseRecOn with
  | nil => exact ⟨tracks, bounded⟩
  | append_singleton events event ih =>
      obtain ⟨earlier, now⟩ := always_concat.mp released
      obtain ⟨tracks, bounded⟩ := ih earlier
      rw [after_concat]
      exact ⟨tracks.step bounded earlier.last now, bounded.step⟩

theorem Tracks.shadowed {q : Nat} (tracks : s.Tracks q) (armed : q ≤ 1) : s.Shadowed := by
  intro _ low _ early
  rw [board.romOnly_iff]
  by_contra high
  have late := tracks.booted (by simpa using high)
  simp only [low, Bool.false_eq_true, if_false] at late
  omega

theorem boot_step (released : s.resetN = true) (booted : s.signal.boot = true) :
    (s.step event).signal.boot = true := by
  cases event with
  | resetN level => exact booted
  | asN level =>
      simp only [step, setAs, released]
      split
      · rw [posedge_booted booted, booted]
      · exact booted

theorem boot_run {events : List Event} (released : s.Released events)
    (booted : s.signal.boot = true) : (after step s events).signal.boot = true := by
  induction events using List.reverseRecOn with
  | nil => exact booted
  | append_singleton events event ih =>
      obtain ⟨earlier, _⟩ := always_concat.mp released
      rw [after_concat]
      exact boot_step earlier.last (ih earlier)

def edges (levels : List Bool) : List Event := levels.map .asN

theorem released_edges (released : s.resetN = true) (levels : List Bool) :
    s.Released (edges levels) := by
  induction levels using List.reverseRecOn with
  | nil => exact always_nil.mpr released
  | append_singleton levels level ih =>
      simp only [edges, List.map_append, List.map_cons, List.map_nil] at ih ⊢
      exact always_concat.mpr ⟨ih, ih.last⟩

/-- Bus cycles, up to the start of the last one. -/
theorem exists_cycles (s : System board) (count : Nat) : ∃ levels,
    (after step s (edges levels)).asN = false ∧
    (after step s (edges levels)).cycles = s.cycles + (count + 1) := by
  induction count with
  | zero => exact ⟨[true, false], by simp [edges, after, step, setAs]⟩
  | succ count ih =>
      obtain ⟨levels, low, cycles⟩ := ih
      refine ⟨levels ++ [true, false], ?_⟩
      simp only [edges, List.map_append, after_append] at low cycles ⊢
      simp [after, step, setAs] at low cycles ⊢
      omega

/-- Exactly when the bus cycles after a release see the shadow. -/
theorem shadowed_iff_rearmed (released : s.resetN = true) (fresh : s.cycles = 0)
    (bounded : s.Bounded) :
    (∀ levels, (after step s (edges levels)).Shadowed) ↔ s.Rearmed := by
  constructor
  · intro shadowed
    have low (levels : List Bool) (count : Nat) (asN : (after step s (edges levels)).asN = false)
        (cycles : (after step s (edges levels)).cycles = s.cycles + (count + 1))
        (early : count + 1 ≤ board.bootCycleMax) :
        (after step s (edges levels)).signal.boot = false :=
      (board.romOnly_iff _).mp (shadowed levels (released_edges released levels).last asN
        (by omega) (by omega))
    cases boot : s.signal.boot with
    | true =>
        obtain ⟨levels, asN, cycles⟩ := s.exists_cycles 0
        have still := boot_run (released_edges released levels) boot
        exact absurd (low levels 0 asN cycles board.positive) (ne_false_of_eq_true still)
    | false =>
        refine ⟨boot, ?_⟩
        by_contra late
        have room := bounded boot
        have counted : s.counted ≤ board.bootCycleMax + 1 := by
          simp only [System.counted]
          split <;> omega
        -- the bus cycle that begins after the counter is full
        obtain ⟨levels, asN, cycles⟩ := s.exists_cycles (board.bootCycleMax + 1 - s.counted)
        have unbooted := low levels _ asN cycles (by omega)
        obtain ⟨tracks, bounded⟩ :=
          (Tracks.of_release boot fresh).run bounded (released_edges released levels)
        have counting := tracks.counting unbooted
        have room := bounded unbooted
        simp only [System.counted, asN, Bool.false_eq_true, if_false] at counting cycles
        simp only [System.counted] at counted late
        omega
  · intro ⟨boot, armed⟩ levels
    exact ((Tracks.of_release boot fresh).run bounded
      (released_edges released levels)).1.shadowed armed

theorem setReset_released (held : s.resetN = false) :
    (s.step (.resetN true)).resetN = true ∧ (s.step (.resetN true)).cycles = 0 := by
  simp [step, setReset, held]

theorem release_of_edge (held : s.resetN = false) (released : (s.step event).resetN = true) :
    event = .resetN true := by
  cases event with
  | asN level => exact absurd released (ne_true_of_eq_false held)
  | resetN level => exact congrArg Event.resetN released

variable (board) in
/-- The shadow of a board after its resets, from a level of `AS_n` at power-up on. -/
structure ShadowAfterReset (asN : Bool) : Prop where
  /-- It holds in every run in which every release finds it armed. -/
  run : ∀ events,
    (∀ past, past ++ [.resetN true] <+: events →
      (after step (powerUp board asN) past).resetN = false →
      (after step (powerUp board asN) (past ++ [.resetN true])).Rearmed) →
    Always step (powerUp board asN) events Shadowed
  /-- It holds after a release exactly when the release finds it armed. -/
  release : ∀ past, (after step (powerUp board asN) past).resetN = false →
    ((∀ levels, (after step (powerUp board asN)
        (past ++ [.resetN true] ++ edges levels)).Shadowed) ↔
      (after step (powerUp board asN) (past ++ [.resetN true])).Rearmed)
  /-- `BOOT` once high stays high until the next reset. -/
  latched : ∀ past levels, (after step (powerUp board asN) past).resetN = true →
    (after step (powerUp board asN) past).signal.boot = true →
    (after step (powerUp board asN) (past ++ edges levels)).signal.boot = true

theorem shadowAfterReset (board : Board) (asN : Bool) : ShadowAfterReset board asN where
  run events armed past before := by
    by_cases released : (after step (powerUp board asN) past).resetN = true
    · obtain ⟨earlier, event, current, rfl, held, period⟩ := exists_period
        (P := fun s : System board => s.resetN = true) (by simp [powerUp]) released
      simp only [Bool.not_eq_true] at held
      have now := period [] List.nil_prefix
      rw [after_nil, after_concat] at now
      obtain rfl := release_of_edge held now
      have rearmed := armed earlier ((List.prefix_append _ current).trans before) held
      have bounded : (after step (powerUp board asN) (earlier ++ [.resetN true])).Bounded :=
        bounded_of_powerUp asN _
      rw [after_append]
      rw [after_concat] at period rearmed bounded ⊢
      have fresh := (setReset_released held).2
      exact ((Tracks.of_release rearmed.1 fresh).run bounded period).1.shadowed rearmed.2
    · exact fun now => absurd now released
  release past held := by
    obtain ⟨released, fresh⟩ := setReset_released held
    have bounded : (after step (powerUp board asN) (past ++ [.resetN true])).Bounded :=
      bounded_of_powerUp asN _
    have split (levels : List Bool) :
        after step (powerUp board asN) (past ++ [.resetN true] ++ edges levels) =
          after step (after step (powerUp board asN) (past ++ [.resetN true])) (edges levels) :=
      after_append _ _
    simp only [split]
    rw [after_concat] at bounded ⊢
    exact shadowed_iff_rearmed released fresh bounded
  latched past levels released booted := by
    rw [after_append]
    exact boot_run (released_edges released levels) booted

end System

namespace Board

/-- The decoder of Mackerel-10 reads ROM. -/
def RomOnly10 (boot : Bool) : Prop :=
  ∀ bus : M10.SystemController.Bus, bus.asN = false →
    bus.csRom0N boot = bus.ldsN ∧ bus.csRom1N boot = bus.udsN ∧
    bus.csSram0N boot = true ∧ bus.csSram1N boot = true ∧ bus.csDramN boot = true ∧
    bus.csSpiN boot = true ∧ bus.csDuartN boot = true ∧
    bus.csIde0N boot = true ∧ bus.csIde1N boot = true

/-- The decoder of Mackerel-30 reads ROM; CPU space is no memory. -/
def RomOnly30 (boot : Bool) : Prop :=
  ∀ bus : M30.SystemController.Bus, bus.asN = false →
    bus.csRomN boot = bus.cpuSpace ∧
    bus.csSramN boot = true ∧ bus.csDramN boot = true ∧ bus.csDuartN boot = true ∧
    bus.ideCs0N boot = true ∧ bus.ideCs1N boot = true ∧ bus.csIdeN boot = true ∧
    bus.csTimerN boot = true

theorem romOnly10_iff (boot : Bool) : RomOnly10 boot ↔ boot = false := by
  constructor
  · intro romOnly
    -- a word of DRAM
    have dram := romOnly ⟨false, false, false, true, 0, 0, 0, true, true, true⟩ rfl
    cases boot with
    | false => rfl
    | true => simp [M10.SystemController.Bus.csDramN, M10.SystemController.Bus.decode,
        M10.SystemController.Bus.iackN, M10.SystemController.Bus.high1M,
        M10.SystemController.Bus.sramSel] at dram
  · rintro rfl bus asN
    simp [M10.SystemController.Bus.csRom0N, M10.SystemController.Bus.csRom1N,
      M10.SystemController.Bus.romEn, M10.SystemController.Bus.csSram0N,
      M10.SystemController.Bus.csSram1N, M10.SystemController.Bus.ramEn,
      M10.SystemController.Bus.csDramN, M10.SystemController.Bus.csSpiN,
      M10.SystemController.Bus.csDuartN, M10.SystemController.Bus.csIde0N,
      M10.SystemController.Bus.csIde1N, M10.SystemController.Bus.decode, asN]

theorem romOnly30_iff (boot : Bool) : RomOnly30 boot ↔ boot = false := by
  constructor
  · intro romOnly
    have dram := romOnly ⟨false, false, true, 0, 0, 0, 0, true, true, true, true⟩ rfl
    cases boot with
    | false => rfl
    | true => simp [M30.SystemController.Bus.csDramN, M30.SystemController.Bus.cpuSpace] at dram
  · rintro rfl bus asN
    simp [M30.SystemController.Bus.csRomN, M30.SystemController.Bus.romEn,
      M30.SystemController.Bus.csSramN, M30.SystemController.Bus.csDramN,
      M30.SystemController.Bus.csDuartN, M30.SystemController.Bus.ideCs0N,
      M30.SystemController.Bus.ideCs1N, M30.SystemController.Bus.csIdeN,
      M30.SystemController.Bus.csTimerN, asN]

def mackerel10 : Board where
  width := 3
  bootCycleMax := M10.BOOT_CYCLE_MAX
  RomOnly := RomOnly10
  positive := by decide
  counts := by decide
  romOnly_iff := romOnly10_iff

def mackerel30 : Board where
  width := 4
  bootCycleMax := M30.BOOT_CYCLE_MAX
  RomOnly := RomOnly30
  positive := by decide
  counts := by decide
  romOnly_iff := romOnly30_iff

end Board

open Board

theorem boot_shadow_after_reset (asN : Bool) :
    System.ShadowAfterReset mackerel10 asN ∧ System.ShadowAfterReset mackerel30 asN :=
  ⟨System.shadowAfterReset mackerel10 asN, System.shadowAfterReset mackerel30 asN⟩

/-- Bus cycles until `BOOT` is high, then a reset in which `AS_n` stays high, and the first
    bus cycle after it. -/
def warmReset (bootCycles : Nat) : List Event :=
  .resetN true :: (List.replicate bootCycles [.asN false, .asN true]).flatten ++
    [.resetN false, .resetN true, .asN false]

theorem warm_reset_between_bus_cycles_keeps_boot :
    ¬ Always System.step (System.powerUp mackerel10 true) (warmReset 5) System.Shadowed ∧
    ¬ Always System.step (System.powerUp mackerel30 true) (warmReset 9) System.Shadowed := by
  constructor
  · intro shadowed
    have low := (romOnly10_iff _).mp (shadowed.last (by decide) (by decide) (by decide) (by decide))
    exact absurd low (by decide)
  · intro shadowed
    have low := (romOnly30_iff _).mp (shadowed.last (by decide) (by decide) (by decide) (by decide))
    exact absurd low (by decide)

end Mackerel.BootShadow
