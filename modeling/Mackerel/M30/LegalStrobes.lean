import Mackerel.Clocked.Driven
import Mackerel.M30.DramCycles
import Mackerel.M30.DramRefresh

namespace Mackerel.M30.DramController

open Assembly

def State.rasLines (s : State) : Bool × Bool × Bool × Bool := (s.ras0N, s.ras1N, s.ras2N, s.ras3N)

def State.casLines (s : State) : Bool × Bool × Bool × Bool := (s.cas0N, s.cas1N, s.cas2N, s.cas3N)

def openSide (side : Bool) : Bool → Bool := fun other => other != side

inductive Legal (s : State) : FsmState → Prop where
  | IDLE : Levels s high high true → Legal s .IDLE
  | RW1 : Levels s high high true → Legal s .RW1
  | RW2 : Levels s high high true → Legal s .RW2
  | RW2A (side : Bool) : Levels s (openSide side) high true → Legal s .RW2A
  | RW3 (side : Bool) : Levels s (openSide side) high true → Legal s .RW3
  | RW4 (side : Bool) : Levels s (openSide side) high true → Legal s .RW4
  | RW4A (side : Bool) (cas : Fin 4 → Bool) : Levels s (openSide side) cas true →
      (∃ lane, cas lane = false) → Legal s .RW4A
  | RW5 (side : Bool) (cas : Fin 4 → Bool) (dsack : Bool) : Levels s (openSide side) cas dsack →
      (∃ lane, cas lane = false) → Legal s .RW5
  | REFRESH1 : Levels s high high true → Legal s .REFRESH1
  | REFRESH2 : Levels s high low true → s.dramWrN = true → Legal s .REFRESH2
  | REFRESH3 : Levels s low low true → s.dramWrN = true → Legal s .REFRESH3
  | REFRESH4 : Levels s low high true → Legal s .REFRESH4
  | PRECHARGE (ras : Bool → Bool) (cas : Fin 4 → Bool) : Levels s ras cas true →
      Legal s .PRECHARGE

theorem decodeCas_ne_zero (cycleType : BitVec 4) : decodeCas cycleType ≠ 0 := by
  revert cycleType
  decide

theorem exists_lane {cas : BitVec 4} (some : cas ≠ 0) : ∃ lane : Fin 4, cas.getLsbD lane = true := by
  revert cas
  decide

/-- The lane decode of a clocked controller selects a lane. -/
def Decoded (s : State) : Prop := s.cas ≠ 0

theorem Decoded.posedge (s : State) (rstN : Bool) (bus : Bus) : Decoded (s.posedge rstN bus) := by
  have cas : (s.posedge rstN bus).cas = decodeCas bus.cycleType := by
    cases rstN with
    | false => rfl
    | true =>
        simp only [State.posedge, Bool.not_true, Bool.false_eq_true, if_false]
        cases s.state <;> dsimp only <;> (repeat' split) <;> rfl
  simpa only [Decoded, cas] using decodeCas_ne_zero bus.cycleType

theorem Legal.reset (s : State) (bus : Bus) :
    Legal (s.posedge false bus) (s.posedge false bus).state := by
  refine .IDLE ⟨rfl, ?_, rfl⟩
  funext lane
  fin_cases lane <;> rfl

theorem Legal.of_state {s : State} {next : FsmState} (state : s.state = next)
    (legal : Legal s next) : Legal s s.state :=
  state ▸ legal

theorem Legal.step_RW4 {before after : State} {side : Bool} {bus : Bus}
    (levels : Levels before (openSide side) high true) (state : before.state = .RW4)
    (decoded : Decoded before) (edge : after = before.posedge true bus) :
    Legal after after.state := by
  simp only [State.posedge, Bool.not_true, Bool.false_eq_true, if_false, state] at edge
  split at edge
  · exact .of_state (by rw [edge]) (.PRECHARGE (openSide side) high
      (edge ▸ ⟨levels.ras, levels.cas, levels.dsack⟩))
  · split at edge
    · obtain ⟨lane, selected⟩ := exists_lane decoded
      split at edge
      · refine .of_state (by rw [edge]) (.RW4A side after.casN ?_ ⟨lane, ?_⟩)
        · exact ⟨edge ▸ levels.ras, rfl, edge ▸ levels.dsack⟩
        · rw [edge]
          fin_cases lane <;> rfl
      · refine .of_state (by rw [edge]) (.RW4A side after.casN ?_ ⟨lane, ?_⟩)
        · exact ⟨edge ▸ levels.ras, rfl, edge ▸ levels.dsack⟩
        · rw [edge]
          fin_cases lane <;> simpa [State.casN] using selected
    · exact .of_state (by rw [edge]; exact state) (.RW4 side
        (edge ▸ ⟨levels.ras, levels.cas, levels.dsack⟩))

theorem Legal.step_RW5 {before after : State} {side dsack : Bool} {cas : Fin 4 → Bool} {bus : Bus}
    (levels : Levels before (openSide side) cas dsack) (lane : ∃ lane, cas lane = false)
    (state : before.state = .RW5) (edge : after = before.posedge true bus) :
    Legal after after.state := by
  simp only [State.posedge, Bool.not_true, Bool.false_eq_true, if_false, state] at edge
  have closes (state : after.state = .PRECHARGE) (ras : after.rasLines = before.rasLines)
      (dsacks : (after.dsack0N, after.dsack1N) = (true, true)) : Legal after after.state :=
    .of_state state (.PRECHARGE (openSide side) after.casN ⟨ras.trans levels.ras, rfl, dsacks⟩)
  have waits (next : after = (before.clockInputs true bus).setDsack false) :
      Legal after after.state :=
    .of_state (by rw [next]; exact state) (.RW5 side cas false
      (next ▸ ⟨levels.ras, levels.cas, rfl⟩) lane)
  split at edge
  · split at edge
    · exact closes (by rw [edge]) (by rw [edge]; rfl) (by rw [edge]; rfl)
    · exact waits edge
  · split at edge
    · exact closes (by rw [edge]) (by rw [edge]; rfl) (by rw [edge]; rfl)
    · exact waits edge

theorem Legal.step {before after : State} (legal : Legal before before.state)
    (decoded : Decoded before) {bus : Bus} (edge : after = before.posedge true bus) :
    Legal after after.state := by
  generalize state : before.state = current at legal
  have next := edge
  simp only [State.posedge, Bool.not_true, Bool.false_eq_true, if_false, state] at next
  cases legal with
  | IDLE levels =>
      dsimp only at next
      have still : Levels after high high true := by
        rw [next]
        repeat' split
        all_goals exact ⟨levels.ras, levels.cas, levels.dsack⟩
      split at next
      · exact .of_state (by rw [next]; exact state) (.IDLE still)
      · split at next
        · exact .of_state (by rw [next]) (.REFRESH1 still)
        · split at next
          · exact .of_state (by rw [next]) (.RW1 still)
          · exact .of_state (by rw [next]; exact state) (.IDLE still)
  | RW1 levels =>
      dsimp only at next
      have still : Levels after high high true := next ▸ ⟨levels.ras, levels.cas, levels.dsack⟩
      exact .of_state (by rw [next]) (.RW2 still)
  | RW2 levels =>
      dsimp only at next
      have opened : Levels after (openSide bus.side) high true := by
        rw [next]
        exact ⟨by simp [openSide], levels.cas, levels.dsack⟩
      exact .of_state (by rw [next]) (.RW2A _ opened)
  | RW2A side levels =>
      dsimp only at next
      have still : Levels after (openSide side) high true :=
        next ▸ ⟨levels.ras, levels.cas, levels.dsack⟩
      exact .of_state (by rw [next]) (.RW3 _ still)
  | RW3 side levels =>
      dsimp only at next
      have still : Levels after (openSide side) high true :=
        next ▸ ⟨levels.ras, levels.cas, levels.dsack⟩
      exact .of_state (by rw [next]) (.RW4 _ still)
  | RW4 side levels => exact step_RW4 levels state decoded edge
  | RW4A side cas levels lane =>
      dsimp only at next
      exact .of_state (by rw [next]) (.RW5 side cas true
        (next ▸ ⟨levels.ras, levels.cas, levels.dsack⟩) lane)
  | RW5 side cas dsack levels lane => exact step_RW5 levels lane state edge
  | REFRESH1 levels =>
      dsimp only at next
      have lowered : Levels after high low true := by
        rw [next]
        refine ⟨levels.ras, ?_, levels.dsack⟩
        funext lane
        fin_cases lane <;> rfl
      exact .of_state (by rw [next]) (.REFRESH2 lowered (by rw [next]))
  | REFRESH2 levels wr =>
      dsimp only at next
      exact .of_state (by rw [next]) (.REFRESH3 (next ▸ ⟨rfl, levels.cas, levels.dsack⟩)
        (next ▸ wr))
  | REFRESH3 levels wr =>
      dsimp only at next
      have raised : Levels after low high true := by
        rw [next]
        refine ⟨levels.ras, ?_, levels.dsack⟩
        funext lane
        fin_cases lane <;> rfl
      exact .of_state (by rw [next]) (.REFRESH4 raised)
  | REFRESH4 levels =>
      dsimp only at next
      exact .of_state (by rw [next]) (.PRECHARGE high high
        (next ▸ ⟨rfl, levels.cas, levels.dsack⟩))
  | PRECHARGE ras cas levels =>
      dsimp only at next
      have closed : Levels after high high true := by
        rw [next]
        refine ⟨rfl, ?_, rfl⟩
        funext lane
        fin_cases lane <;> rfl
      exact .of_state (by rw [next]) (.IDLE closed)

/-- The states that one clock leads from, apart from a reset. -/
def FsmState.sources : FsmState → List FsmState
  | .IDLE => [.IDLE, .PRECHARGE]
  | .RW1 => [.IDLE]
  | .RW2 => [.RW1]
  | .RW2A => [.RW2]
  | .RW3 => [.RW2A]
  | .RW4 => [.RW3, .RW4]
  | .RW4A => [.RW4]
  | .RW5 => [.RW4A, .RW5]
  | .REFRESH1 => [.IDLE]
  | .REFRESH2 => [.REFRESH1]
  | .REFRESH3 => [.REFRESH2]
  | .REFRESH4 => [.REFRESH3]
  | .PRECHARGE => [.RW4, .RW5, .REFRESH4]

theorem mem_sources (s : State) (bus : Bus) :
    s.state ∈ (s.posedge true bus).state.sources := by
  cases state : s.state <;>
    simp only [State.posedge, state, Bool.not_true, Bool.false_eq_true, if_false] <;>
    (repeat' split) <;>
    simp [FsmState.sources, state, State.clockInputs, State.setDsack]

def State.rasLine (s : State) : Fin 4 → Bool
  | 0 => s.ras0N
  | 1 => s.ras1N
  | 2 => s.ras2N
  | 3 => s.ras3N

def sideOf (line : Fin 4) : Bool := line.val % 2 = 1

theorem Assembly.Levels.rasLine {s : State} {ras : Bool → Bool} {cas : Fin 4 → Bool} {dsack : Bool}
    (levels : Levels s ras cas dsack) (line : Fin 4) : s.rasLine line = ras (sideOf line) := by
  have lines := levels.ras
  simp only [Prod.mk.injEq] at lines
  fin_cases line <;> simp [State.rasLine, sideOf, lines]

theorem addrDram_posedge (s : State) (rstN : Bool) (bus : Bus)
    (held : s.state ≠ .RW1 ∧ s.state ≠ .RW3 ∧ s.state ≠ .PRECHARGE) :
    (s.posedge rstN bus).addrDram = s.addrDram := by
  cases rstN with
  | false => rfl
  | true =>
      cases state : s.state <;>
        simp only [State.posedge, state, Bool.not_true, Bool.false_eq_true, if_false] <;>
        (repeat' split) <;> simp_all [State.clockInputs, State.setCas, State.setDsack, State.setRas]

theorem dramWrN_posedge (s : State) (bus : Bus)
    (held : s.state ≠ .RW3 ∧ s.state ≠ .REFRESH1) :
    (s.posedge true bus).dramWrN = s.dramWrN := by
  cases state : s.state <;>
    simp only [State.posedge, state, Bool.not_true, Bool.false_eq_true, if_false] <;>
    (repeat' split) <;> simp_all [State.clockInputs, State.setCas, State.setDsack, State.setRas]

/-- An open side stays open while its access goes on. -/
theorem rasLines_held (s : State) (bus : Bus) (held : s.state = .RW3 ∨ s.state = .RW4) :
    (s.posedge true bus).rasLines = s.rasLines := by
  rcases held with state | state <;>
    simp only [State.posedge, state, Bool.not_true, Bool.false_eq_true, if_false] <;>
    (repeat' split) <;> rfl

theorem rasLine_of_lines {s s' : State} (same : s.rasLines = s'.rasLines) :
    s.rasLine = s'.rasLine := by
  simp only [State.rasLines, Prod.mk.injEq] at same
  funext line
  fin_cases line <;> simp [State.rasLine, same]

/-- Two states lower a row line. -/
theorem rasLine_posedge {s : State} {rstN : Bool} {bus : Bus} {line : Fin 4}
    (before : s.rasLine line = true) (after : (s.posedge rstN bus).rasLine line = false) :
    rstN = true ∧ (s.state = .RW2 ∨ s.state = .REFRESH2) := by
  cases rstN with
  | false =>
      have up : (s.posedge false bus).rasLine line = true := by fin_cases line <;> rfl
      exact absurd after (ne_false_of_eq_true up)
  | true =>
      refine ⟨rfl, ?_⟩
      by_contra held
      have still : (s.posedge true bus).rasLines = s.rasLines ∨
          (s.posedge true bus).rasLines = (true, true, true, true) := by
        cases state : s.state <;>
          simp only [State.posedge, state, Bool.not_true, Bool.false_eq_true, if_false] <;>
          (repeat' split) <;>
          simp_all [State.rasLines, State.clockInputs, State.setCas, State.setDsack, State.setRas]
      simp only [State.rasLines, Prod.mk.injEq] at still
      fin_cases line <;> simp_all [State.rasLine]

theorem casN_posedge {s : State} {rstN : Bool} {bus : Bus} {lane : Fin 4}
    (before : s.casN lane = true) (after : (s.posedge rstN bus).casN lane = false) :
    rstN = true ∧ (s.state = .RW4 ∨ s.state = .REFRESH1) := by
  cases rstN with
  | false =>
      have up : (s.posedge false bus).casN lane = true := by fin_cases lane <;> rfl
      exact absurd after (ne_false_of_eq_true up)
  | true =>
      refine ⟨rfl, ?_⟩
      by_contra held
      have still : (s.posedge true bus).casLines = s.casLines ∨
          (s.posedge true bus).casLines = (true, true, true, true) := by
        cases state : s.state <;>
          simp only [State.posedge, state, Bool.not_true, Bool.false_eq_true, if_false] <;>
          (repeat' split) <;>
          simp_all [State.casLines, State.clockInputs, State.setCas, State.setDsack, State.setRas]
      simp only [State.casLines, Prod.mk.injEq] at still
      fin_cases lane <;> simp_all [State.casN]

def RasFalls (before after : State) (line : Fin 4) : Prop :=
  before.rasLine line = true ∧ after.rasLine line = false

def CasFalls (before after : State) (lane : Fin 4) : Prop :=
  before.casN lane = true ∧ after.casN lane = false

instance (before after : State) (lane : Fin 4) : Decidable (CasFalls before after lane) :=
  inferInstanceAs (Decidable (_ ∧ _))

def FsmState.InAccess (state : FsmState) : Prop :=
  state ∈ [.RW1, .RW2, .RW2A, .RW3, .RW4, .RW4A, .RW5]

variable (st : Nat → State)

/-- All row lines fall at clock `n`: a refresh. -/
structure RefreshFall (n : Nat) : Prop where
  ras : ∀ line, RasFalls (st n) (st (n + 1)) line
  cas : ∀ lane, (st n).casN lane = false ∧ (st (n + 1)).casN lane = false
  wr : (st n).dramWrN = true ∧ (st (n + 1)).dramWrN = true

/-- The row lines of one side fall at clock `n`. -/
structure SideFall (n : Nat) (side : Bool) : Prop where
  ras : ∀ line, sideOf line = side → RasFalls (st n) (st (n + 1)) line
  other : ∀ line, sideOf line ≠ side →
    (st n).rasLine line = true ∧ (st (n + 1)).rasLine line = true
  cas : ∀ k, n ≤ k → k ≤ n + 2 → ∀ lane, (st k).casN lane = true
  addr : ∀ k, n ≤ k → k ≤ n + 2 → (st k).addrDram = (st n).addrDram

/-- Column lines fall at clock `n` for an access to one side, open for two clocks before. -/
structure AccessStrobe (n : Nat) (side : Bool) : Prop where
  ras : 1 ≤ n ∧ ∀ k, n ≤ k + 1 → k ≤ n + 1 → ∀ line,
    (st k).rasLine line = openSide side (sideOf line)
  addr : (st (n + 1)).addrDram = (st n).addrDram
  wr : (st (n + 1)).dramWrN = (st n).dramWrN

/-- A column strobe of the access in progress at clock `n`. -/
def Issued (n : Nat) : Prop :=
  ∃ m < n, (∃ lane, CasFalls (st m) (st (m + 1)) lane) ∧
    ∀ k, m ≤ k → k ≤ n → (st k).state.InAccess ∧ ∃ line, (st k).rasLine line = false

/-- The strobes of a run are a legal sequence. -/
structure LegalRun : Prop where
  precharged : ∀ n line, RasFalls (st n) (st (n + 1)) line →
    1 ≤ n ∧ ∀ k, n ≤ k + 1 → k ≤ n → (st k).rasLine line = true
  rasFall : ∀ n line, RasFalls (st n) (st (n + 1)) line →
    RefreshFall st n ∨ ∃ side, SideFall st n side
  casFall : ∀ n lane, CasFalls (st n) (st (n + 1)) lane →
    ((st n).state = .REFRESH1 ∧ ∀ line, (st n).rasLine line = true) ∨
      ∃ side, AccessStrobe st n side
  dsack : ∀ n, (st n).dsackN = false → (∃ line, (st n).rasLine line = false) ∧ Issued st n

/-- A run from a reset edge in any state, with arbitrary inputs after it, resets included. -/
structure ResetRun where
  state : Nat → State
  rstN : Nat → Bool
  bus : Nat → Bus
  reset : ∃ (before : State) (first : Bus), state 0 = before.posedge false first
  step : ∀ n, state (n + 1) = (state n).posedge (rstN n) (bus n)

namespace ResetRun

variable {run : ResetRun} {n : Nat}

theorem legal (run : ResetRun) (n : Nat) :
    Legal (run.state n) (run.state n).state ∧ Decoded (run.state n) := by
  induction n with
  | zero =>
      obtain ⟨before, first, reset⟩ := run.reset
      rw [reset]
      exact ⟨.reset before first, .posedge before false first⟩
  | succ n ih =>
      rw [run.step n]
      refine ⟨?_, .posedge _ _ _⟩
      cases run.rstN n with
      | false => exact .reset _ _
      | true => exact ih.1.step ih.2 rfl

theorem from_source (busy : (run.state (n + 1)).state ≠ .IDLE) :
    run.rstN n = true ∧ (run.state n).state ∈ (run.state (n + 1)).state.sources := by
  rw [run.step n] at busy ⊢
  cases rstN : run.rstN n with
  | false => exact absurd (by rw [rstN]; rfl) busy
  | true => exact ⟨rfl, mem_sources _ _⟩

theorem exists_before (busy : (run.state n).state ≠ .IDLE) : ∃ m, n = m + 1 := by
  cases n with
  | zero =>
      obtain ⟨before, first, reset⟩ := run.reset
      exact absurd (by rw [reset]; rfl) busy
  | succ m => exact ⟨m, rfl⟩

theorem addrDram_held (held : (run.state n).state ≠ .RW1 ∧ (run.state n).state ≠ .RW3 ∧
    (run.state n).state ≠ .PRECHARGE) : (run.state (n + 1)).addrDram = (run.state n).addrDram := by
  rw [run.step n]
  exact addrDram_posedge _ _ _ held

theorem levels_of_state {current : FsmState} (state : (run.state n).state = current) :
    Legal (run.state n) current :=
  state ▸ (run.legal n).1

theorem refresh_fall (state : (run.state n).state = .REFRESH2) (clocked : run.rstN n = true) :
    RefreshFall run.state n := by
  have next : (run.state (n + 1)).state = .REFRESH3 := by
    rw [run.step n, clocked]
    simp [State.posedge, state]
  cases levels_of_state state with
  | REFRESH2 before wr =>
      cases levels_of_state next with
      | REFRESH3 after still =>
          refine ⟨fun line => ⟨?_, ?_⟩, fun lane => ⟨?_, ?_⟩, wr, still⟩
          · simp [before.rasLine, high]
          · simp [after.rasLine, low]
          · simp [before.cas, low]
          · simp [after.cas, low]

theorem side_fall (state : (run.state n).state = .RW2) (clocked : run.rstN n = true) :
    ∃ side, SideFall run.state n side := by
  have next : (run.state (n + 1)).state = .RW2A := by
    rw [run.step n, clocked]
    simp [State.posedge, state]
  have later : (run.state (n + 2)).casN = high := by
    have after : (run.state (n + 2)).state = .RW3 ∨ (run.state (n + 2)).state = .IDLE := by
      rw [run.step (n + 1)]
      cases run.rstN (n + 1) with
      | false => exact .inr rfl
      | true => simp [State.posedge, next]
    rcases after with after | after
    · cases levels_of_state after with | RW3 _ levels => exact levels.cas
    · cases levels_of_state after with | IDLE levels => exact levels.cas
  have first := run.addrDram_held (n := n) (by simp [state])
  have second := run.addrDram_held (n := n + 1) (by simp [next])
  cases levels_of_state state with
  | RW2 before =>
      cases levels_of_state next with
      | RW2A side after =>
          refine ⟨side, fun line same => ?_, fun line other => ?_, fun k lower upper lane => ?_,
            fun k lower upper => ?_⟩
          · simp [RasFalls, before.rasLine, after.rasLine, high, openSide, same]
          · simp [before.rasLine, after.rasLine, high, openSide, other]
          · obtain rfl | rfl | rfl : k = n ∨ k = n + 1 ∨ k = n + 2 := by omega
            · simp [before.cas, high]
            · simp [after.cas, high]
            · simp [later, high]
          · obtain rfl | rfl | rfl : k = n ∨ k = n + 1 ∨ k = n + 2 := by omega
            · rfl
            · exact first
            · exact second.trans first

theorem ras_fall {line : Fin 4} (falls : RasFalls (run.state n) (run.state (n + 1)) line) :
    run.rstN n = true ∧ ((run.state n).state = .RW2 ∨ (run.state n).state = .REFRESH2) := by
  obtain ⟨before, after⟩ := falls
  rw [run.step n] at after
  exact rasLine_posedge before after

/-- The state before the one that lowers a row line has all of them high. -/
theorem precharged {line : Fin 4} (falls : RasFalls (run.state n) (run.state (n + 1)) line) :
    1 ≤ n ∧ ∀ k, n ≤ k + 1 → k ≤ n → (run.state k).rasLine line = true := by
  have busy : (run.state n).state ≠ .IDLE := by
    rcases (ras_fall falls).2 with state | state <;> simp [state]
  obtain ⟨m, rfl⟩ := exists_before busy
  refine ⟨by omega, fun k lower upper => ?_⟩
  obtain rfl | rfl : k = m ∨ k = m + 1 := by omega
  · have source := (from_source busy).2
    rcases (ras_fall falls).2 with state | state <;>
      simp only [state, FsmState.sources, List.mem_singleton] at source
    · cases levels_of_state source with | RW1 levels => exact levels.rasLine line
    · cases levels_of_state source with | REFRESH1 levels => exact levels.rasLine line
  · exact falls.1

theorem access_strobe (state : (run.state n).state = .RW4) (clocked : run.rstN n = true) :
    ∃ side, AccessStrobe run.state n side := by
  have busy : (run.state n).state ≠ .IDLE := by simp [state]
  obtain ⟨m, rfl⟩ := exists_before busy
  obtain ⟨before, source⟩ := from_source busy
  simp only [state, FsmState.sources, List.mem_cons, List.not_mem_nil, or_false] at source
  have first : (run.state (m + 1)).rasLine = (run.state m).rasLine := by
    rw [run.step m, before]
    exact rasLine_of_lines (rasLines_held _ _ source)
  have second : (run.state (m + 2)).rasLine = (run.state (m + 1)).rasLine := by
    rw [run.step (m + 1), clocked]
    exact rasLine_of_lines (rasLines_held _ _ (.inr state))
  have wr : (run.state (m + 2)).dramWrN = (run.state (m + 1)).dramWrN := by
    rw [run.step (m + 1), clocked]
    exact dramWrN_posedge _ _ (by simp [state])
  cases levels_of_state state with
  | RW4 side levels =>
      refine ⟨side, ⟨by omega, fun k lower upper line => ?_⟩,
        run.addrDram_held (by simp [state]), wr⟩
      obtain rfl | rfl | rfl : k = m ∨ k = m + 1 ∨ k = m + 2 := by omega
      · exact (congrFun first line).symm.trans (levels.rasLine line)
      · exact levels.rasLine line
      · exact (congrFun second line).trans (levels.rasLine line)

theorem exists_low {s : State} {side : Bool} {cas : Fin 4 → Bool} {dsack : Bool}
    (levels : Levels s (openSide side) cas dsack) : ∃ line, s.rasLine line = false := by
  cases side
  · exact ⟨0, by simp [levels.rasLine, openSide, sideOf]⟩
  · exact ⟨1, by simp [levels.rasLine, openSide, sideOf]⟩

/-- The state that waits for the end of an access has had its strobe. -/
theorem issued (waits : (run.state n).state = .RW4A ∨ (run.state n).state = .RW5) :
    Issued run.state n := by
  have accessing (k : Nat) (state : (run.state k).state = .RW4 ∨ (run.state k).state = .RW4A ∨
      (run.state k).state = .RW5) :
      (run.state k).state.InAccess ∧ ∃ line, (run.state k).rasLine line = false := by
    rcases state with state | state | state
    · cases levels_of_state state with
      | RW4 _ levels => exact ⟨by simp [FsmState.InAccess, state], exists_low levels⟩
    · cases levels_of_state state with
      | RW4A _ _ levels => exact ⟨by simp [FsmState.InAccess, state], exists_low levels⟩
    · cases levels_of_state state with
      | RW5 _ _ _ levels => exact ⟨by simp [FsmState.InAccess, state], exists_low levels⟩
  induction n with
  | zero =>
      obtain ⟨before, first, reset⟩ := run.reset
      rcases waits with waits | waits <;>
        simp [reset, State.posedge, State.setRas, State.setCas, State.setDsack] at waits
  | succ n ih =>
      have here := accessing (n + 1) (.inr waits)
      have busy : (run.state (n + 1)).state ≠ .IDLE := by
        rcases waits with waits | waits <;> simp [waits]
      have source := (from_source busy).2
      have extend (earlier : Issued run.state n) : Issued run.state (n + 1) := by
        obtain ⟨m, before, falls, since⟩ := earlier
        refine ⟨m, by omega, falls, fun k lower upper => ?_⟩
        rcases Nat.le_succ_iff.mp upper with upper | rfl
        · exact since k lower upper
        · exact here
      rcases waits with waits | waits <;>
        simp only [waits, FsmState.sources, List.mem_cons, List.not_mem_nil, or_false] at source
      · refine ⟨n, Nat.lt_succ_self n, ?_, fun k lower upper => ?_⟩
        · cases levels_of_state source with
          | RW4 _ before =>
              cases levels_of_state waits with
              | RW4A _ cas after lane =>
                  obtain ⟨lane, falls⟩ := lane
                  exact ⟨lane, by simp [before.cas, high], by simp [after.cas, falls]⟩
        · obtain rfl | rfl : k = n ∨ k = n + 1 := by omega
          · exact accessing k (.inl source)
          · exact here
      · exact extend (ih source)

theorem dsack_state (low : (run.state n).dsackN = false) : (run.state n).state = .RW5 := by
  have legal := (run.legal n).1
  generalize state : (run.state n).state = current at legal
  cases legal with
  | RW5 => rfl
  | IDLE levels => exact absurd low (ne_false_of_eq_true levels.dsackN)
  | RW1 levels => exact absurd low (ne_false_of_eq_true levels.dsackN)
  | RW2 levels => exact absurd low (ne_false_of_eq_true levels.dsackN)
  | RW2A _ levels => exact absurd low (ne_false_of_eq_true levels.dsackN)
  | RW3 _ levels => exact absurd low (ne_false_of_eq_true levels.dsackN)
  | RW4 _ levels => exact absurd low (ne_false_of_eq_true levels.dsackN)
  | RW4A _ _ levels => exact absurd low (ne_false_of_eq_true levels.dsackN)
  | REFRESH1 levels => exact absurd low (ne_false_of_eq_true levels.dsackN)
  | REFRESH2 levels => exact absurd low (ne_false_of_eq_true levels.dsackN)
  | REFRESH3 levels => exact absurd low (ne_false_of_eq_true levels.dsackN)
  | REFRESH4 levels => exact absurd low (ne_false_of_eq_true levels.dsackN)
  | PRECHARGE _ _ levels => exact absurd low (ne_false_of_eq_true levels.dsackN)

end ResetRun

/-- Whatever the inputs do, the strobes of every run from a reset are legal. -/
theorem legal_strobes (run : ResetRun) : LegalRun run.state where
  precharged _ _ := ResetRun.precharged
  rasFall n line falls := by
    obtain ⟨clocked, state | state⟩ := ResetRun.ras_fall falls
    · exact .inr (ResetRun.side_fall state clocked)
    · exact .inl (ResetRun.refresh_fall state clocked)
  casFall n lane falls := by
    obtain ⟨before, after⟩ := falls
    rw [run.step n] at after
    obtain ⟨clocked, state | state⟩ := casN_posedge before after
    · exact .inr (ResetRun.access_strobe state clocked)
    · refine .inl ⟨state, fun line => ?_⟩
      cases ResetRun.levels_of_state state with
      | REFRESH1 levels => exact levels.rasLine line
  dsack n low := by
    have state := ResetRun.dsack_state low
    refine ⟨?_, ResetRun.issued (.inr state)⟩
    cases ResetRun.levels_of_state state with
    | RW5 _ _ _ levels => exact ResetRun.exists_low levels

/-- A long write whose data strobe comes four clocks after `AS_n`, and a reset in the middle of it. -/
def lateStrobe (n : Nat) : Bus :=
  { asN := n < 2, dsN := n < 6, csN := n < 2, rw := false, siz := 0, addr := 0 }

def interruptedRun : ResetRun where
  state := Clocked.driven (fun n s => s.posedge (n ≠ 10) (lateStrobe n)) ((powerUp false 0).posedge false quietBus)
  rstN n := n ≠ 10
  bus := lateStrobe
  reset := ⟨powerUp false 0, quietBus, rfl⟩
  step _ := rfl

theorem interruptedRun_legal : LegalRun interruptedRun.state ∧
    (∀ n ∈ [9, 16], CasFalls (interruptedRun.state n) (interruptedRun.state (n + 1)) 0) ∧
    (interruptedRun.state 19).dsackN = false :=
  ⟨legal_strobes interruptedRun, by decide +kernel, by decide +kernel⟩

end Mackerel.M30.DramController
