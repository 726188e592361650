import Mathlib.Data.Fintype.Basic

/-! One bank of dynamic memory as its pins drive it: a row strobe, a column strobe for each
lane, a write enable and one address for rows and columns in turn. All strobes are low
active. -/

namespace Dram

variable {α ι β : Type} [Fintype ι]

structure Pins (α ι : Type) where
  rasN : Bool
  casN : ι → Bool
  wrN : Bool
  addr : α

/-- One column access: the lanes whose strobe fell, at the row that was open. -/
structure Strobe (α ι : Type) where
  row : Option α
  column : α
  lanes : ι → Bool
  write : Bool

/-- The cells by row, column and lane, and the row that is open. -/
structure Bank (α ι β : Type) where
  row : Option α
  cells : α → α → ι → β

namespace Pins

def Falls (before after : Pins α ι) (lane : ι) : Prop :=
  before.casN lane = true ∧ after.casN lane = false

instance (before after : Pins α ι) (lane : ι) : Decidable (before.Falls after lane) :=
  inferInstanceAs (Decidable (_ ∧ _))

def CasHigh (pins : Pins α ι) : Prop := ∀ lane, pins.casN lane = true

instance (pins : Pins α ι) : Decidable pins.CasHigh := inferInstanceAs (Decidable (∀ _, _))

end Pins

def Strobe.store [DecidableEq α] (strobe : Strobe α ι) (data : ι → β)
    (cells : α → α → ι → β) : α → α → ι → β :=
  fun row column lane =>
    if strobe.write ∧ strobe.row = some row ∧ strobe.column = column ∧ strobe.lanes lane then
      data lane
    else cells row column lane

namespace Bank

/-- The column access at the edge between two settings of the pins, if there is one. -/
def strobe (bank : Bank α ι β) (before after : Pins α ι) : Option (Strobe α ι) :=
  if before.rasN = false ∧ after.rasN = false ∧ ∃ lane, before.Falls after lane then
    some {
      row := bank.row
      column := after.addr
      lanes := fun lane => before.casN lane && !after.casN lane
      write := !after.wrN }
  else none

/-- The row strobe opens the addressed row. With a column strobe before it the bank only
    refreshes a row of its own. -/
def nextRow (bank : Bank α ι β) (before after : Pins α ι) : Option α :=
  if after.rasN then none
  else if before.rasN then
    if before.CasHigh ∧ after.CasHigh then some after.addr else none
  else bank.row

variable {bank : Bank α ι β} {before after : Pins α ι} {data : ι → β}

theorem strobe_of_rasN (high : before.rasN = true ∨ after.rasN = true) :
    bank.strobe before after = none := by
  apply if_neg
  intro ⟨low, stillLow, _⟩
  rcases high with high | high
  · exact absurd low (ne_false_of_eq_true high)
  · exact absurd stillLow (ne_false_of_eq_true high)

theorem strobe_of_casN (quiet : ∀ lane, ¬ before.Falls after lane) :
    bank.strobe before after = none := by
  apply if_neg
  intro ⟨_, _, lane, falls⟩
  exact quiet lane falls

theorem strobe_of_falls (low : before.rasN = false ∧ after.rasN = false) (lane : ι)
    (falls : before.Falls after lane) :
    bank.strobe before after = some {
      row := bank.row
      column := after.addr
      lanes := fun lane => before.casN lane && !after.casN lane
      write := !after.wrN } :=
  if_pos ⟨low.1, low.2, lane, falls⟩

variable [DecidableEq α]

def edge (bank : Bank α ι β) (before after : Pins α ι) (data : ι → β) : Bank α ι β where
  row := bank.nextRow before after
  cells := (bank.strobe before after).elim bank.cells (·.store data bank.cells)

theorem edge_cells (unstrobed : bank.strobe before after = none) :
    (bank.edge before after data).cells = bank.cells := by
  simp [edge, unstrobed]

theorem edge_cells_of_strobe {strobe : Strobe α ι}
    (strobed : bank.strobe before after = some strobe) :
    (bank.edge before after data).cells = strobe.store data bank.cells := by
  simp [edge, strobed]

theorem edge_row_open (falls : before.rasN = true ∧ after.rasN = false)
    (beforeHigh : before.CasHigh) (afterHigh : after.CasHigh) :
    (bank.edge before after data).row = some after.addr := by
  simp [edge, nextRow, falls, beforeHigh, afterHigh]

theorem edge_row_held (low : before.rasN = false ∧ after.rasN = false) :
    (bank.edge before after data).row = bank.row := by
  simp [edge, nextRow, low]

end Bank

end Dram
