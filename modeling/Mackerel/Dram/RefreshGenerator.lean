import Mathlib.Tactic.Common

namespace Mackerel

/-- `REFRESH_CYCLE_CNT`. -/
def REFRESH_CYCLE_CNT : BitVec 12 := 781

/-- The periodic refresh generator, the same in both DRAM controllers. -/
structure RefreshGenerator where
  refreshRequest : Bool
  cycleCount : BitVec 12

/-- One clock; `refreshAck` is the controller's register. -/
def RefreshGenerator.clock (generator : RefreshGenerator) (rstN refreshAck : Bool) :
    RefreshGenerator :=
  if !rstN then { generator with cycleCount := 0 }
  else
    let next := { generator with cycleCount := generator.cycleCount + 1 }
    let next :=
      if generator.cycleCount = REFRESH_CYCLE_CNT then
        { next with refreshRequest := true, cycleCount := 0 }
      else next
    if refreshAck then { next with refreshRequest := false } else next

end Mackerel
