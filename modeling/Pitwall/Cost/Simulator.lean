import Pitwall.Core.Decimals
import Pitwall.Library.Numeric
set_option autoImplicit false

/-!
`WhatIfSimulator`: the cost of a sequence of hypothetical workloads on top of a current spend.
-/

namespace Pitwall

/-- A non-negative amount in micro-dollars, as `_usd` gives it. -/
structure UsdAmount where
  value : ℚ
  nonneg : 0 ≤ value
  quantized : IsMultiple 6 value
  small : value < 10 ^ 22

namespace UsdAmount

def zero : UsdAmount := ⟨0, le_refl 0, .zero 6, by norm_num⟩

theorem whole_nonneg (n : ℕ) : (0 : ℚ) ≤ n := Nat.cast_nonneg n

theorem whole_quantized (n : ℕ) : IsMultiple 6 (n : ℚ) := ⟨n * 10 ^ 6, by push_cast; ring⟩

theorem whole_small {n : ℕ} (h : n < 10 ^ 22) : (n : ℚ) < 10 ^ 22 := by exact_mod_cast h

def dollars (n : ℕ) (h : n < 10 ^ 22) : UsdAmount :=
  ⟨n, whole_nonneg n, whole_quantized n, whole_small h⟩

end UsdAmount

theorem rounded_nonneg {value : ℚ} (h : ¬ value < 0) : 0 ≤ roundHalfAway 6 value :=
  roundHalfAway_nonneg (not_lt.mp h)

theorem rounded_quantized (value : ℚ) : IsMultiple 6 (roundHalfAway 6 value) :=
  isMultiple_roundHalfAway 6 value

theorem rounded_small {value : ℚ} (h : ¬ 10 ^ 22 ≤ roundHalfAway 6 value) :
    roundHalfAway 6 value < 10 ^ 22 :=
  not_le.mp h

/-- `_usd`, of a finite amount. The text of the last error ends with the amount. -/
def usdAmount (value : ℚ) (name : String) : Except PyError UsdAmount :=
  if hneg : value < 0 then .error ⟨"ValueError", name ++ " must be non-negative"⟩
  else if hbig : 10 ^ 22 ≤ roundHalfAway 6 value then
    .error ⟨"ValueError", name ++ " is out of representable USD range"⟩
  else .ok ⟨roundHalfAway 6 value, rounded_nonneg hneg, rounded_quantized value,
    rounded_small hbig⟩

theorem usdAmount_value (amount : UsdAmount) (name : String) :
    usdAmount amount.value name = .ok amount := by
  obtain ⟨value, hnonneg, hquantized, hsmall⟩ := amount
  have hrounded : roundHalfAway 6 value = value := roundHalfAway_of_isMultiple hquantized
  simp only [usdAmount, hrounded]
  rw [dif_neg (not_lt.mpr hnonneg), dif_neg (not_le.mpr hsmall)]

/-- `_signed_usd`. -/
def signedUsd (value : ℚ) (name : String) : Except PyError ℚ :=
  if 10 ^ 22 ≤ |roundHalfAway 6 value| then
    .error ⟨"ValueError", name ++ " is out of representable USD range"⟩
  else .ok (roundHalfAway 6 value)

/-- `_budget_headroom`. -/
def budgetHeadroom (budget : Option UsdAmount) (projected : UsdAmount) :
    Except PyError (Option ℚ) :=
  match budget with
  | none => .ok none
  | some budget => do
      let difference ← contextual (budget.value - projected.value)
      let headroom ← signedUsd difference "budget_headroom_usd"
      return some headroom

/-- A simulator, with the upper bounds of the attempts that the planner makes for a workload. -/
structure WhatIfSimulator (W : Type) where
  attemptCosts : W → Except PyError (List UsdAmount)
  budgetUsd : Option UsdAmount
  currentSpendUsd : UsdAmount

structure WhatIfProjection where
  reservedUsd : UsdAmount
  currentSpendUsd : UsdAmount
  projectedSpendUsd : UsdAmount
  budgetHeadroomUsd : Option ℚ
  wouldExceedBudget : Option Bool

structure WhatIfBatchProjection where
  projections : List WhatIfProjection
  totalReservedUsd : UsdAmount
  startingSpendUsd : UsdAmount
  projectedSpendUsd : UsdAmount
  budgetUsd : Option UsdAmount
  budgetHeadroomUsd : Option ℚ
  wouldExceedBudget : Option Bool

namespace WhatIfSimulator
variable {W : Type} (sim : WhatIfSimulator W)

def wouldExceed (headroom : Option ℚ) : Option Bool := headroom.map fun h => decide (h < 0)

/-- `simulate`, on top of a running spend. -/
def simulate (currentSpend : UsdAmount) (workload : W) : Except PyError WhatIfProjection := do
  let costs ← sim.attemptCosts workload
  let reserved := costs.head?.getD .zero
  let projected ← contextual (currentSpend.value + reserved.value)
  let projected ← usdAmount projected "projected_spend_usd"
  let headroom ← budgetHeadroom sim.budgetUsd projected
  return ⟨reserved, currentSpend, projected, headroom, wouldExceed headroom⟩

/-- The loop of `simulate_workloads`, with the running spend. -/
def simulateLoop : UsdAmount → List W → Except PyError (List WhatIfProjection × UsdAmount)
  | running, [] => .ok ([], running)
  | running, workload :: workloads => do
      let projection ← sim.simulate running workload
      let (projections, last) ← simulateLoop projection.projectedSpendUsd workloads
      return (projection :: projections, last)

def simulateWorkloads (workloads : List W) : Except PyError WhatIfBatchProjection := do
  let (projections, running) ← sim.simulateLoop sim.currentSpendUsd workloads
  let total ← projections.foldlM (fun total p => contextual (total + p.reservedUsd.value)) 0
  let total ← usdAmount total "total_reserved_usd"
  let headroom ← budgetHeadroom sim.budgetUsd running
  return {
    projections
    totalReservedUsd := total
    startingSpendUsd := sim.currentSpendUsd
    projectedSpendUsd := running
    budgetUsd := sim.budgetUsd
    budgetHeadroomUsd := headroom
    wouldExceedBudget := wouldExceed headroom }

end WhatIfSimulator

end Pitwall
