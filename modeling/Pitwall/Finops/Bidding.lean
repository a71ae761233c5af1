import Mathlib
import Pitwall.Autopilot.Controller
import Pitwall.Cost.WhatIfAdmission
import Pitwall.Library.Traversal
set_option autoImplicit false

/-!
`BiddingEngine.evaluate`: one action for each lane of a spot-price snapshot, under the rails of a
policy.
-/

namespace Pitwall

/-- `_usd`, of a non-negative amount. What `quantize` cannot hold, it refuses. -/
def bidUsd (value : ℚ) : Except PyError UsdAmount :=
  if hneg : value < 0 then .error ⟨"ValueError", "bid must be non-negative"⟩
  else if hbig : 10 ^ 22 ≤ roundHalfAway 6 value then
    .error ⟨"InvalidOperation", "[<class 'decimal.InvalidOperation'>]"⟩
  else .ok ⟨roundHalfAway 6 value, rounded_nonneg hneg, rounded_quantized value,
    rounded_small hbig⟩

/-- `_usd(a + b)`. -/
def addUsd (a b : UsdAmount) : Except PyError UsdAmount := do
  let sum ← contextual (a.value + b.value)
  bidUsd sum

/-- One live spot-market lane, with what `__post_init__` checks. -/
structure SpotPrice where
  providerId : String
  resourceId : String
  gpu : String
  minimumBid : UsdAmount
  currentBid : Option UsdAmount
  gpuCount : Int
  available : Bool
  providerId_ne : strip providerId ≠ ""
  resourceId_ne : strip resourceId ≠ ""
  gpu_ne : strip gpu ≠ ""
  gpuCount_pos : 1 ≤ gpuCount

structure SpotPriceSnapshot where
  observedAt : Instant
  prices : List SpotPrice

structure BiddingPolicy where
  targetPrice : UsdAmount
  maxPrice : UsdAmount
  targetCapacityUnits : ℕ
  maxParallelBids : ℕ
  bidIncrement : UsdAmount
  minAdjustment : UsdAmount
  maxTotalBid : Option UsdAmount
  allowBidDecrease : Bool
  dryRun : Bool
  policyEvaluation : Option Autopilot.PolicyEvaluationResult
  budgetDecision : Option CircuitBreakerDecision
  target_le_max : targetPrice.value ≤ maxPrice.value
  capacity_pos : 1 ≤ targetCapacityUnits
  parallel_pos : 1 ≤ maxParallelBids

namespace BiddingPolicy
variable (policy : BiddingPolicy)

def selectionLimit : ℕ := min policy.targetCapacityUnits policy.maxParallelBids

/-- `budget_decision.action`. -/
def budgetAction : Option BreakerAction := policy.budgetDecision.map CircuitBreakerDecision.action

def effectiveMaxPrice : UsdAmount :=
  if policy.budgetAction = some .downgrade then
    if policy.targetPrice.value < policy.maxPrice.value then policy.targetPrice else policy.maxPrice
  else policy.maxPrice

def allowed : Bool := (policy.policyEvaluation.map Autopilot.PolicyEvaluationResult.allowed).getD true

end BiddingPolicy

inductive BidActionKind where
  | place | raise | lower | hold | block
  deriving DecidableEq

/-- One recommended placement or adjustment, with the fields that it copies from its lane. -/
structure BidAction where
  lane : SpotPrice
  action : BidActionKind
  bid : UsdAmount
  selected : Bool
  rank : Option ℕ
  dryRun : Bool
  reason : String

namespace BidAction

def selectedCopy (a : BidAction) (rank : ℕ) (dryRun : Bool) : BidAction :=
  { a with selected := true, rank := some rank, dryRun := dryRun }

def holdCopy (a : BidAction) (reason : String) (dryRun : Bool) : BidAction :=
  { a with action := .hold, selected := false, rank := none, dryRun := dryRun, reason := reason }

def blockCopy (a : BidAction) (reason : String) (dryRun : Bool) : BidAction :=
  { a with action := .block, selected := false, rank := none, dryRun := dryRun, reason := reason }

end BidAction

structure BiddingPlan where
  observedAt : Instant
  effectiveMaxPrice : UsdAmount
  actions : List BidAction
  dryRun : Bool
  budgetAction : Option BreakerAction
  policyAllowed : Bool

def BiddingPlan.selectedActions (plan : BiddingPlan) : List BidAction :=
  plan.actions.filter BidAction.selected

/-- `policy_id` of a violation. -/
def violatedPolicy (violation : JsonObject) : String :=
  match violation.get "policy_id" with
  | .str id => id
  | _ => ""

/-- `_hard_block_reason`. -/
def hardBlockReason (policy : BiddingPolicy) : Option String :=
  if policy.allowed = false then
    match policy.policyEvaluation.bind fun result => result.violations.head? with
    | some violation => some s!"policy denied: {violatedPolicy violation}"
    | none => some "policy denied"
  else if policy.budgetAction = some .block then
    policy.budgetDecision.map CircuitBreakerDecision.reason
  else none

/-- `_sorted_prices`. -/
def sortedPrices (prices : List SpotPrice) : List SpotPrice :=
  sortedBy (fun a b => decide (
    toLex (a.minimumBid.value, toLex (a.providerId, toLex (a.resourceId, a.gpu))) <
      toLex (b.minimumBid.value, toLex (b.providerId, toLex (b.resourceId, b.gpu))))) prices

/-- `_blocked_action`. A bid of zero is replaced by the minimum. -/
def blockedAction (price : SpotPrice) (reason : String) (dryRun : Bool)
    (bid : Option UsdAmount) : BidAction where
  lane := price
  action := .block
  bid :=
    match bid with
    | some bid => if bid.value = 0 then price.minimumBid else bid
    | none => price.minimumBid
  selected := false
  rank := none
  dryRun := dryRun
  reason := reason

/-- `_desired_bid`. -/
def desiredBid (price : SpotPrice) (policy : BiddingPolicy) : Except PyError UsdAmount :=
  if price.minimumBid.value ≤ policy.targetPrice.value then .ok policy.targetPrice
  else addUsd price.minimumBid policy.bidIncrement

/-- `_action_for_bid`. The differences have at most 28 digits and are exact. -/
def actionForBid (price : SpotPrice) (policy : BiddingPolicy) (desired : UsdAmount) :
    BidActionKind × String :=
  match price.currentBid with
  | none =>
      (.place, if desired.value = policy.targetPrice.value then "place bid at target"
        else "place bid to clear current market")
  | some current =>
      if policy.minAdjustment.value < desired.value - current.value then
        (.raise, "raise bid to clear current market")
      else if policy.minAdjustment.value < current.value - desired.value then
        if policy.allowBidDecrease then
          (.lower, if desired.value = policy.targetPrice.value then "lower bid to target"
            else "lower bid to current market")
        else (.hold, "current bid above desired; decrease disabled")
      else (.hold, "current bid already within adjustment band")

/-- `_candidate_action`. -/
def candidateAction (policy : BiddingPolicy) (price : SpotPrice) : Except PyError BidAction :=
  if price.available = false then
    .ok (blockedAction price "capacity unavailable" policy.dryRun none)
  else do
    let desired ← desiredBid price policy
    if policy.effectiveMaxPrice.value < desired.value then
      return blockedAction price "minimum bid exceeds max price" policy.dryRun
        (some policy.effectiveMaxPrice)
    else
      let (action, reason) := actionForBid price policy desired
      return ⟨price, action, desired, false, none, policy.dryRun, reason⟩

structure Selection where
  selected : List BidAction
  finalActions : List BidAction
  runningTotal : UsdAmount

/-- `max_total_bid_usd_per_hour is not None and next_total > max_total_bid_usd_per_hour`. -/
def exceedsTotal (policy : BiddingPolicy) (total : UsdAmount) : Bool :=
  policy.maxTotalBid.any fun cap => decide (cap.value < total.value)

def selectAction (policy : BiddingPolicy) (s : Selection) (a : BidAction) :
    Except PyError Selection :=
  if a.action = .block then .ok { s with finalActions := s.finalActions ++ [a] }
  else if policy.selectionLimit ≤ s.selected.length then
    .ok { s with finalActions := s.finalActions ++ [a.holdCopy "not selected" policy.dryRun] }
  else do
    let nextTotal ← addUsd s.runningTotal a.bid
    if exceedsTotal policy nextTotal then
      return { s with finalActions :=
        s.finalActions ++ [a.blockCopy "budget bid cap exceeded" policy.dryRun] }
    else
      let chosen := a.selectedCopy (s.selected.length + 1) policy.dryRun
      return ⟨s.selected ++ [chosen], s.finalActions ++ [chosen], nextTotal⟩

/-- `BiddingEngine.evaluate`. -/
def evaluateBids (snapshot : SpotPriceSnapshot) (policy : BiddingPolicy) :
    Except PyError BiddingPlan :=
  let plan (actions : List BidAction) : BiddingPlan :=
    ⟨snapshot.observedAt, policy.effectiveMaxPrice, actions, policy.dryRun, policy.budgetAction,
      policy.allowed⟩
  match hardBlockReason policy with
  | some reason =>
      .ok (plan ((sortedPrices snapshot.prices).map fun price =>
        blockedAction price reason policy.dryRun none))
  | none => do
      let candidates ← (sortedPrices snapshot.prices).mapM (candidateAction policy)
      let s ← candidates.foldlM (selectAction policy) ⟨[], [], .zero⟩
      return plan s.finalActions

end Pitwall
