import Pitwall.Cost.RouteSimulator
import Pitwall.Cost.WhatIfAdmission
set_option autoImplicit false

/-!
The time machine: historical decisions replayed through a counterfactual scenario, a report for
each workload and a summary of the reports.
-/

namespace Pitwall.Finops
open Pricing Routing

/-- `_non_empty_string`, of a string. -/
def requireNonEmpty (value name : String) : Except PyError {s : String // s ≠ ""} :=
  if h : value ≠ "" then .ok ⟨value, h⟩
  else .error (valueError s!"{name} must be a non-empty string")

/-- `_optional_usd`. -/
def optionalUsd (value : Option RawAmount) (name : String) : Except PyError (Option UsdAmount) :=
  match value with
  | none => .ok none
  | some value => some <$> WhatIfSimulator.usd value name

/-- `_fallback_chain`. -/
def fallbackChain (values : List String) (actualProviderId : Option String) :
    Except PyError (List String) := do
  let chain ← values.mapM fun value => requireNonEmpty value "actual_fallback_chain"
  return if chain.isEmpty then actualProviderId.toList else chain.map Subtype.val

structure HistoricalRoutingDecision where
  workloadId : String
  request : RoutingRequest
  actualProviderId : Option String
  actualCostUsd : UsdAmount
  payload : EstimatePayload
  actualFallbackChain : List String
  workloadId_ne : workloadId ≠ ""
  actualProviderId_ne : ∀ id, actualProviderId = some id → id ≠ ""

/-- `_optional_non_empty_string`. -/
def optionalNonEmpty (value : Option String) (name : String) :
    Except PyError {s : Option String // ∀ id, s = some id → id ≠ ""} :=
  match value with
  | none => .ok ⟨none, fun _ h => nomatch h⟩
  | some value => do
      let value ← requireNonEmpty value name
      return ⟨some value.val, fun _ h => Option.some.inj h ▸ value.property⟩

/-- `HistoricalRoutingDecision(...)`. -/
def HistoricalRoutingDecision.create (workloadId : String) (request : RoutingRequest)
    (actualProviderId : Option String) (actualCostUsd : RawAmount) (payload : EstimatePayload)
    (actualFallbackChain : List String) : Except PyError HistoricalRoutingDecision := do
  let workloadId ← requireNonEmpty workloadId "workload_id"
  let actual ← optionalNonEmpty actualProviderId "actual_provider_id"
  let cost ← WhatIfSimulator.usd actualCostUsd "actual_cost_usd"
  let chain ← fallbackChain actualFallbackChain actual.val
  return {
    workloadId := workloadId.val
    request := request
    actualProviderId := actual.val
    actualCostUsd := cost
    payload := freezeMapping payload
    actualFallbackChain := chain
    workloadId_ne := workloadId.property
    actualProviderId_ne := actual.property }

/-- The arguments of `CounterfactualScenario(...)`. -/
structure ScenarioInput where
  scenarioId : String
  description : String
  priceOverrides : List (String × PyValue)
  providerOverrides : List (String × List (String × PyValue))
  removedProviderIds : List String
  additionalProviders : List ProviderLike
  availabilitySnapshot : Option AvailabilitySnapshot
  availabilityEntries : List AvailabilityEntryInput
  hints : Option Hints
  observed : Observed
  budgetUsd : Option RawAmount
  currentSpendUsd : Option RawAmount
  maxAttempts : Option Int
  backoffBaseS : Option Binary64

structure CounterfactualScenario where
  scenarioId : String
  description : String
  priceOverrides : List (String × PyValue)
  providerOverrides : List (String × List (String × PyValue))
  removedProviderIds : List String
  additionalProviders : List ProviderLike
  availabilitySnapshot : Option AvailabilitySnapshot
  availabilityEntries : List AvailabilityEntryInput
  hints : Option Hints
  observed : Observed
  budgetUsd : Option UsdAmount
  currentSpendUsd : Option UsdAmount
  maxAttempts : Option Int
  backoffBaseS : Option Binary64

/-- `_freeze_mapping`, of the observed metrics. -/
def freezeObserved : Observed → Observed
  | .byProvider entries => .byProvider (entries.map fun
      | (key, .value v) => (key, .value (freezeValue v))
      | entry => entry)
  | observed => observed

/-- `_validate_max_attempts`. -/
def validateMaxAttempts : Option Int → Except PyError Unit
  | none => .ok ()
  | some value =>
      if value < 1 then .error (valueError "max_attempts must be >= 1") else .ok ()

/-- `_validate_backoff_base_s`. -/
def validateBackoffBaseS : Option Binary64 → Except PyError Unit
  | none => .ok ()
  | some value =>
      if !value.isFinite || value.lt (.ofRat 0) then
        .error (valueError "backoff_base_s must be a finite non-negative number")
      else .ok ()

/-- `CounterfactualScenario(...)`. -/
def CounterfactualScenario.create (input : ScenarioInput) :
    Except PyError CounterfactualScenario := do
  let scenarioId ← requireNonEmpty input.scenarioId "scenario_id"
  let providerOverrides ← input.providerOverrides.mapM fun (id, override) =>
    (fun id => (id.val, freezeMapping override)) <$> requireNonEmpty id "provider_id"
  let removed ← input.removedProviderIds.mapM fun id => requireNonEmpty id "removed_provider_ids"
  if input.availabilitySnapshot.isSome && !input.availabilityEntries.isEmpty then
    .error (valueError "availability_snapshot and availability_entries are mutually exclusive")
  let budget ← optionalUsd input.budgetUsd "budget_usd"
  let spend ← optionalUsd input.currentSpendUsd "current_spend_usd"
  validateMaxAttempts input.maxAttempts
  validateBackoffBaseS input.backoffBaseS
  return {
    scenarioId := scenarioId.val
    description := input.description
    priceOverrides := freezeMapping input.priceOverrides
    providerOverrides := providerOverrides
    removedProviderIds := removed.map Subtype.val
    additionalProviders := freezeProviderSnapshot input.additionalProviders
    availabilitySnapshot := input.availabilitySnapshot
    availabilityEntries := input.availabilityEntries
    hints := input.hints
    observed := freezeObserved input.observed
    budgetUsd := budget
    currentSpendUsd := spend
    maxAttempts := input.maxAttempts
    backoffBaseS := input.backoffBaseS }

/-! The context of a scenario. -/

/-- `_mutable_provider`. -/
def mutableProvider : ProviderLike → List (String × PyValue)
  | .model p => thawMapping p.attributes
  | .mapping entries => thawMapping entries

mutual
/-- What `_merge_mapping` puts at a key, over what is there. -/
def mergeValue (existing : Option PyValue) : PyValue → PyValue
  | .dict entries | .mappingProxy entries =>
      match existing.bind PyValue.mapping? with
      | some base => .dict (mergeEntries (thawMapping base) entries)
      | none => .dict (thawMapping entries)
  | value => thawValue value

/-- The loop of `_merge_mapping`. -/
def mergeEntries (merged : List (String × PyValue)) :
    List (String × PyValue) → List (String × PyValue)
  | [] => merged
  | (key, value) :: entries =>
      mergeEntries (setEntry key (mergeValue (merged.lookup key) value) merged) entries
end

/-- `_merge_mapping`. -/
def mergeMapping (base override : List (String × PyValue)) : List (String × PyValue) :=
  mergeEntries (thawMapping base) override

section Scenario
variable (text : FinopsText)

abbrev ProvidersById := List (String × List (String × PyValue))

/-- The first loop of `_providers_for_scenario`. -/
def collectProviders (removed : List String) :
    ProvidersById → List ProviderLike → Except PyError ProvidersById
  | byId, [] => .ok byId
  | byId, provider :: providers => do
      let copy := mutableProvider provider
      let providerId ← ProviderLike.providerId (.mapping copy)
      if providerId ∈ removed then collectProviders removed byId providers
      else if (byId.lookup providerId).isSome then
        .error (valueError s!"provider {text.repr providerId} appears more than once")
      else collectProviders removed (byId ++ [(providerId, copy)]) providers

/-- The second loop of `_providers_for_scenario`. -/
def overrideProviders :
    ProvidersById → List (String × List (String × PyValue)) → Except PyError ProvidersById
  | byId, [] => .ok byId
  | byId, (providerId, override) :: overrides =>
      match byId.lookup providerId with
      | none => .error (valueError
          s!"provider override {text.repr providerId} did not match a provider")
      | some base =>
          overrideProviders (setEntry providerId (mergeMapping base override) byId) overrides

/-- `_providers_for_scenario`. -/
def providersForScenario (context : PricedContext) (scenario : CounterfactualScenario) :
    Except PyError (List ProviderLike) := do
  let byId ← collectProviders text scenario.removedProviderIds []
    (context.providers ++ scenario.additionalProviders)
  let byId ← overrideProviders text byId scenario.providerOverrides
  return freezeProviderSnapshot (byId.map fun entry => .mapping entry.2)

/-- `_availability_for_scenario`. -/
def availabilityForScenario (context : PricedContext) (scenario : CounterfactualScenario) :
    Except PyError AvailabilitySnapshot :=
  match scenario.availabilitySnapshot with
  | some snapshot => .ok snapshot
  | none =>
      if scenario.availabilityEntries.isEmpty then .ok context.availabilitySnapshot
      else AvailabilitySnapshot.fromEntries text.toPyString scenario.availabilityEntries

/-- `_context_for_scenario`. -/
def contextForScenario (context : PricedContext) (scenario : CounterfactualScenario) :
    Except PyError PricedContext := do
  let providers ← providersForScenario text context scenario
  let snapshot ← availabilityForScenario text context scenario
  PricedContext.replay text.toPyString context.now snapshot providers context.capability

end Scenario

/-! The reports. -/

def defaultMaxAttempts : Int := 3

def defaultBackoffBaseS : Binary64 := .ofRat 1

/-- `_empty_projection`. -/
def emptyProjection (request : RoutingRequest) (scenario : CounterfactualScenario) :
    Except PyError RouteProjection := do
  let spend := scenario.currentSpendUsd.getD .zero
  let headroom ← budgetHeadroom scenario.budgetUsd spend
  return {
    reservedUsd := .zero
    currentSpendUsd := spend
    projectedSpendUsd := spend
    budgetHeadroomUsd := headroom
    wouldExceedBudget := WhatIfSimulator.wouldExceed headroom
    plan := ⟨request, [], [], [], [], scenario.maxAttempts.getD defaultMaxAttempts⟩
    attemptCosts := []
    budgetUsd := scenario.budgetUsd }

structure TimeMachineWorkloadReport where
  workloadId : String
  actualProviderId : Option String
  actualFallbackChain : List String
  actualCostUsd : UsdAmount
  counterfactualProviderId : Option String
  counterfactualFallbackChain : List String
  counterfactualCostUsd : UsdAmount
  costDeltaUsd : ℚ
  routedDifferently : Bool
  projection : RouteProjection

def costDelta (counterfactual actual : UsdAmount) : Except PyError ℚ := do
  let difference ← contextual (counterfactual.value - actual.value)
  signedUsd difference "cost_delta_usd"

section Replay
variable (text : FinopsText) (world : World)

def projectWorkload (decision : HistoricalRoutingDecision) (scenario : CounterfactualScenario)
    (replayContext : PricedContext) (simulator : RouteSimulator) :
    Except PyError RouteProjection :=
  if replayContext.providers.isEmpty then emptyProjection decision.request scenario
  else simulator.simulate text world decision.request decision.payload scenario.hints
    scenario.observed scenario.maxAttempts scenario.backoffBaseS

/-- `_workload_report`. -/
def workloadReport (decision : HistoricalRoutingDecision) (scenario : CounterfactualScenario)
    (replayContext : PricedContext) (simulator : RouteSimulator) :
    Except PyError TimeMachineWorkloadReport := do
  let projection ← projectWorkload text world decision scenario replayContext simulator
  let providerId := projection.plan.selectedProviderId
  let chain := projection.plan.fallbackChain
  let delta ← costDelta projection.reservedUsd decision.actualCostUsd
  return {
    workloadId := decision.workloadId
    actualProviderId := decision.actualProviderId
    actualFallbackChain := decision.actualFallbackChain
    actualCostUsd := decision.actualCostUsd
    counterfactualProviderId := providerId
    counterfactualFallbackChain := chain
    counterfactualCostUsd := projection.reservedUsd
    costDeltaUsd := delta
    routedDifferently :=
      decision.actualProviderId != providerId || decision.actualFallbackChain != chain
    projection := projection }

end Replay

/-- `_provider_counts`, before the sort. -/
def countProviders : List (String × Nat) → List (Option String) → List (String × Nat)
  | counts, [] => counts
  | counts, none :: providerIds => countProviders counts providerIds
  | counts, some providerId :: providerIds =>
      countProviders (setEntry providerId ((counts.lookup providerId).getD 0 + 1) counts)
        providerIds

/-- `dict(sorted(counts.items()))`. -/
def sortedCounts (counts : List (String × Nat)) : List (String × Nat) :=
  sortedBy (fun a b => a.1 < b.1) counts

/-- `_provider_counts`. -/
def providerCounts (providerIds : List (Option String)) : List (String × Nat) :=
  sortedCounts (countProviders [] providerIds)

/-- `_freeze_counts`. -/
def freezeCounts (counts : List (String × Nat)) (name : String) :
    Except PyError (List (String × Nat)) := do
  let frozen ← counts.foldlM (fun frozen (entry : String × Nat) => do
    let providerId ← requireNonEmpty entry.1 s!"{name} key"
    return setEntry providerId.val entry.2 frozen) []
  return sortedCounts frozen

structure TimeMachineSummary where
  workloadCount : Nat
  changedRouteCount : Nat
  unroutableCount : Nat
  actualTotalUsd : UsdAmount
  counterfactualTotalUsd : UsdAmount
  costDeltaUsd : ℚ
  actualProviderCounts : List (String × Nat)
  counterfactualProviderCounts : List (String × Nat)

/-- `TimeMachineSummary(...)`. -/
def TimeMachineSummary.create (summary : TimeMachineSummary) :
    Except PyError TimeMachineSummary := do
  let actual ← usdAmount summary.actualTotalUsd.value "actual_total_usd"
  let counterfactual ← usdAmount summary.counterfactualTotalUsd.value "counterfactual_total_usd"
  let delta ← signedUsd summary.costDeltaUsd "cost_delta_usd"
  let actualCounts ← freezeCounts summary.actualProviderCounts "actual_provider_counts"
  let counterfactualCounts ←
    freezeCounts summary.counterfactualProviderCounts "counterfactual_provider_counts"
  return { summary with
    actualTotalUsd := actual
    counterfactualTotalUsd := counterfactual
    costDeltaUsd := delta
    actualProviderCounts := actualCounts
    counterfactualProviderCounts := counterfactualCounts }

/-- `_usd(sum(amounts, _ZERO_USD), name)`. -/
def totalUsd (amounts : List UsdAmount) (name : String) : Except PyError UsdAmount := do
  let total ← amounts.foldlM (fun total amount => contextual (total + amount.value)) 0
  usdAmount total name

/-- `_summary`. -/
def summary (workloads : List TimeMachineWorkloadReport) : Except PyError TimeMachineSummary := do
  let actual ← totalUsd (workloads.map (·.actualCostUsd)) "actual_total_usd"
  let counterfactual ←
    totalUsd (workloads.map (·.counterfactualCostUsd)) "counterfactual_total_usd"
  let delta ← costDelta counterfactual actual
  TimeMachineSummary.create {
    workloadCount := workloads.length
    changedRouteCount := workloads.countP (·.routedDifferently)
    unroutableCount := workloads.countP (·.counterfactualProviderId.isNone)
    actualTotalUsd := actual
    counterfactualTotalUsd := counterfactual
    costDeltaUsd := delta
    actualProviderCounts := providerCounts (workloads.map (·.actualProviderId))
    counterfactualProviderCounts := providerCounts (workloads.map (·.counterfactualProviderId)) }

structure TimeMachineReport where
  scenario : CounterfactualScenario
  workloads : List TimeMachineWorkloadReport
  summary : TimeMachineSummary

def replaySimulator (replayContext : PricedContext) (scenario : CounterfactualScenario) :
    RouteSimulator where
  baseContext := replayContext
  priceOverrides := scenario.priceOverrides
  budgetUsd := scenario.budgetUsd
  currentSpendUsd := scenario.currentSpendUsd.getD .zero
  maxAttempts := scenario.maxAttempts.getD defaultMaxAttempts
  backoffBaseS := scenario.backoffBaseS.getD defaultBackoffBaseS

/-- `TimeMachineReplay.replay`. -/
def replay (text : FinopsText) (world : World) (historicalContext : PricedContext)
    (scenario : CounterfactualScenario) (decisions : List HistoricalRoutingDecision) :
    Except PyError TimeMachineReport := do
  let replayContext ← contextForScenario text historicalContext scenario
  let workloads ← decisions.mapM fun decision =>
    workloadReport text world decision scenario replayContext
      (replaySimulator replayContext scenario)
  let summary ← summary workloads
  return ⟨scenario, workloads, summary⟩

end Pitwall.Finops
