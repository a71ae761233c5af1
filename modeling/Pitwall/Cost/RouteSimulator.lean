import Pitwall.Cost.QuoteRounding
import Pitwall.Cost.Simulator
import Pitwall.Library.Counting
import Pitwall.Routing.Context
set_option autoImplicit false

/-!
`WhatIfSimulator.simulate` over the planner: price overrides on a copy of the records, the plan
in the context that results, and a quote for each attempt.
-/

namespace Pitwall.Routing

mutual
/-- `_thaw_value`. -/
def thawValue : PyValue → PyValue
  | .list items => .tuple (thawItems items)
  | .tuple items => .tuple (thawItems items)
  | .dict entries => .dict (thawMapping entries)
  | .mappingProxy entries => .dict (thawMapping entries)
  | value => value

def thawItems : List PyValue → List PyValue
  | [] => []
  | v :: vs => thawValue v :: thawItems vs

/-- `_mutable_mapping`. -/
def thawMapping : List (String × PyValue) → List (String × PyValue)
  | [] => []
  | (key, v) :: entries => (key, thawValue v) :: thawMapping entries
end

mutual
theorem freezeValue_thawValue : ∀ v, freezeValue (thawValue v) = freezeValue v
  | .list items => by simp [thawValue, freezeValue, freezeItems_thawItems items]
  | .tuple items => by simp [thawValue, freezeValue, freezeItems_thawItems items]
  | .dict entries => by simp [thawValue, freezeValue, freezeMapping_thawMapping entries]
  | .mappingProxy entries => by simp [thawValue, freezeValue, freezeMapping_thawMapping entries]
  | .none | .bool _ | .int _ | .float _ | .str _ | .datetime _ | .other _ => rfl

theorem freezeItems_thawItems : ∀ items, freezeItems (thawItems items) = freezeItems items
  | [] => rfl
  | v :: vs => by simp [thawItems, freezeItems, freezeValue_thawValue v, freezeItems_thawItems vs]

theorem freezeMapping_thawMapping :
    ∀ entries, freezeMapping (thawMapping entries) = freezeMapping entries
  | [] => rfl
  | (key, v) :: entries => by
      simp [thawMapping, freezeMapping, freezeValue_thawValue v, freezeMapping_thawMapping entries]
end

namespace RoutePlan
variable (plan : RoutePlan)

def selectedProviderId : Option String := plan.attempts.head?.map RouteAttempt.providerId

def fallbackChain : List String := plan.attempts.map RouteAttempt.providerId

end RoutePlan

end Pitwall.Routing

namespace Pitwall.Pricing
open Routing

/-- The text functions of the simulator: besides those of the router, `repr` of a string and the
text of `Decimal(str(value))`. -/
structure FinopsText extends PyString where
  repr : String → String
  decimalText : PyValue → String

/-- A `PlanningContext` with what the estimator reads of its capability. -/
structure PricedContext where
  now : Instant
  availabilitySnapshot : AvailabilitySnapshot
  providers : List ProviderLike
  capability : Option PricedCapability

namespace PricedContext

def planning (context : PricedContext) : PlanningContext :=
  ⟨context.now, context.availabilitySnapshot, context.providers,
    context.capability.map PricedCapability.toCapabilityModel⟩

/-- `PlanningContext.replay`, given a snapshot. -/
def replay (text : PyString) (now : Instant) (snapshot : AvailabilitySnapshot)
    (providers : List ProviderLike) (capability : Option PricedCapability) :
    Except PyError PricedContext :=
  (fun context => ⟨context.now, context.availabilitySnapshot, context.providers, capability⟩) <$>
    PlanningContext.replay text (some now) (some snapshot) [] providers
      (capability.map PricedCapability.toCapabilityModel)

theorem replay_eq (text : PyString) (now : Instant) (snapshot : AvailabilitySnapshot)
    (providers : List ProviderLike) (capability : Option PricedCapability) :
    replay text now snapshot providers capability =
      .ok ⟨now, snapshot, freezeProviderSnapshot providers, capability⟩ := rfl

end PricedContext

section Overrides
variable (text : FinopsText)

/-- `_override_cost_mapping`. -/
def overrideCostMapping (providerId : String) (override : PyValue) :
    Except PyError (List (String × PyValue)) :=
  match override.mapping? with
  | none => .error (valueError
      s!"price override for provider {text.repr providerId} must be a mapping")
  | some entries =>
      .ok (((mappingAt entries "config").bind fun config => mappingAt config "cost").getD
        ((mappingAt entries "cost").getD entries))

/-- The text of `_decimal(value, name)`. -/
def decimalTextOf (value : PyValue) (name : String) : Except PyError String :=
  match value, text.decimalOf value with
  | .bool _, _ | _, none => .error (valueError s!"{name} must be a decimal value")
  | _, some (.finite _) => .ok (text.decimalText value)
  | _, some _ => .error (valueError s!"{name} must be finite")

/-- The text of `_score_rate`. -/
def scoreRate (cost : List (String × PyValue)) : Except PyError (Option String) :=
  match cost.lookup "per_second_active" with
  | some rate => some <$> decimalTextOf text rate "per_second_active"
  | none =>
      let kind := ((cost.lookup "kind").or (cost.lookup "model")).bind PyValue.text?
      match kind, cost.lookup "rate_per_second" with
      | some "per_second", some rate | some "per_vm_second", some rate =>
          some <$> decimalTextOf text rate "rate_per_second"
      | _, _ => .ok none

/-- The assignments of a score rate to the copy of a record, or to its config. -/
def setScoreRate (rate : Option String) (entries : List (String × PyValue)) :
    List (String × PyValue) :=
  match rate with
  | none => entries
  | some rate =>
      setEntry "per_second_active" (.str rate) (setEntry "cost_per_second_active" (.str rate) entries)

/-- `_provider_with_price_override`. A record that is not a mapping has no `get`. -/
def providerWithPriceOverride (priceOverrides : List (String × PyValue)) :
    ProviderLike → Except PyError ProviderLike
  | .model _ => .error ⟨"AttributeError", "'Provider' object has no attribute 'get'"⟩
  | .mapping entries => do
      let providerId ← ProviderLike.providerId (.mapping entries)
      match priceOverrides.lookup providerId with
      | none | some .none => return .mapping entries
      | some override =>
          let copy := thawMapping entries
          let overrideCost ← overrideCostMapping text providerId override
          let config := thawMapping ((mappingAt copy "config").getD [])
          let cost := thawMapping overrideCost
          let rate ← scoreRate text cost
          -- the config that is set first is the object that the cost and the rate are put in
          let config := setScoreRate rate (setEntry "cost" (.dict cost) config)
          let copy := setEntry "cost" (.dict cost) (setEntry "config" (.dict config) copy)
          return .mapping (setScoreRate rate copy)

/-- `_context_with_price_overrides`. -/
def contextWithPriceOverrides (context : PricedContext) (priceOverrides : List (String × PyValue)) :
    Except PyError PricedContext := do
  let providers ← context.providers.mapM (providerWithPriceOverride text priceOverrides)
  PricedContext.replay text.toPyString context.now context.availabilitySnapshot providers
    context.capability

end Overrides

section Quotes
variable {text : PyString} {quote : CostQuote} {x : ℚ}

theorem CostQuote.upperBound_range (h : quote.upperBound text = .ok x) : 0 ≤ x ∧ x < 10 ^ 22 := by
  have hbound : quote.pricing.upperBound text quote.capability quote.payload = .ok x := h
  rw [upperBound_eq, Except.bind_eq_ok_iff] at hbound
  obtain ⟨total, htotal, husd⟩ := hbound
  refine ⟨usd_nonneg (upperTotal_nonneg htotal) husd, ?_⟩
  unfold usd at husd
  split at husd
  · cases husd
  · rename_i hsmall
    rw [← Except.ok.inj husd]
    exact not_le.mp hsmall

/-- `upper_bound`, as the amount that it is. -/
def CostQuote.upperBoundAmount (text : PyString) (quote : CostQuote) : Except PyError UsdAmount :=
  match h : quote.upperBound text with
  | .error e => .error e
  | .ok value => .ok ⟨value, (upperBound_range h).1, upperBound_isMultiple h, (upperBound_range h).2⟩

end Quotes

/-- `pricing.kind`. -/
def TaggedPricingModel.kind : TaggedPricingModel → String
  | .gpuHour _ => "gpu_hour"
  | .perRequest _ => "per_request"
  | .perSecond _ _ => "per_second"
  | .perToken _ _ => "per_token"
  | .perVmSecond _ => "per_vm_second"

structure ProviderCostProjection where
  providerId : String
  attempt : Nat
  estimateUsd : ℚ
  upperBoundUsd : UsdAmount
  pricingKind : String
  selected : Bool

section Attempts
variable (text : PyString)

/-- `quote_cost` of a provider. Of a model it reads the cost in the config. -/
def quoteProvider (capability : PricedCapability) (payload : EstimatePayload) :
    ProviderLike → Except PyError CostQuote
  | .mapping entries => quoteCost text capability entries payload
  | .model p =>
      match mappingAt p.config "cost" with
      | some cost => quoteCost text capability [("cost", .dict cost)] payload
      | none => .error (valueError "provider cost must be a mapping or expose a mapping 'cost'")

/-- A round of the loop of `_attempt_costs`. -/
def attemptCost (capability : PricedCapability) (payload : EstimatePayload)
    (attempt : RouteAttempt) : Except PyError ProviderCostProjection := do
  let quote ← quoteProvider text capability payload attempt.provider
  let estimate ← quote.estimate text
  let upperBound ← quote.upperBoundAmount text
  return {
    providerId := attempt.providerId
    attempt := attempt.attempt
    estimateUsd := estimate
    upperBoundUsd := upperBound
    pricingKind := quote.pricing.kind
    selected := attempt.attempt == 1 }

/-- `_attempt_costs`. -/
def attemptCosts (plan : RoutePlan) (capability : PricedCapability) (payload : EstimatePayload) :
    Except PyError (List ProviderCostProjection) :=
  plan.attempts.mapM (attemptCost text capability payload)

end Attempts

/-- A `WhatIfProjection` with its route. -/
structure RouteProjection extends WhatIfProjection where
  plan : RoutePlan
  attemptCosts : List ProviderCostProjection
  budgetUsd : Option UsdAmount

/-- A `WhatIfSimulator` over a context. -/
structure RouteSimulator where
  baseContext : PricedContext
  priceOverrides : List (String × PyValue)
  budgetUsd : Option UsdAmount
  currentSpendUsd : UsdAmount
  maxAttempts : Int
  backoffBaseS : Binary64

namespace RouteSimulator
variable (text : FinopsText) (sim : RouteSimulator)

/-- `_context_for`, without overrides of the call. -/
def contextFor : Except PyError PricedContext :=
  if sim.priceOverrides.isEmpty then .ok sim.baseContext
  else contextWithPriceOverrides text sim.baseContext sim.priceOverrides

/-- `_resolve_capability`. -/
def resolveCapability (context : PricedContext) : Except PyError PricedCapability :=
  match context.capability with
  | some capability => .ok capability
  | none => .error
      (valueError "capability must be supplied directly or through PlanningContext")

def pricedAt (costs : List ProviderCostProjection) : WhatIfSimulator Unit :=
  ⟨fun _ => .ok (costs.map ProviderCostProjection.upperBoundUsd), sim.budgetUsd,
    sim.currentSpendUsd⟩

/-- `simulate`, with the capability, the budget and the spend of the simulator. -/
def simulate (world : World) (request : RoutingRequest) (payload : EstimatePayload)
    (hints : Option Hints) (observed : Observed) (maxAttempts : Option Int)
    (backoffBaseS : Option Binary64) : Except PyError RouteProjection := do
  let context ← sim.contextFor text
  let capability ← resolveCapability context
  let options : PlanOptions := ⟨some capability.toCapabilityModel, none, hints, observed,
    maxAttempts.getD sim.maxAttempts, backoffBaseS.getD sim.backoffBaseS⟩
  let plan ← planRouteIn text.toPyString world request none options (some context.planning) none
    (none : Option (CacheArgument Unit)) none
  let costs ← attemptCosts text.toPyString plan capability payload
  let projection ← (sim.pricedAt costs).simulate sim.currentSpendUsd ()
  return ⟨projection, plan, costs, sim.budgetUsd⟩

end RouteSimulator

end Pitwall.Pricing
