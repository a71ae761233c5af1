import Pitwall.Library.Sorting
import Pitwall.Routing.PlanSafety
set_option autoImplicit false

/-!
The runtime resolver: Stages 1 and 2 for the synchronous path, then the provider with the
lowest priority number.
-/

namespace Pitwall.Routing

inductive ResolverError where
  | capabilityNotFound (capabilityName : String)
  | capabilityDisabled (capabilityName : String)
  | noHealthyProvider (capabilityName : String)
  | providerNotFound (providerId : String)
  | raised (error : PyError)
  deriving DecidableEq

structure Stage12Resolution where
  capability : CapabilityModel
  provider : ProviderModel
  eligibleProviders : List ProviderModel
  eliminated : List RouteElimination

/-- `_stage2_reasons` of the resolver: anything but `healthy` eliminates. -/
def resolverStage2Reasons (text : PyString) (now : Instant) (p : ProviderModel) :
    Except PyError (List ProviderEliminated) := do
  let cooling ← isInCooldown text now (.model p)
  pure ((if !p.enabled then [.disabled] else []) ++
    (if text.lower p.healthStatus ≠ "healthy" then [.healthUnhealthy] else []) ++
    if cooling then [.healthCooldown] else [])

/-- `_provider_priority_key`, compared as a tuple. -/
def priorityLt (a b : ProviderModel) : Bool :=
  if a.priority ≠ b.priority then decide (a.priority < b.priority)
  else if a.name ≠ b.name then decide (a.name < b.name)
  else decide (a.id < b.id)

/-- `Provider` objects of a list of provider-like values that holds nothing else. -/
def ProviderLike.model? : ProviderLike → Option ProviderModel
  | .model p => some p
  | .mapping _ => none

/-- `_stage1_elimination` of the resolver. -/
def resolverStage1Elimination (result : ConstraintResult) : Except PyError RouteElimination :=
  match result.reasons.map ProviderEliminated.constraint with
  | [] => .error (valueError "Stage 1 elimination must include at least one reason")
  | first :: rest => .ok (routeElimination result.providerId 1 first (first :: rest))

def resolverRound (text : PyString) (now : Instant) (p : ProviderModel) :
    Except PyError (ProviderModel × List ProviderEliminated) :=
  (fun reasons => (p, reasons)) <$> resolverStage2Reasons text now p

/-- The eligible providers and the eliminations of `select_stage12_provider`. -/
def stage12Rounds (text : PyString) (request : RoutingRequest) (providers : List ProviderModel)
    (capability : CapabilityModel) (now : Instant) :
    Except PyError (List ProviderModel × List RouteElimination) := do
  let stage1 ← filterHardConstraints text request (providers.map .model) (some capability) none
  let stage1Eliminated ← stage1.eliminated.mapM resolverStage1Elimination
  let rounds ← (stage1.passed.filterMap ProviderLike.model?).mapM (resolverRound text now)
  pure ((rounds.filter fun r => r.2.isEmpty).map Prod.fst,
    stage1Eliminated ++ rounds.filterMap fun r => stage2Elimination (.model r.1, r.1.id, r.2))

/-- `select_stage12_provider`. -/
def selectStage12Provider (text : PyString) (request : RoutingRequest)
    (providers : List ProviderModel) (capability : CapabilityModel) (now : Instant) :
    Except ResolverError Stage12Resolution :=
  match stage12Rounds text request providers capability now with
  | .error e => .error (.raised e)
  | .ok (eligible, eliminated) =>
      match sortedBy priorityLt eligible with
      | [] => .error (.noHealthyProvider capability.name)
      | first :: rest => .ok ⟨capability, first, first :: rest, eliminated⟩

/-- The eligible set of a resolution. Without an eligible provider the resolver raises
`NoHealthyProviderError`. -/
def eligibleOf : Except ResolverError Stage12Resolution → Option (List ProviderModel)
  | .ok resolution => some resolution.eligibleProviders
  | .error (.noHealthyProvider _) => some []
  | .error _ => none

end Pitwall.Routing
