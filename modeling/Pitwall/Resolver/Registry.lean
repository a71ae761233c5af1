import Pitwall.Cost.Estimator
import Pitwall.Resolver.Service
set_option autoImplicit false

/-!
The tables of capabilities and providers, what the repositories read of them, and the
resolution of an inference request.
-/

namespace Pitwall.Routing
open Pricing

structure Registry where
  capabilities : List PricedCapability
  providers : List ProviderModel
  capabilityIds_nodup : (capabilities.map fun c => c.id).Nodup
  capabilityNames_nodup : (capabilities.map fun c => c.name).Nodup
  providerIds_nodup : (providers.map ProviderModel.id).Nodup

/-- How the database sorts by priority and name: by its collation, rows that are alike in both
in an order of its own. -/
structure RowOrder where
  sort : List ProviderModel → List ProviderModel
  collates : String → String → Bool
  perm : ∀ ps, (sort ps).Perm ps
  sorted : ∀ ps, (sort ps).Pairwise fun p q =>
    p.priority < q.priority ∨ p.priority = q.priority ∧ collates p.name q.name = true

namespace Registry
variable (registry : Registry)

/-- `CapabilityRepository.get`. -/
def capability (id : String) : Option PricedCapability :=
  registry.capabilities.find? fun c => decide (c.id = id)

/-- `CapabilityRepository.get_by_name`. -/
def capabilityByName (name : String) : Option PricedCapability :=
  registry.capabilities.find? fun c => decide (c.name = name)

/-- `ProviderRepository.get`. -/
def provider (id : String) : Option ProviderModel :=
  registry.providers.find? fun p => decide (p.id = id)

def enabledProviders (capabilityId : String) : List ProviderModel :=
  registry.providers.filter fun p => decide (p.capabilityId = capabilityId) && p.enabled

/-- `ProviderRepository.list` of the enabled providers of a capability. -/
def listProviders (order : RowOrder) (capabilityId : String) (limit : Nat) :
    List ProviderModel :=
  (order.sort (registry.enabledProviders capabilityId)).take limit

/-- `resolve_capability_record`. -/
def resolveCapabilityRecord (capabilityName : String) : Except ResolverError PricedCapability :=
  match (registry.capabilityByName capabilityName).or (registry.capability capabilityName) with
  | some capability => .ok capability
  | none => .error (.capabilityNotFound capabilityName)

/-- `_providers_for_request`. -/
def providersForRequest (order : RowOrder) (capability : CapabilityModel)
    (providerId : Option String) (providerLimit : Nat) :
    Except ResolverError (List ProviderModel) :=
  match providerId with
  | some id =>
      match registry.provider id with
      | some provider => .ok [provider]
      | none => .error (.providerNotFound id)
  | none => .ok (registry.listProviders order capability.id providerLimit)

/-- `resolve_capability`. -/
def resolveCapability (text : PyString) (order : RowOrder) (capabilityName : String)
    (providerId : Option String) (request : RoutingRequest) (now : Instant)
    (providerLimit : Nat) : Except ResolverError Stage12Resolution := do
  let capability ← registry.resolveCapabilityRecord capabilityName
  if capability.enabled then
    let providers ← registry.providersForRequest order capability.toCapabilityModel providerId
      providerLimit
    let request := { request with
      capabilityName := capability.name
      capabilityId := some capability.id }
    selectStage12Provider text request providers capability.toCapabilityModel now
  else .error (.capabilityDisabled capability.name)

/-- The default of `provider_limit` in `resolve_inference_target`; no caller gives another. -/
def inferenceProviderLimit : Nat := 10

def inferenceRequest (capabilityId : String) (payloadBytes : Int) : RoutingRequest where
  capabilityName := capabilityId
  payloadBytes := some payloadBytes
  requiredGpuClass := none
  requiredRegion := none
  requiredVolumeId := none
  hints := none
  capabilityId := some capabilityId
  requiredCudaMin := none
  requiredCudaVersion := none
  stream := false

/-- `resolve_inference_target`. -/
def resolveInferenceTarget (text : PyString) (order : RowOrder) (capabilityId : String)
    (providerId : Option String) (payloadBytes : Int) (now : Instant) :
    Except ResolverError Stage12Resolution :=
  registry.resolveCapability text order capabilityId providerId
    (inferenceRequest capabilityId payloadBytes) now inferenceProviderLimit

end Registry

section Reads
variable {registry : Registry} {order : RowOrder}

theorem mem_listProviders {capabilityId : String} {limit : Nat} {p : ProviderModel}
    (h : p ∈ registry.listProviders order capabilityId limit) :
    p ∈ registry.providers ∧ p.capabilityId = capabilityId ∧ p.enabled = true := by
  have hmem := (order.perm _).mem_iff.mp (List.mem_of_mem_take h)
  simpa [Registry.enabledProviders] using hmem

theorem provider_some {id : String} {p : ProviderModel} (h : registry.provider id = some p) :
    p ∈ registry.providers ∧ p.id = id :=
  ⟨List.mem_of_find?_eq_some h, by simpa using List.find?_some h⟩

theorem provider_eq_of_id {p q : ProviderModel} (hp : p ∈ registry.providers)
    (hq : q ∈ registry.providers) (h : p.id = q.id) : p = q :=
  List.inj_on_of_nodup_map registry.providerIds_nodup hp hq h

end Reads

end Pitwall.Routing
