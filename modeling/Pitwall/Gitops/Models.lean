import Pitwall.Core.Clock
import Pitwall.Core.Json
import Pitwall.Core.Providers
import Pitwall.Library.Binary64
import Pitwall.Cost.Estimator
set_option autoImplicit false

/-!
The models of the registry and of the desired state, with Python's equality of JSON values.
-/

namespace Pitwall

namespace Json

def rational? : Json → Option ℚ
  | .bool b => some (if b then 1 else 0)
  | .int n => some n
  | .float (.finite q) =>
      match Binary64.ofRat q with
      | .finite x => some x.1
      | _ => none
  | _ => none

@[simp] theorem rational?_null : rational? .null = none := rfl

@[simp] theorem rational?_bool (b : Bool) : rational? (.bool b) = some (if b then 1 else 0) := rfl

@[simp] theorem rational?_int (n : Int) : rational? (.int n) = some (n : ℚ) := rfl

@[simp] theorem rational?_str (s : String) : rational? (.str s) = none := rfl

/-- `==` of values other than texts and containers. -/
def scalarEq : Json → Json → Bool
  | .null, .null => true
  | .float (.infinite a), .float (.infinite b) => a = b
  | a, b =>
      match rational? a, rational? b with
      | some p, some q => p = q
      | _, _ => false

mutual
/-- `==`. Numbers of different types are compared by their values; the keys of an object have no
order. -/
def pyEq : Json → Json → Bool
  | .str a, .str b => a = b
  | .arr xs, .arr ys => pyEqItems xs ys
  | .obj d, .obj e => decide (d.length = e.length) && pyEqFields d e
  | a, b => scalarEq a b

def pyEqItems : List Json → List Json → Bool
  | [], [] => true
  | x :: xs, y :: ys => pyEq x y && pyEqItems xs ys
  | _, _ => false

def pyEqFields : JsonObject → JsonObject → Bool
  | [], _ => true
  | (key, x) :: d, e =>
      match e.lookup key with
      | some y => pyEq x y && pyEqFields d e
      | none => false
end

end Json

namespace Gitops
open Routing (CapabilitySource)
open Pricing (CostMode)

abbrev NonEmptyString := { s : String // s ≠ "" }

/-- An optional string, where `or` goes on at the empty one. -/
def given : Option String → Option NonEmptyString
  | some s => if h : s = "" then none else some ⟨s, h⟩
  | none => none

inductive CapabilityClass where
  | embedding | rerank | llm | vision | transcribe | gpuLease | custom
  deriving DecidableEq

def CapabilityClass.value : CapabilityClass → String
  | .embedding => "embedding"
  | .rerank => "rerank"
  | .llm => "llm"
  | .vision => "vision"
  | .transcribe => "transcribe"
  | .gpuLease => "gpu_lease"
  | .custom => "custom"

def costModeValue : CostMode → String
  | .perSecond => "per_second"
  | .perRequest => "per_request"
  | .perToken => "per_token"

inductive ResultDelivery where
  | sync | async
  deriving DecidableEq

def ResultDelivery.value : ResultDelivery → String
  | .sync => "sync"
  | .async => "async"

inductive CapabilityHint where
  | latencySensitive | costSensitive | regionPreference
  deriving DecidableEq

def CapabilityHint.value : CapabilityHint → String
  | .latencySensitive => "latency_sensitive"
  | .costSensitive => "cost_sensitive"
  | .regionPreference => "region_preference"

structure CapabilityDefaults where
  executionTimeoutMs : Nat
  ttlMs : Nat
  resultDelivery : ResultDelivery

/-- `model_dump(mode="json")`. -/
def CapabilityDefaults.modelDump (defaults : CapabilityDefaults) : Json :=
  .obj [("execution_timeout_ms", .int defaults.executionTimeoutMs),
    ("ttl_ms", .int defaults.ttlMs), ("result_delivery", .str defaults.resultDelivery.value)]

/-- The model `Capability`. -/
structure CapabilityModel where
  id : NonEmptyString
  name : NonEmptyString
  version : NonEmptyString
  capabilityClass : CapabilityClass
  description : Option String
  inputSchema : JsonObject
  outputSchema : JsonObject
  defaults : CapabilityDefaults
  costMode : CostMode
  hintsSupported : List CapabilityHint
  source : CapabilitySource
  lastAppliedYamlHash : Option String
  enabled : Bool
  createdAt : Instant
  updatedAt : Instant

structure ProviderHealth where
  healthStatus : String
  consecutiveFailures : Nat
  cooldownTrips : Nat
  coldStartP50Ms : Option Nat
  coldStartP95Ms : Option Nat
  recentErrorRate : PyFloat
  cooldownUntil : Option Instant

/-- The model `Provider`. -/
structure ProviderModel where
  id : NonEmptyString
  capabilityId : NonEmptyString
  name : NonEmptyString
  providerType : ProviderType
  runpodEndpointId : Option String
  runpodTemplateId : Option String
  region : Option String
  cloudType : Option String
  config : JsonObject
  priority : Nat
  enabled : Bool
  health : ProviderHealth
  source : CapabilitySource
  lastAppliedYamlHash : Option String
  updatedAt : Instant

structure DesiredCapabilitySpec where
  id : Option String
  name : NonEmptyString
  version : NonEmptyString
  capabilityClass : CapabilityClass
  description : Option String
  inputSchema : JsonObject
  outputSchema : JsonObject
  defaults : CapabilityDefaults
  costMode : CostMode
  hintsSupported : List CapabilityHint
  enabled : Bool
  yamlHash : String

structure DesiredProviderSpec where
  id : Option String
  capability : Option String
  capabilityId : Option String
  capabilityName : Option String
  name : NonEmptyString
  providerType : ProviderType
  runpodEndpointId : Option String
  runpodTemplateId : Option String
  region : Option String
  cloudType : Option String
  config : JsonObject
  priority : Nat
  enabled : Bool
  yamlHash : String
  singleReference : (([capability, capabilityId, capabilityName].filterMap fun ref => ref).length) = 1

/-- `GitOpsConfigError`. -/
def gitOpsConfigError (message : String) : PyError := ⟨"GitOpsConfigError", message⟩

/-- `capability_ref`; an empty reference counts as none, and an empty name is looked up in vain. -/
def DesiredProviderSpec.capabilityRef (spec : DesiredProviderSpec) :
    Except PyError NonEmptyString :=
  match ((given spec.capability).or (given spec.capabilityId)).or (given spec.capabilityName) with
  | some ref => .ok ref
  | none =>
      if spec.capabilityName.isSome then
        .error (gitOpsConfigError "provider references unknown capability: ")
      else .error (gitOpsConfigError
        "provider must include capability, capability_id, or capability_name")

/-- `DesiredState`, with what its validator rejects. -/
structure DesiredState where
  capabilities : List DesiredCapabilitySpec
  providers : List DesiredProviderSpec
  capabilityNames : (capabilities.map DesiredCapabilitySpec.name).Nodup
  providerNames : (providers.map DesiredProviderSpec.name).Nodup
  capabilityIds : (capabilities.filterMap DesiredCapabilitySpec.id).Nodup
  providerIds : (providers.filterMap DesiredProviderSpec.id).Nodup

end Gitops

end Pitwall
