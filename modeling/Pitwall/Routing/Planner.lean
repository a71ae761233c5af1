import Pitwall.Library.Sorting
import Pitwall.Routing.Constraints
import Pitwall.Routing.Cooldown
import Pitwall.Routing.Scoring
set_option autoImplicit false

/-!
`plan_route`: the hard constraints, the health and cooldown gate, the ranking by score, the
capacity check of the pod leases, and the chain of attempts.
-/

namespace Pitwall.Routing

inductive ProviderEliminated where
  | constraint (reason : EliminationReason)
  | disabled | healthUnhealthy | healthCooldown | capacityUnavailable
  deriving DecidableEq, Repr

structure RouteElimination where
  providerId : String
  stage : Nat
  reason : ProviderEliminated
  reasons : List ProviderEliminated
  deriving DecidableEq

/-- `RouteElimination(...)`: without `reasons`, the `reason` is the one of them. -/
def routeElimination (providerId : String) (stage : Nat) (reason : ProviderEliminated)
    (reasons : List ProviderEliminated) : RouteElimination :=
  match reasons with
  | [] => ⟨providerId, stage, reason, [reason]⟩
  | first :: rest => ⟨providerId, stage, first, first :: rest⟩

structure CapacityProbeKey where
  datacenter : String
  gpuName : String
  cloudType : String
  gpuCount : Int
  deriving DecidableEq

structure CapacityDecision where
  providerId : String
  available : Option Bool
  reason : String
  keys : List CapacityProbeKey
  selectedKey : Option CapacityProbeKey
  deriving DecidableEq

/-- An availability reader. It may keep a state and may raise. -/
structure CapacityReader (σ : Type) where
  isAvailable : σ → CapacityProbeKey → Except PyError (Option Bool × σ)

structure RouteCandidate where
  providerId : String
  provider : ProviderLike
  rank : Nat
  score : Binary64
  scoreExplanation : ScoreExplanation
  fallbackFor : List String
  explicitFallbackChain : List String

structure RouteAttempt where
  providerId : String
  provider : ProviderLike
  attempt : Nat
  score : Binary64
  scoreExplanation : ScoreExplanation
  backoffBeforeAttemptS : Binary64

@[ext] structure RoutePlan where
  request : RoutingRequest
  attempts : List RouteAttempt
  rankedCandidates : List RouteCandidate
  eliminated : List RouteElimination
  capacityDecisions : List CapacityDecision
  maxAttempts : Int

/-- `_validate_plan_options`. -/
def validatePlanOptions (maxAttempts : Int) (backoffBaseS : Binary64) : Except PyError Unit :=
  if maxAttempts < 1 then .error (valueError "max_attempts must be >= 1")
  else if !backoffBaseS.isFinite || backoffBaseS.lt (.ofRat 0) then
    .error (valueError "backoff_base_s must be a finite non-negative number")
  else .ok ()

/-! Stages 1 and 2. -/

/-- `_stage1_elimination`. -/
def stage1Elimination (result : ConstraintResult) : Except PyError RouteElimination :=
  if result.providerId = "" then .error (valueError "constraint result must include provider_id")
  else
    match result.reasons.map ProviderEliminated.constraint with
    | [] => .error (valueError "failed constraint result must include reasons")
    | first :: rest => .ok (routeElimination result.providerId 1 first (first :: rest))

/-- `_health_status`. -/
def healthStatus (text : PyString) (p : ProviderLike) : String :=
  text.lower ((p.stringField "health_status").getD "unknown")

/-- `enabled is False`. -/
def isDisabled (p : ProviderLike) : Bool :=
  match p.field "enabled" with
  | .bool false => true
  | _ => false

/-- `_stage2_elimination_reasons`. -/
def stage2EliminationReasons (text : PyString) (now : Instant) (p : ProviderLike) :
    Except PyError (List ProviderEliminated) := do
  let cooling ← isInCooldown text now p
  pure ((if isDisabled p then [.disabled] else []) ++
    (if healthStatus text p = "unhealthy" then [.healthUnhealthy] else []) ++
    if cooling then [.healthCooldown] else [])

/-- A round of the loop of Stage 2: the provider, its id and the reasons against it. -/
def stage2Round (text : PyString) (now : Instant) (p : ProviderLike) :
    Except PyError (ProviderLike × String × List ProviderEliminated) := do
  let providerId ← p.providerId
  let reasons ← stage2EliminationReasons text now p
  pure (p, providerId, reasons)

def stage2Elimination : ProviderLike × String × List ProviderEliminated → Option RouteElimination
  | (_, _, []) => none
  | (_, providerId, first :: rest) => some (routeElimination providerId 2 first (first :: rest))

/-! Stage 3. -/

/-- One value of the mapping that `observed` may be. -/
inductive ObservedValue where
  | metrics (m : ObservedMetrics)
  | value (v : PyValue)

/-- `ObservedMetrics | Mapping | None`. -/
inductive Observed where
  | none
  | metrics (m : ObservedMetrics)
  | byProvider (entries : List (String × ObservedValue))

def ObservedValue.toFloat (text : PyString) : ObservedValue → Except PyError PyFloat
  | .metrics _ => .error ⟨"TypeError",
      "float() argument must be a string or a real number, not 'ObservedMetrics'"⟩
  | .value v => text.floatOf v

/-- `_coerce_observed_metrics`, of an entry or of a missing one. -/
def coerceObservedMetrics (text : PyString) : Option ObservedValue → Except PyError ObservedMetrics
  | none => .ok .default
  | some (.metrics m) => .ok m
  | some (.value v) =>
      match v, v.mapping? with
      | .none, _ => .ok .default
      | _, some entries =>
          ObservedMetrics.mk <$> text.floatOf
            ((entries.lookup "recent_error_rate").getD (.float (.finite 0)))
      | .bool _, none => .error (valueError "observed recent_error_rate must be numeric")
      | v, none => ObservedMetrics.mk <$> text.floatOf v

/-- `_observed_for_provider`. -/
def observedForProvider (text : PyString) (providerId : String) :
    Observed → Except PyError ObservedMetrics
  | .none => .ok .default
  | .metrics m => .ok m
  | .byProvider entries =>
      match entries.lookup "recent_error_rate" with
      | some v => ObservedMetrics.mk <$> v.toFloat text
      | none => coerceObservedMetrics text (entries.lookup providerId)

/-- `_string_tuple`, without its repetitions. -/
def stringTuple (v : PyValue) : Except PyError (List String) :=
  match v, v.sequence? with
  | .none, _ => .ok []
  | .str s, _ => .ok (if s = "" then [] else [s])
  | _, none => .error
      (valueError "fallback provider ids must be strings or sequences of strings")
  | _, some items =>
      fromKeys <$> items.mapM fun item =>
        match nonEmpty item.text? with
        | some s => .ok s
        | none => .error (valueError "fallback provider ids must be non-empty strings")

namespace ProviderLike
variable (p : ProviderLike)

/-- `_fallback_for`. -/
def fallbackFor : Except PyError (List String) :=
  stringTuple (.firstPresent [p.field "fallback_for", p.configValue "fallback_for"])

/-- `_explicit_fallback_chain`. -/
def explicitFallbackChain : Except PyError (List String) :=
  stringTuple (.firstPresent [p.field "fallback_chain", p.configValue "fallback_chain",
    p.configValue "fallback_provider_ids", p.configValue "fallbacks"])

/-- `_priority`. -/
def priority (text : PyString) : Except PyError Int :=
  match p.field "priority" with
  | .none => .ok 0
  | .bool _ => .error (valueError "priority must be an integer")
  | v => text.intOf v

/-- `_name`. -/
def name : String := (p.stringField "name").getD ""

end ProviderLike

/-- `_candidate_for_provider`. -/
def candidateForProvider (text : PyString) (hints : Hints) (observed : Observed)
    (p : ProviderLike) : Except PyError RouteCandidate := do
  let providerId ← p.providerId
  let metrics ← observedForProvider text providerId observed
  let explanation ← explainScore text p hints metrics
  let fallbackFor ← p.fallbackFor
  let explicitFallbackChain ← p.explicitFallbackChain
  pure ⟨providerId, p, 0, explanation.finalScore, explanation, fallbackFor, explicitFallbackChain⟩

structure SortKey where
  negatedScore : Binary64
  priority : Int
  name : String
  providerId : String
  deriving DecidableEq

/-- The comparison of `(-score, priority, name, provider_id)`: the first two components that
are not `==` decide. -/
def SortKey.rankLt (a b : SortKey) : Bool :=
  if !a.negatedScore.eq b.negatedScore then a.negatedScore.lt b.negatedScore
  else if a.priority ≠ b.priority then decide (a.priority < b.priority)
  else if a.name ≠ b.name then decide (a.name < b.name)
  else decide (a.providerId < b.providerId)

/-- The comparison of `(priority, -score, name, provider_id)`. -/
def SortKey.fallbackLt (a b : SortKey) : Bool :=
  if a.priority ≠ b.priority then decide (a.priority < b.priority)
  else if !a.negatedScore.eq b.negatedScore then a.negatedScore.lt b.negatedScore
  else if a.name ≠ b.name then decide (a.name < b.name)
  else decide (a.providerId < b.providerId)

/-- The components of `_candidate_sort_key` and `_fallback_sort_key`. -/
def candidateSortKey (text : PyString) (c : RouteCandidate) : Except PyError SortKey := do
  let priority ← c.provider.priority text
  pure ⟨c.score.neg, priority, c.provider.name, c.providerId⟩

def keyed (text : PyString) (c : RouteCandidate) : Except PyError (SortKey × RouteCandidate) :=
  (fun key => (key, c)) <$> candidateSortKey text c

/-- `_rank_candidates`. -/
def rankCandidates (text : PyString) (candidates : List RouteCandidate) :
    Except PyError (List RouteCandidate) := do
  let pairs ← candidates.mapM (keyed text)
  pure (((sortedBy (fun a b => a.1.rankLt b.1) pairs).zipIdx 1).map fun (pair, rank) =>
    { pair.2 with rank := rank })

/-! Stage 4. -/

/-- `_is_pod_lease_provider`. -/
def isPodLeaseProvider (p : ProviderLike) : Bool := p.providerType = some ProviderType.podLease.value

/-- `_non_empty_string`. -/
def nonEmptyString (v : PyValue) : Option String := nonEmpty (v.text?.map strip)

namespace ProviderLike
variable (p : ProviderLike)

/-- `_first_config_or_field_string`. -/
def firstConfigOrFieldString : List String → Option String
  | [] => none
  | key :: keys =>
      match nonEmptyString (p.field key), nonEmptyString (p.configValue key) with
      | some s, _ => some s
      | none, some s => some s
      | none, none => firstConfigOrFieldString keys

/-- `_capacity_datacenter`. -/
def capacityDatacenter : Option String :=
  let ids := PyValue.firstPresent [p.configValue "dataCenterIds", p.configValue "data_center_ids"]
  let otherwise := p.firstConfigOrFieldString
    ["data_center_id", "dataCenterId", "datacenter", "data_center", "region"]
  match ids.text?, ids.sequence? with
  | some _, _ => nonEmptyString ids
  | none, some items => (items.findSome? nonEmptyString).or otherwise
  | none, none => otherwise

/-- `_provider_volume_id` of the planner. -/
def providerVolumeId : Option String :=
  p.firstConfigOrFieldString ["volume_id", "networkVolumeId", "network_volume_id", "required_volume"]

/-- `_capacity_cloud_type`. -/
def capacityCloudType (text : PyString) : String :=
  let normalized := text.upper ((p.firstConfigOrFieldString ["cloud_type", "cloudType"]).getD "SECURE")
  if normalized = "ALL" ∧ p.providerVolumeId.isSome then "SECURE" else normalized

/-- `_capacity_gpu_count`. An infinite float raises `OverflowError`, which is not caught. -/
def capacityGpuCount (text : PyString) : Except PyError (Option Int) :=
  match PyValue.firstPresent [p.field "gpu_count", p.field "gpuCount", p.configValue "gpu_count",
    p.configValue "gpuCount"] with
  | .none => .ok (some 1)
  | .bool _ => .ok none
  | raw =>
      match text.intOf raw with
      | .ok count => .ok (if count < 1 then none else some count)
      | .error e => if e.type = "TypeError" ∨ e.type = "ValueError" then .ok none else .error e

def capacityGpuNamesAt (text : PyString) (key : String) : Except PyError (List String) :=
  let raw := p.configValue key
  match raw.text?, raw.sequence? with
  | some s, _ => .ok (if s = "availability" then [] else [s])
  | none, some items =>
      (fun texts => (texts.map strip).filter fun s => s ≠ "") <$>
        (items.filter fun v => !v.isNone).mapM text.strOrRaise
  | none, none => .ok []

/-- `_capacity_gpu_names`. -/
def capacityGpuNames (text : PyString) (request : RoutingRequest) : Except PyError (List String) :=
  match nonEmpty request.requiredGpuClass with
  | some required => .ok [required]
  | none => do
      let single := ["gpu_name", "gpu_type", "gpu_type_id", "gpu_class"].filterMap fun key =>
        p.firstConfigOrFieldString [key]
      let several ← ["gpu_names", "gpu_types", "gpuTypeIds", "gpu_classes",
        "gpu_type_priority"].mapM (p.capacityGpuNamesAt text)
      pure (fromKeys (single ++ several.flatten))

/-- `_capacity_keys_for_provider`. -/
def capacityKeys (text : PyString) (request : RoutingRequest) :
    Except PyError (List CapacityProbeKey) := do
  let gpuCount ← p.capacityGpuCount text
  let gpuNames ← p.capacityGpuNames text request
  pure (match p.capacityDatacenter, gpuCount with
    | some datacenter, some count =>
        gpuNames.map fun gpuName => ⟨datacenter, gpuName, p.capacityCloudType text, count⟩
    | _, _ => [])

end ProviderLike

section Capacity
variable {σ : Type} (text : PyString) (request : RoutingRequest) (reader : CapacityReader σ)

def probeKeys (sawUnknown : Bool) : List CapacityProbeKey → σ →
    Except PyError ((Option Bool × Option CapacityProbeKey) × σ)
  | [], s => .ok ((if sawUnknown then none else some false, none), s)
  | key :: keys, s => do
      let (available, s') ← reader.isAvailable s key
      match available with
      | some true => pure ((some true, some key), s')
      | some false => probeKeys sawUnknown keys s'
      | none => probeKeys true keys s'

def capacityReason : Option Bool → String
  | some true => "available"
  | some false => "capacity_unavailable"
  | none => "capacity_unknown"

/-- `_capacity_decision_for_candidate`. -/
def capacityDecisionForCandidate (c : RouteCandidate) (s : σ) :
    Except PyError (CapacityDecision × σ) := do
  let keys ← c.provider.capacityKeys text request
  if keys.isEmpty then pure (⟨c.providerId, none, "missing_capacity_key", [], none⟩, s)
  else
    let ((available, selected), s') ← probeKeys reader false keys s
    pure (⟨c.providerId, available, capacityReason available, keys, selected⟩, s')

structure Stage4 where
  available : List RouteCandidate
  decisions : List CapacityDecision
  eliminated : List RouteElimination

/-- `_apply_stage4_capacity`. -/
def applyStage4Capacity : List RouteCandidate → σ → Except PyError Stage4
  | [], _ => .ok ⟨[], [], []⟩
  | c :: cs, s => do
      if !isPodLeaseProvider c.provider then
        let rest ← applyStage4Capacity cs s
        pure { rest with available := c :: rest.available }
      else
        let (decision, s') ← capacityDecisionForCandidate text request reader c s
        let rest ← applyStage4Capacity cs s'
        pure (if decision.available = some true then
            ⟨c :: rest.available, decision :: rest.decisions, rest.eliminated⟩
          else ⟨rest.available, decision :: rest.decisions,
            routeElimination c.providerId 4 .capacityUnavailable [] :: rest.eliminated⟩)

end Capacity

/-! The chain of attempts. -/

/-- `_select_primary_candidate`, of a list that is not empty. -/
def selectPrimaryCandidate (first : RouteCandidate) (rest : List RouteCandidate) : RouteCandidate :=
  let ranked := first :: rest
  let explicitIds := ranked.flatMap RouteCandidate.explicitFallbackChain
  (ranked.find? fun c => c.fallbackFor.isEmpty && c.providerId ∉ explicitIds).getD first

/-- `by_id.get(provider_id)`; of equal ids the last wins. -/
def candidateById (ranked : List RouteCandidate) (providerId : String) : Option RouteCandidate :=
  ranked.reverse.find? fun c => c.providerId = providerId

def followChain (ranked : List RouteCandidate) : List String → List String → List RouteCandidate
  | [], _ => []
  | providerId :: chain, seen =>
      match candidateById ranked providerId with
      | some c =>
          if c.providerId ∈ seen then followChain ranked chain seen
          else c :: followChain ranked chain (c.providerId :: seen)
      | none => followChain ranked chain seen

/-- `_fallback_candidates`. -/
def fallbackCandidates (text : PyString) (selected : RouteCandidate)
    (ranked : List RouteCandidate) : Except PyError (List RouteCandidate) :=
  if selected.explicitFallbackChain.isEmpty then do
    let related := ranked.filter fun c =>
      selected.providerId ∈ c.fallbackFor && c.providerId ≠ selected.providerId
    let pairs ← related.mapM (keyed text)
    pure ((sortedBy (fun a b => a.1.fallbackLt b.1) pairs).map Prod.snd)
  else .ok (followChain ranked selected.explicitFallbackChain [selected.providerId])

/-- `_backoff_before_attempt`. An integer from `2 ** 1024` on has no float. -/
def backoffBeforeAttempt (attempt : Nat) (backoffBaseS : Binary64) : Except PyError Binary64 :=
  if attempt = 1 then .ok (.ofRat 0)
  else if 1024 ≤ attempt - 2 then .error ⟨"OverflowError", "int too large to convert to float"⟩
  else .ok (backoffBaseS.mul (.ofRat (2 ^ (attempt - 2))))

def routeAttempt (backoffBaseS : Binary64) : RouteCandidate × Nat → Except PyError RouteAttempt
  | (c, index) =>
      (fun backoff => ⟨c.providerId, c.provider, index, c.score, c.scoreExplanation, backoff⟩) <$>
        backoffBeforeAttempt index backoffBaseS

/-- `_route_attempts`. -/
def routeAttempts (text : PyString) (maxAttempts : Int) (backoffBaseS : Binary64) :
    List RouteCandidate → Except PyError (List RouteAttempt)
  | [] => .ok []
  | first :: rest => do
      let selected := selectPrimaryCandidate first rest
      let fallbacks ← fallbackCandidates text selected (first :: rest)
      (((selected :: fallbacks).take maxAttempts.toNat).zipIdx 1).mapM (routeAttempt backoffBaseS)

/-- The keyword arguments of `plan_route` that no stage changes. -/
structure PlanOptions where
  capability : Option CapabilityModel
  capabilityId : Option String
  hints : Option Hints
  observed : Observed
  maxAttempts : Int
  backoffBaseS : Binary64

def PlanOptions.activeHints (options : PlanOptions) (request : RoutingRequest) : Hints :=
  (options.hints.or request.hints).getD .default

/-- `plan_route` on resolved inputs: the instant, the providers and the reader. -/
def planRoute {σ : Type} (text : PyString) (reader : CapacityReader σ) (state : σ)
    (request : RoutingRequest) (options : PlanOptions) (now : Instant)
    (providers : List ProviderLike) : Except PyError RoutePlan := do
  validatePlanOptions options.maxAttempts options.backoffBaseS
  let stage1 ← filterHardConstraints text request providers options.capability options.capabilityId
  let stage1Eliminated ← stage1.eliminated.mapM stage1Elimination
  let stage2 ← stage1.passed.mapM (stage2Round text now)
  let eligible := (stage2.filter fun round => round.2.2.isEmpty).map Prod.fst
  let candidates ← eligible.mapM
    (candidateForProvider text (options.activeHints request) options.observed)
  let ranked ← rankCandidates text candidates
  let stage4 ← applyStage4Capacity text request reader ranked state
  let attempts ← routeAttempts text options.maxAttempts options.backoffBaseS stage4.available
  pure
    { request := request
      attempts := attempts
      rankedCandidates := ranked
      eliminated := stage1Eliminated ++ stage2.filterMap stage2Elimination ++ stage4.eliminated
      capacityDecisions := stage4.decisions
      maxAttempts := options.maxAttempts }

end Pitwall.Routing
