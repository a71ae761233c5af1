import Pitwall.Library.Traversal
import Pitwall.Routing.Values
set_option autoImplicit false

/-!
Stage 1 of the router: the hard constraints that a request puts on a provider.
-/

namespace Pitwall.Routing

inductive EliminationReason where
  | capabilityMismatch | regionMismatch | cudaMismatch | gpuClassMismatch | payloadTooLarge
  deriving DecidableEq, Repr

/-- The result of Stage 1 on one provider. `reason` is the first of `reasons`. -/
structure ConstraintResult where
  providerId : String
  passed : Bool
  reason : Option EliminationReason
  reasons : List EliminationReason
  deriving DecidableEq

structure HardConstraintFilterResult where
  passed : List ProviderLike
  eliminated : List ConstraintResult
  results : List ConstraintResult

/-- `_capability_id`. -/
def expectedCapabilityId (request : RoutingRequest) (capability : Option CapabilityModel)
    (capabilityId : Option String) : Option String :=
  match capabilityId, capability with
  | some id, _ => some id
  | none, some c => some c.id
  | none, none => request.capabilityId

namespace ProviderLike

/-- `_first_config_string`. -/
def firstConfigString (p : ProviderLike) : List String → Option String
  | [] => none
  | key :: keys =>
      match nonEmpty ((p.configValue key).text?.map strip) with
      | some s => some s
      | none => p.firstConfigString keys

/-- `_provider_volume_id` of the constraints, which reads the config alone. -/
def configVolumeId (p : ProviderLike) : Option String :=
  p.firstConfigString ["volume_id", "networkVolumeId", "network_volume_id", "required_volume"]

end ProviderLike

/-- `str(item) for item in raw if item is not None`, or the text itself. -/
def itemTexts (text : PyString) (raw : PyValue) : Except PyError (List String) :=
  match raw.text?, raw.sequence? with
  | some s, _ => .ok [s]
  | none, some items => (items.filter fun v => !v.isNone).mapM text.strOrRaise
  | none, none => .ok []

namespace PyString
variable (text : PyString)

/-- `_provider_cuda_versions`. -/
def providerCudaVersions (p : ProviderLike) : Except PyError (List String) := do
  let allowed ← ["allowed_cuda_versions", "allowedCudaVersions"].mapM fun key =>
    itemTexts text (p.configValue key)
  let single := ["cuda_min", "cuda_version", "cuda"].filterMap fun key =>
    p.firstConfigString [key]
  pure (fromKeys (allowed.flatten ++ single))

/-- `_provider_gpu_classes`. -/
def providerGpuClasses (p : ProviderLike) : Except PyError (List String) := do
  let single := ["gpu_class", "gpu_type", "gpu_type_id"].filterMap fun key =>
    p.firstConfigString [key]
  let several ← ["gpu_classes", "gpu_types", "gpu_type_priority"].mapM fun key =>
    itemTexts text (p.configValue key)
  pure (fromKeys (single ++ several.flatten))

/-- `int(digits)`. -/
def parsePart (digits : String) : Except PyError Int :=
  match text.parseInt digits with
  | some n => .ok n
  | none => .error (valueError s!"invalid literal for int() with base 10: '{digits}'")

/-- `_version_tuple`. The parts without a digit are skipped. -/
def versionTuple (value : String) : Except PyError (Option (List Int)) := do
  let parts := splitAt '.' (replaceChar '_' '.' (strip value))
  let digits := parts.map fun part => String.ofList (part.toList.filter text.isDigit)
  let parsed ← (digits.filter fun d => d ≠ "").mapM text.parsePart
  pure (if parsed.isEmpty then none else some parsed)

/-- `_version_at_least`. -/
def versionAtLeast (candidate required : String) : Except PyError Bool := do
  let parsedCandidate ← text.versionTuple candidate
  let parsedRequired ← text.versionTuple required
  pure (match parsedCandidate, parsedRequired with
    | some c, some r => decide (r ≤ c)
    | _, _ => decide (candidate = required))

/-- `any(_version_at_least(candidate, required) for candidate in candidates)`, which stops at
the first that is. -/
def anyVersionAtLeast (required : String) : List String → Except PyError Bool
  | [] => .ok false
  | candidate :: candidates => do
      if ← text.versionAtLeast candidate required then pure true
      else anyVersionAtLeast required candidates

/-- `_gpu_pieces`. -/
def gpuPieces (value : String) : List String :=
  (splitSpaces (text.upper (replaceChar '-' ' ' (replaceChar '_' ' ' value)))).filter
    fun piece => piece ∉ ["NVIDIA", "GEFORCE", "GENERATION"]

/-- `_normalize_gpu_token`. -/
def normalizeGpuToken (value : String) : String := String.join (text.gpuPieces value)

/-- `_gpu_tokens_overlap`. -/
def gpuTokensOverlap (candidate required : String) : Bool :=
  let candidateToken := text.normalizeGpuToken candidate
  let requiredToken := text.normalizeGpuToken required
  let requiredPieces := text.gpuPieces required
  let candidatePieces := text.gpuPieces candidate
  let piecesMatch := !requiredPieces.isEmpty && requiredPieces.all (· ∈ candidatePieces)
  let suffixMatch := decide (4 ≤ requiredToken.length) &&
    requiredToken.toList.isSuffixOf candidateToken.toList
  piecesMatch || suffixMatch

def gpuClassMatches (required candidate : String) : Bool :=
  candidate = required || text.normalizeGpuToken candidate = text.normalizeGpuToken required ||
    text.gpuTokensOverlap candidate required

/-- `_provider_payload_limit_mb`. -/
def providerPayloadLimitMb (p : ProviderLike) : Option DecimalNumber :=
  let explicit := p.configValue "max_payload_mb"
  let parsed := if explicit.isNone then none else text.decimalOf explicit
  match parsed with
  | some limit => some limit
  | none => if p.providerType = some ProviderType.serverlessLb.value then some (.finite 30) else none

end PyString

section Constraints
variable (text : PyString) (request : RoutingRequest)

/-- `_capability_mismatch`. -/
def capabilityMismatch (p : ProviderLike) (capability : Option CapabilityModel)
    (capabilityId : Option String) : Bool :=
  if capability.any (fun c => request.capabilityName ≠ c.name) then true
  else
    match expectedCapabilityId request capability capabilityId with
    | some expected => p.stringField "capability_id" ≠ some expected
    | none =>
        match p.firstConfigString ["capability_name", "capability"], p.stringField "capability_id" with
        | some name, _ => name ≠ request.capabilityName
        | none, some id => id ≠ request.capabilityName
        | none, none => true

/-- `_region_mismatch`. -/
def regionMismatch (p : ProviderLike) : Bool :=
  if request.requiredRegion.any (fun region => p.stringField "region" ≠ some region) then true
  else
    match request.requiredVolumeId with
    | none => false
    | some volume => p.configVolumeId ≠ some volume

/-- `request.required_cuda_min or request.required_cuda_version`. -/
def requiredCuda : Option String :=
  match nonEmpty request.requiredCudaMin with
  | some version => some version
  | none => request.requiredCudaVersion

/-- `_cuda_mismatch`. -/
def cudaMismatch (p : ProviderLike) : Except PyError Bool :=
  match requiredCuda request with
  | none => .ok false
  | some required => do
      let candidates ← text.providerCudaVersions p
      if candidates.isEmpty then pure true
      else
        let enough ← text.anyVersionAtLeast required candidates
        pure (!enough)

/-- `_gpu_class_mismatch`. -/
def gpuClassMismatch (p : ProviderLike) : Except PyError Bool :=
  match request.requiredGpuClass with
  | none => .ok false
  | some required => do
      let candidates ← text.providerGpuClasses p
      pure (!candidates.any (text.gpuClassMatches required))

def invalidOperation : PyError := ⟨"InvalidOperation", "[<class 'decimal.InvalidOperation'>]"⟩

/-- `_payload_too_large`. A NaN limit cannot be compared, and a product beyond the context
overflows. -/
def payloadTooLarge (p : ProviderLike) : Except PyError Bool :=
  match request.payloadBytes with
  | none => .ok false
  | some payload =>
      match text.providerPayloadLimitMb p with
      | none => .ok false
      | some (.infinite negative) => .ok negative
      | some (.nan _) => .error invalidOperation
      | some (.finite limit) =>
          if DecimalNumber.overflows (limit * (1024 * 1024)) then
            .error ⟨"Overflow", "[<class 'decimal.Overflow'>]"⟩
          else .ok (decide (DecimalNumber.rounded (limit * (1024 * 1024)) < payload))

/-- `_hard_constraint_reasons`. -/
def hardConstraintReasons (p : ProviderLike) (capability : Option CapabilityModel)
    (capabilityId : Option String) : Except PyError (List EliminationReason) := do
  let capabilityReason :=
    if capabilityMismatch request p capability capabilityId then
      [EliminationReason.capabilityMismatch] else []
  let regionReason := if regionMismatch request p then [.regionMismatch] else []
  let cuda ← cudaMismatch text request p
  let gpu ← gpuClassMismatch text request p
  let payload ← payloadTooLarge text request p
  pure (capabilityReason ++ regionReason ++ (if cuda then [.cudaMismatch] else []) ++
    (if gpu then [.gpuClassMismatch] else []) ++ if payload then [.payloadTooLarge] else [])

/-- `evaluate_hard_constraints`. -/
def evaluateHardConstraints (p : ProviderLike) (capability : Option CapabilityModel)
    (capabilityId : Option String) : Except PyError ConstraintResult := do
  let reasons ← hardConstraintReasons text request p capability capabilityId
  let providerId ← p.providerId
  pure ⟨providerId, reasons.isEmpty, reasons.head?, reasons⟩

/-- `filter_hard_constraints`: the providers in their order, each evaluated once. -/
def filterHardConstraints (providers : List ProviderLike) (capability : Option CapabilityModel)
    (capabilityId : Option String) : Except PyError HardConstraintFilterResult := do
  let resolved := expectedCapabilityId request capability capabilityId
  let results ← providers.mapM fun p =>
    (fun result => (p, result)) <$> evaluateHardConstraints text request p capability resolved
  pure
    { passed := (results.filter fun r => r.2.passed).map Prod.fst
      eliminated := (results.map Prod.snd).filter fun r => !r.passed
      results := results.map Prod.snd }

end Constraints

end Pitwall.Routing
