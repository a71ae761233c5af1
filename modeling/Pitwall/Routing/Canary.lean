import Pitwall.Core.Decimals
import Pitwall.Library.Binary64Order
import Pitwall.Library.Traversal
import Pitwall.Routing.Values
set_option autoImplicit false

/-!
`evaluate_canary`: the comparison of a candidate with the baseline, and the decision to promote
it, to hold or to roll back.
-/

namespace Pitwall.Routing.Canary

inductive CanaryDecisionAction where
  | promote | hold | rollback
  deriving DecidableEq, Repr

/-- Aggregated metrics of one provider, with what `__post_init__` checks. -/
structure ProviderMetrics where
  providerId : String
  requestCount : ℕ
  successCount : ℕ
  latencyMsTotal : ℚ
  latencySampleCount : ℕ
  costUsdTotal : ℚ
  costSampleCount : ℕ
  qualityScoreTotal : { q : ℚ // Representable q }
  qualitySampleCount : ℕ
  providerId_ne : providerId ≠ ""
  success_le : successCount ≤ requestCount
  latencySample_le : latencySampleCount ≤ requestCount
  costSample_le : costSampleCount ≤ requestCount
  qualitySample_le : qualitySampleCount ≤ requestCount
  latency_nonneg : 0 ≤ latencyMsTotal
  cost_nonneg : 0 ≤ costUsdTotal
  quality_nonneg : 0 ≤ qualityScoreTotal.1

structure CanaryComparison where
  baseline : ProviderMetrics
  candidate : ProviderMetrics
  ids_ne : baseline.providerId ≠ candidate.providerId

structure CanaryPromotionPolicy where
  minBaselineSamples : Int
  minCandidateSamples : Int
  minSuccessRateDelta : Binary64
  minQualityDelta : Binary64
  maxLatencyRatio : Binary64
  maxCostRatio : Binary64
  rollbackSuccessRateDelta : Binary64
  rollbackQualityDelta : Binary64
  rollbackLatencyRatio : Binary64
  rollbackCostRatio : Binary64

/-- `_DEFAULT_PROMOTION_POLICY`. -/
def defaultPromotionPolicy : CanaryPromotionPolicy where
  minBaselineSamples := 1
  minCandidateSamples := 1
  minSuccessRateDelta := .ofRat 0
  minQualityDelta := .ofRat 0
  maxLatencyRatio := .ofRat 1
  maxCostRatio := .ofRat 1
  rollbackSuccessRateDelta := .ofRat (-1 / 20)
  rollbackQualityDelta := .ofRat (-1 / 20)
  rollbackLatencyRatio := .ofRat (5 / 4)
  rollbackCostRatio := .ofRat (5 / 4)

structure CanaryPromotionDecision where
  action : CanaryDecisionAction
  reason : String
  baseline : ProviderMetrics
  candidate : ProviderMetrics
  signals : List String

/-- `float(n)` of a count, as the divisor of a float. -/
def floatOfCount (n : ℕ) : Except PyError ℚ :=
  match Binary64.ofRat n with
  | .finite q => .ok q.1
  | _ => .error ⟨"OverflowError", "int too large to convert to float"⟩

def averageDecimal (total : ℚ) (count : ℕ) : Except PyError (Option ℚ) :=
  if count = 0 then .ok none else some <$> contextual (total / count)

namespace ProviderMetrics
variable (m : ProviderMetrics)

def successRate : Binary64 :=
  if m.requestCount = 0 then .ofRat 0 else .ofRat (m.successCount / m.requestCount)

def averageLatencyMs : Except PyError (Option ℚ) :=
  averageDecimal m.latencyMsTotal m.latencySampleCount

def averageCostUsd : Except PyError (Option ℚ) := averageDecimal m.costUsdTotal m.costSampleCount

def averageQualityScore : Except PyError (Option Binary64) :=
  if m.qualitySampleCount = 0 then .ok none
  else (fun count => some (.ofRat (m.qualityScoreTotal.1 / count))) <$>
    floatOfCount m.qualitySampleCount

end ProviderMetrics

/-- `_optional_delta`. -/
def optionalDelta (candidate baseline : Option Binary64) : Option Binary64 :=
  match candidate, baseline with
  | some c, some b => some (c.sub b)
  | _, _ => none

/-- `_optional_ratio`. -/
def optionalRatio (candidate baseline : Option ℚ) : Except PyError (Option Binary64) :=
  match candidate, baseline with
  | some c, some b =>
      if b = 0 then .ok (some (if c = 0 then .ofRat 0 else .infinite false))
      else (fun ratio => some (.ofRat ratio)) <$> contextual (c / b)
  | _, _ => .ok none

/-- What `evaluate_canary` compares, as `_comparison_signals` computes it first. -/
structure CanaryMeasurements where
  successDelta : Binary64
  qualityDelta : Option Binary64
  latencyRatio : Option Binary64
  costRatio : Option Binary64

def measureCanary (baseline candidate : ProviderMetrics) : Except PyError CanaryMeasurements := do
  let candidateQuality ← candidate.averageQualityScore
  let baselineQuality ← baseline.averageQualityScore
  let candidateLatency ← candidate.averageLatencyMs
  let baselineLatency ← baseline.averageLatencyMs
  let latencyRatio ← optionalRatio candidateLatency baselineLatency
  let candidateCost ← candidate.averageCostUsd
  let baselineCost ← baseline.averageCostUsd
  let costRatio ← optionalRatio candidateCost baselineCost
  pure
    { successDelta := candidate.successRate.sub baseline.successRate
      qualityDelta := optionalDelta candidateQuality baselineQuality
      latencyRatio := latencyRatio
      costRatio := costRatio }

/-- `f"{value:.6f}"` after the sign. -/
def sixPlaces : Binary64 → String
  | .finite q =>
      let units := (roundHalfEven (|q.1| * 10 ^ 6)).toNat
      let places := toString (units % 10 ^ 6)
      toString (units / 10 ^ 6) ++ "." ++ String.ofList (List.replicate (6 - places.length) '0') ++
        places
  | .infinite _ => "inf"
  | .nan => "nan"

def isNegative : Binary64 → Bool
  | .finite q => decide (q.1 < 0)
  | .infinite negative => negative
  | .nan => false

/-- `f"{value:.6f}"`. -/
def formatRatio (value : Binary64) : String :=
  (if isNegative value then "-" else "") ++ sixPlaces value

/-- `_format_signed`. -/
def formatSigned (value : Binary64) : String :=
  (if isNegative value then "-" else "+") ++ sixPlaces value

/-- `_comparison_signals`. -/
def comparisonSignals (m : CanaryMeasurements) : List String :=
  ["success_rate_delta:" ++ formatSigned m.successDelta] ++
    (m.qualityDelta.map fun delta => "quality_delta:" ++ formatSigned delta).toList ++
    (m.latencyRatio.map fun ratio => "latency_ratio:" ++ formatRatio ratio).toList ++
    (m.costRatio.map fun ratio => "cost_ratio:" ++ formatRatio ratio).toList

/-- `_validate_positive_int`. -/
def validatePositiveInt (value : Int) (fieldName : String) : Except PyError Unit :=
  if value < 1 then .error (valueError s!"{fieldName} must be a positive integer") else .ok ()

/-- `_validate_finite`. -/
def validateFinite (value : Binary64) (fieldName : String) : Except PyError Unit :=
  if value.isFinite then .ok () else .error (valueError s!"{fieldName} must be finite")

/-- `_validate_finite_non_negative`. -/
def validateFiniteNonNegative (value : Binary64) (fieldName : String) : Except PyError Unit :=
  if !value.isFinite || value.lt (.ofRat 0) then
    .error (valueError s!"{fieldName} must be finite and non-negative")
  else .ok ()

/-- `_validate_promotion_policy`. -/
def validatePromotionPolicy (policy : CanaryPromotionPolicy) : Except PyError Unit := do
  validatePositiveInt policy.minBaselineSamples "min_baseline_samples"
  validatePositiveInt policy.minCandidateSamples "min_candidate_samples"
  validateFinite policy.minSuccessRateDelta "min_success_rate_delta"
  validateFinite policy.minQualityDelta "min_quality_delta"
  validateFiniteNonNegative policy.maxLatencyRatio "max_latency_ratio"
  validateFiniteNonNegative policy.maxCostRatio "max_cost_ratio"
  validateFinite policy.rollbackSuccessRateDelta "rollback_success_rate_delta"
  validateFinite policy.rollbackQualityDelta "rollback_quality_delta"
  validateFiniteNonNegative policy.rollbackLatencyRatio "rollback_latency_ratio"
  validateFiniteNonNegative policy.rollbackCostRatio "rollback_cost_ratio"

section Decision
variable (policy : CanaryPromotionPolicy) (m : CanaryMeasurements)

/-- `promotion_checks`. -/
def promotionChecks : Bool :=
  policy.minSuccessRateDelta.le m.successDelta &&
    m.qualityDelta.all (fun delta => policy.minQualityDelta.le delta) &&
    m.latencyRatio.all (fun ratio => ratio.le policy.maxLatencyRatio) &&
    m.costRatio.all (fun ratio => ratio.le policy.maxCostRatio)

/-- `any(wins)`. -/
def anyWin : Bool :=
  (Binary64.ofRat 0).lt m.successDelta ||
    m.qualityDelta.any (fun delta => (Binary64.ofRat 0).lt delta) ||
    m.latencyRatio.any (fun ratio => ratio.lt (.ofRat 1)) ||
    m.costRatio.any (fun ratio => ratio.lt (.ofRat 1))

def canaryVerdict (baselineCount candidateCount : ℕ) : CanaryDecisionAction × String :=
  if (baselineCount : Int) < policy.minBaselineSamples then (.hold, "insufficient_baseline_samples")
  else if (candidateCount : Int) < policy.minCandidateSamples then
    (.hold, "insufficient_candidate_samples")
  else if m.successDelta.lt policy.rollbackSuccessRateDelta then
    (.rollback, "success_rate_regression")
  else if m.qualityDelta.any (fun delta => delta.lt policy.rollbackQualityDelta) then
    (.rollback, "quality_regression")
  else if m.latencyRatio.any (fun ratio => policy.rollbackLatencyRatio.lt ratio) then
    (.rollback, "latency_regression")
  else if m.costRatio.any (fun ratio => policy.rollbackCostRatio.lt ratio) then
    (.rollback, "cost_regression")
  else if promotionChecks policy m && anyWin m then (.promote, "candidate_beats_baseline")
  else (.hold, "candidate_does_not_beat_baseline")

end Decision

/-- `evaluate_canary`. -/
def evaluateCanary (comparison : CanaryComparison) (policy : CanaryPromotionPolicy) :
    Except PyError CanaryPromotionDecision := do
  validatePromotionPolicy policy
  let m ← measureCanary comparison.baseline comparison.candidate
  let (action, reason) := canaryVerdict policy m comparison.baseline.requestCount
    comparison.candidate.requestCount
  pure ⟨action, reason, comparison.baseline, comparison.candidate, comparisonSignals m⟩

end Pitwall.Routing.Canary
