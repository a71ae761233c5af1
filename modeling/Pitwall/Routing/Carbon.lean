import Pitwall.Core.Text
import Pitwall.Library.DecimalContext
import Pitwall.Library.Traversal
import Pitwall.Routing.Values
set_option autoImplicit false

/-!
The carbon intensity of a provider region, and the blend of cost, latency and carbon. The
arithmetic is exact.
-/

namespace Pitwall.Routing

/-- `_optional_non_empty_string`. -/
def optionalNonEmptyString (value : Option String) (name : String) :
    Except PyError (Option String) :=
  match value with
  | none => .ok none
  | some value =>
      if strip value = "" then .ok none
      else if value ≠ strip value then
        .error (valueError s!"{name} must not include surrounding whitespace")
      else .ok (some value)

/-- `_non_empty_string`. -/
def requiredString (value name : String) : Except PyError String := do
  match ← optionalNonEmptyString (some value) name with
  | none => .error (valueError s!"{name} must be a non-empty string")
  | some normalized => pure normalized

/-- `_non_negative_decimal`, of the carbon and the arbitrage module. -/
def nonNegativeOperand (value : DecimalNumber) (name : String) : Except PyError ℚ :=
  match value with
  | .finite q =>
      if q < 0 then .error (valueError s!"{name} must be non-negative") else .ok q
  | _ => .error (valueError s!"{name} must be finite")

theorem optionalNonEmptyString_ok {value result : Option String} {name : String}
    (h : optionalNonEmptyString value name = .ok result) : result = none ∨ result = value := by
  unfold optionalNonEmptyString at h
  split at h
  · exact .inl (Except.ok.inj h).symm
  · split at h
    · exact .inl (Except.ok.inj h).symm
    · split at h
      · cases h
      · exact .inr (Except.ok.inj h).symm

theorem requiredString_ok {value name result : String}
    (h : requiredString value name = .ok result) : result = value := by
  simp only [requiredString, Except.bind_eq_ok_iff] at h
  obtain ⟨normalized, hnormalized, h⟩ := h
  cases normalized with
  | none => simp at h
  | some text =>
    obtain rfl := Except.pure_eq_ok_iff.mp h
    rcases optionalNonEmptyString_ok hnormalized with hnone | hsome
    · cases hnone
    · exact Option.some.inj hsome

theorem nonNegativeOperand_ok {value : DecimalNumber} {name : String} {q : ℚ}
    (h : nonNegativeOperand value name = .ok q) : value = .finite q ∧ 0 ≤ q := by
  unfold nonNegativeOperand at h
  split at h
  · split at h
    · cases h
    · rename_i hsign
      obtain rfl := Except.ok.inj h
      exact ⟨rfl, not_lt.mp hsign⟩
  · cases h

/-- `CarbonIntensitySource`. -/
structure CarbonIntensitySource where
  intensityFor : String → Option String → Except PyError DecimalNumber

/-- `StaticCarbonIntensitySource`. -/
structure StaticCarbonIntensitySource where
  providerRegionIntensities : List ((String × String) × ℚ)
  regionIntensities : List (String × ℚ)
  defaultIntensity : ℚ

/-- `intensity_for` of a static source. -/
def StaticCarbonIntensitySource.intensityFor (s : StaticCarbonIntensitySource)
    (providerId : String) (region : Option String) : Except PyError DecimalNumber := do
  let providerId ← requiredString providerId "provider_id"
  let region ← optionalNonEmptyString region "region"
  match region with
  | none => pure (.finite s.defaultIntensity)
  | some region =>
      match s.providerRegionIntensities.lookup (providerId, region) with
      | some intensity => pure (.finite intensity)
      | none => pure (.finite ((s.regionIntensities.lookup region).getD s.defaultIntensity))

def StaticCarbonIntensitySource.source (s : StaticCarbonIntensitySource) :
    CarbonIntensitySource := ⟨s.intensityFor⟩

/-- `DEFAULT_CARBON_INTENSITY_SOURCE`. -/
def defaultCarbonIntensitySource : StaticCarbonIntensitySource where
  providerRegionIntensities := []
  regionIntensities := [("CA-MTL-1", 60), ("EU-CZ-1", 390), ("EU-RO-1", 250), ("EU-SE-1", 45),
    ("US-CA-1", 220), ("US-CA-2", 220), ("US-KS-2", 455), ("US-NY-1", 300)]
  defaultIntensity := 500

structure CarbonObjectiveWeights where
  costWeight : ℚ
  latencyWeight : ℚ
  carbonWeight : ℚ
  deriving DecidableEq

structure CarbonObjectiveScore where
  weights : CarbonObjectiveWeights
  objective : ℚ
  costComponent : ℚ
  latencyComponent : ℚ
  carbonComponent : ℚ
  carbonIntensity : ℚ
  deriving DecidableEq

/-- `score_carbon_objective`, on values that its callers have checked. -/
def scoreCarbonObjective (cost latencyMs carbonIntensity : ℚ) (weights : CarbonObjectiveWeights) :
    CarbonObjectiveScore where
  weights := weights
  objective := weights.costWeight * cost + weights.latencyWeight * latencyMs +
    weights.carbonWeight * carbonIntensity
  costComponent := weights.costWeight * cost
  latencyComponent := weights.latencyWeight * latencyMs
  carbonComponent := weights.carbonWeight * carbonIntensity
  carbonIntensity := carbonIntensity

end Pitwall.Routing
