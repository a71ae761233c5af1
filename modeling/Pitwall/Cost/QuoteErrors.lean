import Pitwall.Cost.QuoteBounds
import Pitwall.Routing.PlanSafety
set_option autoImplicit false

/-!
What a quote may raise: `ValueError` everywhere but where the decimal context overflows.
-/

namespace Pitwall.Pricing
open Routing

/-- `x` does not overflow the context. -/
def Fits (x : ℚ) : Prop := x < DecimalNumber.overflowThreshold

section Parse
variable {text : PyString}

end Parse

section Arithmetic
variable {β : Type} {returns : β → Prop}

def RateFits (rate : ℚ) (capability : PricedCapability) : Prop :=
  Fits (capability.executionTimeoutMs / 1000) ∧
    Fits (rate * DecimalNumber.rounded (capability.executionTimeoutMs / 1000))

def TokensFit (inputRate outputRate inputTokens outputTokens : ℚ) : Prop :=
  Fits (inputRate * inputTokens) ∧ Fits (outputRate * outputTokens) ∧
    Fits (DecimalNumber.rounded (inputRate * inputTokens) +
      DecimalNumber.rounded (outputRate * outputTokens))

end Arithmetic

section Counts
variable {text : PyString} {payload : EstimatePayload}

def InputFits (text : PyString) (payload : EstimatePayload) : Prop :=
  tokenCount payload ["input_tokens", "prompt_tokens"] = none →
    match firstGivenKey payload ["input_bytes"] with
    | some inputBytes =>
        ∀ bytes, nonNegativeDecimal text inputBytes "input_bytes" = .ok bytes →
          Fits ((bytes : ℚ) / 4)
    | none => Fits (((["system", "messages", "prompt", "input"].map
        (textLengthAt payload)).sum : Nat) / 4)

end Counts

section Contract
variable {text : PyString}

def TaggedPricingModel.Fits (text : PyString) (pricing : TaggedPricingModel)
    (capability : PricedCapability) (payload : EstimatePayload) : Prop :=
  match pricing with
  | .gpuHour rate | .perVmSecond rate => RateFits rate capability
  | .perRequest _ => True
  | .perSecond rate bid => RateFits (max rate (bid.getD rate) : ℚ≥0) capability
  | .perToken inputRate outputRate =>
      InputFits text payload ∧ ∀ i, estimateInputTokenCount text payload = .ok i → ∀ o,
        (estimateOutputTokenCount text payload = .ok o ∨
          estimateOutputTokenUpperBound text payload = .ok o) →
            TokensFit inputRate outputRate i o

theorem RateFits.mono {low high : ℚ} {capability : PricedCapability} (h : low ≤ high)
    (hfits : RateFits high capability) : RateFits low capability := by
  refine ⟨hfits.1, lt_of_le_of_lt (mul_le_mul_of_nonneg_right h ?_) hfits.2⟩
  exact DecimalNumber.rounded_nonneg (by positivity)

end Contract

end Pitwall.Pricing
