import Pitwall.Cost.BudgetGate
import Pitwall.Cost.QuoteBounds
import Pitwall.Routing.PlanSafety
set_option autoImplicit false

/-!
An upper bound against the exact cost behind it. The last rounding is half up, so a bound may
fall short of the cost, or to zero.
-/

namespace Pitwall.Pricing
open Routing

section Exact
variable (text : PyString)

/-- `_estimate_input_token_count` in exact arithmetic. -/
def exactInputTokens (payload : EstimatePayload) : Except PyError ℚ :=
  match tokenCount payload ["input_tokens", "prompt_tokens"] with
  | some inputTokens =>
      (fun count => (count : ℚ)) <$> nonNegativeDecimal text inputTokens "input_tokens"
  | none =>
      match firstGivenKey payload ["input_bytes"] with
      | some inputBytes =>
          (fun bytes : ℚ≥0 => (bytes : ℚ) / 4) <$> nonNegativeDecimal text inputBytes "input_bytes"
      | none =>
          .ok (((["system", "messages", "prompt", "input"].map (textLengthAt payload)).sum : Nat)
            / 4)

/-- The cost that `upper_bound` stands for, in exact arithmetic. -/
def TaggedPricingModel.exactUpperBound (pricing : TaggedPricingModel)
    (capability : PricedCapability) (payload : EstimatePayload) : Except PyError ℚ :=
  match pricing with
  | .gpuHour rate | .perVmSecond rate => .ok (rate * (capability.executionTimeoutMs / 1000))
  | .perRequest cost => .ok cost
  | .perSecond rate bid =>
      .ok ((max rate (bid.getD rate) : ℚ≥0) * (capability.executionTimeoutMs / 1000))
  | .perToken inputRate outputRate => do
      let inputTokens ← exactInputTokens text payload
      let outputTokens ← estimateOutputTokenUpperBound text payload
      return (inputRate * inputTokens + outputRate * outputTokens) / 1000000

/-- `upper_bound` before the last rounding. -/
def TaggedPricingModel.upperTotal (pricing : TaggedPricingModel) (capability : PricedCapability)
    (payload : EstimatePayload) : Except PyError ℚ :=
  match pricing with
  | .gpuHour rate | .perVmSecond rate => rateTotal rate capability
  | .perRequest cost => .ok cost
  | .perSecond rate bid => rateTotal (max rate (bid.getD rate) : ℚ≥0) capability
  | .perToken inputRate outputRate => do
      let inputTokens ← estimateInputTokenCount text payload
      let outputTokens ← estimateOutputTokenUpperBound text payload
      tokensTotal inputRate outputRate inputTokens outputTokens

end Exact

/-- The context leaves `x` as it is. -/
def Unrounded (x : ℚ) : Prop := DecimalNumber.rounded x = x

def TaggedPricingModel.Unrounded (text : PyString) (pricing : TaggedPricingModel)
    (capability : PricedCapability) (payload : EstimatePayload) : Prop :=
  let seconds : ℚ := capability.executionTimeoutMs / 1000
  match pricing with
  | .gpuHour rate | .perVmSecond rate =>
      Pricing.Unrounded seconds ∧ Pricing.Unrounded (rate * seconds)
  | .perRequest _ => True
  | .perSecond rate bid =>
      Pricing.Unrounded seconds ∧
        Pricing.Unrounded ((max rate (bid.getD rate) : ℚ≥0) * seconds)
  | .perToken inputRate outputRate =>
      ∀ i o, exactInputTokens text payload = .ok i →
        estimateOutputTokenUpperBound text payload = .ok o →
          (tokenCount payload ["input_tokens", "prompt_tokens"] = none → Pricing.Unrounded i) ∧
            Pricing.Unrounded (inputRate * i) ∧ Pricing.Unrounded (outputRate * o) ∧
            Pricing.Unrounded (inputRate * i + outputRate * o) ∧
            Pricing.Unrounded ((inputRate * i + outputRate * o) / 1000000)

section Rounding
variable {text : PyString} {pricing : TaggedPricingModel} {capability : PricedCapability}
  {payload : EstimatePayload} {exact total bound : ℚ}

theorem upperBound_eq : pricing.upperBound text capability payload =
    pricing.upperTotal text capability payload >>= usd := by
  cases pricing with
  | gpuHour rate => exact rateUsd_eq _ _
  | perVmSecond rate => exact rateUsd_eq _ _
  | perRequest cost => rfl
  | perSecond rate bid => exact rateUsd_eq _ _
  | perToken inputRate outputRate =>
    simp only [TaggedPricingModel.upperBound, TaggedPricingModel.upperTotal, tokensToUsd_eq,
      bind_assoc]

theorem upperTotal_nonneg (h : pricing.upperTotal text capability payload = .ok total) :
    0 ≤ total := by
  cases pricing with
  | gpuHour rate => exact rateTotal_nonneg rate.2 h
  | perVmSecond rate => exact rateTotal_nonneg rate.2 h
  | perRequest cost => exact Except.ok.inj h ▸ cost.2
  | perSecond rate bid => exact rateTotal_nonneg (max rate (bid.getD rate)).2 h
  | perToken inputRate outputRate =>
    simp only [TaggedPricingModel.upperTotal, Except.bind_eq_ok_iff] at h
    obtain ⟨input, hinput, output, houtput, htotal⟩ := h
    exact tokensTotal_nonneg inputRate.2 outputRate.2 (estimateInputTokenCount_nonneg hinput)
      (estimateOutputTokenUpperBound_nonneg houtput) htotal

theorem IsMultiple.le_iff_ceil (h : IsMultiple 6 bound) :
    exact ≤ bound ↔ (⌈exact * 10 ^ 6⌉ : ℚ) / 10 ^ 6 ≤ bound := by
  obtain ⟨n, hn⟩ := h
  have hpos : (0 : ℚ) < 10 ^ 6 := by norm_num
  rw [div_le_iff₀ hpos, hn, Int.cast_le, Int.ceil_le, ← hn, mul_le_mul_iff_left₀ hpos]

theorem le_bound_iff (htotal : pricing.upperTotal text capability payload = .ok total)
    (hbound : pricing.upperBound text capability payload = .ok bound) :
    exact ≤ bound ↔ ((⌈exact * 10 ^ 6⌉ : ℚ) - 1 / 2) / 10 ^ 6 ≤ total := by
  have husd : usd total = .ok bound := by
    rwa [upperBound_eq, Except.bind_of_ok htotal] at hbound
  rw [IsMultiple.le_iff_ceil (usd_isMultiple husd), usd_eq husd,
    le_roundHalfAway_iff (upperTotal_nonneg htotal)]

/-- The fraction of a micro-dollar is none, or at least a half. -/
def RoundsUp (exact : ℚ) : Prop :=
  Int.fract (exact * 10 ^ 6) = 0 ∨ 1 / 2 ≤ Int.fract (exact * 10 ^ 6)

theorem roundsUp_iff : RoundsUp exact ↔ ((⌈exact * 10 ^ 6⌉ : ℚ) - 1 / 2) / 10 ^ 6 ≤ exact := by
  rw [div_le_iff₀ (by norm_num), RoundsUp]
  generalize exact * 10 ^ 6 = x
  by_cases hwhole : Int.fract x = 0
  · obtain ⟨n, hn⟩ := Int.fract_eq_zero_iff.mp hwhole
    refine iff_of_true (.inl hwhole) ?_
    rw [← hn, Int.ceil_intCast]
    linarith
  · rw [Int.ceil_eq_add_one_sub_fract hwhole, or_iff_right hwhole]
    constructor <;> intro h <;> linarith

theorem rateTotal_of_unrounded {rate : ℚ}
    (hseconds : Unrounded ((capability.executionTimeoutMs : ℚ) / 1000))
    (hcost : Unrounded (rate * ((capability.executionTimeoutMs : ℚ) / 1000)))
    (h : rateTotal rate capability = .ok total) :
    total = rate * (capability.executionTimeoutMs / 1000) := by
  simp only [rateTotal, worstCaseSeconds, Except.bind_eq_ok_iff] at h
  obtain ⟨seconds, hread, htotal⟩ := h
  obtain rfl := (contextual_eq hread).trans hseconds
  exact (contextual_eq htotal).trans hcost

theorem estimateInputTokenCount_eq {input i : ℚ} (hexact : exactInputTokens text payload = .ok i)
    (hunrounded : tokenCount payload ["input_tokens", "prompt_tokens"] = none → Unrounded i)
    (h : estimateInputTokenCount text payload = .ok input) : input = i := by
  unfold exactInputTokens at hexact
  unfold estimateInputTokenCount at h
  cases hcount : tokenCount payload ["input_tokens", "prompt_tokens"] with
  | some value =>
    rw [hcount] at hexact h
    exact Except.ok.inj (h.symm.trans hexact)
  | none =>
    have hunrounded := hunrounded hcount
    rw [hcount] at hexact h
    dsimp only at hexact h
    unfold estimateInputTokens at h
    cases hbytes : firstGivenKey payload ["input_bytes"] with
    | none =>
      rw [hbytes] at hexact h
      obtain rfl := Except.ok.inj hexact
      exact (contextual_eq h).trans hunrounded
    | some inputBytes =>
      rw [hbytes] at hexact h
      simp only [Except.bind_eq_ok_iff] at h
      obtain ⟨bytes, hread, hinput⟩ := h
      dsimp only at hexact
      rw [hread] at hexact
      obtain rfl := Except.ok.inj hexact
      exact (contextual_eq hinput).trans hunrounded

theorem upperTotal_eq_exact (hunrounded : pricing.Unrounded text capability payload)
    (hexact : pricing.exactUpperBound text capability payload = .ok exact)
    (htotal : pricing.upperTotal text capability payload = .ok total) : total = exact := by
  cases pricing with
  | gpuHour rate =>
    exact (rateTotal_of_unrounded hunrounded.1 hunrounded.2 htotal).trans (Except.ok.inj hexact)
  | perVmSecond rate =>
    exact (rateTotal_of_unrounded hunrounded.1 hunrounded.2 htotal).trans (Except.ok.inj hexact)
  | perRequest cost => exact Except.ok.inj (htotal.symm.trans hexact)
  | perSecond rate bid =>
    exact (rateTotal_of_unrounded hunrounded.1 hunrounded.2 htotal).trans (Except.ok.inj hexact)
  | perToken inputRate outputRate =>
    simp only [TaggedPricingModel.exactUpperBound, Except.bind_eq_ok_iff,
      Except.pure_eq_ok_iff] at hexact
    obtain ⟨i, hi, o, ho, rfl⟩ := hexact
    obtain ⟨hcount, hinput, houtput, hsum, hcost⟩ := hunrounded i o hi ho
    simp only [TaggedPricingModel.upperTotal, tokensTotal, Except.bind_eq_ok_iff] at htotal
    obtain ⟨input, hread, output, hread', a, ha, b, hb, c, hc, htotal⟩ := htotal
    obtain rfl := estimateInputTokenCount_eq hi hcount hread
    obtain rfl := Except.ok.inj (ho.symm.trans hread')
    obtain rfl := (contextual_eq ha).trans hinput
    obtain rfl := (contextual_eq hb).trans houtput
    obtain rfl := (contextual_eq hc).trans hsum
    exact (contextual_eq htotal).trans hcost

theorem positiveEstimate_of_pos (h : 0 < bound) :
    positiveEstimate (.estimate (.finite bound)) = .ok bound := by
  simp only [positiveEstimate, positiveDecimal, decimal]
  exact if_neg (not_le.mpr h)

/-- A positive cost is admissible and never under-reserved exactly where the total is within
half a micro-dollar of the cost rounded up; where the context rounds nothing, where the fraction
of the cost rounds up. -/
theorem admissible_and_covered_iff
    (hexact : pricing.exactUpperBound text capability payload = .ok exact) (hpos : 0 < exact)
    (htotal : pricing.upperTotal text capability payload = .ok total)
    (hbound : pricing.upperBound text capability payload = .ok bound) :
    (positiveEstimate (.estimate (.finite bound)) = .ok bound ∧ exact ≤ bound ↔
        ((⌈exact * 10 ^ 6⌉ : ℚ) - 1 / 2) / 10 ^ 6 ≤ total) ∧
      (pricing.Unrounded text capability payload →
        (positiveEstimate (.estimate (.finite bound)) = .ok bound ∧ exact ≤ bound ↔
          RoundsUp exact)) := by
  have hcovered : positiveEstimate (.estimate (.finite bound)) = .ok bound ∧ exact ≤ bound ↔
      ((⌈exact * 10 ^ 6⌉ : ℚ) - 1 / 2) / 10 ^ 6 ≤ total := by
    rw [← le_bound_iff htotal hbound]
    exact and_iff_right_of_imp fun hle => positiveEstimate_of_pos (hpos.trans_le hle)
  refine ⟨hcovered, fun hunrounded => ?_⟩
  rw [hcovered, upperTotal_eq_exact hunrounded hexact htotal, roundsUp_iff]

theorem usd_of_micros {n : ℕ} {x : ℚ} (hsmall : n < 10 ^ 22)
    (h : roundHalfAway 6 x = n / 10 ^ 6) : usd x = .ok (n / 10 ^ 6) := by
  have hlt : (n : ℚ) / 10 ^ 6 < 10 ^ 22 := by
    rw [div_lt_iff₀ (by norm_num)]
    have : (n : ℚ) < 10 ^ 22 := by exact_mod_cast hsmall
    linarith
  rw [usd, h, if_neg (not_le.mpr hlt)]

theorem roundHalfAway_six {x : ℚ} (hx : 0 ≤ x) {n : ℕ} (hlow : (n : ℚ) - 1 / 2 ≤ x * 10 ^ 6)
    (hhigh : x * 10 ^ 6 < n + 1 / 2) : roundHalfAway 6 x = n / 10 ^ 6 := by
  have hfloor : ⌊x * 10 ^ 6 + 1 / 2⌋ = (n : ℤ) := by
    rw [Int.floor_eq_iff]
    push_cast
    constructor <;> linarith
  rw [roundHalfAway, if_pos hx, hfloor]
  rfl

def requestCapability : PricedCapability := ⟨⟨"cap_1", "embedding", true⟩, .perRequest, 1000⟩

/-- A request of 1.6 micro-dollars reserves two. -/
theorem covered_of_large_fraction :
    (positiveEstimate (.estimate (.finite (2 / 10 ^ 6))) = .ok (2 / 10 ^ 6) ∧
          (16 / 10 ^ 7 : ℚ) ≤ 2 / 10 ^ 6 ↔
        ((⌈(16 / 10 ^ 7 : ℚ) * 10 ^ 6⌉ : ℚ) - 1 / 2) / 10 ^ 6 ≤ 16 / 10 ^ 7) ∧
      ((TaggedPricingModel.perRequest (16 / 10 ^ 7)).Unrounded asciiText requestCapability [] →
        (positiveEstimate (.estimate (.finite (2 / 10 ^ 6))) = .ok (2 / 10 ^ 6) ∧
          (16 / 10 ^ 7 : ℚ) ≤ 2 / 10 ^ 6 ↔ RoundsUp (16 / 10 ^ 7))) := by
  have hcost : (((16 / 10 ^ 7 : ℚ≥0) : ℚ)) = 16 / 10 ^ 7 := by push_cast; rfl
  have hbound : usd (16 / 10 ^ 7) = .ok (2 / 10 ^ 6) := by
    exact_mod_cast usd_of_micros (n := 2) (by norm_num)
      (roundHalfAway_six (by norm_num) (by norm_num) (by norm_num))
  have hexact : (TaggedPricingModel.perRequest (16 / 10 ^ 7)).exactUpperBound asciiText
      requestCapability [] = .ok (16 / 10 ^ 7) := by
    rw [TaggedPricingModel.exactUpperBound, hcost]
  have htotal : (TaggedPricingModel.perRequest (16 / 10 ^ 7)).upperTotal asciiText
      requestCapability [] = .ok (16 / 10 ^ 7) := by
    rw [TaggedPricingModel.upperTotal, hcost]
  exact admissible_and_covered_iff hexact (by norm_num) htotal (by
    rw [TaggedPricingModel.upperBound, hcost, hbound])

/-- A request of 0.4 micro-dollars is refused, and one of 1.4 reserves one. -/
theorem small_fraction_uncovered :
    (TaggedPricingModel.perRequest (4 / 10 ^ 7)).exactUpperBound asciiText requestCapability [] =
        .ok (4 / 10 ^ 7) ∧
      (TaggedPricingModel.perRequest (4 / 10 ^ 7)).upperBound asciiText requestCapability [] =
        .ok 0 ∧
      positiveEstimate (.estimate (.finite 0)) =
        .error (.valueError "estimate_usd must be positive") ∧
      (TaggedPricingModel.perRequest (14 / 10 ^ 7)).exactUpperBound asciiText requestCapability
        [] = .ok (14 / 10 ^ 7) ∧
      (TaggedPricingModel.perRequest (14 / 10 ^ 7)).upperBound asciiText requestCapability [] =
        .ok (1 / 10 ^ 6) ∧
      (1 / 10 ^ 6 : ℚ) < 14 / 10 ^ 7 := by
  have hsmall : (((4 / 10 ^ 7 : ℚ≥0) : ℚ)) = 4 / 10 ^ 7 := by push_cast; rfl
  have hlarge : (((14 / 10 ^ 7 : ℚ≥0) : ℚ)) = 14 / 10 ^ 7 := by push_cast; rfl
  have hzero : usd (4 / 10 ^ 7) = .ok 0 := by
    have h := usd_of_micros (n := 0) (by norm_num)
      (roundHalfAway_six (x := 4 / 10 ^ 7) (by norm_num) (by norm_num) (by norm_num))
    rwa [Nat.cast_zero, zero_div] at h
  have hone : usd (14 / 10 ^ 7) = .ok (1 / 10 ^ 6) := by
    have h := usd_of_micros (n := 1) (by norm_num)
      (roundHalfAway_six (x := 14 / 10 ^ 7) (by norm_num) (by norm_num) (by norm_num))
    rwa [Nat.cast_one] at h
  refine ⟨?_, ?_, ?_, ?_, ?_, by norm_num⟩
  · rw [TaggedPricingModel.exactUpperBound, hsmall]
  · rw [TaggedPricingModel.upperBound, hsmall, hzero]
  · simp [positiveEstimate, positiveDecimal, decimal]
    rfl
  · rw [TaggedPricingModel.exactUpperBound, hlarge]
  · rw [TaggedPricingModel.upperBound, hlarge, hone]

end Rounding

end Pitwall.Pricing
