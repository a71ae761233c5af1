import Mathlib.Data.NNRat.Defs
import Pitwall.Core.Decimals
import Pitwall.Library.Numeric
import Pitwall.Library.Traversal
import Pitwall.Routing.Values
set_option autoImplicit false

/-!
The pricing models, their estimates and their upper bounds. Rates are read exactly; products,
sums and quotients are rounded in the decimal context.
-/

namespace Pitwall.Pricing
open Routing

inductive CostMode where
  | perSecond | perRequest | perToken
  deriving DecidableEq

structure PricedCapability extends CapabilityModel where
  costMode : CostMode
  executionTimeoutMs : Nat
  deriving DecidableEq

inductive TaggedPricingModel where
  | gpuHour (perSecondActive : ℚ≥0)
  | perRequest (perRequest : ℚ≥0)
  | perSecond (ratePerSecond : ℚ≥0) (bidRatePerSecond : Option ℚ≥0)
  | perToken (perMillionInputTokens perMillionOutputTokens : ℚ≥0)
  | perVmSecond (ratePerSecond : ℚ≥0)

section Parse
variable (text : PyString)

/-- `_non_negative_decimal`. -/
def nonNegativeDecimal (raw : PyValue) (name : String) : Except PyError ℚ≥0 :=
  match raw, text.decimalOf raw with
  | .bool _, _ | _, none => .error (valueError s!"{name} must be a decimal value")
  | _, some (.finite value) =>
      if h : 0 ≤ value then .ok ⟨value, h⟩
      else .error (valueError s!"{name} must be non-negative")
  | _, some _ => .error (valueError s!"{name} must be finite")

/-- `d.get(key)`, where it is a mapping. -/
def mappingAt (d : List (String × PyValue)) (key : String) : Option (List (String × PyValue)) :=
  (d.lookup key).bind PyValue.mapping?

/-- `_cost_mapping`, of a mapping. -/
def costMapping (providerCost : List (String × PyValue)) : List (String × PyValue) :=
  match mappingAt providerCost "cost" with
  | some cost => cost
  | none =>
      match (mappingAt providerCost "config").bind fun config => mappingAt config "cost" with
      | some cost => cost
      | none => providerCost

/-- `_required_non_negative_decimal`. -/
def requiredNonNegativeDecimal (providerCost : List (String × PyValue)) (key : String) :
    Except PyError ℚ≥0 :=
  match (costMapping providerCost).lookup key with
  | none => .error (valueError s!"provider cost missing required key '{key}'")
  | some value => nonNegativeDecimal text value s!"provider cost '{key}'"

def validationError (field : String) : PyError := ⟨"ValidationError", field⟩

def pricingField (data : List (String × PyValue)) (field : String) : Except PyError ℚ≥0 :=
  match data.lookup field with
  | none => .error (validationError field)
  | some value =>
      match nonNegativeDecimal text value field with
      | .ok rate => .ok rate
      | .error _ => .error (validationError field)

/-- A field with the default `None`. -/
def optionalPricingField (data : List (String × PyValue)) (field : String) :
    Except PyError (Option ℚ≥0) :=
  match data.lookup field with
  | none | some .none => .ok none
  | some _ => some <$> pricingField text data field

/-- `extra="forbid"`. -/
def forbidExtra (data : List (String × PyValue)) (fields : List String) : Except PyError Unit :=
  match data.find? fun entry => entry.1 ∉ fields with
  | some entry => .error (validationError entry.1)
  | none => .ok ()

/-- `_tagged_pricing_model`. -/
def taggedPricingModel (cost : List (String × PyValue)) : Except PyError TaggedPricingModel := do
  let data := cost.filter fun entry => entry.1 ≠ "model"
  let tag := (data.lookup "kind").or (cost.lookup "model")
  match tag.bind PyValue.text? with
  | some "gpu_hour" =>
      forbidExtra data ["kind", "per_second_active"]
      .gpuHour <$> pricingField text data "per_second_active"
  | some "per_request" =>
      forbidExtra data ["kind", "per_request"]
      .perRequest <$> pricingField text data "per_request"
  | some "per_second" =>
      forbidExtra data ["kind", "rate_per_second", "bid_rate_per_second"]
      let rate ← pricingField text data "rate_per_second"
      .perSecond rate <$> optionalPricingField text data "bid_rate_per_second"
  | some "per_token" =>
      forbidExtra data ["kind", "per_million_input_tokens", "per_million_output_tokens"]
      let input ← pricingField text data "per_million_input_tokens"
      .perToken input <$> pricingField text data "per_million_output_tokens"
  | some "per_vm_second" =>
      forbidExtra data ["kind", "rate_per_second"]
      .perVmSecond <$> pricingField text data "rate_per_second"
  | _ => .error (validationError "kind")

/-- `parse_pricing_model`, of a mapping and the mode of a capability. -/
def parsePricingModel (providerCost : List (String × PyValue)) (costMode : CostMode) :
    Except PyError TaggedPricingModel :=
  let cost := costMapping providerCost
  if (cost.lookup "kind").isSome || (cost.lookup "model").isSome then taggedPricingModel text cost
  else
    match costMode with
    | .perSecond => .gpuHour <$> requiredNonNegativeDecimal text cost "per_second_active"
    | .perRequest => .perRequest <$> requiredNonNegativeDecimal text cost "per_request"
    | .perToken => do
        let input ← requiredNonNegativeDecimal text cost "per_million_input_tokens"
        .perToken input <$> requiredNonNegativeDecimal text cost "per_million_output_tokens"

end Parse

/-- `_worst_case_seconds`. -/
def worstCaseSeconds (capability : PricedCapability) : Except PyError ℚ :=
  contextual (capability.executionTimeoutMs / 1000)

/-- `_usd`: a result of more than 28 digits is refused. The text of the error ends with the
amount. -/
def usd (value : ℚ) : Except PyError ℚ :=
  if 10 ^ 22 ≤ roundHalfAway 6 value then
    .error (valueError "cost estimate is out of representable USD range")
  else .ok (roundHalfAway 6 value)

def rateUsd (rate : ℚ) (capability : PricedCapability) : Except PyError ℚ := do
  let seconds ← worstCaseSeconds capability
  let cost ← contextual (rate * seconds)
  usd cost

/-- `_tokens_to_usd`. -/
def tokensToUsd (inputRate outputRate inputTokens outputTokens : ℚ) : Except PyError ℚ := do
  let inputCost ← contextual (inputRate * inputTokens)
  let outputCost ← contextual (outputRate * outputTokens)
  let total ← contextual (inputCost + outputCost)
  let cost ← contextual (total / 1000000)
  usd cost

abbrev EstimatePayload := List (String × PyValue)

/-- `_first_present`, with nothing for `_MISSING`. -/
def firstGivenKey (payload : EstimatePayload) : List String → Option PyValue
  | [] => none
  | key :: keys =>
      match payload.lookup key with
      | none | some .none => firstGivenKey payload keys
      | some value => some value

/-- `_token_count`. -/
def tokenCount (payload : EstimatePayload) (keys : List String) : Option PyValue :=
  (firstGivenKey payload keys).or
    ((mappingAt payload "usage").bind fun usage => firstGivenKey usage keys)

mutual
/-- `_text_length`. -/
def textLength : PyValue → Nat
  | .str s => s.length
  | .dict entries | .mappingProxy entries =>
      textLengthAt entries "content" + textLengthAt entries "text" +
        textLengthAt entries "prompt" + textLengthAt entries "input"
  | .list items => textLengthItems items
  | _ => 0

def textLengthItems : List PyValue → Nat
  | [] => 0
  | item :: items => textLength item + textLengthItems items

/-- The text length of `value[key]`, `None` having none. -/
def textLengthAt : List (String × PyValue) → String → Nat
  | [], _ => 0
  | (k, value) :: entries, key => if k = key then textLength value else textLengthAt entries key
end

section Tokens
variable (text : PyString)

/-- `_estimate_input_tokens`. -/
def estimateInputTokens (payload : EstimatePayload) : Except PyError ℚ :=
  match firstGivenKey payload ["input_bytes"] with
  | some inputBytes => do
      let bytes ← nonNegativeDecimal text inputBytes "input_bytes"
      contextual (bytes / 4)
  | none =>
      contextual (((["system", "messages", "prompt", "input"].map (textLengthAt payload)).sum : Nat)
        / 4)

/-- `_estimate_input_token_count`. -/
def estimateInputTokenCount (payload : EstimatePayload) : Except PyError ℚ :=
  match tokenCount payload ["input_tokens", "prompt_tokens"] with
  | none => estimateInputTokens text payload
  | some inputTokens =>
      (fun count => (count : ℚ)) <$> nonNegativeDecimal text inputTokens "input_tokens"

/-- `_estimate_output_token_upper_bound`. -/
def estimateOutputTokenUpperBound (payload : EstimatePayload) : Except PyError ℚ :=
  match firstGivenKey payload
      ["max_tokens", "max_output_tokens", "max_completion_tokens", "max_new_tokens"] with
  | none => .error (valueError "max_output_tokens is required for per-token upper_bound")
  | some maxOutputTokens =>
      (fun count => (count : ℚ)) <$> nonNegativeDecimal text maxOutputTokens "max_output_tokens"

/-- `_estimate_output_token_count`. -/
def estimateOutputTokenCount (payload : EstimatePayload) : Except PyError ℚ :=
  match tokenCount payload ["output_tokens", "completion_tokens"] with
  | some outputTokens =>
      (fun count => (count : ℚ)) <$> nonNegativeDecimal text outputTokens "output_tokens"
  | none =>
      match firstGivenKey payload
          ["max_tokens", "max_output_tokens", "max_completion_tokens", "max_new_tokens"] with
      | none => .ok 256
      | some maxOutputTokens =>
          (fun count => (count : ℚ)) <$> nonNegativeDecimal text maxOutputTokens "max_output_tokens"

/-- `estimate` of each pricing model. -/
def TaggedPricingModel.estimate (pricing : TaggedPricingModel) (capability : PricedCapability)
    (payload : EstimatePayload) : Except PyError ℚ :=
  match pricing with
  | .gpuHour rate | .perVmSecond rate => rateUsd rate capability
  | .perRequest cost => usd cost
  | .perSecond rate _ => rateUsd rate capability
  | .perToken inputRate outputRate => do
      let inputTokens ← estimateInputTokenCount text payload
      let outputTokens ← estimateOutputTokenCount text payload
      tokensToUsd inputRate outputRate inputTokens outputTokens

/-- `upper_bound` of each pricing model. -/
def TaggedPricingModel.upperBound (pricing : TaggedPricingModel) (capability : PricedCapability)
    (payload : EstimatePayload) : Except PyError ℚ :=
  match pricing with
  | .gpuHour rate | .perVmSecond rate => rateUsd rate capability
  | .perRequest cost => usd cost
  | .perSecond rate bid => rateUsd (max rate (bid.getD rate) : ℚ≥0) capability
  | .perToken inputRate outputRate => do
      let inputTokens ← estimateInputTokenCount text payload
      let outputTokens ← estimateOutputTokenUpperBound text payload
      tokensToUsd inputRate outputRate inputTokens outputTokens

/-- A provider's pricing, bound to one capability and payload. -/
structure CostQuote where
  pricing : TaggedPricingModel
  capability : PricedCapability
  payload : EstimatePayload

/-- `quote_cost`. -/
def quoteCost (capability : PricedCapability) (providerCost : List (String × PyValue))
    (payload : EstimatePayload) : Except PyError CostQuote :=
  (fun pricing => ⟨pricing, capability, payload⟩) <$>
    parsePricingModel text providerCost capability.costMode

def CostQuote.estimate (quote : CostQuote) : Except PyError ℚ :=
  quote.pricing.estimate text quote.capability quote.payload

def CostQuote.upperBound (quote : CostQuote) : Except PyError ℚ :=
  quote.pricing.upperBound text quote.capability quote.payload

end Tokens

section Quantum
variable {capability : PricedCapability} {x : ℚ}

theorem usd_isMultiple {value : ℚ} (h : usd value = .ok x) : IsMultiple 6 x := by
  unfold usd at h
  split at h
  · cases h
  · rw [← Except.ok.inj h]
    exact isMultiple_roundHalfAway 6 value

theorem rateUsd_isMultiple {rate : ℚ} (h : rateUsd rate capability = .ok x) : IsMultiple 6 x := by
  simp only [rateUsd, Except.bind_eq_ok_iff] at h
  obtain ⟨seconds, -, cost, -, hcost⟩ := h
  exact usd_isMultiple hcost

theorem tokensToUsd_isMultiple {inputRate outputRate inputTokens outputTokens : ℚ}
    (h : tokensToUsd inputRate outputRate inputTokens outputTokens = .ok x) :
    IsMultiple 6 x := by
  simp only [tokensToUsd, Except.bind_eq_ok_iff] at h
  obtain ⟨inputCost, -, outputCost, -, total, -, cost, -, hcost⟩ := h
  exact usd_isMultiple hcost

theorem upperBound_isMultiple {text : PyString} {quote : CostQuote}
    (h : quote.upperBound text = .ok x) : IsMultiple 6 x := by
  unfold CostQuote.upperBound TaggedPricingModel.upperBound at h
  cases hpricing : quote.pricing with
  | gpuHour rate => rw [hpricing] at h; exact rateUsd_isMultiple h
  | perVmSecond rate => rw [hpricing] at h; exact rateUsd_isMultiple h
  | perRequest cost => rw [hpricing] at h; exact usd_isMultiple h
  | perSecond rate bid => rw [hpricing] at h; exact rateUsd_isMultiple h
  | perToken inputRate outputRate =>
    rw [hpricing] at h
    simp only [Except.bind_eq_ok_iff] at h
    obtain ⟨inputTokens, -, outputTokens, -, hcost⟩ := h
    exact tokensToUsd_isMultiple hcost

end Quantum

end Pitwall.Pricing
