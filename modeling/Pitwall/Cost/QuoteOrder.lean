import Pitwall.Cost.QuoteBounds
import Pitwall.Routing.PlanSafety
set_option autoImplicit false

/-!
When an upper bound dominates: the estimate of the same quote, and the bound of the same
payload without the counts that a client may add to it.
-/

namespace Pitwall.Pricing
open Routing

def PricedWithin (inputRate outputRate : ℚ) (counts counts' : ℚ × ℚ) : Prop :=
  ∀ total total', tokensTotal inputRate outputRate counts.1 counts.2 = .ok total →
    tokensTotal inputRate outputRate counts'.1 counts'.2 = .ok total' → RoundsWithin total total'

theorem tokensToUsd_le_iff {inputRate outputRate i j o p a b : ℚ} (hin : 0 ≤ inputRate)
    (hout : 0 ≤ outputRate) (hi : 0 ≤ i) (hj : 0 ≤ j) (ho : 0 ≤ o) (hp : 0 ≤ p)
    (ha : tokensToUsd inputRate outputRate i o = .ok a)
    (hb : tokensToUsd inputRate outputRate j p = .ok b) :
    a ≤ b ↔ PricedWithin inputRate outputRate (i, o) (j, p) := by
  rw [tokensToUsd_eq, Except.bind_eq_ok_iff] at ha hb
  obtain ⟨total, htotal, ha⟩ := ha
  obtain ⟨total', htotal', hb⟩ := hb
  rw [usd_le_iff (tokensTotal_nonneg hin hout hi ho htotal)
    (tokensTotal_nonneg hin hout hj hp htotal') ha hb]
  constructor
  · intro hwithin x x' hx hx'
    obtain rfl := Except.ok.inj (htotal.symm.trans hx)
    obtain rfl := Except.ok.inj (htotal'.symm.trans hx')
    exact hwithin
  · intro hwithin
    exact hwithin total total' htotal htotal'

theorem PricedWithin.of_le {inputRate outputRate i j o p : ℚ} (hin : 0 ≤ inputRate)
    (hout : 0 ≤ outputRate) (hij : i ≤ j) (hop : o ≤ p) :
    PricedWithin inputRate outputRate (i, o) (j, p) := fun _ _ htotal htotal' =>
  .of_le (tokensTotal_mono hin hout hij hop htotal htotal')

section Readers
variable {payload payload' : EstimatePayload}

theorem firstGivenKey_congr {keys : List String}
    (h : ∀ key ∈ keys, payload'.lookup key = payload.lookup key) :
    firstGivenKey payload' keys = firstGivenKey payload keys := by
  induction keys with
  | nil => rfl
  | cons key keys ih =>
    simp only [firstGivenKey]
    rw [h key (by simp), ih fun k hk => h k (by simp [hk])]

theorem firstGivenKey_eq_none {keys : List String}
    (h : ∀ key ∈ keys, payload.lookup key = none) : firstGivenKey payload keys = none := by
  induction keys with
  | nil => rfl
  | cons key keys ih =>
    simp only [firstGivenKey]
    rw [h key (by simp)]
    exact ih fun k hk => h k (by simp [hk])

variable {text : PyString}

theorem estimateOutputTokenCount_of_undeclared {ceiling : ℚ}
    (hdeclared : tokenCount payload ["output_tokens", "completion_tokens"] = none)
    (hceiling : estimateOutputTokenUpperBound text payload = .ok ceiling) :
    estimateOutputTokenCount text payload = .ok ceiling := by
  unfold estimateOutputTokenUpperBound at hceiling
  unfold estimateOutputTokenCount
  rw [hdeclared]
  dsimp only
  split at hceiling
  · cases hceiling
  · exact hceiling

end Readers

def countText : PyString := { asciiText with
  str := fun
    | .int n => some (toString n)
    | .str s => some s
    | _ => none
  parseDecimal := fun s =>
    if s = "0" then some (.finite 0) else if s = "1" then some (.finite 1)
    else if s = "2" then some (.finite 2) else none }

theorem countText_zero (name : String) : nonNegativeDecimal countText (.int 0) name = .ok 0 := by
  have hread : countText.decimalOf (.int 0) = some (.finite 0) := by decide
  simp only [nonNegativeDecimal, hread]
  rfl

theorem countText_one (name : String) : nonNegativeDecimal countText (.int 1) name = .ok 1 := by
  have hread : countText.decimalOf (.int 1) = some (.finite 1) := by decide
  simp only [nonNegativeDecimal, hread]
  rfl

theorem countText_two (name : String) : nonNegativeDecimal countText (.int 2) name = .ok 2 := by
  have hread : countText.decimalOf (.int 2) = some (.finite 2) := by decide
  simp only [nonNegativeDecimal, hread]
  rfl

theorem tokensToUsd_whole (inputPrice outputPrice i o : ℕ)
    (h : (inputPrice * i + outputPrice * o) * 1000000 < 10 ^ 22) :
    tokensToUsd (inputPrice * 1000000) (outputPrice * 1000000) i o =
      .ok (inputPrice * i + outputPrice * o : ℕ) := by
  have hwhole : ∀ n : ℕ, IsMultiple 6 (n : ℚ) := fun n => ⟨n * 10 ^ 6, by push_cast; ring⟩
  have hexact : ∀ n : ℕ, n ≤ (inputPrice * i + outputPrice * o) * 1000000 →
      contextual (n : ℚ) = .ok n := fun n hn =>
    contextual_of_isMultiple (hwhole n) (by rw [Nat.abs_cast]; exact_mod_cast hn.trans_lt h)
  have hinput : contextual (inputPrice * 1000000 * i) =
      .ok ((inputPrice * i * 1000000 : ℕ) : ℚ) := by
    rw [← hexact _ (Nat.mul_le_mul_right _ (Nat.le_add_right _ _))]
    congr 1
    push_cast
    ring
  have houtput : contextual (outputPrice * 1000000 * o) =
      .ok ((outputPrice * o * 1000000 : ℕ) : ℚ) := by
    rw [← hexact _ (Nat.mul_le_mul_right _ (Nat.le_add_left _ _))]
    congr 1
    push_cast
    ring
  have htotal : contextual
      (((inputPrice * i * 1000000 : ℕ) : ℚ) + (outputPrice * o * 1000000 : ℕ)) =
        .ok (((inputPrice * i + outputPrice * o) * 1000000 : ℕ) : ℚ) := by
    rw [← hexact _ le_rfl]
    congr 1
    push_cast
    ring
  have hcost : contextual
      ((((inputPrice * i + outputPrice * o) * 1000000 : ℕ) : ℚ) / 1000000) =
        .ok ((inputPrice * i + outputPrice * o : ℕ) : ℚ) := by
    rw [← hexact _ (Nat.le_mul_of_pos_right _ (by norm_num))]
    congr 1
    push_cast
    ring
  have husd : usd ((inputPrice * i + outputPrice * o : ℕ) : ℚ) =
      .ok ((inputPrice * i + outputPrice * o : ℕ) : ℚ) := by
    have hsmall : inputPrice * i + outputPrice * o < 10 ^ 22 := by omega
    rw [usd, roundHalfAway_of_isMultiple (hwhole _), if_neg (not_le.mpr (by exact_mod_cast hsmall))]
  simp only [tokensToUsd, Except.bind_eq_ok_iff]
  exact ⟨_, hinput, _, houtput, _, htotal, _, hcost, husd⟩

def tokenCapability : PricedCapability := ⟨⟨"cap_1", "chat", true⟩, .perToken, 1000⟩

section Declared
variable {text : PyString}

theorem estimate_of_counts {inputRate outputRate : ℚ≥0} {capability : PricedCapability}
    {payload : EstimatePayload} {input output : ℚ}
    (hinput : estimateInputTokenCount text payload = .ok input)
    (houtput : estimateOutputTokenCount text payload = .ok output) :
    (TaggedPricingModel.perToken inputRate outputRate).estimate text capability payload =
      tokensToUsd inputRate outputRate input output := by
  simp only [TaggedPricingModel.estimate, hinput, houtput]
  rfl

theorem upperBound_of_counts {inputRate outputRate : ℚ≥0} {capability : PricedCapability}
    {payload : EstimatePayload} {input output : ℚ}
    (hinput : estimateInputTokenCount text payload = .ok input)
    (houtput : estimateOutputTokenUpperBound text payload = .ok output) :
    (TaggedPricingModel.perToken inputRate outputRate).upperBound text capability payload =
      tokensToUsd inputRate outputRate input output := by
  simp only [TaggedPricingModel.upperBound, hinput, houtput]
  rfl

/-- The completion that a payload declares is within its own ceiling, or priced no higher. -/
def CostQuote.DeclaresWithinCeiling (text : PyString) (quote : CostQuote) : Prop :=
  ∀ inputRate outputRate, quote.pricing = .perToken inputRate outputRate →
    ∀ value declared input ceiling,
      tokenCount quote.payload ["output_tokens", "completion_tokens"] = some value →
      nonNegativeDecimal text value "output_tokens" = .ok declared →
      estimateInputTokenCount text quote.payload = .ok input →
      estimateOutputTokenUpperBound text quote.payload = .ok ceiling →
      (declared : ℚ) ≤ ceiling ∨
        PricedWithin inputRate outputRate (input, declared) (input, ceiling)

theorem perToken_estimate_le_iff {inputRate outputRate : ℚ≥0} {capability : PricedCapability}
    {payload : EstimatePayload} {lower upper : ℚ}
    (hlower : (TaggedPricingModel.perToken inputRate outputRate).estimate text capability payload =
      .ok lower)
    (hupper : (TaggedPricingModel.perToken inputRate outputRate).upperBound text capability
      payload = .ok upper) :
    lower ≤ upper ↔ CostQuote.DeclaresWithinCeiling text
      ⟨.perToken inputRate outputRate, capability, payload⟩ := by
  simp only [TaggedPricingModel.estimate, Except.bind_eq_ok_iff] at hlower
  obtain ⟨input, hinput, output, houtput, hlower⟩ := hlower
  simp only [TaggedPricingModel.upperBound, Except.bind_eq_ok_iff] at hupper
  obtain ⟨input', hinput', ceiling, hceiling, hupper⟩ := hupper
  obtain rfl := Except.ok.inj (hinput.symm.trans hinput')
  have hinputNonneg := estimateInputTokenCount_nonneg hinput
  have houtputNonneg := estimateOutputTokenCount_nonneg houtput
  rw [tokensToUsd_le_iff inputRate.2 outputRate.2 hinputNonneg hinputNonneg houtputNonneg
    (estimateOutputTokenUpperBound_nonneg hceiling) hlower hupper]
  cases hdeclared : tokenCount payload ["output_tokens", "completion_tokens"] with
  | none =>
    have heq := estimateOutputTokenCount_of_undeclared hdeclared hceiling
    obtain rfl := Except.ok.inj (heq.symm.trans houtput)
    refine iff_of_true
      (.of_le inputRate.2 outputRate.2 le_rfl le_rfl) ?_
    intro _ _ _ value declared _ _ hvalue
    cases hdeclared.symm.trans hvalue
  | some value =>
    have hread := houtput
    unfold estimateOutputTokenCount at hread
    rw [hdeclared] at hread
    obtain ⟨declared, hgiven, rfl⟩ := given_eq hread
    constructor
    · intro hwithin inRate outRate hpricing value' declared' input' ceiling' hvalue' hgiven'
        hinput' hceiling'
      obtain ⟨rfl, rfl⟩ := TaggedPricingModel.perToken.inj hpricing
      obtain rfl := Option.some.inj (hdeclared.symm.trans hvalue')
      obtain rfl := Except.ok.inj (hgiven.symm.trans hgiven')
      obtain rfl := Except.ok.inj (hinput.symm.trans hinput')
      obtain rfl := Except.ok.inj (hceiling.symm.trans hceiling')
      exact .inr hwithin
    · intro hwithin
      rcases hwithin inputRate outputRate rfl value declared input ceiling hdeclared hgiven hinput
        hceiling with hle | hpriced
      · exact .of_le inputRate.2 outputRate.2 le_rfl hle
      · exact hpriced

/-- The upper bound of a quote dominates its estimate exactly where the completion that the
payload declares does not cost more than the ceiling. -/
theorem CostQuote.estimate_le_upperBound_iff {quote : CostQuote} {lower upper : ℚ}
    (hlower : quote.estimate text = .ok lower) (hupper : quote.upperBound text = .ok upper) :
    lower ≤ upper ↔ quote.DeclaresWithinCeiling text := by
  obtain ⟨pricing, capability, payload⟩ := quote
  simp only [CostQuote.estimate, CostQuote.upperBound] at hlower hupper
  have hsame : pricing.upperBound text capability payload =
      pricing.estimate text capability payload → lower ≤ upper := fun heq =>
    (Except.ok.inj (hlower.symm.trans (heq.symm.trans hupper))).le
  cases pricing with
  | perToken inputRate outputRate => exact perToken_estimate_le_iff hlower hupper
  | gpuHour rate => exact iff_of_true (hsame rfl) fun _ _ h => nomatch h
  | perVmSecond rate => exact iff_of_true (hsame rfl) fun _ _ h => nomatch h
  | perRequest cost => exact iff_of_true (hsame rfl) fun _ _ h => nomatch h
  | perSecond rate bid =>
    refine iff_of_true ?_ fun _ _ h => nomatch h
    simp only [TaggedPricingModel.estimate, TaggedPricingModel.upperBound, rateUsd_eq,
      Except.bind_eq_ok_iff] at hlower hupper
    obtain ⟨low, hlow, hlower⟩ := hlower
    obtain ⟨high, hhigh, hupper⟩ := hupper
    have hle : (rate : ℚ) ≤ (max rate (bid.getD rate) : ℚ≥0) := by
      exact_mod_cast le_max_left rate (bid.getD rate)
    exact usd_mono (rateTotal_nonneg rate.2 hlow) (rateTotal_mono hle hlow hhigh)
      hlower hupper

/-- One input token free of charge, and a declared completion and a ceiling of dollars. -/
def declaredQuote (declared ceiling : Int) : CostQuote :=
  ⟨.perToken 0 1000000, tokenCapability,
    [("input_tokens", .int 1), ("output_tokens", .int declared), ("max_tokens", .int ceiling)]⟩

theorem declaredQuote_amounts (declared ceiling : ℕ) (hdeclared : declared < 10)
    (hceiling : ceiling < 10)
    (hreadDeclared : nonNegativeDecimal countText (.int declared) "output_tokens" = .ok declared)
    (hreadCeiling : nonNegativeDecimal countText (.int ceiling) "max_output_tokens" =
      .ok ceiling) :
    (declaredQuote declared ceiling).estimate countText = .ok declared ∧
      (declaredQuote declared ceiling).upperBound countText = .ok ceiling := by
  have hinput : estimateInputTokenCount countText (declaredQuote declared ceiling).payload =
      .ok 1 := by
    simp [declaredQuote, estimateInputTokenCount, tokenCount, firstGivenKey,
      countText_one]
  have houtput : estimateOutputTokenCount countText (declaredQuote declared ceiling).payload =
      .ok declared := by
    simp [declaredQuote, estimateOutputTokenCount, tokenCount, firstGivenKey, List.lookup,
      hreadDeclared]
  have hbound : estimateOutputTokenUpperBound countText (declaredQuote declared ceiling).payload =
      .ok ceiling := by
    simp [declaredQuote, estimateOutputTokenUpperBound, firstGivenKey, List.lookup, hreadCeiling]
  have hcost := tokensToUsd_whole 0 1 1 declared (by omega)
  have hcost' := tokensToUsd_whole 0 1 1 ceiling (by omega)
  constructor
  · refine Eq.trans (estimate_of_counts hinput houtput) ?_
    simpa using hcost
  · refine Eq.trans (upperBound_of_counts hinput hbound) ?_
    simpa using hcost'

theorem estimate_le_upperBound_within_ceiling :
    (1 : ℚ) ≤ 2 ↔ (declaredQuote 1 2).DeclaresWithinCeiling countText :=
  have h := declaredQuote_amounts 1 2 (by decide) (by decide)
    (countText_one _) (countText_two _)
  CostQuote.estimate_le_upperBound_iff h.1 h.2

/-- Two tokens declared under a ceiling of one. -/
theorem declared_above_ceiling :
    (declaredQuote 2 1).estimate countText = .ok 2 ∧
      (declaredQuote 2 1).upperBound countText = .ok 1 ∧ (1 : ℚ) < 2 :=
  have h := declaredQuote_amounts 2 1 (by decide) (by decide)
    (countText_two _) (countText_one _)
  ⟨h.1, h.2, one_lt_two⟩

end Declared

section Overrides
variable {text : PyString} {payload payload' : EstimatePayload}

def overrideKeys : List String := ["input_tokens", "prompt_tokens", "usage", "input_bytes"]

/-- `payload'` is `payload`, which has none of the keys, with some of them added. -/
structure AddsOverrides (payload payload' : EstimatePayload) : Prop where
  free : ∀ key ∈ overrideKeys, payload.lookup key = none
  kept : ∀ key, key ∉ overrideKeys → payload'.lookup key = payload.lookup key

theorem AddsOverrides.input_of_text (h : AddsOverrides payload payload') :
    estimateInputTokenCount text payload = estimateInputTokens text payload := by
  have husage : mappingAt payload "usage" = none := by
    simp [mappingAt, h.free "usage" (by decide)]
  have hcount : tokenCount payload ["input_tokens", "prompt_tokens"] = none := by
    rw [tokenCount, husage, firstGivenKey_eq_none fun key hkey => h.free key ?_]
    · rfl
    · rcases List.mem_pair.mp hkey with rfl | rfl <;> decide
  rw [estimateInputTokenCount, hcount]

theorem AddsOverrides.ceiling_eq (h : AddsOverrides payload payload') :
    estimateOutputTokenUpperBound text payload' = estimateOutputTokenUpperBound text payload := by
  have hkeys : ∀ key ∈ ["max_tokens", "max_output_tokens", "max_completion_tokens",
      "max_new_tokens"], key ∉ overrideKeys := by decide
  rw [estimateOutputTokenUpperBound, firstGivenKey_congr fun key hkey => h.kept key
    (hkeys key hkey), estimateOutputTokenUpperBound]

/-- The added keys give at least the count of the text, or one that is priced no lower. -/
def CountsTheText (text : PyString) (inputRate outputRate : ℚ)
    (payload payload' : EstimatePayload) : Prop :=
  ∀ measured given ceiling, estimateInputTokens text payload = .ok measured →
    estimateInputTokenCount text payload' = .ok given →
    estimateOutputTokenUpperBound text payload = .ok ceiling →
    measured ≤ given ∨ PricedWithin inputRate outputRate (measured, ceiling) (given, ceiling)

/-- The keys that a client adds leave its bound as high exactly where they count its text. -/
theorem bound_le_iff_counts_text {inputRate outputRate : ℚ≥0} {capability : PricedCapability}
    {bound bound' : ℚ} (hadds : AddsOverrides payload payload')
    (hbound : (TaggedPricingModel.perToken inputRate outputRate).upperBound text capability
      payload = .ok bound)
    (hbound' : (TaggedPricingModel.perToken inputRate outputRate).upperBound text capability
      payload' = .ok bound') :
    bound ≤ bound' ↔ CountsTheText text inputRate outputRate payload payload' := by
  simp only [TaggedPricingModel.upperBound, Except.bind_eq_ok_iff] at hbound hbound'
  obtain ⟨measured, hmeasured, ceiling, hceiling, hbound⟩ := hbound
  obtain ⟨given, hgiven, ceiling', hceiling', hbound'⟩ := hbound'
  rw [hadds.ceiling_eq] at hceiling'
  obtain rfl := Except.ok.inj (hceiling.symm.trans hceiling')
  have hmeasuredNonneg := estimateInputTokenCount_nonneg hmeasured
  have hgivenNonneg := estimateInputTokenCount_nonneg hgiven
  have hceilingNonneg := estimateOutputTokenUpperBound_nonneg hceiling
  rw [hadds.input_of_text] at hmeasured
  rw [tokensToUsd_le_iff inputRate.2 outputRate.2 hmeasuredNonneg hgivenNonneg hceilingNonneg
    hceilingNonneg hbound hbound']
  constructor
  · intro hpriced measured' given' ceiling' hmeasured' hgiven' hceiling'
    obtain rfl := Except.ok.inj (hmeasured.symm.trans hmeasured')
    obtain rfl := Except.ok.inj (hgiven.symm.trans hgiven')
    obtain rfl := Except.ok.inj (hceiling.symm.trans hceiling')
    exact .inr hpriced
  · intro hcounts
    rcases hcounts measured given ceiling hmeasured hgiven hceiling with hle | hpriced
    · exact .of_le inputRate.2 outputRate.2 hle le_rfl
    · exact hpriced

/-- Four characters, a token of a dollar, with the number of tokens added or left out. -/
def textPayload (added : List (String × PyValue)) : EstimatePayload :=
  added ++ [("prompt", .str "abcd"), ("max_tokens", .int 0)]

theorem textPayload_adds (given : Int) :
    AddsOverrides (textPayload []) (textPayload [("input_tokens", .int given)]) where
  free := by decide
  kept key hkey := by
    have hne : (key == "input_tokens") = false := by
      rw [beq_eq_false_iff_ne]
      rintro rfl
      exact hkey (by decide)
    simp only [textPayload, List.singleton_append, List.lookup_cons, hne, List.nil_append]

theorem textPayload_ceiling :
    estimateOutputTokenUpperBound countText (textPayload []) = .ok 0 := by
  simp [textPayload, estimateOutputTokenUpperBound, firstGivenKey, List.lookup, countText_zero]

theorem textPayload_bound :
    (TaggedPricingModel.perToken 1000000 0).upperBound countText tokenCapability
      (textPayload []) = .ok 1 := by
  have hlength : (["system", "messages", "prompt", "input"].map
      (textLengthAt (textPayload []))).sum = 4 := by decide
  have hinput : estimateInputTokenCount countText (textPayload []) = .ok 1 := by
    rw [(textPayload_adds 0).input_of_text, estimateInputTokens]
    change contextual (((["system", "messages", "prompt", "input"].map
      (textLengthAt (textPayload []))).sum : ℕ) / 4) = .ok 1
    rw [hlength]
    norm_num
    exact contextual_of_isMultiple ⟨10 ^ 6, by norm_num⟩ (by norm_num)
  rw [upperBound_of_counts hinput textPayload_ceiling]
  simpa using tokensToUsd_whole 1 0 1 0 (by norm_num)

/-- A client whose text is a token says that it sends `given`. -/
theorem textPayload_bound_given (given : ℕ) (hsmall : given < 10)
    (h : nonNegativeDecimal countText (.int given) "input_tokens" = .ok given) :
    (TaggedPricingModel.perToken 1000000 0).upperBound countText tokenCapability
      (textPayload [("input_tokens", .int given)]) = .ok given := by
  have hinput : estimateInputTokenCount countText (textPayload [("input_tokens", .int given)]) =
      .ok given := by
    simp [textPayload, estimateInputTokenCount, tokenCount, firstGivenKey, h]
  rw [upperBound_of_counts hinput ((textPayload_adds given).ceiling_eq.trans textPayload_ceiling)]
  simpa using tokensToUsd_whole 1 0 given 0 (by omega)

theorem bound_le_of_honest_count :
    (1 : ℚ) ≤ 1 ↔ CountsTheText countText (1000000 : ℚ≥0) (0 : ℚ≥0) (textPayload [])
      (textPayload [("input_tokens", .int 1)]) :=
  bound_le_iff_counts_text (textPayload_adds 1) textPayload_bound
    (textPayload_bound_given 1 (by norm_num) (countText_one _))

/-- Declaring no input at all makes the text free. -/
theorem declared_count_lowers_bound :
    AddsOverrides (textPayload []) (textPayload [("input_tokens", .int 0)]) ∧
      (TaggedPricingModel.perToken 1000000 0).upperBound countText tokenCapability
        (textPayload []) = .ok 1 ∧
      (TaggedPricingModel.perToken 1000000 0).upperBound countText tokenCapability
        (textPayload [("input_tokens", .int 0)]) = .ok 0 ∧ (0 : ℚ) < 1 :=
  ⟨textPayload_adds 0, textPayload_bound,
    textPayload_bound_given 0 (by norm_num) (countText_zero _), zero_lt_one⟩

end Overrides

end Pitwall.Pricing
