import Pitwall.Cost.Estimator
set_option autoImplicit false

/-!
The amounts behind a quote before they are quantized, and the order between two quotes.
-/

namespace Pitwall.Pricing
open Routing

/-- `rateUsd` before `_usd`. -/
def rateTotal (rate : ℚ) (capability : PricedCapability) : Except PyError ℚ := do
  let seconds ← worstCaseSeconds capability
  contextual (rate * seconds)

/-- `_tokens_to_usd` before `_usd`. -/
def tokensTotal (inputRate outputRate inputTokens outputTokens : ℚ) : Except PyError ℚ := do
  let inputCost ← contextual (inputRate * inputTokens)
  let outputCost ← contextual (outputRate * outputTokens)
  let total ← contextual (inputCost + outputCost)
  contextual (total / 1000000)

theorem rateUsd_eq (rate : ℚ) (capability : PricedCapability) :
    rateUsd rate capability = rateTotal rate capability >>= usd := by
  simp only [rateUsd, rateTotal, bind_assoc]

theorem tokensToUsd_eq (inputRate outputRate inputTokens outputTokens : ℚ) :
    tokensToUsd inputRate outputRate inputTokens outputTokens =
      tokensTotal inputRate outputRate inputTokens outputTokens >>= usd := by
  simp only [tokensToUsd, tokensTotal, bind_assoc]

section Totals
variable {rate lowRate highRate inputRate outputRate a b : ℚ} {capability : PricedCapability}

theorem worstCaseSeconds_nonneg {seconds : ℚ} (h : worstCaseSeconds capability = .ok seconds) :
    0 ≤ seconds :=
  contextual_nonneg h (by positivity)

theorem rateTotal_nonneg (hrate : 0 ≤ rate) (h : rateTotal rate capability = .ok a) : 0 ≤ a := by
  simp only [rateTotal, Except.bind_eq_ok_iff] at h
  obtain ⟨seconds, hseconds, hcost⟩ := h
  exact contextual_nonneg hcost (mul_nonneg hrate (worstCaseSeconds_nonneg hseconds))

theorem rateTotal_mono (h : lowRate ≤ highRate)
    (ha : rateTotal lowRate capability = .ok a) (hb : rateTotal highRate capability = .ok b) :
    a ≤ b := by
  simp only [rateTotal, Except.bind_eq_ok_iff] at ha hb
  obtain ⟨seconds, hseconds, hlowCost⟩ := ha
  obtain ⟨seconds', hseconds', hhighCost⟩ := hb
  obtain rfl := Except.ok.inj (hseconds.symm.trans hseconds')
  have hnonneg := worstCaseSeconds_nonneg hseconds
  exact contextual_mono (mul_le_mul_of_nonneg_right h hnonneg) hlowCost hhighCost

theorem tokensTotal_nonneg {i o : ℚ} (hin : 0 ≤ inputRate) (hout : 0 ≤ outputRate) (hi : 0 ≤ i)
    (ho : 0 ≤ o) (h : tokensTotal inputRate outputRate i o = .ok a) : 0 ≤ a := by
  simp only [tokensTotal, Except.bind_eq_ok_iff] at h
  obtain ⟨inputCost, hinput, outputCost, houtput, total, htotal, hcost⟩ := h
  have hinputCost := contextual_nonneg hinput (mul_nonneg hin hi)
  have houtputCost := contextual_nonneg houtput (mul_nonneg hout ho)
  have hsum := contextual_nonneg htotal (add_nonneg hinputCost houtputCost)
  exact contextual_nonneg hcost (by positivity)

theorem tokensTotal_mono {i j o p : ℚ} (hin : 0 ≤ inputRate) (hout : 0 ≤ outputRate)
    (hij : i ≤ j) (hop : o ≤ p) (ha : tokensTotal inputRate outputRate i o = .ok a)
    (hb : tokensTotal inputRate outputRate j p = .ok b) : a ≤ b := by
  simp only [tokensTotal, Except.bind_eq_ok_iff] at ha hb
  obtain ⟨inputA, hinputA, outputA, houtputA, totalA, htotalA, hcostA⟩ := ha
  obtain ⟨inputB, hinputB, outputB, houtputB, totalB, htotalB, hcostB⟩ := hb
  have hinput : inputA ≤ inputB :=
    contextual_mono (mul_le_mul_of_nonneg_left hij hin) hinputA hinputB
  have houtput : outputA ≤ outputB :=
    contextual_mono (mul_le_mul_of_nonneg_left hop hout) houtputA houtputB
  have htotal : totalA ≤ totalB :=
    contextual_mono (add_le_add hinput houtput) htotalA htotalB
  exact contextual_mono (div_le_div_of_nonneg_right htotal (by norm_num)) hcostA hcostB

end Totals

section Quantized
variable {v w a b : ℚ}

theorem usd_eq (h : usd v = .ok a) : a = roundHalfAway 6 v := by
  unfold usd at h
  split at h
  · cases h
  · exact (Except.ok.inj h).symm

theorem usd_nonneg (hv : 0 ≤ v) (h : usd v = .ok a) : 0 ≤ a := by
  rw [usd_eq h]
  exact roundHalfAway_nonneg hv

/-- Every half micro-dollar that `v` reaches, `w` reaches. -/
def RoundsWithin (v w : ℚ) : Prop :=
  ∀ n : ℤ, ((n : ℚ) - 1 / 2) / 10 ^ 6 ≤ v → ((n : ℚ) - 1 / 2) / 10 ^ 6 ≤ w

theorem RoundsWithin.of_le (h : v ≤ w) : RoundsWithin v w := fun _ hn => hn.trans h

theorem usd_le_iff (hv : 0 ≤ v) (hw : 0 ≤ w) (ha : usd v = .ok a) (hb : usd w = .ok b) :
    a ≤ b ↔ RoundsWithin v w := by
  rw [usd_eq ha, usd_eq hb]
  constructor
  · intro hle n hn
    exact (le_roundHalfAway_iff hw n).mp (((le_roundHalfAway_iff hv n).mpr hn).trans hle)
  · intro hwithin
    obtain ⟨n, hn⟩ := isMultiple_roundHalfAway 6 v
    have hn' : roundHalfAway 6 v = n / 10 ^ 6 := by
      rw [eq_div_iff (by norm_num)]
      exact hn
    have hreach := hwithin n ((le_roundHalfAway_iff hv n).mp hn'.ge)
    rw [hn']
    exact (le_roundHalfAway_iff hw n).mpr hreach

theorem usd_mono (hv : 0 ≤ v) (h : v ≤ w) (ha : usd v = .ok a) (hb : usd w = .ok b) : a ≤ b :=
  (usd_le_iff hv (hv.trans h) ha hb).mpr (.of_le h)

end Quantized

section Counts
variable {text : PyString} {payload : EstimatePayload} {count : ℚ}

theorem estimateInputTokens_nonneg (h : estimateInputTokens text payload = .ok count) :
    0 ≤ count := by
  unfold estimateInputTokens at h
  split at h
  · simp only [Except.bind_eq_ok_iff] at h
    obtain ⟨bytes, -, hcount⟩ := h
    exact contextual_nonneg hcount (div_nonneg bytes.2 (by norm_num))
  · exact contextual_nonneg h (by positivity)

theorem given_eq {value : PyValue} {name : String}
    (h : ((fun count => (count : ℚ)) <$> nonNegativeDecimal text value name : Except PyError ℚ) =
      .ok count) : ∃ given, nonNegativeDecimal text value name = .ok given ∧ count = given := by
  cases hread : nonNegativeDecimal text value name with
  | error e =>
    rw [hread] at h
    cases h
  | ok given =>
    rw [hread] at h
    exact ⟨given, rfl, (Except.ok.inj h).symm⟩

theorem nonneg_of_given {value : PyValue} {name : String}
    (h : ((fun count => (count : ℚ)) <$> nonNegativeDecimal text value name : Except PyError ℚ) =
      .ok count) : 0 ≤ count := by
  obtain ⟨given, -, rfl⟩ := given_eq h
  exact given.2

theorem estimateInputTokenCount_nonneg (h : estimateInputTokenCount text payload = .ok count) :
    0 ≤ count := by
  unfold estimateInputTokenCount at h
  split at h
  · exact estimateInputTokens_nonneg h
  · exact nonneg_of_given h

theorem estimateOutputTokenUpperBound_nonneg
    (h : estimateOutputTokenUpperBound text payload = .ok count) : 0 ≤ count := by
  unfold estimateOutputTokenUpperBound at h
  split at h
  · cases h
  · exact nonneg_of_given h

theorem estimateOutputTokenCount_nonneg (h : estimateOutputTokenCount text payload = .ok count) :
    0 ≤ count := by
  unfold estimateOutputTokenCount at h
  split at h
  · exact nonneg_of_given h
  · split at h
    · rw [← Except.ok.inj h]
      norm_num
    · exact nonneg_of_given h

end Counts

end Pitwall.Pricing
