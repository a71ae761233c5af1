import Mathlib
import Pitwall.Routing.Canary
set_option autoImplicit false

/-!
What a promotion says about the two providers, and how the decision follows the metrics of the
candidate.
-/

namespace Pitwall.Routing.Canary

def CanaryDecisionAction.rank : CanaryDecisionAction → ℕ
  | .rollback => 0
  | .hold => 1
  | .promote => 2

/-- One metric or more of the candidate improves, with the same samples. -/
structure Improves (c c' : ProviderMetrics) : Prop where
  requests : c'.requestCount = c.requestCount
  latencySamples : c'.latencySampleCount = c.latencySampleCount
  costSamples : c'.costSampleCount = c.costSampleCount
  qualitySamples : c'.qualitySampleCount = c.qualitySampleCount
  success : c.successCount ≤ c'.successCount
  quality : c.qualityScoreTotal.1 ≤ c'.qualityScoreTotal.1
  latency : c'.latencyMsTotal ≤ c.latencyMsTotal
  cost : c'.costUsdTotal ≤ c.costUsdTotal

structure NoWorse (m m' : CanaryMeasurements) : Prop where
  success : m.successDelta.level ≤ m'.successDelta.level
  success_ne : m'.successDelta ≠ .nan
  quality : Option.Rel (fun d d' => d.level ≤ d'.level ∧ d' ≠ .nan) m.qualityDelta m'.qualityDelta
  latency : Option.Rel (fun r r' => r'.level ≤ r.level ∧ r ≠ .nan) m.latencyRatio m'.latencyRatio
  cost : Option.Rel (fun r r' => r'.level ≤ r.level ∧ r ≠ .nan) m.costRatio m'.costRatio

section Verdict
variable {policy : CanaryPromotionPolicy} {m m' : CanaryMeasurements}

theorem any_of_rel {α : Type} {R : α → α → Prop} {p : α → Bool} {x y : Option α}
    (h : Option.Rel R x y) (hp : ∀ a b, R a b → p a = true → p b = true) (hx : x.any p = true) :
    y.any p = true := by
  cases h with
  | none => exact hx
  | some hab => exact hp _ _ hab hx

theorem all_of_rel {α : Type} {R : α → α → Prop} {p : α → Bool} {x y : Option α}
    (h : Option.Rel R x y) (hp : ∀ a b, R a b → p a = true → p b = true) (hx : x.all p = true) :
    y.all p = true := by
  cases h with
  | none => rfl
  | some hab => exact hp _ _ hab hx

theorem any_of_rel_back {α : Type} {R : α → α → Prop} {p : α → Bool} {x y : Option α}
    (h : Option.Rel R x y) (hp : ∀ a b, R a b → p b = true → p a = true) (hy : y.any p = true) :
    x.any p = true := by
  cases h with
  | none => exact hy
  | some hab => exact hp _ _ hab hy

theorem promotionChecks_mono (h : NoWorse m m') (hm : promotionChecks policy m = true) :
    promotionChecks policy m' = true := by
  simp only [promotionChecks, Bool.and_eq_true] at hm ⊢
  obtain ⟨⟨⟨hsuccess, hquality⟩, hlatency⟩, hcost⟩ := hm
  refine ⟨⟨⟨?_, ?_⟩, ?_⟩, ?_⟩
  · exact Binary64.le_of_le_of_level_le hsuccess h.success h.success_ne
  · exact all_of_rel h.quality (fun _ _ hd hle => Binary64.le_of_le_of_level_le hle hd.1 hd.2)
      hquality
  · exact all_of_rel h.latency (fun _ _ hr hle => Binary64.le_of_level_le_of_le hr.1 hle) hlatency
  · exact all_of_rel h.cost (fun _ _ hr hle => Binary64.le_of_level_le_of_le hr.1 hle) hcost

theorem anyWin_mono (h : NoWorse m m') (hm : anyWin m = true) : anyWin m' = true := by
  simp only [anyWin, Bool.or_eq_true] at hm ⊢
  rcases hm with ((hsuccess | hquality) | hlatency) | hcost
  · exact .inl (.inl (.inl (Binary64.lt_of_lt_of_level_le hsuccess h.success h.success_ne)))
  · exact .inl (.inl (.inr (any_of_rel h.quality
      (fun _ _ hd hlt => Binary64.lt_of_lt_of_level_le hlt hd.1 hd.2) hquality)))
  · exact .inl (.inr (any_of_rel h.latency
      (fun _ _ hr hlt => Binary64.lt_of_level_le_of_lt hr.1 hlt) hlatency))
  · exact .inr (any_of_rel h.cost
      (fun _ _ hr hlt => Binary64.lt_of_level_le_of_lt hr.1 hlt) hcost)

def regresses (policy : CanaryPromotionPolicy) (m : CanaryMeasurements) : Bool :=
  m.successDelta.lt policy.rollbackSuccessRateDelta ||
    m.qualityDelta.any (fun delta => delta.lt policy.rollbackQualityDelta) ||
    m.latencyRatio.any (fun ratio => policy.rollbackLatencyRatio.lt ratio) ||
    m.costRatio.any (fun ratio => policy.rollbackCostRatio.lt ratio)

theorem regresses_antitone (h : NoWorse m m') (hm : regresses policy m' = true) :
    regresses policy m = true := by
  simp only [regresses, Bool.or_eq_true] at hm ⊢
  rcases hm with ((hsuccess | hquality) | hlatency) | hcost
  · exact .inl (.inl (.inl (Binary64.lt_of_level_le_of_lt h.success hsuccess)))
  · exact .inl (.inl (.inr (any_of_rel_back h.quality
      (fun _ _ hd hlt => Binary64.lt_of_level_le_of_lt hd.1 hlt) hquality)))
  · exact .inl (.inr (any_of_rel_back h.latency
      (fun _ _ hr hlt => Binary64.lt_of_lt_of_level_le hlt hr.1 hr.2) hlatency))
  · exact .inr (any_of_rel_back h.cost
      (fun _ _ hr hlt => Binary64.lt_of_lt_of_level_le hlt hr.1 hr.2) hcost)

def meetsSamples (policy : CanaryPromotionPolicy) (baselineCount candidateCount : ℕ) : Bool :=
  decide (policy.minBaselineSamples ≤ baselineCount) &&
    decide (policy.minCandidateSamples ≤ candidateCount)

theorem canaryVerdict_action (b c : ℕ) : (canaryVerdict policy m b c).1 =
    if meetsSamples policy b c then
      if regresses policy m then .rollback
      else if promotionChecks policy m && anyWin m then .promote else .hold
    else CanaryDecisionAction.hold := by
  unfold canaryVerdict meetsSamples
  by_cases hb : (b : Int) < policy.minBaselineSamples
  · simp [hb]
  by_cases hc : (c : Int) < policy.minCandidateSamples
  · simp [hb, hc]
  have hmeets : (decide (policy.minBaselineSamples ≤ b) &&
      decide (policy.minCandidateSamples ≤ c)) = true := by
    simp [not_lt.mp hb, not_lt.mp hc]
  rw [if_neg hb, if_neg hc, hmeets, if_pos rfl]
  unfold regresses
  cases m.successDelta.lt policy.rollbackSuccessRateDelta
  · cases m.qualityDelta.any fun delta => delta.lt policy.rollbackQualityDelta
    · cases m.latencyRatio.any fun ratio => policy.rollbackLatencyRatio.lt ratio
      · cases m.costRatio.any fun ratio => policy.rollbackCostRatio.lt ratio
        · cases promotionChecks policy m && anyWin m <;> rfl
        · rfl
      · rfl
    · rfl
  · rfl

theorem canaryVerdict_mono (h : NoWorse m m') (b c : ℕ) :
    (canaryVerdict policy m b c).1.rank ≤ (canaryVerdict policy m' b c).1.rank := by
  rw [canaryVerdict_action, canaryVerdict_action]
  cases meetsSamples policy b c with
  | false => exact le_rfl
  | true =>
    cases hregress' : regresses policy m' with
    | true =>
      rw [regresses_antitone h hregress']
      exact le_rfl
    | false =>
      cases regresses policy m with
      | true => exact Nat.zero_le _
      | false =>
        cases hpromote : promotionChecks policy m && anyWin m with
        | false =>
          cases promotionChecks policy m' && anyWin m' <;> decide
        | true =>
          rw [Bool.and_eq_true] at hpromote
          rw [promotionChecks_mono h hpromote.1, anyWin_mono h hpromote.2]
          exact le_rfl

theorem canaryVerdict_promote_iff (b c : ℕ) : (canaryVerdict policy m b c).1 = .promote ↔
    meetsSamples policy b c = true ∧ regresses policy m = false ∧
      promotionChecks policy m = true ∧ anyWin m = true := by
  rw [canaryVerdict_action]
  cases meetsSamples policy b c <;> cases regresses policy m <;>
    cases promotionChecks policy m <;> cases anyWin m <;> simp

end Verdict

section Quotients
variable {a b r : ℚ}

theorem one_le_contextual_div (hb : 0 < b) (h : b ≤ a) (hr : contextual (a / b) = .ok r) :
    1 ≤ r := by
  have hone : DecimalNumber.rounded 1 = 1 := by
    have hpow : DecimalNumber.rounded (10 ^ (0 : ℤ)) = 10 ^ (0 : ℤ) :=
      DecimalNumber.rounded_zpow (by norm_num)
    rwa [zpow_zero] at hpow
  rw [contextual_eq hr, ← hone]
  exact DecimalNumber.rounded_mono ((one_le_div hb).mpr h)

theorem averageDecimal_mono {total total' : ℚ} {count : ℕ} {x : Option ℚ} (htotal : 0 ≤ total')
    (h : total' ≤ total) (hx : averageDecimal total count = .ok x) :
    ∃ x', averageDecimal total' count = .ok x' ∧
      Option.Rel (fun a a' => 0 ≤ a' ∧ a' ≤ a) x x' := by
  unfold averageDecimal at hx ⊢
  split at hx
  · rename_i hzero
    cases hx
    exact ⟨none, if_pos hzero, .none⟩
  · rename_i hzero
    obtain ⟨r, hr, rfl⟩ := Except.map_eq_ok_iff.mp hx
    have hcount : (0 : ℚ) ≤ count := Nat.cast_nonneg count
    obtain ⟨r', hr', hnonneg, hle⟩ := contextual_of_le (div_nonneg htotal hcount)
      (div_le_div_of_nonneg_right h hcount) hr
    exact ⟨some r', by rw [if_neg hzero, hr']; rfl, .some ⟨hnonneg, hle⟩⟩

end Quotients

section Ratios
variable {c c' b : Option ℚ} {ratio : Option Binary64}

theorem optionalRatio_mono (h : Option.Rel (fun a a' => 0 ≤ a' ∧ a' ≤ a) c c')
    (hb : ∀ q ∈ b, 0 ≤ q) (hratio : optionalRatio c b = .ok ratio) :
    ∃ ratio', optionalRatio c' b = .ok ratio' ∧
      Option.Rel (fun r r' => r'.level ≤ r.level ∧ r ≠ .nan) ratio ratio' := by
  cases h with
  | none =>
    cases hratio
    exact ⟨none, rfl, .none⟩
  | @some a a' hle =>
    cases b with
    | none =>
      cases hratio
      exact ⟨none, rfl, .none⟩
    | some b =>
      unfold optionalRatio at hratio ⊢
      dsimp only at hratio ⊢
      by_cases hzero : b = 0
      · rw [if_pos hzero] at hratio ⊢
        cases hratio
        refine ⟨_, rfl, .some ?_⟩
        by_cases ha : a = 0
        · have ha' : a' = 0 := le_antisymm (ha ▸ hle.2) hle.1
          rw [if_pos ha, if_pos ha']
          exact ⟨le_rfl, Binary64.ofRat_ne_nan 0⟩
        · rw [if_neg ha]
          refine ⟨Binary64.level_le_infinite ?_, by simp⟩
          split
          · exact Binary64.ofRat_ne_nan 0
          · simp
      · rw [if_neg hzero] at hratio ⊢
        obtain ⟨r, hr, rfl⟩ := Except.map_eq_ok_iff.mp hratio
        obtain ⟨r', hr', -, hle'⟩ := contextual_of_le (div_nonneg hle.1 (hb b rfl))
          (div_le_div_of_nonneg_right hle.2 (hb b rfl)) hr
        exact ⟨some (.ofRat r'), by rw [hr']; rfl,
          .some ⟨Binary64.level_ofRat_mono hle', Binary64.ofRat_ne_nan _⟩⟩

theorem lt_of_ratio_win {a b : ℚ} {r : Binary64} (hb : 0 ≤ b)
    (hr : optionalRatio (some a) (some b) = .ok (some r)) (hwin : r.lt (.ofRat 1) = true) :
    a < b ∨ a = 0 ∧ b = 0 := by
  unfold optionalRatio at hr
  dsimp only at hr
  by_cases hzero : b = 0
  · rw [if_pos hzero] at hr
    by_cases ha : a = 0
    · exact .inr ⟨ha, hzero⟩
    · rw [if_neg ha] at hr
      cases hr
      exact absurd hwin (Binary64.not_lt_of_level_le
        (Binary64.level_le_infinite (Binary64.ofRat_ne_nan 1)))
  · rw [if_neg hzero] at hr
    obtain ⟨q, hq, hsome⟩ := Except.map_eq_ok_iff.mp hr
    cases hsome
    by_contra hnot
    rw [not_or, not_lt] at hnot
    have hone := one_le_contextual_div (hb.lt_of_ne' hzero) hnot.1 hq
    exact absurd hwin (Binary64.not_lt_of_level_le (Binary64.level_ofRat_mono hone))

theorem ratio_of_zeros {r : Binary64}
    (hr : optionalRatio (some 0) (some 0) = .ok (some r)) : r.lt (.ofRat 1) = true := by
  unfold optionalRatio at hr
  dsimp only at hr
  rw [if_pos rfl, if_pos rfl] at hr
  cases hr
  rw [Binary64.ofRat_zero_eq, Binary64.ofRat_one_eq, Binary64.lt_finite]
  norm_num

end Ratios

section Rates
open Binary64

theorem successRate_finite (m : ProviderMetrics) : ∃ v, m.successRate = .finite v := by
  unfold ProviderMetrics.successRate
  by_cases hzero : m.requestCount = 0
  · rw [if_pos hzero]
    exact ⟨_, ofRat_zero_eq⟩
  · rw [if_neg hzero]
    have hpos : (0 : ℚ) < m.requestCount := by exact_mod_cast Nat.pos_of_ne_zero hzero
    have hle : (m.successCount : ℚ) / m.requestCount ≤ 1 := by
      rw [div_le_one hpos]
      exact_mod_cast m.success_le
    obtain ⟨v, hv, -⟩ := exists_finite_of_between representable_zero representable_one
      (by positivity) hle
    exact ⟨v, hv⟩

theorem successRate_mono {c c' : ProviderMetrics} (h : Improves c c') :
    c.successRate.level ≤ c'.successRate.level := by
  unfold ProviderMetrics.successRate
  rw [h.requests]
  split
  · exact le_rfl
  · refine level_ofRat_mono (div_le_div_of_nonneg_right ?_ (Nat.cast_nonneg _))
    exact_mod_cast h.success

theorem sub_finite_mono {x x' : Binary64} {b : { q : ℚ // Representable q }}
    (hx : ∃ v, x = .finite v) (hx' : ∃ v, x' = .finite v) (h : x.level ≤ x'.level) :
    (x.sub (.finite b)).level ≤ (x'.sub (.finite b)).level ∧ x'.sub (.finite b) ≠ .nan := by
  obtain ⟨a, rfl⟩ := hx
  obtain ⟨a', rfl⟩ := hx'
  have hle : a.1 ≤ a'.1 := by simpa [level, Prod.Lex.toLex_le_toLex] using h
  refine ⟨level_ofRat_mono ?_, ofRat_ne_nan _⟩
  linarith

theorem one_le_of_floatOfCount {n : ℕ} {count : ℚ} (hn : n ≠ 0) (h : floatOfCount n = .ok count) :
    1 ≤ count := by
  have hone : (1 : ℚ) ≤ n := by exact_mod_cast Nat.pos_of_ne_zero hn
  have hlevel := level_ofRat_mono hone
  unfold floatOfCount at h
  split at h
  · rename_i q hq
    cases h
    rw [hq, ofRat_one_eq] at hlevel
    simpa [level, Prod.Lex.toLex_le_toLex] using hlevel
  · cases h

theorem averageQualityScore_eq_some {m : ProviderMetrics} {x : Binary64}
    (h : m.averageQualityScore = .ok (some x)) : ∃ count, 1 ≤ count ∧
      floatOfCount m.qualitySampleCount = .ok count ∧
      x = .ofRat (m.qualityScoreTotal.1 / count) := by
  unfold ProviderMetrics.averageQualityScore at h
  split at h
  · cases h
  · rename_i hzero
    obtain ⟨count, hcount, hx⟩ := Except.map_eq_ok_iff.mp h
    exact ⟨count, one_le_of_floatOfCount hzero hcount, hcount, (Option.some.inj hx).symm⟩

theorem averageQualityScore_finite {m : ProviderMetrics} {x : Binary64}
    (h : m.averageQualityScore = .ok (some x)) : ∃ v, x = .finite v := by
  obtain ⟨count, hone, -, rfl⟩ := averageQualityScore_eq_some h
  obtain ⟨v, hv, -⟩ := exists_finite_of_between representable_zero m.qualityScoreTotal.2
    (div_nonneg m.quality_nonneg (zero_le_one.trans hone)) (div_le_self m.quality_nonneg hone)
  exact ⟨v, hv⟩

theorem averageQualityScore_mono {c c' : ProviderMetrics} (h : Improves c c')
    {x : Option Binary64} (hx : c.averageQualityScore = .ok x) :
    ∃ x', c'.averageQualityScore = .ok x' ∧
      Option.Rel (fun a a' => a.level ≤ a'.level) x x' := by
  cases x with
  | none =>
    refine ⟨none, ?_, .none⟩
    unfold ProviderMetrics.averageQualityScore at hx ⊢
    rw [h.qualitySamples]
    split at hx
    · rename_i hzero
      rw [if_pos hzero]
    · obtain ⟨count, -, hsome⟩ := Except.map_eq_ok_iff.mp hx
      cases hsome
  | some x =>
    obtain ⟨count, hone, hcount, rfl⟩ := averageQualityScore_eq_some hx
    have hzero : c.qualitySampleCount ≠ 0 := by
      intro hzero
      simp [ProviderMetrics.averageQualityScore, hzero] at hx
    refine ⟨some (.ofRat (c'.qualityScoreTotal.1 / count)), ?_, .some (level_ofRat_mono ?_)⟩
    · unfold ProviderMetrics.averageQualityScore
      rw [h.qualitySamples, if_neg hzero, hcount]
      rfl
    · exact div_le_div_of_nonneg_right h.quality (zero_le_one.trans hone)

end Rates

section Measure
variable {b c c' : ProviderMetrics} {m : CanaryMeasurements}

theorem averageDecimal_nonneg {total : ℚ} {count : ℕ} {x : Option ℚ} (htotal : 0 ≤ total)
    (hx : averageDecimal total count = .ok x) : ∀ q ∈ x, 0 ≤ q := by
  obtain ⟨x', hx', hrel⟩ := averageDecimal_mono htotal le_rfl hx
  rw [hx] at hx'
  cases hx'
  rintro q rfl
  cases hrel with
  | some h => exact h.1

theorem optionalDelta_mono {x x' y : Option Binary64}
    (h : Option.Rel (fun a a' => a.level ≤ a'.level) x x') (hx : ∀ a ∈ x, ∃ v, a = .finite v)
    (hx' : ∀ a ∈ x', ∃ v, a = .finite v) (hy : ∀ a ∈ y, ∃ v, a = .finite v) :
    Option.Rel (fun d d' => d.level ≤ d'.level ∧ d' ≠ .nan) (optionalDelta x y)
      (optionalDelta x' y) := by
  cases h with
  | none => exact .none
  | @some a a' hle =>
    cases y with
    | none => exact .none
    | some y =>
      obtain ⟨v, rfl⟩ := hy y rfl
      exact .some (sub_finite_mono (hx a rfl) (hx' a' rfl) hle)

theorem measureCanary_mono (h : Improves c c') (hm : measureCanary b c = .ok m) :
    ∃ m', measureCanary b c' = .ok m' ∧ NoWorse m m' := by
  simp only [measureCanary, Except.bind_eq_ok_iff, Except.pure_eq_ok_iff] at hm
  obtain ⟨quality, hquality, bquality, hbquality, latency, hlatency, blatency, hblatency, lratio,
    hlratio, cost, hcost, bcost, hbcost, cratio, hcratio, rfl⟩ := hm
  obtain ⟨quality', hquality', hqrel⟩ := averageQualityScore_mono h hquality
  obtain ⟨latency', hlatency', hlrel⟩ := averageDecimal_mono c'.latency_nonneg h.latency hlatency
  obtain ⟨cost', hcost', hcrel⟩ := averageDecimal_mono c'.cost_nonneg h.cost hcost
  obtain ⟨lratio', hlratio', hlmono⟩ := optionalRatio_mono hlrel
    (averageDecimal_nonneg b.latency_nonneg hblatency) hlratio
  obtain ⟨cratio', hcratio', hcmono⟩ := optionalRatio_mono hcrel
    (averageDecimal_nonneg b.cost_nonneg hbcost) hcratio
  rw [← h.latencySamples] at hlatency'
  rw [← h.costSamples] at hcost'
  obtain ⟨base, hbase⟩ := successRate_finite b
  have hsuccess := sub_finite_mono (b := base) (successRate_finite c) (successRate_finite c')
    (successRate_mono h)
  refine ⟨⟨c'.successRate.sub b.successRate, optionalDelta quality' bquality, lratio', cratio'⟩,
    ?_, ?_⟩
  · simp only [measureCanary, Except.bind_eq_ok_iff, Except.pure_eq_ok_iff]
    exact ⟨quality', hquality', bquality, hbquality, latency', hlatency', blatency, hblatency,
      lratio', hlratio', cost', hcost', bcost, hbcost, cratio', hcratio', rfl⟩
  · rw [hbase]
    refine ⟨hsuccess.1, hsuccess.2, optionalDelta_mono hqrel ?_ ?_ ?_, hlmono, hcmono⟩
    · rintro a rfl
      exact averageQualityScore_finite hquality
    · rintro a rfl
      exact averageQualityScore_finite hquality'
    · rintro a rfl
      exact averageQualityScore_finite hbquality

def Smaller (candidate baseline : Except PyError (Option ℚ)) : Prop :=
  ∃ x y, candidate = .ok (some x) ∧ baseline = .ok (some y) ∧ x < y

def BothZero (candidate baseline : Except PyError (Option ℚ)) : Prop :=
  candidate = .ok (some 0) ∧ baseline = .ok (some 0)

def StrictlyBetter (b c : ProviderMetrics) : Prop :=
  b.successRate.lt c.successRate = true ∨
    (∃ x y, c.averageQualityScore = .ok (some x) ∧ b.averageQualityScore = .ok (some y) ∧
      y.lt x = true) ∨
    Smaller c.averageLatencyMs b.averageLatencyMs ∨ Smaller c.averageCostUsd b.averageCostUsd

def TiesAtZero (b c : ProviderMetrics) : Prop :=
  BothZero c.averageLatencyMs b.averageLatencyMs ∨ BothZero c.averageCostUsd b.averageCostUsd

theorem ratio_win {x y : Option ℚ} {ratio : Option Binary64} (hy : ∀ q ∈ y, 0 ≤ q)
    (hratio : optionalRatio x y = .ok ratio)
    (hwin : ratio.any (fun r => r.lt (.ofRat 1)) = true) :
    (∃ p q, x = some p ∧ y = some q ∧ p < q) ∨ x = some 0 ∧ y = some 0 := by
  cases ratio with
  | none => cases hwin
  | some r =>
    cases x with
    | none => cases hratio
    | some p =>
      cases y with
      | none => cases hratio
      | some q =>
        rcases lt_of_ratio_win (hy q rfl) hratio hwin with hlt | ⟨rfl, rfl⟩
        · exact .inl ⟨p, q, rfl, rfl, hlt⟩
        · exact .inr ⟨rfl, rfl⟩

theorem anyWin_sound (hm : measureCanary b c = .ok m) (hwin : anyWin m = true) :
    StrictlyBetter b c ∨ TiesAtZero b c := by
  simp only [measureCanary, Except.bind_eq_ok_iff, Except.pure_eq_ok_iff] at hm
  obtain ⟨quality, hquality, bquality, hbquality, latency, hlatency, blatency, hblatency, lratio,
    hlratio, cost, hcost, bcost, hbcost, cratio, hcratio, rfl⟩ := hm
  simp only [anyWin, Bool.or_eq_true] at hwin
  rcases hwin with ((hsuccess | hdelta) | hlwin) | hcwin
  · obtain ⟨v, hv⟩ := successRate_finite c
    obtain ⟨w, hw⟩ := successRate_finite b
    rw [hv, hw, Binary64.zero_lt_sub_iff] at hsuccess
    exact .inl (.inl (by rw [hv, hw]; exact hsuccess))
  · cases quality with
    | none => cases hdelta
    | some x =>
      cases bquality with
      | none => cases hdelta
      | some y =>
        obtain ⟨v, rfl⟩ := averageQualityScore_finite hquality
        obtain ⟨w, rfl⟩ := averageQualityScore_finite hbquality
        exact .inl (.inr (.inl ⟨_, _, hquality, hbquality, Binary64.zero_lt_sub_iff.mp hdelta⟩))
  · rcases ratio_win (averageDecimal_nonneg b.latency_nonneg hblatency) hlratio hlwin with
      ⟨p, q, rfl, rfl, hlt⟩ | ⟨rfl, rfl⟩
    · exact .inl (.inr (.inr (.inl ⟨p, q, hlatency, hblatency, hlt⟩)))
    · exact .inr (.inl ⟨hlatency, hblatency⟩)
  · rcases ratio_win (averageDecimal_nonneg b.cost_nonneg hbcost) hcratio hcwin with
      ⟨p, q, rfl, rfl, hlt⟩ | ⟨rfl, rfl⟩
    · exact .inl (.inr (.inr (.inr ⟨p, q, hcost, hbcost, hlt⟩)))
    · exact .inr (.inr ⟨hcost, hbcost⟩)

theorem anyWin_of_zeros (hm : measureCanary b c = .ok m) (htie : TiesAtZero b c) :
    anyWin m = true := by
  simp only [measureCanary, Except.bind_eq_ok_iff, Except.pure_eq_ok_iff] at hm
  obtain ⟨quality, hquality, bquality, hbquality, latency, hlatency, blatency, hblatency, lratio,
    hlratio, cost, hcost, bcost, hbcost, cratio, hcratio, rfl⟩ := hm
  have hwin : ∀ {ratio : Option Binary64}, optionalRatio (some 0) (some 0) = .ok ratio →
      ratio.any (fun r => r.lt (.ofRat 1)) = true := by
    intro ratio hratio
    cases ratio with
    | none => cases hratio
    | some r => exact ratio_of_zeros hratio
  simp only [anyWin, Bool.or_eq_true]
  rcases htie with ⟨hc, hb⟩ | ⟨hc, hb⟩
  · rw [hlatency] at hc
    rw [hblatency] at hb
    cases hc
    cases hb
    exact .inl (.inr (hwin hlratio))
  · rw [hcost] at hc
    rw [hbcost] at hb
    cases hc
    cases hb
    exact .inr (hwin hcratio)

end Measure

section Promotions
variable (policy : CanaryPromotionPolicy) (b c : ProviderMetrics)

def WithinThresholds : Prop :=
  ∃ m, measureCanary b c = .ok m ∧ promotionChecks policy m = true

def NoRegression : Prop := ∃ m, measureCanary b c = .ok m ∧ regresses policy m = false

/-- A promotion is one of a better candidate with enough samples. -/
def SoundPromotion (action : CanaryDecisionAction) : Prop :=
  action = .promote → meetsSamples policy b.requestCount c.requestCount = true ∧
    WithinThresholds policy b c ∧ StrictlyBetter b c

/-- All that a promotion takes, but the candidate only ties with the baseline at a latency or a
cost of zero. -/
structure PromotesTie : Prop where
  samples : meetsSamples policy b.requestCount c.requestCount = true
  kept : NoRegression policy b c
  within : WithinThresholds policy b c
  ties : TiesAtZero b c
  not_better : ¬StrictlyBetter b c

end Promotions

theorem evaluateCanary_eq_ok {comparison : CanaryComparison} {policy : CanaryPromotionPolicy}
    {decision : CanaryPromotionDecision} (h : evaluateCanary comparison policy = .ok decision) :
    validatePromotionPolicy policy = .ok () ∧
      ∃ m, measureCanary comparison.baseline comparison.candidate = .ok m ∧
        decision.action = (canaryVerdict policy m comparison.baseline.requestCount
          comparison.candidate.requestCount).1 := by
  simp only [evaluateCanary, Except.bind_eq_ok_iff, Except.pure_eq_ok_iff] at h
  obtain ⟨⟨⟩, hvalid, m, hm, rfl⟩ := h
  exact ⟨hvalid, m, hm, rfl⟩

theorem evaluateCanary_of_measure {comparison : CanaryComparison} {policy : CanaryPromotionPolicy}
    {m : CanaryMeasurements} (hvalid : validatePromotionPolicy policy = .ok ())
    (hm : measureCanary comparison.baseline comparison.candidate = .ok m) :
    ∃ decision, evaluateCanary comparison policy = .ok decision ∧
      decision.action = (canaryVerdict policy m comparison.baseline.requestCount
        comparison.candidate.requestCount).1 := by
  simp only [evaluateCanary, Except.bind_eq_ok_iff, Except.pure_eq_ok_iff]
  exact ⟨_, ⟨(), hvalid, m, hm, rfl⟩, rfl⟩

theorem soundPromotion_iff {comparison : CanaryComparison} {policy : CanaryPromotionPolicy}
    {decision : CanaryPromotionDecision} (h : evaluateCanary comparison policy = .ok decision) :
    SoundPromotion policy comparison.baseline comparison.candidate decision.action ↔
      ¬PromotesTie policy comparison.baseline comparison.candidate := by
  obtain ⟨-, m, hm, haction⟩ := evaluateCanary_eq_ok h
  constructor
  · intro hsound htie
    obtain ⟨m', hm', hkept⟩ := htie.kept
    obtain ⟨m'', hm'', hwithin⟩ := htie.within
    rw [hm] at hm' hm''
    cases hm'
    cases hm''
    have hpromote : decision.action = .promote := by
      rw [haction, canaryVerdict_promote_iff]
      exact ⟨htie.samples, hkept, hwithin, anyWin_of_zeros hm htie.ties⟩
    exact htie.not_better (hsound hpromote).2.2
  · intro htie hpromote
    rw [haction, canaryVerdict_promote_iff] at hpromote
    obtain ⟨hsamples, hkept, hwithin, hwin⟩ := hpromote
    refine ⟨hsamples, ⟨m, hm, hwithin⟩, ?_⟩
    by_contra hbetter
    exact htie ⟨hsamples, ⟨m, hm, hkept⟩, ⟨m, hm, hwithin⟩,
      (anyWin_sound hm hwin).resolve_left hbetter, hbetter⟩

/-- A promotion is sound unless it rests on a tie at zero, and a better candidate with the same
samples is never decided on lower. -/
theorem evaluate_canary_sound_iff (comparison : CanaryComparison) (policy : CanaryPromotionPolicy)
    (decision : CanaryPromotionDecision) (h : evaluateCanary comparison policy = .ok decision) :
    (SoundPromotion policy comparison.baseline comparison.candidate decision.action ↔
      ¬PromotesTie policy comparison.baseline comparison.candidate) ∧
      ∀ better : CanaryComparison, better.baseline = comparison.baseline →
        Improves comparison.candidate better.candidate →
        ∃ decision', evaluateCanary better policy = .ok decision' ∧
          decision.action.rank ≤ decision'.action.rank := by
  refine ⟨soundPromotion_iff h, fun better hbaseline himproves => ?_⟩
  obtain ⟨hvalid, m, hm, haction⟩ := evaluateCanary_eq_ok h
  obtain ⟨m', hm', hnoWorse⟩ := measureCanary_mono himproves hm
  rw [← hbaseline] at hm' haction
  obtain ⟨decision', hdecision', haction'⟩ := evaluateCanary_of_measure hvalid hm'
  refine ⟨decision', hdecision', ?_⟩
  rw [haction, haction', himproves.requests]
  exact canaryVerdict_mono hnoWorse _ _

section Default
open Binary64

theorem validateFinite_ofRat {q : ℚ} (hle : -1 ≤ q) (hge : q ≤ 1) (fieldName : String) :
    validateFinite (ofRat q) fieldName = .ok () := by
  obtain ⟨v, hv, -⟩ := exists_finite_of_between (representable_neg representable_one)
    representable_one hle hge
  rw [validateFinite, hv]
  rfl

theorem validateFiniteNonNegative_ofRat {q : ℚ} (hle : 0 ≤ q) (hge : q ≤ 2) (fieldName : String) :
    validateFiniteNonNegative (ofRat q) fieldName = .ok () := by
  have htwo : Representable 2 := by
    have hpow := representable_two_pow (n := 1) (by norm_num)
    rwa [pow_one] at hpow
  obtain ⟨v, hv, -⟩ := exists_finite_of_between representable_zero htwo hle hge
  rw [validateFiniteNonNegative, ofRat_lt_ofRat_eq_false hle, hv]
  rfl

theorem defaultPromotionPolicy_valid : validatePromotionPolicy defaultPromotionPolicy = .ok () := by
  have hfinite : ∀ {q : ℚ} {name : String}, -1 ≤ q ∧ q ≤ 1 →
      validateFinite (ofRat q) name = .ok () :=
    fun h => validateFinite_ofRat h.1 h.2 _
  have hratio : ∀ {q : ℚ} {name : String}, 0 ≤ q ∧ q ≤ 2 →
      validateFiniteNonNegative (ofRat q) name = .ok () :=
    fun h => validateFiniteNonNegative_ofRat h.1 h.2 _
  simp only [validatePromotionPolicy, defaultPromotionPolicy, Except.bind_eq_ok_iff]
  exact ⟨(), rfl, (), rfl, (), hfinite (by norm_num), (), hfinite (by norm_num), (),
    hratio (by norm_num), (), hratio (by norm_num), (), hfinite (by norm_num), (),
    hfinite (by norm_num), (), hratio (by norm_num), hratio (by norm_num)⟩

theorem no_total_nonneg : (0 : ℚ) ≤ 0 := le_rfl

def oneRequest (id : String) (id_ne : id ≠ "") (succeeded free : Bool) : ProviderMetrics where
  providerId := id
  requestCount := 1
  successCount := succeeded.toNat
  latencyMsTotal := 0
  latencySampleCount := 0
  costUsdTotal := 0
  costSampleCount := free.toNat
  qualityScoreTotal := ⟨0, representable_zero⟩
  qualitySampleCount := 0
  providerId_ne := id_ne
  success_le := succeeded.toNat_le
  latencySample_le := by decide
  costSample_le := free.toNat_le
  qualitySample_le := by decide
  latency_nonneg := no_total_nonneg
  cost_nonneg := no_total_nonneg
  quality_nonneg := no_total_nonneg

def oneRequestEach (succeeded succeeded' free : Bool) : CanaryComparison where
  baseline := oneRequest "baseline" (by decide) succeeded free
  candidate := oneRequest "candidate" (by decide) succeeded' free
  ids_ne := show "baseline" ≠ "candidate" by decide

/-- The candidate succeeds where the baseline fails. -/
theorem evaluate_canary_sound_on_success : ∃ decision,
    evaluateCanary (oneRequestEach false true false) defaultPromotionPolicy = .ok decision ∧
      SoundPromotion defaultPromotionPolicy (oneRequestEach false true false).baseline
        (oneRequestEach false true false).candidate decision.action := by
  obtain ⟨decision, hdecision, -⟩ := evaluateCanary_of_measure defaultPromotionPolicy_valid
    (show measureCanary (oneRequestEach false true false).baseline
      (oneRequestEach false true false).candidate = .ok _ from rfl)
  refine ⟨decision, hdecision, (evaluate_canary_sound_iff _ _ _ hdecision).1.mpr ?_⟩
  rintro ⟨-, -, -, ⟨hlatency, -⟩ | ⟨hcost, -⟩, -⟩
  · cases hlatency
  · cases hcost

theorem free_averageCostUsd (id : String) (id_ne : id ≠ "") :
    (oneRequest id id_ne true true).averageCostUsd = .ok (some 0) := by
  change some <$> contextual (0 / (1 : ℕ)) = _
  rw [zero_div, contextual_of_isMultiple ⟨0, by norm_num⟩ (by norm_num)]
  rfl

/-- Two providers that are equal in all that is measured: the candidate is promoted. -/
theorem equal_candidate_promoted : ∃ decision,
    evaluateCanary (oneRequestEach true true true) defaultPromotionPolicy = .ok decision ∧
      decision.action = .promote ∧
      ¬StrictlyBetter (oneRequestEach true true true).baseline
        (oneRequestEach true true true).candidate := by
  have hm : measureCanary (oneRequestEach true true true).baseline
      (oneRequestEach true true true).candidate = .ok ⟨ofRat 0, none, none, some (ofRat 0)⟩ := by
    have hrate : ∀ id id_ne, (oneRequest id id_ne true true).successRate = ofRat 1 := by
      intro id id_ne
      change ofRat (((1 : ℕ) : ℚ) / ((1 : ℕ) : ℚ)) = _
      norm_num
    have hdelta : (ofRat 1).sub (ofRat 1) = ofRat 0 := by
      rw [ofRat_one_eq]
      exact congrArg ofRat (add_neg_cancel 1)
    simp only [measureCanary, Except.bind_eq_ok_iff, Except.pure_eq_ok_iff]
    refine ⟨none, rfl, none, rfl, none, rfl, none, rfl, none, rfl, some 0, free_averageCostUsd _ _,
      some 0, free_averageCostUsd _ _, some (ofRat 0), ?_, ?_⟩
    · unfold optionalRatio
      dsimp only
      rw [if_pos rfl, if_pos rfl]
    · simp only [oneRequestEach, hrate, hdelta]
      rfl
  obtain ⟨decision, hdecision, haction⟩ := evaluateCanary_of_measure defaultPromotionPolicy_valid hm
  refine ⟨decision, hdecision, ?_, ?_⟩
  · rw [haction, canaryVerdict_promote_iff]
    refine ⟨rfl, ?_, ?_, anyWin_of_zeros hm
      (.inr ⟨free_averageCostUsd _ _, free_averageCostUsd _ _⟩)⟩
    · have hsuccess := ofRat_lt_ofRat_eq_false (show (-1 / 20 : ℚ) ≤ 0 by norm_num)
      have hcost := ofRat_lt_ofRat_eq_false (show (0 : ℚ) ≤ 5 / 4 by norm_num)
      simp [regresses, defaultPromotionPolicy, hsuccess, hcost]
    · have hsuccess := ofRat_le_ofRat (le_refl (0 : ℚ))
      have hcost := ofRat_le_ofRat (show (0 : ℚ) ≤ 1 by norm_num)
      simp [promotionChecks, defaultPromotionPolicy, hsuccess, hcost]
  · rintro (hrate | ⟨x, y, hx, -⟩ | ⟨x, y, hx, -⟩ | ⟨x, y, hx, hy, hlt⟩)
    · change (oneRequest _ _ true true).successRate.lt (oneRequest _ _ true true).successRate =
        true at hrate
      exact not_lt_of_level_le le_rfl hrate
    · cases hx
    · cases hx
    · rw [oneRequestEach, free_averageCostUsd] at hx hy
      cases hx
      cases hy
      exact lt_irrefl _ hlt

end Default

end Pitwall.Routing.Canary
