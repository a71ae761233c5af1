import Pitwall.Routing.PlanSafety
set_option autoImplicit false

/-!
The score in exact arithmetic on the numbers that the scorer reads, and how it follows each of
them.
-/

namespace Pitwall.Routing

structure ScoreTerms where
  latencyPenalty : ℚ
  warmWorkerBonus : ℚ
  costPenalty : ℚ
  regionBonus : ℚ
  recentErrorPenalty : ℚ
  priorityMultiplier : ℚ

namespace ScoreTerms

def beforeMultiplier (t : ScoreTerms) : ℚ :=
  100 - t.latencyPenalty + t.warmWorkerBonus - t.costPenalty + t.regionBonus - t.recentErrorPenalty

def final (t : ScoreTerms) : ℚ := t.beforeMultiplier * t.priorityMultiplier

/-- No penalty is higher and no bonus lower in `t'`. -/
structure NoWorse (t t' : ScoreTerms) : Prop where
  latency : t'.latencyPenalty ≤ t.latencyPenalty
  warm : t.warmWorkerBonus ≤ t'.warmWorkerBonus
  cost : t'.costPenalty ≤ t.costPenalty
  region : t.regionBonus ≤ t'.regionBonus
  error : t'.recentErrorPenalty ≤ t.recentErrorPenalty

theorem NoWorse.before {t t' : ScoreTerms} (h : NoWorse t t') :
    t.beforeMultiplier ≤ t'.beforeMultiplier := by
  unfold beforeMultiplier
  linarith [h.latency, h.warm, h.cost, h.region, h.error]

theorem NoWorse.final {t t' : ScoreTerms} (h : NoWorse t t') (hnonneg : 0 ≤ t.priorityMultiplier)
    (hsame : t'.priorityMultiplier = t.priorityMultiplier) : t.final ≤ t'.final := by
  unfold ScoreTerms.final
  rw [hsame]
  exact mul_le_mul_of_nonneg_right h.before hnonneg

theorem final_le_iff {t t' : ScoreTerms} (hsame : t'.beforeMultiplier = t.beforeMultiplier)
    (h : t.priorityMultiplier ≤ t'.priorityMultiplier) :
    t.final ≤ t'.final ↔ t'.priorityMultiplier = t.priorityMultiplier ∨ 0 ≤ t.beforeMultiplier := by
  unfold final
  rw [hsame]
  constructor
  · intro hle
    by_contra hneither
    push Not at hneither
    have hlt : t.priorityMultiplier < t'.priorityMultiplier := lt_of_le_of_ne h hneither.1.symm
    exact absurd hle (not_le.mpr (mul_lt_mul_of_neg_left hlt hneither.2))
  · rintro (heq | hnonneg)
    · rw [heq]
    · exact mul_le_mul_of_nonneg_left h hnonneg

end ScoreTerms

section Exact
variable (text : PyString) (p : ProviderLike) (hints : Hints) (observed : ObservedMetrics)

/-- `latencyTerms` in exact arithmetic. -/
def exactLatencyTerms : Except PyError (ℚ × ℚ) :=
  if hints.latencySensitive then do
    let coldStart ← coldStartP50Ms text p
    let warm ← warmWorkers text p
    pure (coldStart.value / 100, if warm.value < 1 then 0 else 20)
  else .ok (0, 0)

/-- `costTerm` in exact arithmetic. -/
def exactCostTerm : Except PyError ℚ :=
  if hints.costSensitive then do
    let cost ← costPerSecondActive text p
    pure (cost.value * 10000)
  else .ok 0

def exactRegionBonus : ℚ :=
  if hints.regionPreference.isSome && hints.regionPreference = p.stringField "region" then 15
  else 0

/-- The terms of `explain_score` in exact arithmetic. -/
def exactTerms : Except PyError ScoreTerms := do
  let (latencyPenalty, warmWorkerBonus) ← exactLatencyTerms text p hints
  let costPenalty ← exactCostTerm text p hints
  let rate ← recentErrorRate text p observed
  let multiplier ← priorityMultiplier text p
  pure
    { latencyPenalty := latencyPenalty
      warmWorkerBonus := warmWorkerBonus
      costPenalty := costPenalty
      regionBonus := exactRegionBonus p hints
      recentErrorPenalty := rate.value * 50
      priorityMultiplier := multiplier.value }

end Exact

/-- What is read for `p'` under `observed'` is no worse than for `p` under `observed`. -/
structure ReadsNoWorse (text : PyString) (p : ProviderLike) (observed : ObservedMetrics)
    (p' : ProviderLike) (observed' : ObservedMetrics) : Prop where
  coldStart : ∀ x x', coldStartP50Ms text p = .ok x → coldStartP50Ms text p' = .ok x' →
    x'.value ≤ x.value
  warm : ∀ x x', warmWorkers text p = .ok x → warmWorkers text p' = .ok x' → x.value ≤ x'.value
  cost : ∀ x x', costPerSecondActive text p = .ok x → costPerSecondActive text p' = .ok x' →
    x'.value ≤ x.value
  error : ∀ x x', recentErrorRate text p observed = .ok x →
    recentErrorRate text p' observed' = .ok x' → x'.value ≤ x.value
  region : p'.stringField "region" = p.stringField "region"

section Order
variable {text : PyString} {p p' : ProviderLike} {hints : Hints}
  {observed observed' : ObservedMetrics}

theorem exactTerms_noWorse (h : ReadsNoWorse text p observed p' observed') {t t' : ScoreTerms}
    (ht : exactTerms text p hints observed = .ok t)
    (ht' : exactTerms text p' hints observed' = .ok t') : t.NoWorse t' := by
  simp only [exactTerms, Except.bind_eq_ok_iff, Except.pure_eq_ok_iff] at ht ht'
  obtain ⟨⟨latency, warm⟩, hlatency, cost, hcost, rate, hrate, m, hm, rfl⟩ := ht
  obtain ⟨⟨latency', warm'⟩, hlatency', cost', hcost', rate', hrate', m', hm', rfl⟩ := ht'
  have herror := h.error rate rate' hrate hrate'
  have hregion : exactRegionBonus p' hints = exactRegionBonus p hints := by
    rw [exactRegionBonus, h.region, exactRegionBonus]
  have hlatencyTerms : latency' ≤ latency ∧ warm ≤ warm' := by
    unfold exactLatencyTerms at hlatency hlatency'
    split at hlatency
    · next hsensitive =>
      rw [if_pos hsensitive] at hlatency'
      simp only [Except.bind_eq_ok_iff, Except.pure_eq_ok_iff, Prod.mk.injEq] at hlatency hlatency'
      obtain ⟨cold, hcold, workers, hworkers, rfl, rfl⟩ := hlatency
      obtain ⟨cold', hcold', workers', hworkers', rfl, rfl⟩ := hlatency'
      have hwarm := h.warm workers workers' hworkers hworkers'
      refine ⟨div_le_div_of_nonneg_right (h.coldStart cold cold' hcold hcold') (by norm_num), ?_⟩
      split_ifs <;> linarith
    · next hsensitive =>
      rw [if_neg hsensitive] at hlatency'
      cases hlatency
      cases hlatency'
      exact ⟨le_rfl, le_rfl⟩
  have hcostTerm : cost' ≤ cost := by
    unfold exactCostTerm at hcost hcost'
    split at hcost
    · next hsensitive =>
      rw [if_pos hsensitive] at hcost'
      simp only [Except.bind_eq_ok_iff, Except.pure_eq_ok_iff] at hcost hcost'
      obtain ⟨perSecond, hread, rfl⟩ := hcost
      obtain ⟨perSecond', hread', rfl⟩ := hcost'
      exact mul_le_mul_of_nonneg_right (h.cost perSecond perSecond' hread hread') (by norm_num)
    · next hsensitive =>
      rw [if_neg hsensitive] at hcost'
      cases hcost
      cases hcost'
      exact le_rfl
  exact
    { latency := hlatencyTerms.1
      warm := hlatencyTerms.2
      cost := hcostTerm
      region := hregion.ge
      error := mul_le_mul_of_nonneg_right herror (by norm_num) }

theorem exactTerms_multiplier {t : ScoreTerms} (ht : exactTerms text p hints observed = .ok t) :
    0 ≤ t.priorityMultiplier := by
  simp only [exactTerms, Except.bind_eq_ok_iff, Except.pure_eq_ok_iff] at ht
  obtain ⟨terms, -, cost, -, rate, -, m, hm, rfl⟩ := ht
  obtain ⟨one, hone, hvalue⟩ := ofRat_natCast 1 (by norm_num)
  rw [Nat.cast_one] at hone hvalue
  obtain ⟨q, rfl, hq⟩ := nonNegativeNumber_eq_ok ⟨one, hone, by rw [hvalue]; norm_num⟩ hm
  exact hq

/-- The score in exact arithmetic follows every number that it reads but the multiplier, which
it follows where the terms before it do not sum to less than zero. -/
theorem exactScore_monotone {t t' : ScoreTerms} (ht : exactTerms text p hints observed = .ok t)
    (ht' : exactTerms text p' hints observed' = .ok t') :
    (ReadsNoWorse text p observed p' observed' →
        t'.priorityMultiplier = t.priorityMultiplier → t.final ≤ t'.final) ∧
      (t'.beforeMultiplier = t.beforeMultiplier →
        t.priorityMultiplier ≤ t'.priorityMultiplier →
          (t.final ≤ t'.final ↔
            t'.priorityMultiplier = t.priorityMultiplier ∨ 0 ≤ t.beforeMultiplier)) := by
  refine ⟨fun h hsame => ?_, ScoreTerms.final_le_iff⟩
  exact (exactTerms_noWorse h ht ht').final (exactTerms_multiplier ht) hsame

end Order

section Faithful
variable {text : PyString} {p : ProviderLike} {hints : Hints} {observed : ObservedMetrics}

structure ScoreTerms.Fits (t : ScoreTerms) : Prop where
  latency : Representable t.latencyPenalty
  cost : Representable t.costPenalty
  error : Representable t.recentErrorPenalty
  afterLatency : Representable (100 - t.latencyPenalty)
  afterWarm : Representable (100 - t.latencyPenalty + t.warmWorkerBonus)
  afterCost : Representable (100 - t.latencyPenalty + t.warmWorkerBonus - t.costPenalty)
  afterRegion : Representable
    (100 - t.latencyPenalty + t.warmWorkerBonus - t.costPenalty + t.regionBonus)
  before : Representable t.beforeMultiplier
  final : Representable t.final

theorem ofRat_exactly (n : ℕ) (h : n < 2 ^ 53) : (Binary64.ofRat n).Exactly n :=
  Binary64.exactly_ofRat ⟨n, 0, by simp, by simpa using mod_cast h, by norm_num⟩

theorem exactly_read {value : PyValue} {name : String} {x : Binary64}
    (h : nonNegativeNumber text value name (.ofRat 0) = .ok x) : x.Exactly x.value :=
  Binary64.exactly_value (nonNegativeNumber_default h)

theorem latencyTerms_exact {latency warm : ℚ}
    (h : exactLatencyTerms text p hints = .ok (latency, warm)) (hfits : Representable latency) :
    ∃ x y, latencyTerms text p hints = .ok (x, y) ∧ x.Exactly latency ∧ y.Exactly warm := by
  have hzero : (Binary64.ofRat 0).Exactly 0 := by simpa using ofRat_exactly 0 (by norm_num)
  unfold exactLatencyTerms at h
  unfold latencyTerms
  split at h
  · next hsensitive =>
    rw [if_pos hsensitive]
    simp only [Except.bind_eq_ok_iff, Except.pure_eq_ok_iff, Prod.mk.injEq] at h
    obtain ⟨cold, hcold, workers, hworkers, rfl, rfl⟩ := h
    rw [Except.bind_of_ok hcold, Except.bind_of_ok hworkers]
    refine ⟨_, _, rfl, (exactly_read hcold).divBy hfits, ?_⟩
    obtain ⟨q, rfl, -⟩ := nonNegativeNumber_default hworkers
    have hone : Binary64.ofRat 1 = .finite ⟨1, Binary64.representable_one⟩ :=
      Binary64.ofRat_of_representable _
    by_cases hlt : (Binary64.finite q).value < 1
    · rw [hone, if_pos (Binary64.lt_finite.mpr hlt), if_pos hlt]
      exact hzero
    · rw [hone, if_neg fun h => hlt (Binary64.lt_finite.mp h), if_neg hlt]
      exact_mod_cast ofRat_exactly 20 (by norm_num)
  · next hsensitive =>
    rw [if_neg hsensitive]
    cases h
    exact ⟨_, _, rfl, hzero, hzero⟩

theorem costTerm_exact {cost : ℚ} (h : exactCostTerm text p hints = .ok cost)
    (hfits : Representable cost) : ∃ x, costTerm text p hints = .ok x ∧ x.Exactly cost := by
  unfold exactCostTerm at h
  unfold costTerm
  split at h
  · next hsensitive =>
    rw [if_pos hsensitive]
    simp only [Except.bind_eq_ok_iff, Except.pure_eq_ok_iff] at h
    obtain ⟨perSecond, hread, rfl⟩ := h
    rw [Except.bind_of_ok hread]
    have hfactor := ofRat_exactly 10000 (by norm_num)
    exact ⟨_, rfl, (exactly_read hread).mul (by exact_mod_cast hfactor) hfits⟩
  · next hsensitive =>
    rw [if_neg hsensitive]
    cases h
    exact ⟨_, rfl, by simpa using ofRat_exactly 0 (by norm_num)⟩

theorem regionBonus_exact : (regionBonus p hints).Exactly (exactRegionBonus p hints) := by
  unfold regionBonus exactRegionBonus
  split
  · exact_mod_cast ofRat_exactly 15 (by norm_num)
  · exact_mod_cast ofRat_exactly 0 (by norm_num)

theorem explainScore_exact {t : ScoreTerms} (ht : exactTerms text p hints observed = .ok t)
    (hfits : t.Fits) :
    ∃ e, explainScore text p hints observed = .ok e ∧ e.finalScore.Exactly t.final := by
  simp only [exactTerms, Except.bind_eq_ok_iff, Except.pure_eq_ok_iff] at ht
  obtain ⟨⟨latency, warm⟩, hlatency, cost, hcost, rate, hrate, m, hm, rfl⟩ := ht
  obtain ⟨x, y, hterms, hx, hy⟩ := latencyTerms_exact hlatency hfits.latency
  obtain ⟨z, hz, hcostExact⟩ := costTerm_exact hcost hfits.cost
  have hrateExact := Binary64.exactly_value (recentErrorRate_eq_ok hrate)
  have hmultiplier : m.Exactly m.value := by
    obtain ⟨one, hone, hvalue⟩ := ofRat_natCast 1 (by norm_num)
    rw [Nat.cast_one] at hone hvalue
    exact Binary64.exactly_value
      (nonNegativeNumber_eq_ok ⟨one, hone, by rw [hvalue]; norm_num⟩ hm)
  have hfifty : (Binary64.ofRat 50).Exactly 50 := by
    exact_mod_cast ofRat_exactly 50 (by norm_num)
  have hhundred : (Binary64.ofRat 100).Exactly 100 := by
    exact_mod_cast ofRat_exactly 100 (by norm_num)
  have herror := hrateExact.mul hfifty hfits.error
  have hsum := ((((hhundred.sub hx hfits.afterLatency).add hy hfits.afterWarm).sub hcostExact
    hfits.afterCost).add regionBonus_exact hfits.afterRegion).sub herror hfits.before
  unfold explainScore
  rw [Except.bind_of_ok hterms]
  dsimp only
  rw [Except.bind_of_ok hz, Except.bind_of_ok hrate, Except.bind_of_ok hm]
  exact ⟨_, rfl, hsum.mul hmultiplier hfits.final⟩

end Faithful

def scoreText : PyString := { asciiText with
  str := fun
    | .int n => some (toString n)
    | .float _ => some "0.0"
    | _ => none
  parseDecimal := fun s =>
    if s = "0.0" then some (.finite 0) else if s = "1" then some (.finite 1)
    else if s = "2" then some (.finite 2) else if s = "20000" then some (.finite 20000)
    else none }

def slowProvider (multiplier : Int) : ProviderLike :=
  .mapping [("cold_start_p50_ms", .int 20000), ("priority_multiplier", .int multiplier)]

def latencyHints : Hints := ⟨true, false, none⟩

theorem scoreText_reads (value : PyValue) (n : ℕ) (name : String) (default : Binary64)
    (hn : n < 2 ^ 53) (hnone : value ≠ .none) (hbool : ∀ b, value ≠ .bool b)
    (h : scoreText.decimalOf value = some (.finite n)) :
    ∃ q, nonNegativeNumber scoreText value name default = .ok (.finite q) ∧ q.1 = n := by
  obtain ⟨q, hq, hvalue⟩ := ofRat_natCast n hn
  refine ⟨q, ?_, hvalue⟩
  unfold nonNegativeNumber
  split
  · exact absurd rfl hnone
  · exact absurd rfl (hbool _)
  · have hread : (scoreText.decimalOf value).bind DecimalNumber.toBinary64 = some (.finite q) := by
      rw [h, ← hq]
      rfl
    rw [hread]
    dsimp only
    rw [if_neg (by rw [hvalue]; exact not_lt.mpr (Nat.cast_nonneg n))]

theorem slowProvider_terms (n : ℕ) (hn : n < 2 ^ 53)
    (h : scoreText.decimalOf (.int n) = some (.finite n)) :
    exactTerms scoreText (slowProvider n) latencyHints .default = .ok ⟨200, 0, 0, 0, 0, n⟩ := by
  obtain ⟨cold, hcold, hcoldValue⟩ := scoreText_reads (.int 20000) 20000 "cold_start_p50_ms"
    (.ofRat 0) (by norm_num) (by simp) (by simp) rfl
  obtain ⟨rate, hrate, hrateValue⟩ := scoreText_reads (.float (.finite 0)) 0 "recent_error_rate"
    (.ofRat 0) (by norm_num) (by simp) (by simp) (congrArg _ (congrArg _ Nat.cast_zero.symm))
  obtain ⟨m, hm, hmValue⟩ := scoreText_reads (.int n) n "priority_multiplier" (.ofRat 1) hn
    (by simp) (by simp) h
  obtain ⟨zero, hzero, hzeroValue⟩ := ofRat_zero
  have hcold' : coldStartP50Ms scoreText (slowProvider n) = .ok (.finite cold) := hcold
  have hwarm : warmWorkers scoreText (slowProvider n) = .ok (.finite zero) :=
    congrArg Except.ok hzero
  have hlatency : exactLatencyTerms scoreText (slowProvider n) latencyHints = .ok (200, 0) := by
    unfold exactLatencyTerms
    rw [if_pos (show latencyHints.latencySensitive = true from rfl), Except.bind_of_ok hcold', Except.bind_of_ok hwarm]
    simp only [Binary64.value, hcoldValue, hzeroValue]
    norm_num
    rfl
  have hrate' : recentErrorRate scoreText (slowProvider n) .default = .ok (.finite rate) := by
    have hone : Binary64.ofRat 1 = .finite ⟨1, Binary64.representable_one⟩ :=
      Binary64.ofRat_of_representable _
    have hread : nonNegativeNumber scoreText
        ((slowProvider n).recentErrorRateValue .default) "recent_error_rate" (.ofRat 0) =
          .ok (.finite rate) := hrate
    rw [recentErrorRate, Except.bind_of_ok hread, hone, if_neg]
    rw [Binary64.lt_finite, hrateValue]
    norm_num
  have hm' : priorityMultiplier scoreText (slowProvider n) = .ok (.finite m) := hm
  unfold exactTerms
  rw [Except.bind_of_ok hlatency]
  dsimp only
  rw [show exactCostTerm scoreText (slowProvider n) latencyHints = .ok 0 from rfl,
    Except.bind_of_ok rfl, Except.bind_of_ok hrate', Except.bind_of_ok hm']
  simp only [Binary64.value, hrateValue, hmValue]
  norm_num
  rfl

theorem slowProvider_one : exactTerms scoreText (slowProvider 1) latencyHints .default =
    .ok ⟨200, 0, 0, 0, 0, 1⟩ := by
  have h := slowProvider_terms 1 (by norm_num) (congrArg _ (congrArg _ Nat.cast_one.symm))
  rwa [Nat.cast_one, Nat.cast_one] at h

theorem slowProvider_two : exactTerms scoreText (slowProvider 2) latencyHints .default =
    .ok ⟨200, 0, 0, 0, 0, 2⟩ := by
  have h := slowProvider_terms 2 (by norm_num) (congrArg _ (congrArg _ Nat.cast_ofNat.symm))
  rwa [Nat.cast_ofNat, Nat.cast_ofNat] at h

def warmProvider : ProviderLike :=
  .mapping [("cold_start_p50_ms", .int 2), ("warm_workers", .int 1), ("priority_multiplier", .int 1)]

theorem value_of_read {read : Except PyError Binary64} {q : ℚ} {x : Binary64}
    (h : read.map Binary64.value = .ok q) (hx : read = .ok x) : x.value = q := by
  rw [hx] at h
  exact Except.ok.inj h

theorem warmProvider_noWorse :
    ReadsNoWorse scoreText (slowProvider 1) .default warmProvider .default where
  coldStart x x' hx hx' := by
    rw [value_of_read (q := 20000) (by decide +kernel) hx,
      value_of_read (q := 2) (by decide +kernel) hx']
    norm_num
  warm x x' hx hx' := by
    rw [value_of_read (q := 0) (by decide +kernel) hx,
      value_of_read (q := 1) (by decide +kernel) hx']
    norm_num
  cost x x' hx hx' := by
    have hsame : costPerSecondActive scoreText (slowProvider 1) =
        costPerSecondActive scoreText warmProvider := rfl
    rw [hsame, hx'] at hx
    exact le_of_eq (congrArg Binary64.value (Except.ok.inj hx))
  error x x' hx hx' := by
    have hsame : recentErrorRate scoreText (slowProvider 1) .default =
        recentErrorRate scoreText warmProvider .default := rfl
    rw [hsame, hx'] at hx
    exact le_of_eq (congrArg Binary64.value (Except.ok.inj hx))
  region := rfl

/-- The warm provider scores no lower; under a higher multiplier the slow one scores lower. -/
theorem exactScore_monotone_slow :
    (∃ t, exactTerms scoreText warmProvider latencyHints .default = .ok t ∧
      t.final = 11998 / 100 ∧ (⟨200, 0, 0, 0, 0, 1⟩ : ScoreTerms).final ≤ t.final) ∧
    ¬(⟨200, 0, 0, 0, 0, 1⟩ : ScoreTerms).final ≤ (⟨200, 0, 0, 0, 0, 2⟩ : ScoreTerms).final := by
  constructor
  · have hterms : (exactTerms scoreText warmProvider latencyHints .default).map
        (fun t => (t.priorityMultiplier, t.final)) = .ok (1, 11998 / 100) := by decide +kernel
    obtain ⟨t, ht, hterms⟩ := Except.map_eq_ok_iff.mp hterms
    obtain ⟨hmultiplier, hfinal⟩ := Prod.mk.inj hterms
    exact ⟨t, ht, hfinal,
      (exactScore_monotone slowProvider_one ht).1 warmProvider_noWorse hmultiplier⟩
  · rw [(exactScore_monotone slowProvider_one slowProvider_two).2 rfl one_le_two]
    norm_num [ScoreTerms.beforeMultiplier]

/-- A higher multiplier lowers a score below zero. -/
theorem multiplier_lowers_negative_score :
    ∃ t t', exactTerms scoreText (slowProvider 1) latencyHints .default = .ok t ∧
      exactTerms scoreText (slowProvider 2) latencyHints .default = .ok t' ∧
      t.priorityMultiplier < t'.priorityMultiplier ∧ t'.final < t.final := by
  refine ⟨_, _, slowProvider_one, slowProvider_two, one_lt_two, ?_⟩
  norm_num [ScoreTerms.final, ScoreTerms.beforeMultiplier]

end Pitwall.Routing
