import Pitwall.Library.Traversal
import Pitwall.Routing.Values
set_option autoImplicit false

/-!
Stage 3 of the router: the score of a provider under the hints of the request, in binary64
arithmetic.
-/

namespace Pitwall.Routing

structure ObservedMetrics where
  recentErrorRate : PyFloat
  deriving DecidableEq

def ObservedMetrics.default : ObservedMetrics := ⟨.finite 0⟩

structure ScoreExplanation where
  providerId : String
  baseScore : Binary64
  latencyPenalty : Binary64
  warmWorkerBonus : Binary64
  costPenalty : Binary64
  regionBonus : Binary64
  recentErrorPenalty : Binary64
  priorityMultiplier : Binary64
  scoreBeforeMultiplier : Binary64
  finalScore : Binary64
  deriving DecidableEq

/-- `_non_negative_number`. -/
def nonNegativeNumber (text : PyString) (value : PyValue) (name : String) (default : Binary64) :
    Except PyError Binary64 :=
  match value with
  | .none => .ok default
  | .bool _ => .error (valueError s!"{name} must be numeric")
  | value =>
      match (text.decimalOf value).bind DecimalNumber.toBinary64 with
      | none => .error (valueError s!"{name} must be numeric")
      | some (.finite parsed) =>
          if parsed.1 < 0 then .error (valueError s!"{name} must be non-negative")
          else .ok (.finite parsed)
      | some _ => .error (valueError s!"{name} must be finite")

namespace ProviderLike
variable (p : ProviderLike)

/-- `_config_value` of the scorer, which looks at the config alone. -/
def scoreConfig (key : String) : PyValue := (p.config.lookup key).getD .none

/-- `_cost_value`: an entry of `cost`, else of the `cost` of the config. -/
def costValue (key : String) : PyValue :=
  match ((p.field "cost").mapping?).bind (List.lookup key) with
  | some v => v
  | none => (((p.scoreConfig "cost").mapping?).bind (List.lookup key)).getD .none

def coldStartValue : PyValue :=
  .firstPresent [p.field "cold_start_p50_ms", p.scoreConfig "cold_start_p50_ms"]

def warmWorkersValue : PyValue :=
  .firstPresent [p.field "warm_workers", p.field "warmWorkers", p.field "workers",
    p.field "workers_min", p.field "workersMin", p.scoreConfig "warm_workers",
    p.scoreConfig "warmWorkers", p.scoreConfig "workers", p.scoreConfig "workers_min",
    p.scoreConfig "workersMin"]

def costPerSecondValue : PyValue :=
  .firstPresent [p.field "cost_per_second_active", p.field "per_second_active",
    p.costValue "cost_per_second_active", p.costValue "per_second_active",
    p.scoreConfig "cost_per_second_active", p.scoreConfig "per_second_active"]

def recentErrorRateValue (observed : ObservedMetrics) : PyValue :=
  .firstPresent [p.field "recent_error_rate", p.scoreConfig "recent_error_rate",
    .float observed.recentErrorRate]

def priorityMultiplierValue : PyValue :=
  .firstPresent [p.field "priority_multiplier", p.field "priorityMultiplier",
    p.scoreConfig "priority_multiplier", p.scoreConfig "priorityMultiplier"]

end ProviderLike

section Score
variable (text : PyString) (p : ProviderLike)

/-- `_cold_start_p50_ms`. -/
def coldStartP50Ms : Except PyError Binary64 :=
  nonNegativeNumber text p.coldStartValue "cold_start_p50_ms" (.ofRat 0)

/-- `_warm_workers`. -/
def warmWorkers : Except PyError Binary64 :=
  nonNegativeNumber text p.warmWorkersValue "warm_workers" (.ofRat 0)

/-- `_cost_per_second_active`. -/
def costPerSecondActive : Except PyError Binary64 :=
  nonNegativeNumber text p.costPerSecondValue "cost_per_second_active" (.ofRat 0)

/-- `_recent_error_rate`. -/
def recentErrorRate (observed : ObservedMetrics) : Except PyError Binary64 := do
  let rate ← nonNegativeNumber text (p.recentErrorRateValue observed) "recent_error_rate" (.ofRat 0)
  if (Binary64.ofRat 1).lt rate then .error (valueError "recent_error_rate must be <= 1")
  else .ok rate

/-- `_priority_multiplier`. -/
def priorityMultiplier : Except PyError Binary64 :=
  nonNegativeNumber text p.priorityMultiplierValue "priority_multiplier" (.ofRat 1)

def latencyTerms (hints : Hints) : Except PyError (Binary64 × Binary64) :=
  if hints.latencySensitive then do
    let coldStart ← coldStartP50Ms text p
    let warm ← warmWorkers text p
    pure (coldStart.divBy 100, if warm.lt (.ofRat 1) then .ofRat 0 else .ofRat 20)
  else .ok (.ofRat 0, .ofRat 0)

def costTerm (hints : Hints) : Except PyError Binary64 :=
  if hints.costSensitive then do
    let cost ← costPerSecondActive text p
    pure (cost.mul (.ofRat 10000))
  else .ok (.ofRat 0)

def regionBonus (hints : Hints) : Binary64 :=
  if hints.regionPreference.isSome && hints.regionPreference = p.stringField "region" then .ofRat 15
  else .ofRat 0

def scoreSum (latency warm cost region error : Binary64) : Binary64 :=
  (((((Binary64.ofRat 100).sub latency).add warm).sub cost).add region).sub error

/-- `explain_score`. -/
def explainScore (hints : Hints) (observed : ObservedMetrics) : Except PyError ScoreExplanation := do
  let (latencyPenalty, warmWorkerBonus) ← latencyTerms text p hints
  let costPenalty ← costTerm text p hints
  let rate ← recentErrorRate text p observed
  let multiplier ← priorityMultiplier text p
  let recentErrorPenalty := rate.mul (.ofRat 50)
  let before := scoreSum latencyPenalty warmWorkerBonus costPenalty (regionBonus p hints)
    recentErrorPenalty
  pure
    { providerId := (p.stringField "id").getD ""
      baseScore := .ofRat 100
      latencyPenalty := latencyPenalty
      warmWorkerBonus := warmWorkerBonus
      costPenalty := costPenalty
      regionBonus := regionBonus p hints
      recentErrorPenalty := recentErrorPenalty
      priorityMultiplier := multiplier
      scoreBeforeMultiplier := before
      finalScore := before.mul multiplier }

end Score

section Nan
variable {text : PyString} {p : ProviderLike} {hints : Hints} {observed : ObservedMetrics}

theorem nonNegativeNumber_eq_ok {value : PyValue} {name : String} {default x : Binary64}
    (hdefault : ∃ q, default = .finite q ∧ 0 ≤ q.1)
    (h : nonNegativeNumber text value name default = .ok x) : ∃ q, x = .finite q ∧ 0 ≤ q.1 := by
  unfold nonNegativeNumber at h
  split at h
  · cases h
    exact hdefault
  · cases h
  · split at h
    · cases h
    · next parsed _ =>
      split at h
      · cases h
      · next hneg =>
        cases h
        exact ⟨parsed, rfl, not_lt.mp hneg⟩
    · cases h

theorem ofRat_natCast (n : ℕ) (h : n < 2 ^ 53) :
    ∃ q, Binary64.ofRat n = .finite q ∧ q.1 = n :=
  ⟨⟨n, n, 0, by simp, by simpa using mod_cast h, by norm_num⟩,
    Binary64.ofRat_of_representable _, rfl⟩

theorem ofRat_zero : ∃ q, Binary64.ofRat 0 = .finite q ∧ q.1 = 0 := by
  simpa using ofRat_natCast 0 (by norm_num)

theorem ofRat_ofNat (n : ℕ) [n.AtLeastTwo] (h : n < 2 ^ 53) :
    ∃ q, Binary64.ofRat (OfNat.ofNat n) = .finite q ∧ q.1 = OfNat.ofNat n :=
  ofRat_natCast n h

theorem nonNegativeNumber_default {value : PyValue} {name : String} {x : Binary64}
    (h : nonNegativeNumber text value name (.ofRat 0) = .ok x) : ∃ q, x = .finite q ∧ 0 ≤ q.1 := by
  obtain ⟨zero, hzero, hvalue⟩ := ofRat_zero
  exact nonNegativeNumber_eq_ok ⟨zero, hzero, hvalue.ge⟩ h

theorem latencyTerms_eq_ok {latency warm : Binary64}
    (h : latencyTerms text p hints = .ok (latency, warm)) :
    latency.NonNeg ∧ ∃ q, warm = .finite q ∧ q.1 ≤ 20 := by
  obtain ⟨zero, hzero, hzero'⟩ := ofRat_zero
  obtain ⟨twenty, htwenty, htwenty'⟩ := ofRat_ofNat 20 (by norm_num)
  unfold latencyTerms at h
  split at h
  · simp only [Except.bind_eq_ok_iff, Except.pure_eq_ok_iff] at h
    obtain ⟨coldStart, hcold, warmCount, -, h⟩ := h
    cases h
    obtain ⟨q, rfl, hq⟩ := nonNegativeNumber_default hcold
    refine ⟨Binary64.nonNeg_ofRat (div_nonneg hq (by norm_num)), ?_⟩
    split
    · exact ⟨zero, hzero, by rw [hzero']; norm_num⟩
    · exact ⟨twenty, htwenty, by rw [htwenty']⟩
  · cases h
    exact ⟨Binary64.nonNeg_ofRat le_rfl, zero, hzero, by rw [hzero']; norm_num⟩

theorem nonNeg_mul_ofNat {x : Binary64} (hx : ∃ q, x = .finite q ∧ 0 ≤ q.1) (n : ℕ)
    [n.AtLeastTwo] (h : n < 2 ^ 53) : (x.mul (.ofRat (OfNat.ofNat n))).NonNeg := by
  obtain ⟨q, rfl, hq⟩ := hx
  obtain ⟨factor, hfactor, hvalue⟩ := ofRat_ofNat n h
  rw [hfactor]
  refine Binary64.nonNeg_ofRat (mul_nonneg hq ?_)
  rw [hvalue]
  exact Nat.ofNat_nonneg n

theorem costTerm_eq_ok {cost : Binary64} (h : costTerm text p hints = .ok cost) : cost.NonNeg := by
  unfold costTerm at h
  split at h
  · simp only [Except.bind_eq_ok_iff, Except.pure_eq_ok_iff] at h
    obtain ⟨perSecond, hcost, rfl⟩ := h
    exact nonNeg_mul_ofNat (nonNegativeNumber_default hcost) 10000 (by norm_num)
  · cases h
    exact Binary64.nonNeg_ofRat le_rfl

theorem recentErrorRate_eq_ok {rate : Binary64} (h : recentErrorRate text p observed = .ok rate) :
    ∃ q, rate = .finite q ∧ 0 ≤ q.1 := by
  simp only [recentErrorRate, Except.bind_eq_ok_iff] at h
  obtain ⟨read, hread, h⟩ := h
  split at h
  · cases h
  · cases h
    exact nonNegativeNumber_default hread

theorem regionBonus_finite (p : ProviderLike) (hints : Hints) : ∃ q, regionBonus p hints = .finite q ∧ q.1 ≤ 15 := by
  obtain ⟨zero, hzero, hzero'⟩ := ofRat_zero
  obtain ⟨fifteen, hfifteen, hfifteen'⟩ := ofRat_ofNat 15 (by norm_num)
  unfold regionBonus
  split
  · exact ⟨fifteen, hfifteen, by rw [hfifteen']⟩
  · exact ⟨zero, hzero, by rw [hzero']; norm_num⟩

/-- No term is subtracted from positive infinity, so the sum is a number or `-inf`. -/
theorem scoreSum_ne_nan {latency cost error : Binary64} {warm region : { q : ℚ // Representable q }}
    (hlatency : latency.NonNeg) (hwarm : warm.1 ≤ 20) (hcost : cost.NonNeg)
    (hregion : region.1 ≤ 15) (herror : error.NonNeg) :
    scoreSum latency (.finite warm) cost (.finite region) error ≠ .nan := by
  obtain ⟨base, hbase, hvalue⟩ := ofRat_ofNat 100 (by norm_num)
  have h1 : (Binary64.ofRat 100).AtMost 7 := by
    rw [hbase]
    change base.1 ≤ 2 ^ 7
    rw [hvalue]
    norm_num
  have h2 := h1.sub (by norm_num) hlatency
  have h3 := h2.add (by norm_num) (hwarm.trans (by norm_num))
  have h4 := h3.sub (by norm_num) hcost
  have h5 := h4.add (by norm_num) (hregion.trans (by norm_num))
  exact (h5.sub (by norm_num) herror).ne_nan

theorem finalScore_eq_nan_iff {e : ScoreExplanation}
    (h : explainScore text p hints observed = .ok e) :
    e.finalScore = .nan ↔
      e.scoreBeforeMultiplier.isFinite = false ∧ e.priorityMultiplier = .ofRat 0 := by
  simp only [explainScore, Except.bind_eq_ok_iff, Except.pure_eq_ok_iff] at h
  obtain ⟨⟨latency, warm⟩, hterms, cost, hcost, rate, hrate, multiplier, hmultiplier, rfl⟩ := h
  obtain ⟨hlatency, warm, rfl, hwarm⟩ := latencyTerms_eq_ok hterms
  obtain ⟨region, hregion, hregion'⟩ := regionBonus_finite p hints
  have hsum := scoreSum_ne_nan hlatency hwarm (costTerm_eq_ok hcost) hregion'
    (nonNeg_mul_ofNat (recentErrorRate_eq_ok hrate) 50 (by norm_num))
  obtain ⟨zero, hzero, hzero'⟩ := ofRat_zero
  obtain ⟨m, rfl, -⟩ : ∃ m, multiplier = .finite m ∧ 0 ≤ m.1 := by
    obtain ⟨one, hone, hone'⟩ := ofRat_natCast 1 (by norm_num)
    rw [Nat.cast_one] at hone hone'
    exact nonNegativeNumber_eq_ok ⟨one, hone, by rw [hone']; norm_num⟩ hmultiplier
  rw [hzero, hregion]
  dsimp only
  generalize scoreSum latency (.finite warm) cost (.finite region) (rate.mul (.ofRat 50)) = sum at hsum
  have hm : (Binary64.finite m = .finite zero) ↔ m.1 = 0 := by
    rw [Binary64.finite.injEq, Subtype.ext_iff, hzero']
  rw [hm]
  cases sum with
  | nan => exact absurd rfl hsum
  | infinite negative =>
    simp only [Binary64.mul, Binary64.isFinite, true_and]
    split <;> simp_all
  | finite q =>
    simp only [Binary64.mul, Binary64.isFinite, Bool.true_eq_false, false_and, iff_false]
    exact Binary64.ofRat_ne_nan _

end Nan

end Pitwall.Routing
