import Mathlib.Algebra.BigOperators.Group.List.Basic
import Mathlib.Algebra.Order.BigOperators.Group.List
import Pitwall.Core.Clock
import Pitwall.Core.Json
import Pitwall.Library.Numeric
import Pitwall.Library.Sorting
import Pitwall.Library.Traversal
set_option autoImplicit false

/-!
`BurnRateForecaster` and the adapter that feeds it from `pitwall.cost_daily`. Sums, quotients
and powers of decimals are exact.
-/

namespace Pitwall

structure SpendPoint where
  day : Int
  costUsd : ℚ
  deriving DecidableEq

inductive Trend where
  | increasing
  | decreasing
  | stable
  | insufficientData
  deriving DecidableEq

structure BurnRateForecast where
  burnRateUsdPerDay : ℚ
  projectedExhaustion : Option Instant
  trend : Trend
  confidence : ℚ
  budgetUsd : ℚ
  remainingBudgetUsd : ℚ
  runwayDays : Option ℚ

/-- The floats of a forecast: `Decimal(min(1.0, math.sqrt(n) / math.sqrt(7)))`,
`Decimal(math.sqrt(float(variance)))` and `observed_at + timedelta(days=float(runway))`, which
is nothing where it overflows. -/
structure ForecastFloats where
  pointFactor : ℕ → ℚ
  squareRoot : ℚ → ℚ
  addDays : Instant → ℚ → Option Instant

def costSum (points : List SpendPoint) : ℚ := (points.map SpendPoint.costUsd).sum

def dayLt (a b : SpendPoint) : Bool := decide (a.day < b.day)

def daySpan (points : List SpendPoint) : Int :=
  if 2 ≤ points.length then
    match points.head?, points.getLast? with
    | some first, some last => max 1 (last.day - first.day + 1)
    | _, _ => 0
  else if points.length = 1 then 1
  else 0

def burnRate (totalCost : ℚ) (span : Int) : ℚ :=
  if 0 < span then roundHalfAway 6 (totalCost / span) else 0

def halfAverage (points : List SpendPoint) : ℚ :=
  if points = [] then 0 else costSum points / points.length

/-- `_compute_trend`. -/
def computeTrend (points : List SpendPoint) : Trend :=
  if points.length < 2 then .insufficientData
  else
    let mid := points.length / 2
    let firstAvg := halfAverage (points.take mid)
    let secondAvg := halfAverage (points.drop mid)
    if firstAvg = 0 then
      if 0 < secondAvg then .increasing else .stable
    else
      let ratio := secondAvg / firstAvg
      if 105 / 100 < ratio then .increasing
      else if ratio < 95 / 100 then .decreasing
      else .stable

/-- `_compute_confidence`. -/
def computeConfidence (floats : ForecastFloats) (points : List SpendPoint) (totalCost : ℚ) : ℚ :=
  let n := points.length
  if n < 2 then 0
  else
    let mean := totalCost / n
    if mean = 0 then roundHalfAway 6 (floats.pointFactor n)
    else
      let variance : ℚ := (points.map fun p => (p.costUsd - mean) ^ 2).sum / n
      let stdDev := if 0 < variance then floats.squareRoot variance else 0
      let cv := stdDev / mean
      let confidence := roundHalfAway 6 (floats.pointFactor n * max 0 (1 - cv))
      if confidence < 0 then 0 else if 1 < confidence then 1 else confidence

def remainingBudget (budgetUsd mtdSpendUsd : ℚ) : ℚ :=
  let remaining := roundHalfAway 6 (budgetUsd - mtdSpendUsd)
  if remaining < 0 then 0 else remaining

def runwayDays (remaining rate : ℚ) : Option ℚ :=
  if 0 < remaining ∧ 0 < rate then some (roundHalfAway 6 (remaining / rate)) else none

/-- `BurnRateForecaster.forecast`, from the instant that `now` names. -/
def forecast (floats : ForecastFloats) (points : List SpendPoint) (budgetUsd mtdSpendUsd : ℚ)
    (observedAt : Instant) : BurnRateForecast :=
  let sortedPoints := sortedBy dayLt points
  let totalCost := costSum sortedPoints
  let rate := burnRate totalCost (daySpan sortedPoints)
  let remaining := remainingBudget budgetUsd mtdSpendUsd
  let runway := runwayDays remaining rate
  { burnRateUsdPerDay := rate
    projectedExhaustion := runway.bind (floats.addDays observedAt)
    trend := computeTrend sortedPoints
    confidence := computeConfidence floats sortedPoints totalCost
    budgetUsd := budgetUsd
    remainingBudgetUsd := remaining
    runwayDays := runway }

/-- `_normalize_utc`. A datetime without a timezone names no instant. -/
def normalizeUtc (value : Option Instant) (fieldName : String) : Except PyError Instant :=
  match value with
  | none => .error ⟨"ValueError", fieldName ++ " must include timezone information"⟩
  | some observedAt => .ok observedAt

/-- `observed_at.date() - timedelta(days=window_days - 1)`, in days since the epoch. -/
def cutoffDay (observedAt : Instant) (windowDays : Int) : Except PyError Int :=
  let cutoff := utcDay observedAt - (windowDays - 1)
  if 999999999 < |windowDays - 1| then
    .error ⟨"OverflowError", s!"days={windowDays - 1}; must have magnitude <= 999999999"⟩
  else if cutoff < -719162 ∨ 2932896 < cutoff then
    .error ⟨"OverflowError", "date value out of range"⟩
  else .ok cutoff

/-- What the forecast reads of a row of `pitwall.cost_daily`: a day, and a sum of costs of which
none is negative. -/
structure DailyCost extends SpendPoint where
  cost_nonneg : 0 ≤ costUsd

/-- The points of the rows with `day >= $1`. -/
def windowPoints (cutoff : Int) (table : List DailyCost) : List SpendPoint :=
  (table.filter fun row => cutoff ≤ row.day).map DailyCost.toSpendPoint

/-- `forecast_from_cost_daily`. Rows of one day come in the order of the table. -/
def forecastFromCostDaily (floats : ForecastFloats) (table : List DailyCost)
    (budgetUsd mtdSpendUsd : ℚ) (now : Option Instant) (windowDays : Int) :
    Except PyError BurnRateForecast := do
  let observedAt ← normalizeUtc now "now"
  let cutoff ← cutoffDay observedAt windowDays
  let points := sortedBy dayLt (windowPoints cutoff table)
  return forecast floats points budgetUsd mtdSpendUsd observedAt

def SplitsInto (row : DailyCost) (parts : List DailyCost) : Prop :=
  parts ≠ [] ∧ (∀ part ∈ parts, part.day = row.day) ∧
    costSum (parts.map DailyCost.toSpendPoint) = row.costUsd

inductive Splits : List DailyCost → List DailyCost → Prop
  | nil : Splits [] []
  | cons {row : DailyCost} {parts rest rest' : List DailyCost} :
      SplitsInto row parts → Splits rest rest' → Splits (row :: rest) (parts ++ rest')

section DailyTotals
variable (floats : ForecastFloats) (table : List DailyCost) (budgetUsd mtdSpendUsd : ℚ)
  (now : Option Instant) (windowDays : Int)

/-- The forecast is one of the daily totals: no split of the rows shows, nor their order. -/
structure DependsOnDailyTotals : Prop where
  split : ∀ table', Splits table table' → ∀ f f',
    forecastFromCostDaily floats table budgetUsd mtdSpendUsd now windowDays = .ok f →
    forecastFromCostDaily floats table' budgetUsd mtdSpendUsd now windowDays = .ok f' →
    f'.burnRateUsdPerDay = f.burnRateUsdPerDay ∧ f'.runwayDays = f.runwayDays ∧
      f'.trend = f.trend
  order : ∀ table', table'.Perm table →
    forecastFromCostDaily floats table' budgetUsd mtdSpendUsd now windowDays =
      forecastFromCostDaily floats table budgetUsd mtdSpendUsd now windowDays

end DailyTotals

theorem dayLt_compares (points : List SpendPoint) : ComparesBy dayLt SpendPoint.day points :=
  fun _ _ _ _ => decide_eq_true_iff

theorem sortedBy_sortedBy (points : List SpendPoint) :
    sortedBy dayLt (sortedBy dayLt points) = sortedBy dayLt points :=
  sortedBy_of_noDescent (noDescent_sortedBy (dayLt_compares points))

theorem costSum_perm {points points' : List SpendPoint} (h : points.Perm points') :
    costSum points = costSum points' := (h.map SpendPoint.costUsd).sum_eq

theorem costSum_append (points points' : List SpendPoint) :
    costSum (points ++ points') = costSum points + costSum points' := by
  simp [costSum]

theorem length_sortedBy (points : List SpendPoint) :
    (sortedBy dayLt points).length = points.length := (sortedBy_perm dayLt points).length_eq

theorem daySpan_eq {points : List SpendPoint} {first last : SpendPoint}
    (hfirst : points.head? = some first) (hlast : points.getLast? = some last) :
    daySpan points = max 1 (last.day - first.day + 1) := by
  unfold daySpan
  by_cases hlen : 2 ≤ points.length
  · simp [hlen, hfirst, hlast]
  · obtain ⟨rest, rfl⟩ := List.head?_eq_some_iff.mp hfirst
    have hrest : rest = [] := by
      rw [List.length_cons] at hlen
      exact List.length_eq_zero_iff.mp (by omega)
    subst hrest
    obtain rfl := Option.some.inj hlast
    simp

def SameDays (points points' : List SpendPoint) : Prop :=
  ∀ day, day ∈ points.map SpendPoint.day ↔ day ∈ points'.map SpendPoint.day

theorem SameDays.symm {points points' : List SpendPoint} (h : SameDays points points') :
    SameDays points' points := fun day => (h day).symm

theorem SameDays.exists_mem {points points' : List SpendPoint} (h : SameDays points points')
    {p : SpendPoint} (hp : p ∈ points) : ∃ p' ∈ points', p'.day = p.day :=
  List.mem_map.mp ((h p.day).mp (List.mem_map.mpr ⟨p, hp, rfl⟩))

theorem SameDays.nil_iff {points points' : List SpendPoint} (h : SameDays points points') :
    points = [] ↔ points' = [] := by
  rw [List.eq_nil_iff_forall_not_mem, List.eq_nil_iff_forall_not_mem]
  constructor
  · intro hnone p' hp'
    obtain ⟨p, hp, -⟩ := h.symm.exists_mem hp'
    exact hnone p hp
  · intro hnone p hp
    obtain ⟨p', hp', -⟩ := h.exists_mem hp
    exact hnone p' hp'

theorem first_day_le {points points' : List SpendPoint} (h : SameDays points points')
    {first first' : SpendPoint} (hfirst : (sortedBy dayLt points).head? = some first)
    (hfirst' : (sortedBy dayLt points').head? = some first') : first.day ≤ first'.day := by
  have hmem : first' ∈ points' := mem_sortedBy.mp (List.mem_of_head? hfirst')
  obtain ⟨p, hp, hday⟩ := h.symm.exists_mem hmem
  rw [← hday]
  exact le_of_head?_sortedBy (dayLt_compares points) hfirst p hp

theorem last_day_le {points points' : List SpendPoint} (h : SameDays points points')
    {last last' : SpendPoint} (hlast : (sortedBy dayLt points).getLast? = some last)
    (hlast' : (sortedBy dayLt points').getLast? = some last') : last'.day ≤ last.day := by
  have hmem : last' ∈ points' := mem_sortedBy.mp (List.mem_of_getLast? hlast')
  obtain ⟨p, hp, hday⟩ := h.symm.exists_mem hmem
  rw [← hday]
  exact le_of_getLast?_sortedBy (dayLt_compares points) hlast p hp

theorem daySpan_sortedBy {points points' : List SpendPoint} (h : SameDays points points') :
    daySpan (sortedBy dayLt points) = daySpan (sortedBy dayLt points') := by
  by_cases hnil : points = []
  · rw [hnil, h.nil_iff.mp hnil]
  · have hsorted : sortedBy dayLt points ≠ [] := by
      rwa [ne_eq, ← List.length_eq_zero_iff, length_sortedBy, List.length_eq_zero_iff]
    have hsorted' : sortedBy dayLt points' ≠ [] := by
      rwa [ne_eq, ← List.length_eq_zero_iff, length_sortedBy, List.length_eq_zero_iff,
        ← h.nil_iff]
    have hfirst := List.head?_eq_some_head hsorted
    have hlast := List.getLast?_eq_some_getLast hsorted
    have hfirst' := List.head?_eq_some_head hsorted'
    have hlast' := List.getLast?_eq_some_getLast hsorted'
    rw [daySpan_eq hfirst hlast, daySpan_eq hfirst' hlast',
      (first_day_le h hfirst hfirst').antisymm (first_day_le h.symm hfirst' hfirst),
      (last_day_le h.symm hlast' hlast).antisymm (last_day_le h hlast hlast')]

theorem forecast_of_daily_totals (floats : ForecastFloats) {points points' : List SpendPoint}
    (hdays : SameDays points points') (htotal : costSum points = costSum points')
    (budgetUsd mtdSpendUsd : ℚ) (observedAt : Instant) :
    (forecast floats points' budgetUsd mtdSpendUsd observedAt).burnRateUsdPerDay =
        (forecast floats points budgetUsd mtdSpendUsd observedAt).burnRateUsdPerDay ∧
      (forecast floats points' budgetUsd mtdSpendUsd observedAt).runwayDays =
        (forecast floats points budgetUsd mtdSpendUsd observedAt).runwayDays := by
  have hspan := daySpan_sortedBy hdays
  have hsum : costSum (sortedBy dayLt points) = costSum (sortedBy dayLt points') := by
    rw [costSum_perm (sortedBy_perm dayLt points), costSum_perm (sortedBy_perm dayLt points'),
      htotal]
  simp only [forecast, hspan, hsum, and_self]

theorem computeConfidence_perm (floats : ForecastFloats) {points points' : List SpendPoint}
    (h : points.Perm points') (totalCost : ℚ) :
    computeConfidence floats points totalCost = computeConfidence floats points' totalCost := by
  have hlen := h.length_eq
  have hvariance : ∀ mean : ℚ, (points.map fun p => (p.costUsd - mean) ^ 2).sum =
      (points'.map fun p => (p.costUsd - mean) ^ 2).sum := fun mean => (h.map _).sum_eq
  simp only [computeConfidence, hlen, hvariance]

theorem forecast_perm (floats : ForecastFloats) {points points' : List SpendPoint}
    (h : points.Perm points') (budgetUsd mtdSpendUsd : ℚ) (observedAt : Instant)
    (htrend : computeTrend (sortedBy dayLt points) = computeTrend (sortedBy dayLt points')) :
    forecast floats points budgetUsd mtdSpendUsd observedAt =
      forecast floats points' budgetUsd mtdSpendUsd observedAt := by
  have hdays : SameDays points points' := fun day => (h.map SpendPoint.day).mem_iff
  have hspan := daySpan_sortedBy hdays
  have hsorted : (sortedBy dayLt points).Perm (sortedBy dayLt points') :=
    ((sortedBy_perm dayLt points).trans h).trans (sortedBy_perm dayLt points').symm
  have hsum := costSum_perm hsorted
  have hconfidence := computeConfidence_perm floats hsorted
  simp only [forecast, hspan, hsum, htrend, hconfidence]

section Trends
variable {points first second : List SpendPoint}

theorem costSum_of_zero (h : ∀ p ∈ points, p.costUsd = 0) : costSum points = 0 := by
  refine List.sum_eq_zero (fun x hx => ?_)
  obtain ⟨p, hp, rfl⟩ := List.mem_map.mp hx
  exact h p hp

theorem halfAverage_of_zero (h : costSum points = 0) : halfAverage points = 0 := by
  unfold halfAverage
  split
  · rfl
  · rw [h, zero_div]

theorem halfAverage_pos (h : 0 < costSum points) : 0 < halfAverage points := by
  have hne : points ≠ [] := by
    rintro rfl
    exact lt_irrefl _ h
  rw [halfAverage, if_neg hne]
  have hlen : 0 < points.length := List.length_pos_iff.mpr hne
  exact div_pos h (by exact_mod_cast hlen)

theorem computeTrend_of_zero (hlen : 2 ≤ points.length) (h : ∀ p ∈ points, p.costUsd = 0) :
    computeTrend points = .stable := by
  have hfirst := halfAverage_of_zero (costSum_of_zero fun p (hp : p ∈ points.take
    (points.length / 2)) => h p (List.mem_of_mem_take hp))
  have hsecond := halfAverage_of_zero (costSum_of_zero fun p (hp : p ∈ points.drop
    (points.length / 2)) => h p (List.mem_of_mem_drop hp))
  unfold computeTrend
  rw [if_neg (by omega)]
  simp [hfirst, hsecond]

theorem computeTrend_late (hzero : ∀ p ∈ first, p.costUsd = 0) (hpos : 0 < costSum second)
    (hlen : second.length ≤ first.length) : computeTrend (first ++ second) = .increasing := by
  have hne : second.length ≠ 0 := by
    intro h
    rw [List.length_eq_zero_iff.mp h] at hpos
    exact lt_irrefl _ hpos
  have hmid : (first ++ second).length / 2 ≤ first.length := by
    rw [List.length_append]
    omega
  set mid := (first ++ second).length / 2 with hmidDef
  have hfirst : halfAverage ((first ++ second).take mid) = 0 := by
    refine halfAverage_of_zero (costSum_of_zero fun p hp => ?_)
    rw [List.take_append_of_le_length hmid] at hp
    exact hzero p (List.mem_of_mem_take hp)
  have hsecond : 0 < halfAverage ((first ++ second).drop mid) := by
    refine halfAverage_pos ?_
    rw [List.drop_append_of_le_length hmid, costSum_append,
      costSum_of_zero fun p hp => hzero p (List.mem_of_mem_drop hp), zero_add]
    exact hpos
  unfold computeTrend
  rw [if_neg (by rw [List.length_append]; omega)]
  simp only [← hmidDef, hfirst, if_true, if_pos hsecond]

theorem computeTrend_early (hpos : 0 < costSum first) (hzero : ∀ p ∈ second, p.costUsd = 0)
    (hlen : first.length ≤ second.length) : computeTrend (first ++ second) = .decreasing := by
  have hne : first.length ≠ 0 := by
    intro h
    rw [List.length_eq_zero_iff.mp h] at hpos
    exact lt_irrefl _ hpos
  have hmid : first.length ≤ (first ++ second).length / 2 := by
    rw [List.length_append]
    omega
  set mid := (first ++ second).length / 2 with hmidDef
  have hfirst : 0 < halfAverage ((first ++ second).take mid) := by
    refine halfAverage_pos ?_
    rw [List.take_append, List.take_of_length_le hmid, costSum_append,
      costSum_of_zero fun p hp => hzero p (List.mem_of_mem_take hp), add_zero]
    exact hpos
  have hsecond : halfAverage ((first ++ second).drop mid) = 0 := by
    refine halfAverage_of_zero (costSum_of_zero fun p hp => ?_)
    rw [List.drop_append, List.drop_of_length_le hmid, List.nil_append] at hp
    exact hzero p (List.mem_of_mem_drop hp)
  unfold computeTrend
  rw [if_neg (by rw [List.length_append]; omega)]
  simp only [← hmidDef, hsecond, if_neg hfirst.ne', zero_div]
  norm_num

end Trends

end Pitwall
