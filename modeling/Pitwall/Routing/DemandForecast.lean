import Mathlib.Algebra.Order.Floor.Ring
import Mathlib.Data.Rat.Floor
import Mathlib.Data.String.Basic
import Pitwall.Library.Counting
import Pitwall.Library.Grouping
import Pitwall.Library.Sorting
import Pitwall.Library.Traversal
import Pitwall.Routing.SemanticCache
set_option autoImplicit false

/-!
The demand forecast of the prewarm planner, in exact arithmetic. Durations are in microseconds.
-/

namespace Pitwall.Routing

structure DemandSample where
  capabilityId : String
  observedAt : Instant
  requestCount : ℕ
  capabilityId_ne : capabilityId ≠ ""
  deriving DecidableEq

structure PrewarmPolicy where
  lookback : Int
  sampleWindow : Int
  forecastWindow : Int
  forecastHorizon : Int
  headroom : ℚ
  defaultRequestsPerWarmUnit : ℕ
  minForecastRequests : ℕ
  maxTargetsPerCapability : ℕ
  defaultLeadTime : Int
  recommendationTtl : Int
  sampleWindow_pos : 0 < sampleWindow
  forecastWindow_pos : 0 < forecastWindow
  forecastHorizon_nonneg : 0 ≤ forecastHorizon
  defaultLeadTime_nonneg : 0 ≤ defaultLeadTime
  recommendationTtl_nonneg : 0 ≤ recommendationTtl
  sampleWindow_le_lookback : sampleWindow ≤ lookback
  one_le_headroom : 1 ≤ headroom
  defaultRequestsPerWarmUnit_pos : 1 ≤ defaultRequestsPerWarmUnit
  maxTargetsPerCapability_pos : 1 ≤ maxTargetsPerCapability

structure DemandForecast where
  capabilityId : String
  windowStart : Instant
  windowEnd : Instant
  observedCounts : List ℕ
  projectedRequests : Int
  sourceWindowStart : Instant
  sourceWindowEnd : Instant
  deriving DecidableEq

/-- `_sample_window_count`. -/
def sampleWindowCount (policy : PrewarmPolicy) : ℕ :=
  (max 1 ⌈(policy.lookback : ℚ) / policy.sampleWindow⌉).toNat

/-- `_project_requests`. -/
def projectRequests (counts : List ℕ) (headroom : ℚ) : Int :=
  match counts.head?, counts.getLast? with
  | some first, some last =>
      let positiveTrend : ℚ :=
        if counts.length = 1 then 0
        else max 0 (((last : ℚ) - first) / ((counts.length : ℚ) - 1))
      ⌈max 0 (last + positiveTrend) * headroom⌉
  | _, _ => 0

section Buckets
variable (start now window : Int) (count : ℕ)

def bucketIndex (observedAt : Int) : Option ℕ :=
  if observedAt < start ∨ now ≤ observedAt then none
  else
    let index := (observedAt - start) / window
    if index < 0 ∨ count ≤ index then none else some index.toNat

/-- A round of the loop of `forecast_demand`. -/
def addSample (buckets : List (String × List ℕ)) (sample : DemandSample) :
    List (String × List ℕ) :=
  match bucketIndex start now window count sample.observedAt with
  | none => buckets
  | some index =>
      let counts := (buckets.lookup sample.capabilityId).getD (List.replicate count 0)
      setEntry sample.capabilityId (counts.modify index (· + sample.requestCount)) buckets

end Buckets

/-- The comparison of `(capability_id, observed_at)`. -/
def sampleLt (a b : DemandSample) : Bool :=
  if a.capabilityId ≠ b.capabilityId then decide (a.capabilityId < b.capabilityId)
  else decide (a.observedAt < b.observedAt)

/-- `sorted(buckets.items())`; the keys are distinct. -/
def sortedItems {α : Type} (items : List (String × α)) : List (String × α) :=
  sortedBy (fun a b => a.1 < b.1) items

/-- `forecast_demand`. -/
def forecastDemand (history : List DemandSample) (now : Instant) (policy : PrewarmPolicy) :
    Except PyError (List DemandForecast) := do
  let count := sampleWindowCount policy
  let span ← timedeltaTimes policy.sampleWindow count
  let start ← datetimeAt (now - span)
  let buckets :=
    (sortedBy sampleLt history).foldl (addSample start now policy.sampleWindow count) []
  let windowStart ← datetimeAt (now + policy.forecastHorizon)
  let windowEnd ← datetimeAt (windowStart + policy.forecastWindow)
  pure ((sortedItems buckets).map fun (capabilityId, counts) =>
    { capabilityId := capabilityId
      windowStart := windowStart
      windowEnd := windowEnd
      observedCounts := counts
      projectedRequests := projectRequests counts policy.headroom
      sourceWindowStart := start
      sourceWindowEnd := now })

section Bump
variable {start now window : Int} {count : ℕ}

theorem bucketIndex_lt {t : Int} {index : ℕ}
    (h : bucketIndex start now window count t = some index) : index < count := by
  unfold bucketIndex at h
  dsimp only at h
  split at h
  · cases h
  · split at h
    · cases h
    · rename_i hrange
      obtain rfl := Option.some.inj h
      omega

theorem bucketIndex_eq_none_iff (hpos : 0 < window) (hspan : now - start = window * count)
    {t : Int} : bucketIndex start now window count t = none ↔ ¬(start ≤ t ∧ t < now) := by
  unfold bucketIndex
  dsimp only
  split
  · rename_i hout
    refine iff_of_true rfl ?_
    omega
  · rename_i hin
    have hlow : 0 ≤ (t - start) / window := Int.ediv_nonneg (by omega) hpos.le
    have hhigh : (t - start) / window < count := by
      refine Int.ediv_lt_of_lt_mul hpos ?_
      rw [mul_comm, ← hspan]
      omega
    rw [if_neg (by omega)]
    exact iff_of_false (by simp) (not_not.mpr (by omega))

def bump (start now window : Int) (count : ℕ) (capabilityId : String)
    (counts : Option (List ℕ)) (sample : DemandSample) : Option (List ℕ) :=
  if sample.capabilityId = capabilityId then
    match bucketIndex start now window count sample.observedAt with
    | none => counts
    | some index =>
        some ((counts.getD (List.replicate count 0)).modify index (· + sample.requestCount))
  else counts

theorem lookup_addSample {buckets : List (String × List ℕ)} {sample : DemandSample}
    {capabilityId : String} :
    (addSample start now window count buckets sample).lookup capabilityId =
      bump start now window count capabilityId (buckets.lookup capabilityId) sample := by
  unfold addSample bump
  cases bucketIndex start now window count sample.observedAt with
  | none => simp
  | some index =>
    dsimp only
    rw [lookup_setEntry]
    by_cases hsame : capabilityId = sample.capabilityId
    · rw [if_pos hsame, if_pos hsame.symm, hsame]
    · rw [if_neg hsame, if_neg (Ne.symm hsame)]

theorem lookup_foldl_addSample {samples : List DemandSample} {buckets : List (String × List ℕ)}
    {capabilityId : String} :
    (samples.foldl (addSample start now window count) buckets).lookup capabilityId =
      samples.foldl (bump start now window count capabilityId) (buckets.lookup capabilityId) := by
  induction samples generalizing buckets with
  | nil => rfl
  | cons sample samples ih => rw [List.foldl_cons, List.foldl_cons, ih, lookup_addSample]

theorem nodup_foldl_addSample {samples : List DemandSample} {buckets : List (String × List ℕ)}
    (h : (buckets.map Prod.fst).Nodup) :
    ((samples.foldl (addSample start now window count) buckets).map Prod.fst).Nodup := by
  induction samples generalizing buckets with
  | nil => exact h
  | cons sample samples ih =>
    refine ih ?_
    unfold addSample
    split
    · exact h
    · exact nodup_keys_setEntry h

theorem nodup_buckets (samples : List DemandSample) :
    ((samples.foldl (addSample start now window count) []).map Prod.fst).Nodup :=
  nodup_foldl_addSample List.nodup_nil

theorem modify_add_comm (counts : List ℕ) (i j m n : ℕ) :
    (counts.modify i (· + m)).modify j (· + n) = (counts.modify j (· + n)).modify i (· + m) := by
  by_cases hij : i = j
  · subst hij
    rw [List.modify_modify_eq, List.modify_modify_eq]
    congr 1
    funext c
    exact Nat.add_right_comm c m n
  · exact List.modify_modify_ne _ _ _ hij

instance bump_rightCommutative (capabilityId : String) :
    RightCommutative (bump start now window count capabilityId) where
  right_comm counts a b := by
    unfold bump
    by_cases ha : a.capabilityId = capabilityId
    · by_cases hb : b.capabilityId = capabilityId
      · rw [if_pos hb, if_pos ha, if_pos ha, if_pos hb]
        cases bucketIndex start now window count a.observedAt with
        | none => rfl
        | some i =>
          cases bucketIndex start now window count b.observedAt with
          | none => rfl
          | some j => exact congrArg some (modify_add_comm _ i j _ _)
      · rw [if_neg hb, if_neg hb]
    · rw [if_neg ha, if_neg ha]

def demandIn (start now : Int) (capabilityId : String) (samples : List DemandSample) : ℕ :=
  sumWhere (fun sample => sample.capabilityId = capabilityId ∧
    start ≤ sample.observedAt ∧ sample.observedAt < now) DemandSample.requestCount samples

theorem sum_modify_add {counts : List ℕ} {index : ℕ} (h : index < counts.length) (n : ℕ) :
    (counts.modify index (· + n)).sum = counts.sum + n := by
  induction counts generalizing index with
  | nil => exact absurd h (Nat.not_lt_zero _)
  | cons c counts ih =>
    cases index with
    | zero =>
      rw [List.modify_zero_cons, List.sum_cons, List.sum_cons]
      omega
    | succ index =>
      rw [List.modify_succ_cons, List.sum_cons, List.sum_cons, ih (Nat.lt_of_succ_lt_succ h)]
      omega

def WellCounted (count : ℕ) (counts : Option (List ℕ)) : Prop :=
  (counts.getD (List.replicate count 0)).length = count

theorem wellCounted_bump {counts : Option (List ℕ)} {capabilityId : String} {sample : DemandSample}
    (h : WellCounted count counts) :
    WellCounted count (bump start now window count capabilityId counts sample) := by
  unfold bump
  split
  · split
    · exact h
    · exact (List.length_modify _ _ _).trans h
  · exact h

theorem sum_bump (hpos : 0 < window) (hspan : now - start = window * count)
    {counts : Option (List ℕ)} {capabilityId : String} (sample : DemandSample)
    (h : WellCounted count counts) :
    ((bump start now window count capabilityId counts sample).getD []).sum =
      (counts.getD []).sum + demandIn start now capabilityId [sample] := by
  unfold demandIn
  rw [sumWhere_cons]
  have hnil : ∀ p, sumWhere p DemandSample.requestCount [] = 0 := fun _ => rfl
  rw [hnil, Nat.add_zero]
  unfold bump
  by_cases hsame : sample.capabilityId = capabilityId
  · rw [if_pos hsame]
    cases hindex : bucketIndex start now window count sample.observedAt with
    | none =>
      have hout := (bucketIndex_eq_none_iff hpos hspan).mp hindex
      rw [if_neg (by simpa [hsame] using fun hlow => not_and.mp hout hlow), Nat.add_zero]
    | some index =>
      have hin : start ≤ sample.observedAt ∧ sample.observedAt < now := by
        by_contra hout
        rw [(bucketIndex_eq_none_iff hpos hspan).mpr hout] at hindex
        cases hindex
      rw [if_pos (by simpa [hsame] using hin)]
      have hzero : (counts.getD (List.replicate count 0)).sum = (counts.getD []).sum := by
        cases counts with
        | none => simp
        | some counts => rfl
      rw [← hzero]
      refine sum_modify_add ?_ _
      rw [show (counts.getD (List.replicate count 0)).length = count from h]
      exact bucketIndex_lt hindex
  · rw [if_neg hsame, if_neg (by simp [hsame]), Nat.add_zero]

theorem sum_foldl_bump (hpos : 0 < window) (hspan : now - start = window * count)
    {capabilityId : String} {samples : List DemandSample} {counts : Option (List ℕ)}
    (h : WellCounted count counts) :
    ((samples.foldl (bump start now window count capabilityId) counts).getD []).sum =
      (counts.getD []).sum + demandIn start now capabilityId samples := by
  induction samples generalizing counts with
  | nil => rfl
  | cons sample samples ih =>
    rw [List.foldl_cons, ih (wellCounted_bump h), sum_bump hpos hspan sample h, Nat.add_assoc]
    congr 1
    exact (sumWhere_append _ _ [sample] samples).symm

end Bump

section Forecast
variable {history history' : List DemandSample} {now : Instant} {policy : PrewarmPolicy}
  {forecasts : List DemandForecast}

theorem buckets_perm {start window : Int} {count : ℕ} (h : history.Perm history') :
    ((sortedBy sampleLt history).foldl (addSample start now window count) []).Perm
      ((sortedBy sampleLt history').foldl (addSample start now window count) []) := by
  have hsorted : (sortedBy sampleLt history).Perm (sortedBy sampleLt history') :=
    ((sortedBy_perm _ _).trans h).trans (sortedBy_perm _ _).symm
  refine perm_of_lookup_eq (nodup_buckets _) (nodup_buckets _) (fun capabilityId => ?_)
  rw [lookup_foldl_addSample, lookup_foldl_addSample]
  exact hsorted.foldl_eq _

theorem sortedItems_eq_of_perm {α : Type} {items items' : List (String × α)}
    (hkeys : (items.map Prod.fst).Nodup) (h : items.Perm items') :
    sortedItems items = sortedItems items' := by
  refine @sortedBy_eq_of_perm _ _ _ _ Prod.fst _ _ ?_ ?_ h
  · intro a _ b _
    exact decide_eq_true_iff
  · exact fun a ha b hb => List.inj_on_of_nodup_map hkeys ha hb

theorem forecastDemand_perm (h : history.Perm history') :
    forecastDemand history now policy = forecastDemand history' now policy := by
  refine Except.bind_congr fun span _ => Except.bind_congr fun start _ => ?_
  dsimp only
  rw [sortedItems_eq_of_perm (nodup_buckets _) (buckets_perm h)]

theorem timedeltaTimes_eq_ok {delta factor span : Int}
    (h : timedeltaTimes delta factor = .ok span) : span = delta * factor := by
  unfold timedeltaTimes at h
  dsimp only at h
  split at h
  · exact (Except.ok.inj h).symm
  · split at h <;> cases h

theorem datetimeAt_eq_ok {t : Int} {instant : Instant} (h : datetimeAt t = .ok instant) :
    instant = t := by
  unfold datetimeAt at h
  split at h
  · exact (Except.ok.inj h).symm
  · cases h

theorem sum_observedCounts (h : forecastDemand history now policy = .ok forecasts)
    {forecast : DemandForecast} (hforecast : forecast ∈ forecasts) :
    forecast.sourceWindowEnd = now ∧ forecast.observedCounts.sum =
      demandIn forecast.sourceWindowStart now forecast.capabilityId history := by
  obtain ⟨span, hspan, h⟩ := Except.bind_eq_ok_iff.mp h
  obtain ⟨start, hstart, h⟩ := Except.bind_eq_ok_iff.mp h
  obtain ⟨windowStart, -, h⟩ := Except.bind_eq_ok_iff.mp h
  obtain ⟨windowEnd, -, h⟩ := Except.bind_eq_ok_iff.mp h
  obtain rfl := Except.pure_eq_ok_iff.mp h
  obtain ⟨⟨capabilityId, counts⟩, hitem, rfl⟩ := List.mem_map.mp hforecast
  refine ⟨rfl, ?_⟩
  dsimp only
  have hwindow : now - start = policy.sampleWindow * (sampleWindowCount policy : ℕ) := by
    rw [datetimeAt_eq_ok hstart, ← timedeltaTimes_eq_ok hspan]
    exact sub_sub_cancel now span
  have hlookup := lookup_of_mem (nodup_buckets _) (mem_sortedBy.mp hitem)
  rw [lookup_foldl_addSample] at hlookup
  have hsum := @sum_foldl_bump _ _ _ _ policy.sampleWindow_pos hwindow capabilityId
    (sortedBy sampleLt history) none List.length_replicate
  have hnone : List.lookup capabilityId ([] : List (String × List ℕ)) = none := rfl
  rw [hnone] at hlookup
  rw [hlookup] at hsum
  refine hsum.trans ?_
  rw [Option.getD_none, List.sum_nil, Nat.zero_add]
  exact sumWhere_perm (sortedBy_perm _ _)

theorem nodup_forecasts (h : forecastDemand history now policy = .ok forecasts) :
    (forecasts.map DemandForecast.capabilityId).Nodup := by
  obtain ⟨span, -, h⟩ := Except.bind_eq_ok_iff.mp h
  obtain ⟨start, -, h⟩ := Except.bind_eq_ok_iff.mp h
  obtain ⟨windowStart, -, h⟩ := Except.bind_eq_ok_iff.mp h
  obtain ⟨windowEnd, -, h⟩ := Except.bind_eq_ok_iff.mp h
  obtain rfl := Except.pure_eq_ok_iff.mp h
  rw [List.map_map]
  exact ((sortedBy_perm _ _).map Prod.fst).nodup_iff.mpr (nodup_buckets _)

end Forecast

end Pitwall.Routing
