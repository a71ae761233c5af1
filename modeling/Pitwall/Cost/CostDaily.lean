import Pitwall.Core.Providers
import Pitwall.Core.Workloads
import Pitwall.Cost.MonthViews
import Pitwall.Library.Grouping
import Pitwall.Library.Numeric
set_option autoImplicit false

/-!
`pitwall.cost_daily` and the statement that fills it. `run_rollup` and
`aggregate_daily_cost` execute the same text.
-/

namespace Pitwall

/-- The primary key of `pitwall.cost_daily`. -/
structure CostWindow where
  day : Int
  capabilityClass : String
  providerType : String
  deriving DecidableEq

structure CostDailyRow where
  window : CostWindow
  workloadCount : Int
  costUsd : ℚ
  deriving DecidableEq

abbrev CostDaily := Keyed CostDailyRow.window

/-- `SUM(cost_usd)` over one day. -/
def CostDaily.dayTotal (daily : CostDaily) (day : Int) : ℚ :=
  sumWhere (fun r => decide (r.window.day = day)) CostDailyRow.costUsd daily.rows

section Rollup
variable (capabilities : Capabilities) (providers : Providers)

/-- A terminal workload joined with its capability and its provider, under the window it is
grouped into. -/
def joinedWindow (w : Workload) : Option (CostWindow × Workload) :=
  if w.state.terminal then
    match capabilities.get w.capabilityId, providers.get w.providerId with
    | some c, some p =>
        some (⟨utcDay w.submittedAt, c.capabilityClass, p.providerType.value⟩, w)
    | _, _ => none
  else none

/-- The rows that the `SELECT` of `_AGGREGATE_DAILY_SQL` yields. -/
def dailyGroups (t : Workloads) : List CostDailyRow :=
  let joined := t.rows.filterMap (joinedWindow capabilities providers)
  (groupKeys Prod.fst joined).map fun window =>
    { window := window
      workloadCount := joined.countP fun r => r.1 = window
      costUsd := groupSum Prod.fst (fun r => r.2.actual) joined window }

/-- The row fits into the columns `INTEGER` and `NUMERIC(12,6)`. -/
def CostDailyRow.fits (r : CostDailyRow) : Bool :=
  decide (r.workloadCount < 2 ^ 31) && (numeric 12 6 r.costUsd).isSome

def CostDailyRow.stored (r : CostDailyRow) : CostDailyRow :=
  { r with costUsd := roundHalfAway 6 r.costUsd }

def outOfRange : PyError := ⟨"NumericValueOutOfRangeError", "numeric field overflow"⟩

/-- `_AGGREGATE_DAILY_SQL`: every group replaces the row of its window. One that does not
fit fails the statement. -/
def aggregateDailyCost (t : Workloads) (daily : CostDaily) : Except PyError CostDaily :=
  if (dailyGroups capabilities providers t).all CostDailyRow.fits then
    .ok (daily.upsertAll ((dailyGroups capabilities providers t).map CostDailyRow.stored))
  else .error outOfRange

end Rollup

/-- The column `cost_actual_usd` is a `NUMERIC(12,6)` with a `CHECK`. -/
def Workload.CostStored (w : Workload) : Prop :=
  ∀ x ∈ w.costActualUsd, 0 ≤ x ∧ IsMultiple 6 x

def Workloads.CostStored (t : Workloads) : Prop := ∀ w ∈ t.rows, w.CostStored

theorem Workload.CostStored.actual_nonneg {w : Workload} (h : w.CostStored) : 0 ≤ w.actual := by
  unfold Workload.actual
  cases hactual : w.costActualUsd with
  | none => exact le_refl 0
  | some x => exact (h x hactual).1

theorem Workload.CostStored.actual_isMultiple {w : Workload} (h : w.CostStored) :
    IsMultiple 6 w.actual := by
  unfold Workload.actual
  cases hactual : w.costActualUsd with
  | none => exact .zero 6
  | some x => exact (h x hactual).2

section Groups
variable {capabilities : Capabilities} {providers : Providers} {t : Workloads}

theorem joinedWindow_some {w : Workload} {r : CostWindow × Workload}
    (h : joinedWindow capabilities providers w = some r) :
    r.2 = w ∧ w.state.terminal = true ∧ r.1.day = utcDay w.submittedAt := by
  unfold joinedWindow at h
  split at h
  · rename_i hterminal
    split at h
    · cases h
      exact ⟨rfl, hterminal, rfl⟩
    · contradiction
  · contradiction

theorem windows_dailyGroups :
    (dailyGroups capabilities providers t).map CostDailyRow.window =
      groupKeys Prod.fst (t.rows.filterMap (joinedWindow capabilities providers)) := by
  simp [dailyGroups, Function.comp_def]

theorem groupSum_isMultiple (h : t.CostStored) (window : CostWindow) :
    IsMultiple 6 (groupSum Prod.fst (fun r => r.2.actual)
      (t.rows.filterMap (joinedWindow capabilities providers)) window) := by
  refine IsMultiple.sum (fun x hx => ?_)
  obtain ⟨r, hr, rfl⟩ := List.mem_map.mp hx
  obtain ⟨w, hw, hjoined⟩ := List.mem_filterMap.mp (List.mem_filter.mp hr).1
  rw [(joinedWindow_some hjoined).1]
  exact (h w hw).actual_isMultiple

theorem stored_dailyGroups (h : t.CostStored) :
    (dailyGroups capabilities providers t).map CostDailyRow.stored =
      dailyGroups capabilities providers t := by
  have hsame : ∀ r ∈ dailyGroups capabilities providers t, r.stored = r := by
    intro r hr
    obtain ⟨window, -, rfl⟩ := List.mem_map.mp hr
    simp only [CostDailyRow.stored]
    rw [roundHalfAway_of_isMultiple (groupSum_isMultiple h window)]
  rw [List.map_congr_left hsame, List.map_id']

theorem nodup_windows_dailyGroups :
    ((dailyGroups capabilities providers t).map CostDailyRow.window).Nodup := by
  rw [windows_dailyGroups]
  exact nodup_groupKeys _ _

theorem aggregateDailyCost_of_fits (daily : CostDaily)
    (h : (dailyGroups capabilities providers t).all CostDailyRow.fits = true) :
    aggregateDailyCost capabilities providers t daily =
      .ok (daily.upsertAll ((dailyGroups capabilities providers t).map CostDailyRow.stored)) := by
  unfold aggregateDailyCost
  rw [if_pos h]

theorem fits_of_aggregateDailyCost {daily daily' : CostDaily}
    (h : aggregateDailyCost capabilities providers t daily = .ok daily') :
    (dailyGroups capabilities providers t).all CostDailyRow.fits = true := by
  unfold aggregateDailyCost at h
  split at h
  · assumption
  · contradiction

def Workload.rolledUp (capabilities : Capabilities) (providers : Providers) (day : Int)
    (w : Workload) : Bool :=
  (joinedWindow capabilities providers w).isSome && decide (utcDay w.submittedAt = day)

theorem dayTotal_dailyGroups (day : Int) :
    sumWhere (fun r => decide (r.window.day = day)) CostDailyRow.costUsd
        (dailyGroups capabilities providers t) =
      sumWhere (Workload.rolledUp capabilities providers day) Workload.actual t.rows := by
  set joined := t.rows.filterMap (joinedWindow capabilities providers) with hjoined
  have hgroups : sumWhere (fun r => decide (r.window.day = day)) CostDailyRow.costUsd
      (dailyGroups capabilities providers t) =
      (((groupKeys Prod.fst joined).filter fun k => k.day = day).map
        (groupSum Prod.fst (fun r => r.2.actual) joined)).sum := by
    simp [sumWhere, dailyGroups, List.filter_map, Function.comp_def, hjoined]
  have hkeys : joined.filter (fun r =>
        r.1 ∈ (groupKeys Prod.fst joined).filter fun k => k.day = day) =
      joined.filter fun r => r.1.day = day := by
    refine List.filter_congr (fun r hr => ?_)
    have hmem : r.1 ∈ groupKeys Prod.fst joined := mem_groupKeys.mpr ⟨r, hr, rfl⟩
    simp [hmem]
  rw [hgroups, sum_groupSum ((nodup_groupKeys _ _).filter _), hkeys]
  have hsum := sumWhere_eq_sum_map (fun r : CostWindow × Workload => decide (r.1.day = day))
    (fun r => r.2.actual) joined
  unfold sumWhere at hsum
  rw [hsum, hjoined, sum_filterMap, sumWhere_eq_sum_map]
  congr 1
  refine List.map_congr_left (fun w _ => ?_)
  unfold Workload.rolledUp
  cases hw : joinedWindow capabilities providers w with
  | none => simp
  | some r =>
    obtain ⟨hr, -, hday⟩ := joinedWindow_some hw
    simp [hr, hday]

def CostDaily.left (daily : CostDaily) (windows : List CostWindow) (day : Int) : ℚ :=
  sumWhere (fun r => decide (r.window.day = day) && decide (r.window ∉ windows))
    CostDailyRow.costUsd daily.rows

theorem dayTotal_aggregateDailyCost {daily daily' : CostDaily} (hstored : t.CostStored)
    (h : aggregateDailyCost capabilities providers t daily = .ok daily') (day : Int) :
    daily'.dayTotal day =
      sumWhere (Workload.rolledUp capabilities providers day) Workload.actual t.rows +
        daily.left ((dailyGroups capabilities providers t).map CostDailyRow.window) day := by
  rw [aggregateDailyCost_of_fits _ (fits_of_aggregateDailyCost h), stored_dailyGroups hstored] at h
  cases h
  unfold CostDaily.dayTotal
  rw [sumWhere_perm (daily.upsertAll_perm nodup_windows_dailyGroups), sumWhere_append,
    dayTotal_dailyGroups, sumWhere_filter]
  rfl

end Groups

def oneCapability : Capabilities := ⟨[⟨"cap", "llm"⟩], by simp⟩

theorem oneWorkload_costStored (state : WorkloadState) : (oneWorkload state).CostStored := by
  intro w hw
  obtain rfl : w = fiveDollarWorkload state := by simpa [oneWorkload] using hw
  intro x hx
  obtain rfl : 5 = x := by simpa [fiveDollarWorkload] using hx
  exact ⟨by norm_num, 5000000, by norm_num⟩

end Pitwall
