import Pitwall.Core.Providers
import Pitwall.Cost.BudgetGate
import Pitwall.Library.Grouping
set_option autoImplicit false

/-!
The month-to-date sums: the one of the budget gate, those of the two alert modules, and
the two gauges of the exporter. The gauges are compared as the values that the queries
return, before they are turned into floats. Database sessions run in UTC.
-/

namespace Pitwall

/-- `date_trunc('month', submitted_at AT TIME ZONE 'UTC')` is the month of `now`. -/
def Workload.inMonth (now : Instant) (w : Workload) : Bool :=
  monthStartUtc w.submittedAt = monthStartUtc now

/-- `state IN ('queued', 'running', 'completed')`. -/
def WorkloadState.notGivenUp : WorkloadState → Bool
  | .queued | .running | .completed => true
  | .failed | .cancelled | .timedOut => false

/-- `cost_actual_usd` as `SUM` takes it. -/
def Workload.actual (w : Workload) : ℚ := w.costActualUsd.getD 0

/-- `COALESCE(SUM(cost_actual_usd), 0)` over the workloads of a month in some states. -/
def monthActual (states : WorkloadState → Bool) (now : Instant) (t : Workloads) : ℚ :=
  sumWhere (fun w => w.inMonth now && states w.state) Workload.actual t.rows

/-- The total that `evaluate_crossings` reads. -/
def evaluateCrossingsTotal (now : Instant) (t : Workloads) : ℚ :=
  monthActual WorkloadState.notGivenUp now t

/-- `_compute_mtd_spend` of the alerts module. -/
def computeMtdSpend (now : Instant) (t : Workloads) : ℚ :=
  monthActual WorkloadState.notGivenUp now t

/-- `pitwall_cloud_spend_month_usd`, as `_refresh` reads it. -/
def refreshTotalSpend (now : Instant) (t : Workloads) : ℚ :=
  monthActual WorkloadState.notGivenUp now t

def joinedProvider (providers : Providers) (now : Instant) (w : Workload) :
    Option (String × Workload) :=
  if w.inMonth now then (providers.get w.providerId).map fun p => (p.name, w) else none

/-- `pitwall_provider_spend_month_usd`: a label and its value for each provider name.
This query of `_refresh` has no condition on the state. -/
def refreshProviderSpend (providers : Providers) (now : Instant) (t : Workloads) :
    List (String × ℚ) :=
  let joined := t.rows.filterMap (joinedProvider providers now)
  (groupKeys Prod.fst joined).map fun name =>
    (name, groupSum Prod.fst (fun r => r.2.actual) joined name)

def providerSpendSum (providers : Providers) (now : Instant) (t : Workloads) : ℚ :=
  ((refreshProviderSpend providers now t).map Prod.snd).sum

structure MonthViewsAgree (providers : Providers) (now : Instant) (t : Workloads) : Prop where
  crossings : evaluateCrossingsTotal now t = currentMtdSpend .utc now t
  alerts : computeMtdSpend now t = currentMtdSpend .utc now t
  gauge : refreshTotalSpend now t = currentMtdSpend .utc now t
  providers : providerSpendSum providers now t = currentMtdSpend .utc now t

/-- The two `CHECK` constraints on the cost columns. -/
def Workload.NonNegative (w : Workload) : Prop :=
  (∀ x ∈ w.costEstimateUsd, 0 ≤ x) ∧ ∀ x ∈ w.costActualUsd, 0 ≤ x

def Workloads.NonNegative (t : Workloads) : Prop := ∀ w ∈ t.rows, w.NonNegative

theorem Workload.NonNegative.spend_nonneg {w : Workload} (h : w.NonNegative) : 0 ≤ w.spend := by
  unfold Workload.spend
  cases hactual : w.costActualUsd with
  | some x => simpa using h.2 x hactual
  | none =>
    cases hestimate : w.costEstimateUsd with
    | some x => simpa using h.1 x hestimate
    | none => simp

theorem Workload.NonNegative.actual_le_spend {w : Workload} (h : w.NonNegative) :
    w.actual ≤ w.spend := by
  cases hactual : w.costActualUsd with
  | some x => simp [Workload.actual, Workload.spend, hactual]
  | none =>
    have hzero : w.actual = 0 := by simp [Workload.actual, hactual]
    rw [hzero]
    exact h.spend_nonneg

theorem Workload.actual_eq_spend_iff {w : Workload} :
    w.actual = w.spend ↔ w.spend = 0 ∨ w.costActualUsd.isSome := by
  cases hactual : w.costActualUsd with
  | some x => simp [Workload.actual, Workload.spend, hactual]
  | none => simp [Workload.actual, Workload.spend, hactual, eq_comm]

theorem submitted_of_inMonth {w : Workload} {now : Instant} (h : w.inMonth now = true) :
    monthStartUtc now ≤ w.submittedAt := by
  have heq : monthStartUtc w.submittedAt = monthStartUtc now := by
    simpa [Workload.inMonth] using h
  rw [← heq]
  exact monthStartUtc_le w.submittedAt

section Terms
variable (providers : Providers) (now : Instant)

/-- What one workload adds to a view that sums the actual costs of some of the month's
workloads. -/
def Workload.actualIf (p : Workload → Bool) (w : Workload) : ℚ :=
  if w.inMonth now && p w then w.actual else 0

def Workload.hasProvider (w : Workload) : Bool := (providers.get w.providerId).isSome

theorem monthActual_eq (states : WorkloadState → Bool) (t : Workloads) :
    monthActual states now t =
      (t.rows.map (Workload.actualIf now fun w => states w.state)).sum := by
  unfold monthActual
  rw [sumWhere_eq_sum_map]
  rfl

theorem providerSpendSum_eq (t : Workloads) :
    providerSpendSum providers now t =
      (t.rows.map (Workload.actualIf now (Workload.hasProvider providers))).sum := by
  have hgroups : (refreshProviderSpend providers now t).map Prod.snd =
      (groupKeys Prod.fst (t.rows.filterMap (joinedProvider providers now))).map
        (groupSum Prod.fst (fun r => r.2.actual)
          (t.rows.filterMap (joinedProvider providers now))) := by
    simp [refreshProviderSpend, Function.comp_def]
  unfold providerSpendSum
  rw [hgroups, sum_groups, sum_filterMap]
  congr 1
  refine List.map_congr_left (fun w _ => ?_)
  unfold joinedProvider Workload.actualIf Workload.hasProvider
  cases w.inMonth now with
  | false => simp
  | true => cases providers.get w.providerId <;> simp

theorem actualIf_le_spendSince (p : Workload → Bool) {w : Workload} (h : w.NonNegative) :
    w.actualIf now p ≤ w.spendSince (monthStartUtc now) := by
  unfold Workload.actualIf Workload.spendSince
  by_cases hin : w.inMonth now = true
  · rw [if_pos (submitted_of_inMonth hin)]
    split
    · exact h.actual_le_spend
    · exact h.spend_nonneg
  · simp only [hin, Bool.false_and, Bool.false_eq_true, if_false]
    split
    · exact h.spend_nonneg
    · exact le_refl 0

theorem actualIf_eq_spendSince_iff (p : Workload → Bool) (w : Workload) :
    w.actualIf now p = w.spendSince (monthStartUtc now) ↔
      (monthStartUtc now ≤ w.submittedAt → w.spend ≠ 0 →
        w.inMonth now = true ∧ p w = true ∧ w.costActualUsd.isSome) := by
  unfold Workload.actualIf Workload.spendSince
  by_cases hstart : monthStartUtc now ≤ w.submittedAt
  · simp only [hstart, if_true, true_imp_iff]
    by_cases hseen : (w.inMonth now && p w) = true
    · rw [if_pos hseen, Workload.actual_eq_spend_iff]
      rw [Bool.and_eq_true] at hseen
      simp only [hseen, true_and]
      tauto
    · rw [if_neg hseen]
      rw [Bool.and_eq_true] at hseen
      constructor
      · exact fun hzero hne => absurd hzero.symm hne
      · intro h
        by_contra hne
        have hall := h (Ne.symm hne)
        exact hseen ⟨hall.1, hall.2.1⟩
  · have hout : w.inMonth now = false := by
      by_contra hin
      exact hstart (submitted_of_inMonth (by simpa using hin))
    simp [hstart, hout]

end Terms

section Views
variable (providers : Providers) (now : Instant) (t : Workloads)

theorem monthActual_le (states : WorkloadState → Bool) (h : t.NonNegative) :
    monthActual states now t ≤ currentMtdSpend .utc now t := by
  rw [monthActual_eq]
  exact List.sum_le_sum (fun w hw => actualIf_le_spendSince now _ (h w hw))

theorem providerSpendSum_le (h : t.NonNegative) :
    providerSpendSum providers now t ≤ currentMtdSpend .utc now t := by
  rw [providerSpendSum_eq]
  exact List.sum_le_sum (fun w hw => actualIf_le_spendSince now _ (h w hw))

/-- The workload shows in every view at the amount the gate counts it for. -/
def Workload.seenByAll (w : Workload) : Prop :=
  w.inMonth now = true ∧ w.state.notGivenUp = true ∧ w.costActualUsd.isSome ∧
    (providers.get w.providerId).isSome

theorem monthViewsAgree_iff (h : t.NonNegative) :
    MonthViewsAgree providers now t ↔
      ∀ w ∈ t.rows, monthStartUtc now ≤ w.submittedAt → w.spend ≠ 0 →
        w.seenByAll providers now := by
  have hviews : ∀ p : Workload → Bool,
      (t.rows.map (Workload.actualIf now p)).sum = currentMtdSpend .utc now t ↔
        ∀ w ∈ t.rows, monthStartUtc now ≤ w.submittedAt → w.spend ≠ 0 →
          w.inMonth now = true ∧ p w = true ∧ w.costActualUsd.isSome := by
    intro p
    refine (sum_eq_sum_iff_of_le
      (fun w hw => actualIf_le_spendSince now p (h w hw))).trans ?_
    exact forall₂_congr (fun w _ => actualIf_eq_spendSince_iff now p w)
  have htotal := hviews (fun w => w.state.notGivenUp)
  have hprovider := hviews (Workload.hasProvider providers)
  rw [← monthActual_eq] at htotal
  rw [← providerSpendSum_eq] at hprovider
  constructor
  · intro hagree w hw hstart hne
    have hseen := htotal.mp hagree.alerts w hw hstart hne
    have hjoined := hprovider.mp hagree.providers w hw hstart hne
    exact ⟨hseen.1, hseen.2.1, hseen.2.2, hjoined.2.1⟩
  · intro hall
    have hactual : monthActual WorkloadState.notGivenUp now t = currentMtdSpend .utc now t := by
      refine htotal.mpr (fun w hw hstart hne => ?_)
      have hseen := hall w hw hstart hne
      exact ⟨hseen.1, hseen.2.1, hseen.2.2.1⟩
    have hsum : providerSpendSum providers now t = currentMtdSpend .utc now t := by
      refine hprovider.mpr (fun w hw hstart hne => ?_)
      have hseen := hall w hw hstart hne
      exact ⟨hseen.1, hseen.2.2.2, hseen.2.2.1⟩
    exact ⟨hactual, hactual, hactual, hsum⟩

/-- The three sums over live workloads are one sum. Neither it nor the providers' share
exceeds what the gate counts, and all are equal exactly when whatever the gate counts is
recorded, live and of a known provider. -/
theorem month_views (h : t.NonNegative) :
    (evaluateCrossingsTotal now t = computeMtdSpend now t ∧
      refreshTotalSpend now t = computeMtdSpend now t) ∧
    (computeMtdSpend now t ≤ currentMtdSpend .utc now t ∧
      providerSpendSum providers now t ≤ currentMtdSpend .utc now t) ∧
    (MonthViewsAgree providers now t ↔
      ∀ w ∈ t.rows, monthStartUtc now ≤ w.submittedAt → w.spend ≠ 0 →
        w.seenByAll providers now) :=
  ⟨⟨rfl, rfl⟩, ⟨monthActual_le now t _ h, providerSpendSum_le providers now t h⟩,
    monthViewsAgree_iff providers now t h⟩

end Views

def fiveDollarWorkload (state : WorkloadState) : Workload :=
  { Workload.bare "wkl_1" "cap" "prov" "inference" state 0 with costActualUsd := some 5 }

def oneWorkload (state : WorkloadState) : Workloads :=
  ⟨[fiveDollarWorkload state], by simp [Workload.uniq, fiveDollarWorkload, Workload.bare]⟩

def oneProvider : Providers := ⟨[⟨"prov", "runpod", .serverlessLb, none⟩], by simp⟩

theorem oneWorkload_nonNegative (state : WorkloadState) :
    (oneWorkload state).NonNegative := by
  intro w hw
  obtain rfl : w = fiveDollarWorkload state := by simpa [oneWorkload] using hw
  constructor
  · simp [fiveDollarWorkload, Workload.bare]
  · simp [fiveDollarWorkload]

theorem month_views_completed :
    MonthViewsAgree oneProvider 0 (oneWorkload .completed) := by
  refine (month_views oneProvider 0 _ (oneWorkload_nonNegative .completed)).2.2.mpr ?_
  intro w hw _ _
  obtain rfl : w = fiveDollarWorkload .completed := by simpa [oneWorkload] using hw
  exact ⟨by decide, rfl, rfl, by decide⟩

/-- The cost of a failed workload shows in the gate's view, but not in the alerts'. -/
theorem failed_workload_splits_views :
    ¬ ∀ (providers : Providers) (now : Instant) (t : Workloads), t.NonNegative →
      MonthViewsAgree providers now t := by
  intro h
  have hagree := h oneProvider 0 _ (oneWorkload_nonNegative .failed)
  exact absurd hagree.alerts (by decide +kernel)

end Pitwall
