import Pitwall.Finops.TimeMachine
set_option autoImplicit false

/-!
The summary of a time-machine report: exact totals and deltas, and counts that sum to the
workloads with a provider.
-/

namespace Pitwall.Finops
open Pricing Routing

section Totals

theorem le_foldl_of_le {amounts : List UsdAmount} {start total : ℚ} (hstart : 10 ^ 22 ≤ start)
    (h : amounts.foldlM (fun total amount => contextual (total + amount.value)) start =
      .ok total) : 10 ^ 22 ≤ total := by
  induction amounts generalizing start with
  | nil => exact Except.ok.inj h ▸ hstart
  | cons amount amounts ih =>
    rw [List.foldlM_cons] at h
    obtain ⟨next, hnext, h⟩ := Except.bind_eq_ok_iff.mp h
    refine ih ?_ h
    rw [contextual_eq hnext]
    exact DecimalNumber.le_rounded (by linarith [amount.nonneg])

theorem foldl_exact {amounts : List UsdAmount} {start total : ℚ} (hquantized : IsMultiple 6 start)
    (hnonneg : 0 ≤ start)
    (h : amounts.foldlM (fun total amount => contextual (total + amount.value)) start = .ok total)
    (hsmall : total < 10 ^ 22) : total = start + (amounts.map UsdAmount.value).sum := by
  induction amounts generalizing start with
  | nil => simp [← Except.ok.inj h]
  | cons amount amounts ih =>
    rw [List.foldlM_cons] at h
    obtain ⟨next, hnext, h⟩ := Except.bind_eq_ok_iff.mp h
    have hquantized' := hquantized.add amount.quantized
    have hnonneg' := add_nonneg hnonneg amount.nonneg
    have hnext_small : next < 10 ^ 22 := by
      by_contra hbig
      exact absurd (le_foldl_of_le (not_lt.mp hbig) h) (not_le.mpr hsmall)
    obtain rfl := contextual_exact hnext hquantized' hnonneg' hnext_small
    rw [ih hquantized' hnonneg' h, List.map_cons, List.sum_cons, add_assoc]

theorem totalUsd_ok {amounts : List UsdAmount} {name : String} {total : UsdAmount}
    (h : totalUsd amounts name = .ok total) :
    total.value = (amounts.map UsdAmount.value).sum := by
  obtain ⟨sum, hsum, htotal⟩ := Except.bind_eq_ok_iff.mp h
  have hexact := foldl_exact (.zero 6) (le_refl 0) hsum (lt_of_usdAmount_ok htotal)
  rw [zero_add] at hexact
  have hquantized : IsMultiple 6 sum := by
    rw [hexact]
    exact UsdAmount.sum_quantized (fun amount => amount) amounts
  rw [usdAmount_ok htotal, roundHalfAway_of_isMultiple hquantized, hexact]

theorem totalUsd_returns (amounts : List UsdAmount) (name : String)
    (hsmall : (amounts.map UsdAmount.value).sum < 10 ^ 22) :
    ∃ total, totalUsd amounts name = .ok total := by
  have hsum := foldl_amounts (fun amount => amount) amounts (.zero 6) (le_refl 0)
    (by rwa [zero_add])
  rw [zero_add] at hsum
  obtain ⟨total, htotal, -⟩ := usdAmount_returns
    (UsdAmount.sum_nonneg (fun amount => amount) amounts)
    (UsdAmount.sum_quantized (fun amount => amount) amounts) hsmall name
  exact ⟨total, by rw [totalUsd, Except.bind_of_ok hsum, htotal]⟩

theorem costDelta_eq (counterfactual actual : UsdAmount) :
    costDelta counterfactual actual = .ok (counterfactual.value - actual.value) := by
  have hquantized := counterfactual.sub_quantized actual
  have hsmall := counterfactual.abs_sub_lt actual
  rw [costDelta, Except.bind_of_ok (contextual_of_isMultiple hquantized hsmall),
    signedUsd_of_isMultiple hquantized hsmall]

end Totals

section Counts

theorem countSum_countProviders (counts : List (String × Nat)) (ids : List (Option String)) :
    countSum (countProviders counts ids) = countSum counts + ids.countP (·.isSome) := by
  induction ids generalizing counts with
  | nil => rfl
  | cons id ids ih =>
    cases id with
    | none => rw [countProviders, ih, List.countP_cons_of_neg (by simp)]
    | some id =>
      rw [countProviders, ih, countSum_increment, List.countP_cons_of_pos (by simp)]
      omega

theorem nodup_keys_countProviders {counts : List (String × Nat)} (ids : List (Option String))
    (h : (counts.map Prod.fst).Nodup) : ((countProviders counts ids).map Prod.fst).Nodup := by
  induction ids generalizing counts with
  | nil => exact h
  | cons id ids ih =>
    cases id with
    | none => exact ih h
    | some id => exact ih (nodup_keys_setEntry h)

theorem countSum_sortedCounts (counts : List (String × Nat)) :
    countSum (sortedCounts counts) = countSum counts :=
  countSum_perm (sortedBy_perm _ counts)

theorem freezeCounts_ok {counts frozen : List (String × Nat)} {name : String}
    (hdistinct : (counts.map Prod.fst).Nodup) (h : freezeCounts counts name = .ok frozen) :
    frozen = sortedCounts counts := by
  have hfold : ∀ (entries start last : List (String × Nat)),
      entries.foldlM (fun frozen (entry : String × Nat) => do
        let providerId ← requireNonEmpty entry.1 s!"{name} key"
        return setEntry providerId.val entry.2 frozen) start = .ok last →
      last = entries.foldl (fun frozen entry => setEntry entry.1 entry.2 frozen) start := by
    intro entries
    induction entries with
    | nil => exact fun start last hlast => (Except.ok.inj hlast).symm
    | cons entry entries ih =>
      intro start last hlast
      rw [List.foldlM_cons] at hlast
      obtain ⟨next, hnext, hlast⟩ := Except.bind_eq_ok_iff.mp hlast
      obtain ⟨providerId, hid, hnext⟩ := Except.bind_eq_ok_iff.mp hnext
      unfold requireNonEmpty at hid
      split at hid
      · obtain rfl := Except.ok.inj hid
        rw [ih next last hlast, ← Except.ok.inj hnext, List.foldl_cons]
      · cases hid
  obtain ⟨last, hlast, h⟩ := Except.bind_eq_ok_iff.mp h
  rw [← Except.ok.inj h, hfold counts [] last hlast, foldl_setEntry hdistinct, List.nil_append]

theorem mem_keys_countProviders {id : String} (counts : List (String × Nat))
    (ids : List (Option String)) :
    id ∈ (countProviders counts ids).map Prod.fst ↔ id ∈ counts.map Prod.fst ∨ some id ∈ ids := by
  induction ids generalizing counts with
  | nil => simp [countProviders]
  | cons first ids ih =>
    cases first with
    | none => rw [countProviders, ih, List.mem_cons, or_iff_right (Option.some_ne_none id)]
    | some first =>
      rw [countProviders, ih, mem_keys_setEntry, List.mem_cons, Option.some_inj, or_assoc,
        or_left_comm]

theorem freezeCounts_returns {counts : List (String × Nat)} (name : String)
    (h : "" ∉ counts.map Prod.fst) : ∃ frozen, freezeCounts counts name = .ok frozen := by
  have hfold : ∀ (entries start : List (String × Nat)), "" ∉ entries.map Prod.fst →
      ∃ last, entries.foldlM (fun frozen (entry : String × Nat) => do
        let providerId ← requireNonEmpty entry.1 s!"{name} key"
        return setEntry providerId.val entry.2 frozen) start = .ok last := by
    intro entries
    induction entries with
    | nil => exact fun start _ => ⟨start, rfl⟩
    | cons entry entries ih =>
      intro start hne
      rw [List.map_cons, List.mem_cons, not_or] at hne
      obtain ⟨last, hlast⟩ := ih (setEntry entry.1 entry.2 start) hne.2
      refine ⟨last, ?_⟩
      rw [List.foldlM_cons, requireNonEmpty, dif_pos (Ne.symm hne.1), Except.bind_of_ok rfl]
      exact hlast
  obtain ⟨last, hlast⟩ := hfold counts [] h
  exact ⟨sortedCounts last, by rw [freezeCounts, Except.bind_of_ok hlast]; rfl⟩

theorem freezeCounts_providerCounts {ids : List (Option String)} (name : String)
    (h : some "" ∉ ids) : ∃ frozen, freezeCounts (providerCounts ids) name = .ok frozen := by
  refine freezeCounts_returns name fun hmem => ?_
  rw [providerCounts, sortedCounts, ((sortedBy_perm _ _).map Prod.fst).mem_iff,
    mem_keys_countProviders] at hmem
  exact hmem.elim List.not_mem_nil h

theorem countSum_of_freezeCounts {ids : List (Option String)} {name : String}
    {frozen : List (String × Nat)} (h : freezeCounts (providerCounts ids) name = .ok frozen) :
    countSum frozen = ids.countP (·.isSome) := by
  have hdistinct : ((providerCounts ids).map Prod.fst).Nodup :=
    ((sortedBy_perm _ _).map Prod.fst).nodup_iff.mpr
      (nodup_keys_countProviders ids List.nodup_nil)
  rw [freezeCounts_ok hdistinct h, countSum_sortedCounts, providerCounts, countSum_sortedCounts,
    countSum_countProviders]
  exact Nat.zero_add _

end Counts

section Summary
variable {workloads : List TimeMachineWorkloadReport} {result : TimeMachineSummary}

structure Summarizes (result : TimeMachineSummary) (workloads : List TimeMachineWorkloadReport) :
    Prop where
  workload_count : result.workloadCount = workloads.length
  changed_route_count : result.changedRouteCount = workloads.countP (·.routedDifferently)
  unroutable_count : result.unroutableCount = workloads.countP (·.counterfactualProviderId.isNone)
  actual_total : result.actualTotalUsd.value = (workloads.map (·.actualCostUsd.value)).sum
  counterfactual_total :
    result.counterfactualTotalUsd.value = (workloads.map (·.counterfactualCostUsd.value)).sum
  delta : result.costDeltaUsd = result.counterfactualTotalUsd.value - result.actualTotalUsd.value
  actual_counts :
    countSum result.actualProviderCounts = workloads.countP (·.actualProviderId.isSome)
  counterfactual_counts : countSum result.counterfactualProviderCounts =
    workloads.countP (·.counterfactualProviderId.isSome)

theorem summarizes_of_summary (h : summary workloads = .ok result) :
    Summarizes result workloads := by
  obtain ⟨actual, hactual, h⟩ := Except.bind_eq_ok_iff.mp h
  obtain ⟨counterfactual, hcounterfactual, h⟩ := Except.bind_eq_ok_iff.mp h
  rw [costDelta_eq, Except.bind_of_ok rfl] at h
  unfold TimeMachineSummary.create at h
  dsimp only at h
  rw [usdAmount_value, Except.bind_of_ok rfl, usdAmount_value, Except.bind_of_ok rfl,
    signedUsd_of_isMultiple (counterfactual.sub_quantized actual)
      (counterfactual.abs_sub_lt actual), Except.bind_of_ok rfl] at h
  obtain ⟨actualCounts, hactualCounts, h⟩ := Except.bind_eq_ok_iff.mp h
  obtain ⟨counterfactualCounts, hcounterfactualCounts, h⟩ := Except.bind_eq_ok_iff.mp h
  obtain rfl := Except.pure_eq_ok_iff.mp h
  refine ⟨rfl, rfl, rfl, ?_, ?_, rfl, ?_, ?_⟩
  · rw [totalUsd_ok hactual, List.map_map]
    rfl
  · rw [totalUsd_ok hcounterfactual, List.map_map]
    rfl
  · rw [countSum_of_freezeCounts hactualCounts, List.countP_map]
    rfl
  · rw [countSum_of_freezeCounts hcounterfactualCounts, List.countP_map]
    rfl

theorem summary_returns (hactual : (workloads.map (·.actualCostUsd.value)).sum < 10 ^ 22)
    (hcounterfactual : (workloads.map (·.counterfactualCostUsd.value)).sum < 10 ^ 22)
    (hid : some "" ∉ workloads.map (·.actualProviderId))
    (hid' : some "" ∉ workloads.map (·.counterfactualProviderId)) :
    ∃ result, summary workloads = .ok result := by
  have hmap : ∀ cost : TimeMachineWorkloadReport → UsdAmount,
      (workloads.map cost).map UsdAmount.value = workloads.map fun w => (cost w).value :=
    fun cost => List.map_map
  obtain ⟨actual, hactual⟩ :=
    totalUsd_returns (workloads.map (·.actualCostUsd)) "actual_total_usd" (by rwa [hmap])
  obtain ⟨counterfactual, hcounterfactual⟩ := totalUsd_returns
    (workloads.map (·.counterfactualCostUsd)) "counterfactual_total_usd" (by rwa [hmap])
  obtain ⟨counts, hcounts⟩ := freezeCounts_providerCounts "actual_provider_counts" hid
  obtain ⟨counts', hcounts'⟩ := freezeCounts_providerCounts "counterfactual_provider_counts" hid'
  unfold summary
  rw [Except.bind_of_ok hactual, Except.bind_of_ok hcounterfactual, costDelta_eq,
    Except.bind_of_ok rfl]
  unfold TimeMachineSummary.create
  dsimp only
  rw [usdAmount_value, Except.bind_of_ok rfl, usdAmount_value, Except.bind_of_ok rfl,
    signedUsd_of_isMultiple (counterfactual.sub_quantized actual)
      (counterfactual.abs_sub_lt actual), Except.bind_of_ok rfl, Except.bind_of_ok hcounts,
    Except.bind_of_ok hcounts']
  exact ⟨_, rfl⟩

end Summary

end Pitwall.Finops
