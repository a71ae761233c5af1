import Mathlib
import Pitwall.Cost.BudgetCap
import Pitwall.Cost.Simulator
import Pitwall.Library.Traversal
set_option autoImplicit false

/-!
`simulate_workloads` beside the budget gate: what the simulator says of each workload, and what
the gate does with the launches of the same estimates, one after the other.
-/

namespace Pitwall
open Machine

/-- `_usd`. -/
def WhatIfSimulator.usd (raw : RawAmount) (name : String) : Except PyError UsdAmount :=
  match raw with
  | .boolean | .unparsable => .error ⟨"ValueError", name ++ " must be a decimal value"⟩
  | .nonFinite => .error ⟨"ValueError", name ++ " must be finite"⟩
  | .finite value => usdAmount value name

theorem usdAmount_ok {value : ℚ} {name : String} {amount : UsdAmount}
    (h : usdAmount value name = .ok amount) : amount.value = roundHalfAway 6 value := by
  unfold usdAmount at h
  split at h
  · cases h
  · split at h
    · cases h
    · cases h
      rfl

theorem usdAmount_returns {value : ℚ} (hnonneg : 0 ≤ value) (hquantized : IsMultiple 6 value)
    (hsmall : value < 10 ^ 22) (name : String) :
    ∃ amount, usdAmount value name = .ok amount ∧ amount.value = value :=
  ⟨⟨value, hnonneg, hquantized, hsmall⟩, usdAmount_value ⟨value, hnonneg, hquantized, hsmall⟩ name,
    rfl⟩

theorem signedUsd_of_isMultiple {value : ℚ} (hquantized : IsMultiple 6 value)
    (hsmall : |value| < 10 ^ 22) (name : String) : signedUsd value name = .ok value := by
  have hrounded : roundHalfAway 6 value = value := roundHalfAway_of_isMultiple hquantized
  rw [signedUsd, hrounded, if_neg (not_le.mpr hsmall)]

theorem UsdAmount.sub_quantized (x y : UsdAmount) : IsMultiple 6 (x.value - y.value) :=
  x.quantized.sub y.quantized

theorem UsdAmount.abs_sub_lt (x y : UsdAmount) : |x.value - y.value| < 10 ^ 22 := by
  have hx := x.small
  have hy := y.small
  have hx' := x.nonneg
  have hy' := y.nonneg
  rw [abs_lt]
  constructor <;> linarith

theorem budgetHeadroom_eq (budget : Option UsdAmount) (projected : UsdAmount) :
    budgetHeadroom budget projected =
      .ok (budget.map fun budget => budget.value - projected.value) := by
  cases budget with
  | none => rfl
  | some budget =>
    have hquantized := budget.sub_quantized projected
    have hsmall := budget.abs_sub_lt projected
    rw [budgetHeadroom, Except.bind_of_ok (contextual_of_isMultiple hquantized hsmall),
      Except.bind_of_ok (signedUsd_of_isMultiple hquantized hsmall _)]
    rfl

theorem lt_of_usdAmount_ok {value : ℚ} {name : String} {amount : UsdAmount}
    (h : usdAmount value name = .ok amount) : value < 10 ^ 22 := by
  by_contra hbig
  have hrounded : (10 : ℚ) ^ 22 ≤ roundHalfAway 6 value := by
    have hten : roundHalfAway 6 ((10 : ℚ) ^ 22) = 10 ^ 22 :=
      roundHalfAway_of_isMultiple ⟨10 ^ 28, by norm_num⟩
    rw [← hten]
    exact roundHalfAway_mono (by norm_num) (not_lt.mp hbig)
  rw [← usdAmount_ok h] at hrounded
  exact absurd amount.small (not_lt.mpr hrounded)

theorem amount_of_sum {x y : UsdAmount} {sum : ℚ} {name : String} {amount : UsdAmount}
    (hsum : contextual (x.value + y.value) = .ok sum) (hamount : usdAmount sum name = .ok amount) :
    amount.value = x.value + y.value := by
  have hquantized : IsMultiple 6 (x.value + y.value) := x.quantized.add y.quantized
  have hnonneg : 0 ≤ x.value + y.value := add_nonneg x.nonneg y.nonneg
  have hsmall : sum < 10 ^ 22 := lt_of_usdAmount_ok hamount
  rw [usdAmount_ok hamount, contextual_exact hsum hquantized hnonneg hsmall]
  exact roundHalfAway_of_isMultiple hquantized

section Sums
variable {β : Type} (amount : β → UsdAmount)

theorem UsdAmount.sum_nonneg (items : List β) :
    0 ≤ (items.map fun item => (amount item).value).sum := by
  refine List.sum_nonneg fun value hvalue => ?_
  obtain ⟨item, -, rfl⟩ := List.mem_map.mp hvalue
  exact (amount item).nonneg

theorem UsdAmount.sum_quantized (items : List β) :
    IsMultiple 6 (items.map fun item => (amount item).value).sum := by
  refine IsMultiple.sum fun value hvalue => ?_
  obtain ⟨item, -, rfl⟩ := List.mem_map.mp hvalue
  exact (amount item).quantized

theorem foldl_amounts (items : List β) {total : ℚ} (hquantized : IsMultiple 6 total)
    (hnonneg : 0 ≤ total)
    (hsmall : total + (items.map fun item => (amount item).value).sum < 10 ^ 22) :
    items.foldlM (fun total item => contextual (total + (amount item).value)) total =
      .ok (total + (items.map fun item => (amount item).value).sum) := by
  induction items generalizing total with
  | nil => simp [pure, Except.pure]
  | cons item items ih =>
    rw [List.map_cons, List.sum_cons] at hsmall
    have hrest := UsdAmount.sum_nonneg amount items
    have hquantized' := hquantized.add (amount item).quantized
    have hnonneg' := add_nonneg hnonneg (amount item).nonneg
    have hexact := contextual_of_isMultiple hquantized'
      (by rw [abs_of_nonneg hnonneg']; linarith)
    rw [List.foldlM_cons, Except.bind_of_ok hexact, ih hquantized' hnonneg' (by linarith),
      List.map_cons, List.sum_cons, add_assoc]

end Sums

namespace WhatIfSimulator
variable {W : Type} (sim : WhatIfSimulator W)

/-- `_resolve_budget`. -/
def resolveBudget : Option RawAmount → Except PyError (Option UsdAmount)
  | none => .ok sim.budgetUsd
  | some budget => do
      let budget ← usd budget "budget_usd"
      return some budget

/-- `_resolve_current_spend`. -/
def resolveCurrentSpend : Option RawAmount → Except PyError UsdAmount
  | none => .ok sim.currentSpendUsd
  | some spend => usd spend "current_spend_usd"

/-- `simulate_workloads`, with a budget and a spend of its own. -/
def simulateWorkloadsWith (budgetUsd currentSpendUsd : Option RawAmount) (workloads : List W) :
    Except PyError WhatIfBatchProjection := do
  let budget ← sim.resolveBudget budgetUsd
  let spend ← sim.resolveCurrentSpend currentSpendUsd
  simulateWorkloads { sim with budgetUsd := budget, currentSpendUsd := spend } workloads

section Projections
variable {sim}

theorem simulate_ok {running : UsdAmount} {workload : W} {projection : WhatIfProjection}
    (h : sim.simulate running workload = .ok projection) :
    projection.projectedSpendUsd.value = running.value + projection.reservedUsd.value ∧
      projection.wouldExceedBudget = sim.budgetUsd.map fun budget =>
        decide (budget.value < running.value + projection.reservedUsd.value) := by
  unfold simulate at h
  obtain ⟨costs, hcosts, h⟩ := Except.bind_eq_ok_iff.mp h
  dsimp only at h
  obtain ⟨sum, hsum, h⟩ := Except.bind_eq_ok_iff.mp h
  obtain ⟨projected, hprojected, h⟩ := Except.bind_eq_ok_iff.mp h
  rw [budgetHeadroom_eq, Except.bind_of_ok rfl, Except.pure_eq_ok_iff] at h
  subst h
  have hexact := amount_of_sum hsum hprojected
  refine ⟨hexact, ?_⟩
  cases hbudget : sim.budgetUsd with
  | none => simp [wouldExceed]
  | some budget =>
    simp only [wouldExceed, Option.map_some, Option.some.injEq, decide_eq_decide]
    rw [hexact, sub_neg]

theorem simulate_returns (running : UsdAmount) {workload : W} {costs : List UsdAmount}
    (hcosts : sim.attemptCosts workload = .ok costs)
    (hsmall : running.value + (costs.head?.getD .zero).value < 10 ^ 22) :
    ∃ projection, sim.simulate running workload = .ok projection ∧
      projection.reservedUsd = costs.head?.getD .zero := by
  have hquantized := running.quantized.add (costs.head?.getD .zero).quantized
  have hnonneg := add_nonneg running.nonneg (costs.head?.getD .zero).nonneg
  obtain ⟨projected, hprojected, -⟩ :=
    usdAmount_returns hnonneg hquantized hsmall "projected_spend_usd"
  have hsum := contextual_of_isMultiple hquantized (by rwa [abs_of_nonneg hnonneg])
  unfold simulate
  rw [Except.bind_of_ok hcosts]
  dsimp only
  rw [Except.bind_of_ok hsum, Except.bind_of_ok hprojected, budgetHeadroom_eq,
    Except.bind_of_ok rfl]
  exact ⟨_, rfl, rfl⟩

theorem simulateLoop_last {running last : UsdAmount} {workloads : List W}
    {projections : List WhatIfProjection}
    (h : sim.simulateLoop running workloads = .ok (projections, last)) :
    last.value = running.value + (projections.map (·.reservedUsd.value)).sum := by
  induction workloads generalizing running projections with
  | nil =>
    cases h
    simp
  | cons workload workloads ih =>
    unfold simulateLoop at h
    obtain ⟨projection, hprojection, h⟩ := Except.bind_eq_ok_iff.mp h
    obtain ⟨⟨rest, last'⟩, hrest, h⟩ := Except.bind_eq_ok_iff.mp h
    cases h
    rw [ih hrest, (simulate_ok hprojection).1, List.map_cons, List.sum_cons]
    ring

theorem simulateWorkloads_ok {workloads : List W} {batch : WhatIfBatchProjection}
    (h : sim.simulateWorkloads workloads = .ok batch) :
    (∃ last, sim.simulateLoop sim.currentSpendUsd workloads = .ok (batch.projections, last)) ∧
      batch.totalReservedUsd.value = (batch.projections.map (·.reservedUsd.value)).sum := by
  unfold simulateWorkloads at h
  obtain ⟨⟨projections, last⟩, hloop, h⟩ := Except.bind_eq_ok_iff.mp h
  dsimp only at h
  have hlast := simulateLoop_last hloop
  have hsmall : (projections.map (·.reservedUsd.value)).sum < 10 ^ 22 := by
    have hstart := sim.currentSpendUsd.nonneg
    have hend := last.small
    linarith
  have hsum := foldl_amounts WhatIfProjection.reservedUsd projections (.zero 6) (le_refl 0)
    (by rwa [zero_add])
  rw [zero_add] at hsum
  rw [Except.bind_of_ok hsum] at h
  obtain ⟨total, htotal, h⟩ := Except.bind_eq_ok_iff.mp h
  rw [budgetHeadroom_eq, Except.bind_of_ok rfl, Except.pure_eq_ok_iff] at h
  subst h
  refine ⟨⟨last, hloop⟩, ?_⟩
  have hquantized := UsdAmount.sum_quantized WhatIfProjection.reservedUsd projections
  rw [usdAmount_ok htotal]
  exact roundHalfAway_of_isMultiple hquantized

theorem simulateLoop_returns {costs : W → List UsdAmount} {workloads : List W}
    (hcosts : ∀ workload ∈ workloads, sim.attemptCosts workload = .ok (costs workload))
    {running : UsdAmount} (hsmall : running.value +
      (workloads.map fun workload => ((costs workload).head?.getD .zero).value).sum < 10 ^ 22) :
    ∃ projections last, sim.simulateLoop running workloads = .ok (projections, last) ∧
      projections.map (·.reservedUsd) =
        workloads.map fun workload => (costs workload).head?.getD .zero := by
  induction workloads generalizing running with
  | nil => exact ⟨[], running, rfl, rfl⟩
  | cons workload workloads ih =>
    rw [List.map_cons, List.sum_cons] at hsmall
    have hrest := UsdAmount.sum_nonneg (fun workload => (costs workload).head?.getD .zero) workloads
    obtain ⟨projection, hprojection, hreserved⟩ :=
      simulate_returns running (hcosts workload List.mem_cons_self) (by linarith)
    have hprojected := (simulate_ok hprojection).1
    rw [hreserved] at hprojected
    have hsmall' : projection.projectedSpendUsd.value +
        (workloads.map fun workload => ((costs workload).head?.getD .zero).value).sum < 10 ^ 22 := by
      rw [hprojected]
      linarith
    obtain ⟨projections, last, hloop, hmap⟩ := ih
      (fun workload' hmem => hcosts workload' (List.mem_cons_of_mem _ hmem)) hsmall'
    refine ⟨projection :: projections, last, ?_, ?_⟩
    · rw [simulateLoop, Except.bind_of_ok hprojection, Except.bind_of_ok hloop]
      rfl
    · rw [List.map_cons, List.map_cons, hreserved, hmap]

theorem simulateWorkloads_returns (costs : W → List UsdAmount) (workloads : List W)
    (hcosts : ∀ workload ∈ workloads, sim.attemptCosts workload = .ok (costs workload))
    (hsmall : sim.currentSpendUsd.value +
      (workloads.map fun workload => ((costs workload).head?.getD .zero).value).sum < 10 ^ 22) :
    ∃ batch, sim.simulateWorkloads workloads = .ok batch ∧
      batch.projections.map (·.reservedUsd) =
        workloads.map fun workload => (costs workload).head?.getD .zero := by
  obtain ⟨projections, last, hloop, hmap⟩ := simulateLoop_returns hcosts hsmall
  have hvalues : projections.map (·.reservedUsd.value) =
      workloads.map fun workload => ((costs workload).head?.getD .zero).value := by
    have hmapped := congrArg (List.map UsdAmount.value) hmap
    simpa only [List.map_map, Function.comp_def] using hmapped
  have hnonneg := UsdAmount.sum_nonneg WhatIfProjection.reservedUsd projections
  have hquantized := UsdAmount.sum_quantized WhatIfProjection.reservedUsd projections
  have hstart := sim.currentSpendUsd.nonneg
  rw [← hvalues] at hsmall
  have hsum := foldl_amounts WhatIfProjection.reservedUsd projections (.zero 6) (le_refl 0)
    (by linarith)
  rw [zero_add] at hsum
  obtain ⟨total, htotal, -⟩ :=
    usdAmount_returns hnonneg hquantized (by linarith) "total_reserved_usd"
  unfold simulateWorkloads
  rw [Except.bind_of_ok hloop]
  dsimp only
  rw [Except.bind_of_ok hsum, Except.bind_of_ok htotal, budgetHeadroom_eq, Except.bind_of_ok rfl]
  exact ⟨_, rfl, hmap⟩

theorem reported_of_over {running last budget : UsdAmount} {workloads : List W}
    {projections : List WhatIfProjection} (hbudget : sim.budgetUsd = some budget)
    (h : sim.simulateLoop running workloads = .ok (projections, last))
    (hover : budget.value < running.value) :
    ∀ projection ∈ projections, projection.wouldExceedBudget = some true := by
  induction workloads generalizing running projections with
  | nil =>
    cases h
    simp
  | cons workload workloads ih =>
    unfold simulateLoop at h
    obtain ⟨projection, hprojection, h⟩ := Except.bind_eq_ok_iff.mp h
    obtain ⟨⟨rest, last'⟩, hrest, h⟩ := Except.bind_eq_ok_iff.mp h
    cases h
    obtain ⟨hprojected, hexceeds⟩ := simulate_ok hprojection
    have hnext : budget.value < running.value + projection.reservedUsd.value := by
      linarith [projection.reservedUsd.nonneg]
    intro projection' hmem
    rcases List.mem_cons.mp hmem with rfl | hmem
    · simp [hexceeds, hbudget, hnext]
    · exact ih hrest (by rwa [hprojected]) projection' hmem

end Projections

end WhatIfSimulator

section Launches

def BudgetGate.launches (gate : BudgetGate) :
    Workloads → List (LaunchRequest × LaunchEnv) → List (Except AdmissionError BudgetAdmission)
  | _, [] => []
  | t, (req, env) :: calls =>
      (gate.launch req env t).1 :: gate.launches (gate.launch req env t).2 calls

/-- The launch of what a projection reserves: no key, no hook, no cap per request that matters,
and the month of the other launches. -/
structure LaunchOf (gate : BudgetGate) (start : Instant) (projection : WhatIfProjection)
    (call : LaunchRequest × LaunchEnv) : Prop where
  estimate : call.1.estimateUsd = .amount (.finite projection.reservedUsd.value) ∨
    call.1.estimateUsd = .estimate (.finite projection.reservedUsd.value)
  positive : 0 < projection.reservedUsd.value
  unkeyed : call.1.idempotencyKey = none
  unhooked : call.1.beforeNewAdmission = none
  request_cap : projection.reservedUsd.value ≤ gate.perRequestMaxUsd
  window : call.2.session.monthStart call.2.now = start
  submitted : start ≤ call.1.submittedAt.getD call.2.utcNow

structure FreshIds (t : Workloads) (calls : List (LaunchRequest × LaunchEnv)) : Prop where
  distinct : (calls.map (·.2.newWorkloadId)).Nodup
  unused : ∀ call ∈ calls, ∀ w ∈ t.rows, w.id ≠ call.2.newWorkloadId

/-- The gate rejects the `i`-th launch for the monthly budget. -/
def Rejected (outcomes : List (Except AdmissionError BudgetAdmission)) (i : Nat) : Prop :=
  ∃ snapshot, outcomes[i]? = some (.error (.budgetRejected .monthlyBudget snapshot))

/-- The cost column cannot hold the estimate of the `i`-th launch. -/
def Overflowed (outcomes : List (Except AdmissionError BudgetAdmission)) (i : Nat) : Prop :=
  outcomes[i]? = some (.error .numericOverflow)

/-- The simulator reports the `i`-th workload. -/
def Reported (projections : List WhatIfProjection) (i : Nat) : Prop :=
  ∃ projection, projections[i]? = some projection ∧ projection.wouldExceedBudget = some true

variable {gate : BudgetGate} {start : Instant} {projection : WhatIfProjection}
  {req : LaunchRequest} {env : LaunchEnv} {calls : List (LaunchRequest × LaunchEnv)} {t : Workloads}

theorem LaunchOf.positiveEstimate (h : LaunchOf gate start projection (req, env)) :
    positiveEstimate req.estimateUsd = .ok projection.reservedUsd.value := by
  have hpositive : ¬ projection.reservedUsd.value ≤ 0 := not_le.mpr h.positive
  rcases h.estimate with hestimate | hestimate <;>
    simp only at hestimate <;>
    simp [hestimate, Pitwall.positiveEstimate, positiveDecimal, decimal, hpositive]

theorem insert_queued (hkey : req.idempotencyKey = none)
    (hfresh : ∀ w ∈ t.rows, w.id ≠ env.newWorkloadId) (cost : ℚ) :
    ∃ t', t.insert (queuedWorkload req env cost) = some t' := by
  have huniq : (queuedWorkload req env cost).uniq = [.id env.newWorkloadId] := by
    simp [Workload.uniq, queuedWorkload, hkey]
  unfold Table.insert
  rw [dif_pos]
  · exact ⟨_, rfl⟩
  · rw [huniq]
    refine ⟨List.nodup_singleton _, ?_⟩
    intro index hindex hmem
    obtain rfl := List.mem_singleton.mp hindex
    obtain ⟨w, hw, hentry⟩ := List.mem_flatMap.mp hmem
    have hid : w.id = env.newWorkloadId := by
      simpa [Workload.uniq, eq_comm] using hentry
    exact hfresh w hw hid

theorem launch_of_cases (h : LaunchOf gate start projection (req, env))
    (hfresh : ∀ w ∈ t.rows, w.id ≠ env.newWorkloadId) :
    (gate.monthlyBudgetUsd < t.spendSince start + projection.reservedUsd.value ∧
      ∃ snapshot, gate.launch req env t =
        (.error (.budgetRejected .monthlyBudget snapshot), t)) ∨
    (t.spendSince start + projection.reservedUsd.value ≤ gate.monthlyBudgetUsd ∧
      gate.launch req env t = (.error .numericOverflow, t)) ∨
    (t.spendSince start + projection.reservedUsd.value ≤ gate.monthlyBudgetUsd ∧
      ∃ t', gate.launch req env t = (.ok ⟨env.newWorkloadId, true⟩, t') ∧
        t'.rows = t.rows ++ [queuedWorkload req env projection.reservedUsd.value] ∧
        t'.spendSince start = t.spendSince start + projection.reservedUsd.value) := by
  have hcap := not_lt.mpr h.request_cap
  have hkey : req.idempotencyKey = none := h.unkeyed
  have hhook : req.beforeNewAdmission = none := h.unhooked
  have hspend : currentMtdSpend env.session env.now t = t.spendSince start := by
    rw [currentMtdSpend, h.window]
  have hadmission : gate.tryLaunchAdmission req env t =
      gate.admitNew req env projection.reservedUsd.value t := by
    simp [BudgetGate.tryLaunchAdmission, h.positiveEstimate, hkey, hcap]
  -- without a key and a hook, the budget, the column and the insertion are left
  rw [BudgetGate.admitNew, hhook, hspend] at hadmission
  simp only [if_neg hcap] at hadmission
  by_cases hover : gate.monthlyBudgetUsd < t.spendSince start + projection.reservedUsd.value
  · rw [if_pos hover] at hadmission
    exact .inl ⟨hover, _, Machine.atomically_error hadmission⟩
  · rw [if_neg hover] at hadmission
    cases hcost : numeric 12 6 projection.reservedUsd.value with
    | none =>
      rw [hcost] at hadmission
      exact .inr (.inl ⟨not_lt.mp hover, Machine.atomically_error hadmission⟩)
    | some cost =>
      obtain rfl := eq_of_numeric projection.reservedUsd.quantized hcost
      obtain ⟨t', hinsert⟩ := insert_queued hkey hfresh projection.reservedUsd.value
      simp only [hcost, hinsert] at hadmission
      have hrows := Table.rows_of_insert hinsert
      refine .inr (.inr ⟨not_lt.mp hover, t', Machine.atomically_ok hadmission, hrows, ?_⟩)
      rw [Workloads.spendSince_append start hrows, Workload.spendSince]
      congr 1
      exact if_pos h.submitted

@[simp] theorem rejected_zero {outcome : Except AdmissionError BudgetAdmission}
    {outcomes : List (Except AdmissionError BudgetAdmission)} :
    Rejected (outcome :: outcomes) 0 ↔
      ∃ snapshot, outcome = .error (.budgetRejected .monthlyBudget snapshot) := by
  simp [Rejected]

@[simp] theorem rejected_succ {outcome : Except AdmissionError BudgetAdmission}
    {outcomes : List (Except AdmissionError BudgetAdmission)} {i : Nat} :
    Rejected (outcome :: outcomes) (i + 1) ↔ Rejected outcomes i := by
  simp [Rejected]

@[simp] theorem overflowed_zero {outcome : Except AdmissionError BudgetAdmission}
    {outcomes : List (Except AdmissionError BudgetAdmission)} :
    Overflowed (outcome :: outcomes) 0 ↔ outcome = .error .numericOverflow := by
  simp [Overflowed]

@[simp] theorem overflowed_succ {outcome : Except AdmissionError BudgetAdmission}
    {outcomes : List (Except AdmissionError BudgetAdmission)} {i : Nat} :
    Overflowed (outcome :: outcomes) (i + 1) ↔ Overflowed outcomes i := by
  simp [Overflowed]

@[simp] theorem reported_zero {projections : List WhatIfProjection} :
    Reported (projection :: projections) 0 ↔ projection.wouldExceedBudget = some true := by
  simp [Reported]

@[simp] theorem reported_succ {projections : List WhatIfProjection} {i : Nat} :
    Reported (projection :: projections) (i + 1) ↔ Reported projections i := by
  simp [Reported]

theorem FreshIds.tail {call : LaunchRequest × LaunchEnv} {t' : Workloads}
    (h : FreshIds t (call :: calls))
    (hrows : ∀ w ∈ t'.rows, w ∈ t.rows ∨ w.id = call.2.newWorkloadId) : FreshIds t' calls where
  distinct := (List.nodup_cons.mp h.distinct).2
  unused := by
    intro call' hcall' w hw
    rcases hrows w hw with hold | hnew
    · exact h.unused call' (List.mem_cons_of_mem _ hcall') w hold
    · rw [hnew]
      rintro heq
      refine (List.nodup_cons.mp h.distinct).1 (List.mem_map.mpr ⟨call', hcall', heq.symm⟩)

end Launches

section Agreement
variable {W : Type} {sim : WhatIfSimulator W} {gate : BudgetGate} {start : Instant}
  {running last budget : UsdAmount} {workloads : List W} {projections : List WhatIfProjection}
  {calls : List (LaunchRequest × LaunchEnv)} {t : Workloads}

theorem reported_of_rejected (hbudget : sim.budgetUsd = some budget)
    (hgate : gate.monthlyBudgetUsd = budget.value)
    (h : sim.simulateLoop running workloads = .ok (projections, last))
    (hcalls : List.Forall₂ (LaunchOf gate start) projections calls) (hfresh : FreshIds t calls)
    (hspend : t.spendSince start ≤ running.value) {i : Nat}
    (hrejected : Rejected (gate.launches t calls) i) : Reported projections i := by
  induction workloads generalizing running projections calls t i with
  | nil =>
    cases h
    cases hcalls
    simp [BudgetGate.launches, Rejected] at hrejected
  | cons workload workloads ih =>
    unfold WhatIfSimulator.simulateLoop at h
    obtain ⟨projection, hprojection, h⟩ := Except.bind_eq_ok_iff.mp h
    obtain ⟨⟨rest, last'⟩, hrest, h⟩ := Except.bind_eq_ok_iff.mp h
    cases h
    obtain ⟨hprojected, hexceeds⟩ := WhatIfSimulator.simulate_ok hprojection
    cases hcalls with
    | @cons _ call _ calls hcall hcalls =>
      obtain ⟨req, env⟩ := call
      have hpositive := projection.reservedUsd.nonneg
      rw [BudgetGate.launches] at hrejected
      rcases launch_of_cases hcall (hfresh.unused _ List.mem_cons_self) with
        ⟨hover, snapshot, hlaunch⟩ | ⟨hwithin, hlaunch⟩ | ⟨hwithin, t', hlaunch, hrows, hspend'⟩ <;>
        rw [hlaunch] at hrejected
      · cases i with
        | zero =>
          have hexceeded : budget.value < running.value + projection.reservedUsd.value := by
            rw [hgate] at hover
            linarith
          simp [hexceeds, hbudget, hexceeded]
        | succ i =>
          rw [reported_succ]
          exact ih hrest hcalls (hfresh.tail fun _ hw => .inl hw) (by linarith)
            (rejected_succ.mp hrejected)
      · cases i with
        | zero => simp at hrejected
        | succ i =>
          rw [reported_succ]
          exact ih hrest hcalls (hfresh.tail fun _ hw => .inl hw) (by linarith)
            (rejected_succ.mp hrejected)
      · cases i with
        | zero => simp at hrejected
        | succ i =>
          rw [reported_succ]
          refine ih hrest hcalls (hfresh.tail ?_) (by linarith) (rejected_succ.mp hrejected)
          intro w hw
          rw [hrows, List.mem_append, List.mem_singleton] at hw
          exact hw.imp_right fun heq => by rw [heq]; rfl

theorem reported_iff_rejected (hbudget : sim.budgetUsd = some budget)
    (hgate : gate.monthlyBudgetUsd = budget.value)
    (h : sim.simulateLoop running workloads = .ok (projections, last))
    (hcalls : List.Forall₂ (LaunchOf gate start) projections calls) (hfresh : FreshIds t calls)
    (hspend : t.spendSince start = running.value) {i : Nat} (hlength : i < projections.length)
    (hfits : ∀ j < i, ¬ Overflowed (gate.launches t calls) j) :
    Reported projections i ↔ ∃ j ≤ i, Rejected (gate.launches t calls) j := by
  induction workloads generalizing running projections calls t i with
  | nil =>
    cases h
    simp at hlength
  | cons workload workloads ih =>
    unfold WhatIfSimulator.simulateLoop at h
    obtain ⟨projection, hprojection, h⟩ := Except.bind_eq_ok_iff.mp h
    obtain ⟨⟨rest, last'⟩, hrest, h⟩ := Except.bind_eq_ok_iff.mp h
    cases h
    obtain ⟨hprojected, hexceeds⟩ := WhatIfSimulator.simulate_ok hprojection
    have hreported : Reported (projection :: rest) 0 ↔
        gate.monthlyBudgetUsd < t.spendSince start + projection.reservedUsd.value := by
      rw [hgate, hspend]
      simp [hexceeds, hbudget]
    cases hcalls with
    | @cons _ call _ calls hcall hcalls =>
      obtain ⟨req, env⟩ := call
      rw [BudgetGate.launches] at hfits ⊢
      rcases launch_of_cases hcall (hfresh.unused _ List.mem_cons_self) with
        ⟨hover, snapshot, hlaunch⟩ | ⟨hwithin, hlaunch⟩ | ⟨hwithin, t', hlaunch, hrows, hspend'⟩ <;>
        rw [hlaunch] at hfits ⊢
      · refine iff_of_true ?_ ⟨0, Nat.zero_le i, by simp⟩
        cases i with
        | zero => exact hreported.mpr hover
        | succ i =>
          rw [List.length_cons, Nat.add_lt_add_iff_right] at hlength
          rw [reported_succ]
          refine ⟨rest[i], List.getElem?_eq_getElem hlength, ?_⟩
          refine WhatIfSimulator.reported_of_over hbudget hrest ?_ _ (List.getElem_mem hlength)
          rw [hprojected, ← hspend, ← hgate]
          exact hover
      · cases i with
        | zero =>
          refine iff_of_false (fun h => absurd (hreported.mp h) (not_lt.mpr hwithin)) ?_
          rintro ⟨j, hj, hrejected⟩
          obtain rfl := Nat.le_zero.mp hj
          simp at hrejected
        | succ i => exact absurd (by simp) (hfits 0 (Nat.succ_pos i))
      · have hnot : ¬ Reported (projection :: rest) 0 := fun h =>
          absurd (hreported.mp h) (not_lt.mpr hwithin)
        cases i with
        | zero =>
          refine iff_of_false hnot ?_
          rintro ⟨j, hj, hrejected⟩
          obtain rfl := Nat.le_zero.mp hj
          simp at hrejected
        | succ i =>
          have hfresh' : FreshIds t' calls := hfresh.tail fun w hw => by
            rw [hrows, List.mem_append, List.mem_singleton] at hw
            exact hw.imp_right fun heq => by rw [heq]; rfl
          rw [reported_succ, ih hrest hcalls hfresh' (by rw [hspend', hspend, hprojected])
            (by simpa using hlength)
            (fun j hj => fun hover => hfits (j + 1) (by omega) (overflowed_succ.mpr hover))]
          constructor
          · rintro ⟨j, hj, hrejected⟩
            exact ⟨j + 1, by omega, rejected_succ.mpr hrejected⟩
          · rintro ⟨j, hj, hrejected⟩
            cases j with
            | zero => simp at hrejected
            | succ j => exact ⟨j, by omega, rejected_succ.mp hrejected⟩

/-- The simulator reports all that the gate rejects and, with it, each workload after the first
rejected one, as the running spend keeps what was rejected. -/
theorem what_if_reports_from_first_rejection {budgetUsd currentSpendUsd : Option RawAmount}
    {spend : UsdAmount} {batch : WhatIfBatchProjection}
    (h : sim.simulateWorkloadsWith budgetUsd currentSpendUsd workloads = .ok batch)
    (hbudget : sim.resolveBudget budgetUsd = .ok (some budget))
    (hcurrent : sim.resolveCurrentSpend currentSpendUsd = .ok spend)
    (hgate : gate.monthlyBudgetUsd = budget.value) (hspend : t.spendSince start = spend.value)
    (hcalls : List.Forall₂ (LaunchOf gate start) batch.projections calls)
    (hfresh : FreshIds t calls) :
    (∀ i, Rejected (gate.launches t calls) i → Reported batch.projections i) ∧
      (∀ i < batch.projections.length, (∀ j < i, ¬ Overflowed (gate.launches t calls) j) →
        (Reported batch.projections i ↔ ∃ j ≤ i, Rejected (gate.launches t calls) j)) ∧
      batch.totalReservedUsd.value = (batch.projections.map (·.reservedUsd.value)).sum := by
  unfold WhatIfSimulator.simulateWorkloadsWith at h
  rw [Except.bind_of_ok hbudget, Except.bind_of_ok hcurrent] at h
  obtain ⟨⟨last, hloop⟩, htotal⟩ := WhatIfSimulator.simulateWorkloads_ok h
  refine ⟨fun i => ?_, fun i hlength hfits => ?_, htotal⟩
  · exact reported_of_rejected rfl hgate hloop hcalls hfresh hspend.le
  · exact reported_iff_rejected rfl hgate hloop hcalls hfresh hspend hlength hfits

end Agreement

section ElevenThenFive

theorem ten_lt_limit : 10 < 10 ^ 22 := by norm_num

def eleven : UsdAmount := .dollars 11 (by norm_num)
def five : UsdAmount := .dollars 5 (by norm_num)

def pricedSimulator : WhatIfSimulator UsdAmount where
  attemptCosts := fun amount => .ok [amount]
  budgetUsd := some (.dollars 10 ten_lt_limit)
  currentSpendUsd := .zero

def uncappedGate : BudgetGate := ⟨10, 1000000, tenDollarGate.monthly_pos, by norm_num⟩

def launchAt (amount : UsdAmount) (id : String) : LaunchRequest × LaunchEnv :=
  (⟨"cap", "prov", .estimate (.finite amount.value), "inference", none, none, none⟩, epochEnv id)

theorem launchOf_launchAt {projection : WhatIfProjection} {id : String}
    (hpositive : 0 < projection.reservedUsd.value)
    (hcap : projection.reservedUsd.value ≤ 1000000) :
    LaunchOf uncappedGate 0 projection (launchAt projection.reservedUsd id) where
  estimate := .inr rfl
  positive := hpositive
  unkeyed := rfl
  unhooked := rfl
  request_cap := hcap
  window := show monthStartUtc 0 = 0 by decide
  submitted := le_refl 0

theorem elevenThenFive_fresh :
    FreshIds Table.empty [launchAt eleven "a", launchAt five "b"] where
  distinct := by simp [launchAt, epochEnv]
  unused := by simp [Table.empty]

theorem elevenThenFive :
    ∃ batch, pricedSimulator.simulateWorkloadsWith none none [eleven, five] = .ok batch ∧
      List.Forall₂ (LaunchOf uncappedGate 0) batch.projections
        [launchAt eleven "a", launchAt five "b"] := by
  obtain ⟨batch, hbatch, hreserved⟩ := pricedSimulator.simulateWorkloads_returns
    (fun amount => [amount]) [eleven, five] (fun _ _ => rfl)
    (by norm_num [pricedSimulator, UsdAmount.zero, eleven, five, UsdAmount.dollars])
  obtain ⟨first, rest, hprojections, hfirst, hrest⟩ := List.map_eq_cons_iff.mp hreserved
  obtain ⟨second, rest, rfl, hsecond, hrest⟩ := List.map_eq_cons_iff.mp hrest
  obtain rfl := List.map_eq_nil_iff.mp hrest
  refine ⟨batch, hbatch, ?_⟩
  have hfirst' : first.reservedUsd = eleven := hfirst
  have hsecond' : second.reservedUsd = five := hsecond
  have heleven : eleven.value = 11 := rfl
  have hfive : five.value = 5 := rfl
  rw [hprojections, ← hfirst', ← hsecond']
  refine .cons (launchOf_launchAt ?_ ?_) (.cons (launchOf_launchAt ?_ ?_) .nil)
  · norm_num [hfirst', heleven]
  · norm_num [hfirst', heleven]
  · norm_num [hsecond', hfive]
  · norm_num [hsecond', hfive]

theorem what_if_reports_eleven_then_five :
    ∃ batch, pricedSimulator.simulateWorkloadsWith none none [eleven, five] = .ok batch ∧
      ((∀ j < 1, ¬ Overflowed (uncappedGate.launches Table.empty
          [launchAt eleven "a", launchAt five "b"]) j) →
        (Reported batch.projections 1 ↔ ∃ j ≤ 1, Rejected (uncappedGate.launches Table.empty
          [launchAt eleven "a", launchAt five "b"]) j)) := by
  obtain ⟨batch, hbatch, hcalls⟩ := elevenThenFive
  refine ⟨batch, hbatch, ?_⟩
  have hlength : 1 < batch.projections.length := by rw [hcalls.length_eq]; decide
  exact (what_if_reports_from_first_rejection hbatch rfl rfl rfl rfl hcalls
    elevenThenFive_fresh).2.1 1 hlength

/-- The gate admits the five dollars that the simulator reports on top of the eleven. -/
theorem five_reported_and_admitted :
    ¬ ∀ (sim : WhatIfSimulator UsdAmount) (budget spend : UsdAmount) (workloads : List UsdAmount)
        (batch : WhatIfBatchProjection) (gate : BudgetGate) (start : Instant) (t : Workloads)
        (calls : List (LaunchRequest × LaunchEnv)),
      sim.simulateWorkloadsWith none none workloads = .ok batch →
      sim.budgetUsd = some budget → sim.currentSpendUsd = spend →
      gate.monthlyBudgetUsd = budget.value → t.spendSince start = spend.value →
      List.Forall₂ (LaunchOf gate start) batch.projections calls → FreshIds t calls →
      ∀ i, Reported batch.projections i ↔ Rejected (gate.launches t calls) i := by
  intro h
  obtain ⟨batch, hbatch, hcalls⟩ := elevenThenFive
  have hagree := h pricedSimulator _ _ [eleven, five] batch uncappedGate 0 Table.empty _ hbatch rfl
    rfl rfl rfl hcalls elevenThenFive_fresh
  have hfirst : Rejected (uncappedGate.launches Table.empty
      [launchAt eleven "a", launchAt five "b"]) 0 :=
    ⟨uncappedGate.snapshot 0 11, by decide +kernel⟩
  have hsecond : ¬ Rejected (uncappedGate.launches Table.empty
      [launchAt eleven "a", launchAt five "b"]) 1 := by
    rintro ⟨snapshot, hrejected⟩
    have hadmitted : (uncappedGate.launches Table.empty
        [launchAt eleven "a", launchAt five "b"])[1]? = some (.ok ⟨"b", true⟩) := by decide +kernel
    rw [hadmitted] at hrejected
    cases hrejected
  obtain ⟨⟨last, hloop⟩, -⟩ := WhatIfSimulator.simulateWorkloads_ok hbatch
  have hlength : 1 < batch.projections.length := by rw [hcalls.length_eq]; decide
  have hreported := reported_iff_rejected (i := 1) rfl rfl hloop hcalls elevenThenFive_fresh rfl
    hlength (fun j hj => by
      obtain rfl := Nat.lt_one_iff.mp hj
      obtain ⟨snapshot, hrejected⟩ := hfirst
      rw [Overflowed, hrejected]
      simp)
  exact hsecond ((hagree 1).mp (hreported.mpr ⟨0, Nat.zero_le 1, hfirst⟩))

end ElevenThenFive

end Pitwall
