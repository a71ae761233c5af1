import Pitwall.Cost.BudgetGate
set_option autoImplicit false

/-!
The monthly cap over every interleaving of admissions with cost settlements. Each
transaction is one event, in the order in which the advisory lock was granted.
-/

namespace Pitwall
open Machine

/-- `UPDATE pitwall.workloads SET cost_actual_usd = $2 WHERE id = $1`. -/
def Workloads.settle (t : Workloads) (id : String) (costActualUsd : ℚ) : Workloads :=
  t.updateById id (fun _ => true)
    { set := fun w => { w with costActualUsd := some costActualUsd }, keeps := fun _ => rfl }

theorem Workloads.rows_settle (t : Workloads) (id : String) (cost : ℚ) :
    (t.settle id cost).rows =
      t.rows.map fun w => if w.id = id then { w with costActualUsd := some cost } else w := by
  simp [Workloads.settle, Workloads.rows_updateById]

inductive BudgetEvent where
  | launch : LaunchRequest → LaunchEnv → BudgetEvent
  | settle (id : String) (costActualUsd : ℚ)

def budgetStep (gate : BudgetGate) (t : Workloads) : BudgetEvent → Workloads
  | .launch req env => (gate.launch req env t).2
  | .settle id cost => t.settle id cost

/-- The request is made in the month that starts at `start`, with an estimate that is
a multiple of 0.000001. -/
structure InCurrentMonth (start : Instant) (req : LaunchRequest) (env : LaunchEnv) : Prop where
  window : env.session.monthStart env.now = start
  submitted : env.session.monthStart (req.submittedAt.getD env.utcNow) = start
  multiple : ∀ estimate, positiveEstimate req.estimateUsd = .ok estimate → IsMultiple 6 estimate

def BelowEstimate (start : Instant) (t : Workloads) : BudgetEvent → Prop
  | .launch req env => InCurrentMonth start req env
  | .settle id cost => ∀ w ∈ t.rows, w.id = id → ∃ e ∈ w.costEstimateUsd, cost ≤ e

def BelowSpend (start : Instant) (t : Workloads) : BudgetEvent → Prop
  | .launch req env => InCurrentMonth start req env
  | .settle id cost => ∀ w ∈ t.rows, w.id = id → cost ≤ w.spend

/-- A launch that raises, or replays a key, leaves the table as it was. -/
def WritesOnlyNew (gate : BudgetGate) (t : Workloads) : BudgetEvent → Prop
  | .launch req env =>
      ((∃ e, (gate.launch req env t).1 = .error e) → (gate.launch req env t).2 = t) ∧
      ∀ key, req.idempotencyKey = some key → (t.byKey key).isSome →
        (gate.launch req env t).2 = t
  | .settle _ _ => True

theorem positiveDecimal_pos {name : String} {raw : RawAmount} {x : ℚ}
    (h : positiveDecimal name raw = .ok x) : 0 < x := by
  unfold positiveDecimal at h
  split at h
  · split at h
    · contradiction
    · rename_i hx
      cases h
      exact not_le.mp hx
  · contradiction

theorem positiveEstimate_pos {raw : BudgetEstimateInput} {x : ℚ}
    (h : positiveEstimate raw = .ok x) : 0 < x := by
  cases raw with
  | amount raw => exact positiveDecimal_pos h
  | estimate raw => exact positiveDecimal_pos h

theorem writesOnlyNew (gate : BudgetGate) (t : Workloads) (e : BudgetEvent) :
    WritesOnlyNew gate t e := by
  cases e with
  | settle id cost => trivial
  | launch req env =>
    rcases gate.launch_cases req env t with ⟨e, h⟩ | ⟨a, key, h, -⟩ | ⟨t', x, c, h, hadm⟩
    · simp [WritesOnlyNew, h]
    · simp [WritesOnlyNew, h]
    · refine ⟨?_, ?_⟩
      · rintro ⟨e, he⟩
        simp [h] at he
      · intro key hkey hfound
        simp [hadm.absent key hkey] at hfound

theorem Workloads.spendSince_append {t t' : Workloads} {w : Workload} (start : Instant)
    (h : t'.rows = t.rows ++ [w]) :
    t'.spendSince start = t.spendSince start + w.spendSince start := by
  simp [Workloads.spendSince, h]

theorem admitted_spend_le {gate : BudgetGate} {req : LaunchRequest} {env : LaunchEnv}
    {t t' : Workloads} {estimate cost : ℚ} {start : Instant}
    (hadm : gate.Admitted req env t t' estimate cost) (hm : IsMultiple 6 estimate) :
    (queuedWorkload req env cost).spendSince start ≤ estimate := by
  have hcost : cost = estimate := eq_of_numeric hm hadm.stored
  have hpos := positiveEstimate_pos hadm.estimate_eq
  unfold Workload.spendSince
  split
  · exact le_of_eq hcost
  · exact le_of_lt hpos

theorem launch_keeps_cap {gate : BudgetGate} {req : LaunchRequest} {env : LaunchEnv}
    {t : Workloads} {start : Instant} (hmonth : InCurrentMonth start req env)
    (h : t.spendSince start ≤ gate.monthlyBudgetUsd) :
    (gate.launch req env t).2.spendSince start ≤ gate.monthlyBudgetUsd := by
  rcases gate.launch_cases req env t with ⟨e, hl⟩ | ⟨a, key, hl, -⟩ | ⟨t', x, c, hl, hadm⟩
  · rw [hl]; exact h
  · rw [hl]; exact h
  · rw [hl]
    have hnew : (queuedWorkload req env c).spendSince start ≤ x :=
      admitted_spend_le hadm (hmonth.multiple x hadm.estimate_eq)
    have hcap : t.spendSince start + x ≤ gate.monthlyBudgetUsd := by
      have hc := hadm.monthly_cap
      rwa [currentMtdSpend, hmonth.window] at hc
    calc t'.spendSince start
        = t.spendSince start + (queuedWorkload req env c).spendSince start :=
          Workloads.spendSince_append start hadm.rows
      _ ≤ t.spendSince start + x := by gcongr
      _ ≤ gate.monthlyBudgetUsd := hcap

theorem settle_spendSince_le {t : Workloads} {id : String} {cost : ℚ} (start : Instant)
    (h : ∀ w ∈ t.rows, w.id = id → cost ≤ w.spend) :
    (t.settle id cost).spendSince start ≤ t.spendSince start := by
  unfold Workloads.spendSince
  rw [Workloads.rows_settle, List.map_map]
  refine List.sum_le_sum (fun w hw => ?_)
  by_cases hid : w.id = id
  · have hw' := h w hw hid
    simp only [Function.comp_apply, hid, if_true, Workload.spendSince]
    split
    · exact hw'
    · exact le_refl _
  · simp [hid]

/-- Rows that are not among the initial ones were admitted, so the cap per request
holds of their estimates; a settlement does not touch these. -/
def AdmittedUnderCap (gate : BudgetGate) (t₀ t : Workloads) : Prop :=
  ∀ w ∈ t.rows, (∀ v ∈ t₀.rows, v.id ≠ w.id) →
    ∃ e ∈ w.costEstimateUsd, e ≤ gate.perRequestMaxUsd

theorem launch_keeps_underCap {gate : BudgetGate} {req : LaunchRequest} {env : LaunchEnv}
    {t₀ t : Workloads} {start : Instant} (hmonth : InCurrentMonth start req env)
    (h : AdmittedUnderCap gate t₀ t) :
    AdmittedUnderCap gate t₀ (gate.launch req env t).2 := by
  rcases gate.launch_cases req env t with ⟨e, hl⟩ | ⟨a, key, hl, -⟩ | ⟨t', x, c, hl, hadm⟩
  · rw [hl]; exact h
  · rw [hl]; exact h
  · rw [hl]
    intro w hw hnew
    rw [hadm.rows, List.mem_append, List.mem_singleton] at hw
    rcases hw with hw | rfl
    · exact h w hw hnew
    · have hc : c = x := eq_of_numeric (hmonth.multiple x hadm.estimate_eq) hadm.stored
      exact ⟨c, rfl, hc ▸ hadm.request_cap⟩

theorem settle_keeps_underCap {gate : BudgetGate} {t₀ t : Workloads} {id : String} {cost : ℚ}
    (h : AdmittedUnderCap gate t₀ t) : AdmittedUnderCap gate t₀ (t.settle id cost) := by
  intro w hw hnew
  rw [Workloads.rows_settle] at hw
  obtain ⟨v, hv, rfl⟩ := List.mem_map.mp hw
  have hv' := h v hv
  by_cases hid : v.id = id
  · simp only [hid, if_true] at hnew ⊢
    exact hv' (by simpa [hid] using hnew)
  · simp only [hid, if_false] at hnew ⊢
    exact hv' hnew

theorem budgetStep_invariant {gate : BudgetGate} {t₀ t : Workloads} {start : Instant}
    {e : BudgetEvent} (he : BelowSpend start t e)
    (h : t.spendSince start ≤ gate.monthlyBudgetUsd ∧ AdmittedUnderCap gate t₀ t) :
    (budgetStep gate t e).spendSince start ≤ gate.monthlyBudgetUsd ∧
      AdmittedUnderCap gate t₀ (budgetStep gate t e) := by
  cases e with
  | launch req env => exact ⟨launch_keeps_cap he h.1, launch_keeps_underCap he h.2⟩
  | settle id cost =>
    exact ⟨le_trans (settle_spendSince_le start he) h.1, settle_keeps_underCap h.2⟩

/-- The cap holds after every prefix of every run whose settlements never raise what
a row counts for. -/
theorem budget_cap_under_concurrency (gate : BudgetGate) (start : Instant) (t₀ : Workloads)
    (events : List BudgetEvent)
    (h₀ : t₀.spendSince start ≤ gate.monthlyBudgetUsd)
    (hrun : Along (budgetStep gate) (BelowSpend start) t₀ events) :
    (∀ es, es <+: events →
      (run (budgetStep gate) t₀ es).spendSince start ≤ gate.monthlyBudgetUsd ∧
      AdmittedUnderCap gate t₀ (run (budgetStep gate) t₀ es)) ∧
    Along (budgetStep gate) (WritesOnlyNew gate) t₀ events := by
  refine ⟨fun es hes => ?_, along_of_forall (writesOnlyNew gate) t₀ events⟩
  refine run_invariant
    (I := fun t => t.spendSince start ≤ gate.monthlyBudgetUsd ∧ AdmittedUnderCap gate t₀ t)
    (fun t e h he => budgetStep_invariant he h) ?_ (hrun.of_prefix hes)
  exact ⟨h₀, fun w hw hnew => absurd rfl (hnew w hw)⟩

def tenDollarRequest : LaunchRequest :=
  ⟨"cap", "prov", .amount (.finite 10), "inference", none, none, none⟩

def epochEnv (id : String) : LaunchEnv := ⟨.utc, 0, 0, id⟩

theorem tenDollarRequest_inCurrentMonth (id : String) :
    InCurrentMonth 0 tenDollarRequest (epochEnv id) where
  window := show monthStartUtc 0 = 0 by decide
  submitted := show monthStartUtc 0 = 0 by decide
  multiple := by
    intro estimate h
    have he : positiveEstimate tenDollarRequest.estimateUsd = .ok 10 := by decide
    rw [h] at he
    rw [Except.ok.inj he]
    exact ⟨10000000, by norm_num⟩

def sixDollarRequest : LaunchRequest :=
  { tenDollarRequest with estimateUsd := .amount (.finite 6) }

theorem sixDollarRequest_inCurrentMonth (id : String) :
    InCurrentMonth 0 sixDollarRequest (epochEnv id) where
  window := show monthStartUtc 0 = 0 by decide
  submitted := show monthStartUtc 0 = 0 by decide
  multiple := by
    intro estimate h
    have he : positiveEstimate sixDollarRequest.estimateUsd = .ok 6 := by decide
    rw [h] at he
    rw [Except.ok.inj he]
    exact ⟨6000000, by norm_num⟩

/-- Of two launches of six dollars the one that locks first is admitted; the other one is when
the first is settled for less. -/
def sixDollarRace : List BudgetEvent :=
  [.launch sixDollarRequest (epochEnv "a"), .launch sixDollarRequest (epochEnv "b"),
    .settle "a" 4, .launch sixDollarRequest (epochEnv "b")]

theorem budget_cap_two_launches :
    (∀ es, es <+: sixDollarRace →
      (run (budgetStep tenDollarGate) Table.empty es).spendSince 0 ≤ 10) ∧
    (run (budgetStep tenDollarGate) Table.empty (sixDollarRace.take 2)).rows.map Workload.id =
      ["a"] ∧
    (run (budgetStep tenDollarGate) Table.empty sixDollarRace).spendSince 0 = 10 := by
  refine ⟨fun es hes => ?_, by decide +kernel, by decide +kernel⟩
  have hcap := budget_cap_under_concurrency tenDollarGate 0 Table.empty sixDollarRace
    (by decide +kernel)
    ⟨sixDollarRequest_inCurrentMonth _, sixDollarRequest_inCurrentMonth _,
      by unfold BelowSpend; decide +kernel, sixDollarRequest_inCurrentMonth _, trivial⟩
  exact (hcap.1 es hes).1

/-- Settling the same row twice, each time within its estimate, breaks the cap: the
second admission used the room that the first settlement had made. -/
theorem settled_twice_exceeds_budget :
    ¬ ∀ (gate : BudgetGate) (start : Instant) (t₀ : Workloads) (events : List BudgetEvent),
      t₀.spendSince start ≤ gate.monthlyBudgetUsd →
      Along (budgetStep gate) (BelowEstimate start) t₀ events →
      (run (budgetStep gate) t₀ events).spendSince start ≤ gate.monthlyBudgetUsd := by
  intro h
  have hle := h tenDollarGate 0 Table.empty
    [.launch tenDollarRequest (epochEnv "a"), .settle "a" 0,
      .launch tenDollarRequest (epochEnv "b"), .settle "a" 10]
    (by decide +kernel)
    ⟨tenDollarRequest_inCurrentMonth _, by unfold BelowEstimate; decide +kernel,
      tenDollarRequest_inCurrentMonth _, by unfold BelowEstimate; decide +kernel, trivial⟩
  exact absurd hle (by decide +kernel)

end Pitwall
