import Mathlib.Algebra.BigOperators.Group.List.Basic
import Mathlib.Algebra.Order.BigOperators.Group.List
import Pitwall.Core.Workloads
import Pitwall.Library.Machine
import Pitwall.Library.Numeric
set_option autoImplicit false

/-!
The account budget gate: admission of a workload under the advisory lock.

Amounts are exact rationals. The columns hold six decimals and less than a million
dollars each, so a sum of them stays within the 28 digits of Python's decimal
context and its addition does not round.
-/

namespace Pitwall

inductive BudgetRejectionReason where
  | monthlyBudget | perRequestCap
  deriving DecidableEq, Repr

structure BudgetSnapshot where
  monthlyBudgetUsd : ℚ
  perRequestMaxUsd : ℚ
  mtdSpendUsd : ℚ
  estimateUsd : ℚ
  budgetRemainingUsd : ℚ
  deriving DecidableEq

structure BudgetAdmission where
  workloadId : String
  isNew : Bool
  deriving DecidableEq

/-- What an admission attempt can raise. The last two are Postgres errors of the
`INSERT`. -/
inductive AdmissionError where
  | valueError : String → AdmissionError
  | budgetRejected : BudgetRejectionReason → BudgetSnapshot → AdmissionError
  | hookRaised : PyError → AdmissionError
  | numericOverflow
  | uniqueViolation
  deriving DecidableEq

def decimal (name : String) : RawAmount → Except AdmissionError ℚ
  | .boolean | .unparsable => .error (.valueError s!"{name} must be a decimal value")
  | .nonFinite => .error (.valueError s!"{name} must be finite")
  | .finite value => .ok value

def positiveDecimal (name : String) (raw : RawAmount) : Except AdmissionError ℚ :=
  match decimal name raw with
  | .ok value =>
      if value ≤ 0 then .error (.valueError s!"{name} must be positive") else .ok value
  | .error e => .error e

inductive BudgetEstimateInput where
  | amount : RawAmount → BudgetEstimateInput
  | estimate (upperBound : RawAmount)
  deriving DecidableEq

def positiveEstimate : BudgetEstimateInput → Except AdmissionError ℚ
  | .estimate upperBound => positiveDecimal "estimate_usd" upperBound
  | .amount raw => positiveDecimal "estimate_usd" raw

/-- The caps a gate was built with; its constructor rejects any that is not positive. -/
structure BudgetGate where
  monthlyBudgetUsd : ℚ
  perRequestMaxUsd : ℚ
  monthly_pos : 0 < monthlyBudgetUsd
  perRequest_pos : 0 < perRequestMaxUsd

def BudgetGate.snapshot (gate : BudgetGate) (mtdSpendUsd estimateUsd : ℚ) : BudgetSnapshot where
  monthlyBudgetUsd := gate.monthlyBudgetUsd
  perRequestMaxUsd := gate.perRequestMaxUsd
  mtdSpendUsd := mtdSpendUsd
  estimateUsd := estimateUsd
  budgetRemainingUsd :=
    if 0 < gate.monthlyBudgetUsd - mtdSpendUsd then gate.monthlyBudgetUsd - mtdSpendUsd else 0

/-- `COALESCE(cost_actual_usd, cost_estimate_usd)`; `SUM` skips a NULL. -/
def Workload.spend (w : Workload) : ℚ := (w.costActualUsd <|> w.costEstimateUsd).getD 0

def Workload.spendSince (start : Instant) (w : Workload) : ℚ :=
  if start ≤ w.submittedAt then w.spend else 0

def Workloads.spendSince (start : Instant) (t : Workloads) : ℚ :=
  (t.rows.map (Workload.spendSince start)).sum

/-- `BudgetGate.current_mtd_spend`, the sum that admission reads too. -/
def currentMtdSpend (session : Session) (now : Instant) (t : Workloads) : ℚ :=
  t.spendSince (session.monthStart now)

structure LaunchRequest where
  capabilityId : String
  providerId : String
  estimateUsd : BudgetEstimateInput
  workloadType : String
  submittedAt : Option Instant
  idempotencyKey : Option String
  /-- The outcome of the hook, where one is given. -/
  beforeNewAdmission : Option (Except PyError Unit)

/-- What a call reads besides the tables: the two clocks and the id factory. -/
structure LaunchEnv where
  session : Session
  utcNow : Instant
  now : Instant
  newWorkloadId : String

def queuedWorkload (req : LaunchRequest) (env : LaunchEnv) (cost : ℚ) : Workload where
  id := env.newWorkloadId
  capabilityId := req.capabilityId
  providerId := req.providerId
  type := req.workloadType
  state := .queued
  runpodJobId := none
  idempotencyKey := req.idempotencyKey
  input := none
  result := none
  fallbackChain := none
  error := none
  submittedAt := req.submittedAt.getD env.utcNow
  startedAt := none
  completedAt := none
  executionMs := none
  queueMs := none
  coldStartMs := none
  inputBytes := none
  outputBytes := none
  costEstimateUsd := some cost
  costActualUsd := none
  langfuseTraceId := none

namespace BudgetGate

def admitNew (gate : BudgetGate) (req : LaunchRequest) (env : LaunchEnv) (estimate : ℚ)
    (t : Workloads) : Except AdmissionError (BudgetAdmission × Workloads) :=
  match req.beforeNewAdmission with
  | some (.error exc) => .error (.hookRaised exc)
  | _ =>
    if gate.perRequestMaxUsd < estimate then
      .error (.budgetRejected .perRequestCap (gate.snapshot 0 estimate))
    else
      let spend := currentMtdSpend env.session env.now t
      if gate.monthlyBudgetUsd < spend + estimate then
        .error (.budgetRejected .monthlyBudget (gate.snapshot spend estimate))
      else
        match numeric 12 6 estimate with
        | none => .error .numericOverflow
        | some cost =>
          match t.insert (queuedWorkload req env cost) with
          | none => .error .uniqueViolation
          | some t' => .ok (⟨env.newWorkloadId, true⟩, t')

def tryLaunchAdmission (gate : BudgetGate) (req : LaunchRequest) (env : LaunchEnv)
    (t : Workloads) : Except AdmissionError (BudgetAdmission × Workloads) :=
  match positiveEstimate req.estimateUsd with
  | .error e => .error e
  | .ok estimate =>
    if req.idempotencyKey = none ∧ gate.perRequestMaxUsd < estimate then
      -- An un-keyed request over the cap does not even take the lock.
      .error (.budgetRejected .perRequestCap (gate.snapshot 0 estimate))
    else
      match req.idempotencyKey.bind t.byKey with
      | some existing => .ok (⟨existing.id, false⟩, t)
      | none => gate.admitNew req env estimate t

def launch (gate : BudgetGate) (req : LaunchRequest) (env : LaunchEnv) (t : Workloads) :
    Except AdmissionError BudgetAdmission × Workloads :=
  Machine.atomically (gate.tryLaunchAdmission req env) t

/-- A row newly admitted by `gate`: what the transaction established about it. -/
structure Admitted (gate : BudgetGate) (req : LaunchRequest) (env : LaunchEnv)
    (t t' : Workloads) (estimate cost : ℚ) : Prop where
  estimate_eq : positiveEstimate req.estimateUsd = .ok estimate
  absent : ∀ key, req.idempotencyKey = some key → t.byKey key = none
  request_cap : estimate ≤ gate.perRequestMaxUsd
  monthly_cap : currentMtdSpend env.session env.now t + estimate ≤ gate.monthlyBudgetUsd
  stored : numeric 12 6 estimate = some cost
  rows : t'.rows = t.rows ++ [queuedWorkload req env cost]

theorem admitNew_ok {gate : BudgetGate} {req : LaunchRequest} {env : LaunchEnv}
    {estimate : ℚ} {t t' : Workloads} {a : BudgetAdmission}
    (h : gate.admitNew req env estimate t = .ok (a, t')) :
    a = ⟨env.newWorkloadId, true⟩ ∧ estimate ≤ gate.perRequestMaxUsd ∧
      currentMtdSpend env.session env.now t + estimate ≤ gate.monthlyBudgetUsd ∧
      ∃ cost, numeric 12 6 estimate = some cost ∧
        t'.rows = t.rows ++ [queuedWorkload req env cost] := by
  unfold admitNew at h
  split at h
  · contradiction
  · split at h
    · contradiction
    · rename_i hcap
      dsimp only at h
      split at h
      · contradiction
      · rename_i hbudget
        split at h
        · contradiction
        · rename_i cost hcost
          split at h
          · contradiction
          · rename_i t₁ hinsert
            cases h
            exact ⟨rfl, not_lt.mp hcap, not_lt.mp hbudget, cost, hcost,
              Table.rows_of_insert hinsert⟩

theorem tryLaunchAdmission_ok {gate : BudgetGate} {req : LaunchRequest} {env : LaunchEnv}
    {t t' : Workloads} {a : BudgetAdmission}
    (h : gate.tryLaunchAdmission req env t = .ok (a, t')) :
    (a.isNew = false ∧ t' = t ∧
      ∃ key, req.idempotencyKey = some key ∧ t.Carries key a.workloadId) ∨
    (a = ⟨env.newWorkloadId, true⟩ ∧ ∃ estimate cost,
      Admitted gate req env t t' estimate cost) := by
  unfold tryLaunchAdmission at h
  split at h
  · contradiction
  · rename_i estimate hestimate
    split at h
    · contradiction
    · cases hkey : req.idempotencyKey with
      | none =>
        rw [hkey] at h
        obtain ⟨ha, hcap, hbudget, cost, hcost, hrows⟩ := admitNew_ok h
        exact .inr ⟨ha, estimate, cost, hestimate, by simp [hkey], hcap, hbudget, hcost, hrows⟩
      | some key =>
        cases hfound : t.byKey key with
        | some existing =>
          simp only [hkey, Option.bind_some, hfound, Except.ok.injEq, Prod.mk.injEq] at h
          obtain ⟨rfl, rfl⟩ := h
          exact .inl ⟨rfl, rfl, key, rfl, Workloads.byKey_some hfound⟩
        | none =>
          simp only [hkey, Option.bind_some, hfound] at h
          obtain ⟨ha, hcap, hbudget, cost, hcost, hrows⟩ := admitNew_ok h
          refine .inr ⟨ha, estimate, cost, hestimate, ?_, hcap, hbudget, hcost, hrows⟩
          intro key' hkey'
          rw [hkey] at hkey'
          cases hkey'
          exact hfound

theorem launch_cases (gate : BudgetGate) (req : LaunchRequest) (env : LaunchEnv)
    (t : Workloads) :
    (∃ e, gate.launch req env t = (.error e, t)) ∨
    (∃ a key, gate.launch req env t = (.ok a, t) ∧ a.isNew = false ∧
      req.idempotencyKey = some key ∧ t.Carries key a.workloadId) ∨
    (∃ t' estimate cost, gate.launch req env t = (.ok ⟨env.newWorkloadId, true⟩, t') ∧
      Admitted gate req env t t' estimate cost) := by
  cases h : gate.tryLaunchAdmission req env t with
  | error e => exact .inl ⟨e, Machine.atomically_error h⟩
  | ok result =>
    obtain ⟨a, t'⟩ := result
    have hlaunch : gate.launch req env t = (.ok a, t') := Machine.atomically_ok h
    rcases tryLaunchAdmission_ok h with ⟨hnew, rfl, key, hkey, hc⟩ | ⟨rfl, e, c, hadm⟩
    · exact .inr (.inl ⟨a, key, hlaunch, hnew, hkey, hc⟩)
    · exact .inr (.inr ⟨t', e, c, hlaunch, hadm⟩)

end BudgetGate

def tenDollarGate : BudgetGate := ⟨10, 10, by norm_num, by norm_num⟩

end Pitwall
