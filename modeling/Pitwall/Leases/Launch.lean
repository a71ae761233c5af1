import Pitwall.Cost.BudgetGate
import Pitwall.Leases.Mutations
import Pitwall.RunPod.Pods
set_option autoImplicit false

/-!
`run_launch` with `dry_run=False`, as a process. The pods it handles come out of
`create_pod_with_fallback`; each of them first runs the callback that persists the lease.
-/

namespace Pitwall

structure Fleet where
  workloads : Workloads
  store : LeaseStore
  /-- Pods that were created and not deleted since. -/
  pods : List String
  created : List String
  /-- Leases and pods whose termination a teardown has asked for, oldest first. -/
  terminations : List (String × String)
  /-- Ids of leases to which `close_teardown` was applied, oldest first. -/
  closed : List String
  /-- Ids of leases whose `lease.terminated` event went out, oldest first. -/
  published : List String

namespace Fleet

def withLeases (s : Fleet) (t : Leases) : Fleet := { s with store := { s.store with leases := t } }

def addPod (s : Fleet) (podId : String) : Fleet :=
  { s with pods := podId :: s.pods, created := podId :: s.created }

def deletePod (s : Fleet) (podId : String) : Fleet :=
  { s with pods := s.pods.filter (fun id => id ≠ podId) }

@[simp] theorem withLeases_leases (s : Fleet) (t : Leases) :
    (s.withLeases t).store.leases = t := rfl

end Fleet

structure LaunchCall where
  gate : BudgetGate
  capabilityId : String
  providerId : String
  providerConfig : JsonObject
  /-- `_planned_endpoints_for_provider`. -/
  plannedEndpoints : Json
  /-- The provider check and `estimate_lease_launch_cost`. -/
  estimate : Except PyError RawAmount
  idempotencyKey : Option String
  /-- The id that `_lease_id_for_launch` makes up. -/
  leaseId : String

def LaunchCall.launchRequest (c : LaunchCall) (estimate : RawAmount) : LaunchRequest where
  capabilityId := c.capabilityId
  providerId := c.providerId
  estimateUsd := .amount estimate
  workloadType := "inference"
  submittedAt := none
  idempotencyKey := c.idempotencyKey
  beforeNewAdmission := none

/-- `BudgetGate.try_launch`: the id of the admission, without `is_new`. -/
def BudgetGate.tryLaunch (gate : BudgetGate) (req : LaunchRequest) (env : LaunchEnv)
    (t : Workloads) : Except AdmissionError String × Workloads :=
  ((gate.launch req env t).1.map BudgetAdmission.workloadId, (gate.launch req env t).2)

/-- `_expiry_for_lease`: the configured lifetime in milliseconds, or two hours. -/
def expiryForLease (config : JsonObject) (createdAt : Instant) : Except PyError Instant :=
  match (config.get "lease_ttl_ms").orElse ((config.get "ttl_ms").orElse (.int 7200000)) with
  | .int ms => .ok (createdAt + ms * 1000)
  | .bool b => .ok (createdAt + if b then 1000 else 0)
  | .float (.finite q) => .ok (createdAt + q.num.tdiv q.den * 1000)
  | .float (.infinite _) => .error ⟨"OverflowError", "cannot convert float infinity to integer"⟩
  | .float .nan => .error ⟨"ValueError", "cannot convert float NaN to integer"⟩
  | _ => .ok (createdAt + 7200000000)

/-- What comes out of the creation loop next: a pod that goes to the callback, under the
id its body shows; a pod that the allocation or the cost guard deletes again, with the exception
if the guard raises one; a pod that is left behind by the guards' own exceptions; or the end. -/
inductive PodEvent where
  | created (podId : String) (bodyId : Option String)
  | discarded (podId : String) (err : Option PodError)
  | leaked (podId : String) (err : PodError)
  | ended (err : PodError)

inductive PodWait where
  | ready (bodyId : Option String) (readiness : Option (Except PyError LeaseReadiness))
  | retried
  | ended (err : PodError)

structure LaunchInput where
  env : LaunchEnv
  fault : Option PyError
  /-- The outcome of `prepare_lease_launch`. -/
  plan : Except PyError Unit
  pod : PodEvent
  wait : PodWait

inductive LaunchError where
  | admission (err : AdmissionError)
  | pod (err : PodError)
  | raised (exc : PyError)

structure Provisioning where
  workloadId : String
  createdAt : Instant
  expiresAt : Instant

structure ReadyLaunch where
  workloadId : String
  podId : Option String
  readiness : LeaseReadiness

inductive LaunchState where
  | admitting
  | planning (workloadId : String)
  | provisioning (p : Provisioning)
  | persisting (p : Provisioning) (podId : String) (bodyId : Option String)
  | waiting (p : Provisioning) (podId : String)
  | coolingDown (workloadId : String) (reason : String)
  | markingRuntime (r : ReadyLaunch)
  | markingProbe (r : ReadyLaunch)
  | savingReadiness (r : ReadyLaunch)
  | markingActive (r : ReadyLaunch)
  | returned (workloadId : String) (podId : Option String)
  | fallback (workloadId : String) (reason : String)
  | raised (workloadId : Option String) (err : LaunchError)

def LaunchState.workloadId : LaunchState → Option String
  | .admitting => none
  | .planning id | .coolingDown id _ | .returned id _ | .fallback id _ => some id
  | .provisioning p | .persisting p _ _ | .waiting p _ => some p.workloadId
  | .markingRuntime r | .markingProbe r | .savingReadiness r | .markingActive r =>
      some r.workloadId
  | .raised id _ => id

/-- The two `except` clauses around the creation loop. -/
def afterPodError (workloadId : String) (err : PodError) : LaunchState :=
  match err with
  | .attachHangRecovery message _ _ => .coolingDown workloadId message
  | .providerFallback message => .fallback workloadId message
  | err => .raised (some workloadId) (.pod err)

def LaunchCall.initialLease (c : LaunchCall) (p : Provisioning) (podId : String) :
    Except PyError Lease :=
  if h : p.createdAt < p.expiresAt then
    .ok {
      id := c.leaseId
      providerId := c.providerId
      runpodPodId := podId
      state := .creating
      createdAt := p.createdAt
      expiresAt := p.expiresAt
      renewalPolicy := .manual
      autoTeardownOnExpiry := true
      endpoints := some c.plannedEndpoints
      readiness := none
      costAccruedUsd := none
      lastHealthAt := none
      terminatedAt := none
      terminatedReason := none
      expires_after_created := h
      active_ready := by simp }
  else .error ⟨"ValidationError", "expires_at must be after created_at"⟩

theorem LaunchCall.initialLease_ok {c : LaunchCall} {p : Provisioning} {podId : String}
    {lease : Lease} (h : c.initialLease p podId = .ok lease) :
    lease.id = c.leaseId ∧ lease.state = .creating := by
  unfold initialLease at h
  split at h
  · cases h
    exact ⟨rfl, rfl⟩
  · contradiction

def leaseReadinessFromReadyPod (bodyId : Option String)
    (readiness : Option (Except PyError LeaseReadiness)) : Except PyError LeaseReadiness :=
  let podId := "'" ++ bodyId.getD "<unknown>" ++ "'"
  match readiness with
  | none =>
      .error ⟨"LaunchConfigError", "ready pod " ++ podId ++ " did not include readiness signals"⟩
  | some (.error e) => .error e
  | some (.ok r) =>
      if r.hasActiveSignals then .ok r
      else
        .error ⟨"LaunchConfigError", "ready pod " ++ podId ++ " has incomplete readiness signals"⟩

/-- One statement of `_persist_ready_lease`; it does not mind a missing row. -/
def persistStep (r : ReadyLaunch) (next : LaunchState) (s : Fleet) (fault : Option PyError)
    (statement : Except PyError (Option Lease × Leases)) : Fleet × LaunchState :=
  match fault, statement with
  | some e, _ | none, .error e => (s, .raised (some r.workloadId) (.raised e))
  | none, .ok (_, t) => (s.withLeases t, next)

def launchStep (c : LaunchCall) (l : LaunchState) (s : Fleet) (i : LaunchInput) :
    Fleet × LaunchState :=
  match l with
  | .admitting =>
      match i.fault, c.estimate with
      | some e, _ | none, .error e => (s, .raised none (.raised e))
      | none, .ok estimate =>
        match c.gate.tryLaunch (c.launchRequest estimate) i.env s.workloads with
        | (.error e, t) => ({ s with workloads := t }, .raised none (.admission e))
        | (.ok workloadId, t) => ({ s with workloads := t }, .planning workloadId)
  | .planning workloadId =>
      match i.plan, expiryForLease c.providerConfig i.env.utcNow with
      | .error e, _ | .ok _, .error e => (s, .raised (some workloadId) (.raised e))
      | .ok _, .ok expiresAt => (s, .provisioning ⟨workloadId, i.env.utcNow, expiresAt⟩)
  | .provisioning p =>
      match i.pod with
      | .created podId bodyId => (s.addPod podId, .persisting p podId bodyId)
      | .discarded podId none => ((s.addPod podId).deletePod podId, .provisioning p)
      | .discarded podId (some err) =>
          ((s.addPod podId).deletePod podId, .raised (some p.workloadId) (.pod err))
      | .leaked podId err => (s.addPod podId, .raised (some p.workloadId) (.pod err))
      | .ended err => (s, afterPodError p.workloadId err)
  | .persisting p podId bodyId =>
      match nonEmpty bodyId with
      | none => (s, .waiting p podId)
      | some bodyId =>
        match i.fault, c.initialLease p bodyId with
        | some e, _ | none, .error e =>
            (s.deletePod podId, .raised (some p.workloadId) (.raised e))
        | none, .ok lease => (s.withLeases (s.store.leases.upsert lease), .waiting p podId)
  | .waiting p podId =>
      match i.wait with
      | .ready bodyId readiness =>
        match leaseReadinessFromReadyPod bodyId readiness with
        | .error e => (s, .raised (some p.workloadId) (.raised e))
        | .ok readiness => (s, .markingRuntime ⟨p.workloadId, bodyId, readiness⟩)
      | .retried => (s.deletePod podId, .provisioning p)
      | .ended err => (s.deletePod podId, afterPodError p.workloadId err)
  | .coolingDown workloadId reason =>
      match i.fault with
      | some e => (s, .raised (some workloadId) (.raised e))
      | none => (s, .fallback workloadId reason)
  | .markingRuntime r =>
      persistStep r (.markingProbe r) s i.fault
        (s.store.leases.updateState c.leaseId .waitingRuntime)
  | .markingProbe r =>
      persistStep r (.savingReadiness r) s i.fault
        (s.store.leases.updateState c.leaseId .waitingProbe)
  | .savingReadiness r =>
      persistStep r (.markingActive r) s i.fault
        (s.store.leases.updateReadiness c.leaseId r.readiness)
  | .markingActive r =>
      persistStep r (.returned r.workloadId r.podId) s i.fault
        (s.store.leases.updateState c.leaseId .active)
  | .returned workloadId podId => (s, .returned workloadId podId)
  | .fallback workloadId reason => (s, .fallback workloadId reason)
  | .raised workloadId err => (s, .raised workloadId err)

end Pitwall
