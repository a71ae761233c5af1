import Pitwall.Core.Clock
import Pitwall.Core.Json
import Pitwall.Library.Numeric
import Pitwall.Library.Table
set_option autoImplicit false

/-!
Leases: their states, the guard on transitions, and the statements of `LeaseRepository`.
-/

namespace Pitwall

inductive LeaseState where
  | creating | waitingRuntime | waitingProbe | active | stopping | stopped | failed | expired
  deriving DecidableEq, Repr

namespace LeaseState

def value : LeaseState → String
  | creating => "creating"
  | waitingRuntime => "waiting_runtime"
  | waitingProbe => "waiting_probe"
  | active => "active"
  | stopping => "stopping"
  | stopped => "stopped"
  | failed => "failed"
  | expired => "expired"

/-- `LEASE_STATE_TRANSITIONS`. -/
def transitions : LeaseState → List LeaseState
  | creating => [waitingRuntime, failed]
  | waitingRuntime => [waitingProbe, failed]
  | waitingProbe => [active, failed]
  | active => [stopping, expired, failed]
  | stopping => [stopped, expired, failed]
  | stopped | failed | expired => []

/-- `TERMINAL_LEASE_STATES`. -/
def terminal : LeaseState → Bool
  | stopped | failed | expired => true
  | _ => false

/-- `_MUTABLE_LEASE_STATES`. -/
def mutable : LeaseState → Bool
  | creating | waitingRuntime | waitingProbe | active => true
  | _ => false

theorem transitions_of_terminal {s : LeaseState} (h : s.terminal = true) : s.transitions = [] := by
  cases s <;> simp [terminal, transitions] at h ⊢

end LeaseState

def transitionLeaseState (fromState toState : LeaseState) : Except PyError LeaseState :=
  if toState ∈ fromState.transitions then .ok toState
  else
    .error ⟨"IllegalLeaseTransitionError", "illegal lease state transition: " ++ fromState.value ++
      " -> " ++ toState.value⟩

inductive LeaseRenewalPolicy where
  | manual
  deriving DecidableEq

def LeaseRenewalPolicy.value : LeaseRenewalPolicy → String
  | manual => "manual"

def LeaseRenewalPolicy.parse (text : String) : Option LeaseRenewalPolicy :=
  if text = "manual" then some .manual else none

structure LeaseReadiness where
  runtimeSeenAt : Option Instant
  portMappingsSeenAt : Option Instant
  probePassedAt : Option Instant
  probeMethod : Option String

def LeaseReadiness.hasActiveSignals (r : LeaseReadiness) : Bool :=
  r.runtimeSeenAt.isSome && r.portMappingsSeenAt.isSome && r.probePassedAt.isSome

/-- What `lease_active_has_readiness_signals` asks of an active row. -/
def readyForActive (endpoints : Option Json) (readiness : Option LeaseReadiness) : Bool :=
  endpoints.isSome && readiness.any LeaseReadiness.hasActiveSignals

/-- A row of `pitwall.leases`, with the table's two `CHECK` constraints. -/
structure Lease where
  id : String
  providerId : String
  runpodPodId : String
  state : LeaseState
  createdAt : Instant
  expiresAt : Instant
  renewalPolicy : LeaseRenewalPolicy
  autoTeardownOnExpiry : Bool
  endpoints : Option Json
  readiness : Option LeaseReadiness
  costAccruedUsd : Option ℚ
  lastHealthAt : Option Instant
  terminatedAt : Option Instant
  terminatedReason : Option String
  expires_after_created : createdAt < expiresAt
  active_ready : state = .active → readyForActive endpoints readiness = true

def checkViolation (constraint : String) : PyError :=
  ⟨"CheckViolationError", "new row for relation \"leases\" violates check constraint \"" ++
    constraint ++ "\""⟩

namespace Lease

def withState (l : Lease) (state : LeaseState) : Except PyError Lease :=
  if h : state = .active → readyForActive l.endpoints l.readiness = true then
    .ok { l with state := state, active_ready := h }
  else .error (checkViolation "leases_active_readiness_signals")

def withReadiness (l : Lease) (readiness : LeaseReadiness) : Except PyError Lease :=
  if h : l.state = .active → readyForActive l.endpoints (some readiness) = true then
    .ok { l with readiness := some readiness, active_ready := h }
  else .error (checkViolation "leases_active_readiness_signals")

def withExpiresAt (l : Lease) (expiresAt : Instant) : Except PyError Lease :=
  if h : l.createdAt < expiresAt then
    .ok { l with expiresAt := expiresAt, expires_after_created := h }
  else .error (checkViolation "leases_expires_after_created")

/-- The columns that `close_teardown` sets besides the state. -/
def closed (l : Lease) (costAccruedUsd : ℚ) (terminatedAt : Instant) (reason : String) :
    Except PyError Lease :=
  match numeric 12 6 costAccruedUsd with
  | none => .error ⟨"NumericValueOutOfRangeError", "numeric field overflow"⟩
  | some cost =>
      .ok { l with
        costAccruedUsd := some cost
        terminatedAt := some terminatedAt
        terminatedReason := some reason }

theorem withState_ok {l l' : Lease} {state : LeaseState} (h : l.withState state = .ok l') :
    l'.id = l.id ∧ l'.state = state ∧ l'.expiresAt = l.expiresAt ∧
      l'.runpodPodId = l.runpodPodId := by
  unfold withState at h
  split at h
  · cases h
    exact ⟨rfl, rfl, rfl, rfl⟩
  · contradiction

theorem withReadiness_ok {l l' : Lease} {readiness : LeaseReadiness}
    (h : l.withReadiness readiness = .ok l') : l'.id = l.id ∧ l'.state = l.state := by
  unfold withReadiness at h
  split at h
  · cases h
    exact ⟨rfl, rfl⟩
  · contradiction

theorem withExpiresAt_ok {l l' : Lease} {expiresAt : Instant}
    (h : l.withExpiresAt expiresAt = .ok l') :
    l'.id = l.id ∧ l'.state = l.state ∧ l'.expiresAt = expiresAt := by
  unfold withExpiresAt at h
  split at h
  · cases h
    exact ⟨rfl, rfl, rfl⟩
  · contradiction

theorem closed_ok {l l' : Lease} {cost : ℚ} {terminatedAt : Instant} {reason : String}
    (h : l.closed cost terminatedAt reason = .ok l') :
    l'.id = l.id ∧ l'.state = l.state ∧ l'.expiresAt = l.expiresAt ∧
      l'.runpodPodId = l.runpodPodId := by
  unfold closed at h
  split at h
  · contradiction
  · cases h
    exact ⟨rfl, rfl, rfl, rfl⟩

end Lease

abbrev Leases := Keyed Lease.id

namespace Leases

/-- `UPDATE ... WHERE id = $1 RETURNING *`: the row as updated, if there is one. -/
def modify (t : Leases) (id : String) (f : Lease → Except PyError Lease) :
    Except PyError (Option Lease × Leases) :=
  match t.get id with
  | none => .ok (none, t)
  | some l =>
    match f l with
    | .error e => .error e
    | .ok l' => .ok (some l', t.put l')

def updateState (t : Leases) (id : String) (state : LeaseState) :
    Except PyError (Option Lease × Leases) :=
  t.modify id (fun l => l.withState state)

def updateReadiness (t : Leases) (id : String) (readiness : LeaseReadiness) :
    Except PyError (Option Lease × Leases) :=
  t.modify id (fun l => l.withReadiness readiness)

def closeTeardown (t : Leases) (id : String) (state : LeaseState) (costAccruedUsd : ℚ)
    (terminatedAt : Instant) (reason : String) : Except PyError (Option Lease × Leases) :=
  t.modify id (fun l =>
    match l.withState state with
    | .error e => .error e
    | .ok l => l.closed costAccruedUsd terminatedAt reason)

/-- Everything an `UPDATE` by id can do. -/
theorem modify_ok {t t' : Leases} {id : String} {f : Lease → Except PyError Lease}
    {updated : Option Lease} (hf : ∀ l l', f l = .ok l' → l'.id = l.id)
    (h : t.modify id f = .ok (updated, t')) :
    (t.get id = none ∧ updated = none ∧ t' = t) ∨
    ∃ l l', t.get id = some l ∧ f l = .ok l' ∧ updated = some l' ∧
      ∀ k, t'.get k = if k = id then some l' else t.get k := by
  unfold modify at h
  cases hget : t.get id with
  | none =>
    simp only [hget, Except.ok.injEq, Prod.mk.injEq] at h
    obtain ⟨rfl, rfl⟩ := h
    exact .inl ⟨rfl, rfl, rfl⟩
  | some l =>
    cases hfl : f l with
    | error e => simp [hget, hfl] at h
    | ok l' =>
      simp only [hget, hfl, Except.ok.injEq, Prod.mk.injEq] at h
      obtain ⟨rfl, rfl⟩ := h
      have hid : l'.id = id := (hf l l' hfl).trans (Keyed.key_of_get hget)
      refine .inr ⟨l, l', rfl, hfl, rfl, fun k => ?_⟩
      rw [Keyed.get_put k (by rw [hid, hget]; rfl), hid]

theorem length_of_modify {t t' : Leases} {id : String} {f : Lease → Except PyError Lease}
    {updated : Option Lease} (h : t.modify id f = .ok (updated, t')) :
    t'.rows.length = t.rows.length := by
  unfold modify at h
  cases hget : t.get id with
  | none =>
    simp only [hget, Except.ok.injEq, Prod.mk.injEq] at h
    rw [h.2]
  | some l =>
    cases hfl : f l with
    | error e => simp [hget, hfl] at h
    | ok l' =>
      simp only [hget, hfl, Except.ok.injEq, Prod.mk.injEq] at h
      rw [← h.2, Keyed.length_put]

theorem isSome_of_modify {t t' : Leases} {id : String} {f : Lease → Except PyError Lease}
    {updated : Option Lease} (hf : ∀ l l', f l = .ok l' → l'.id = l.id)
    (h : t.modify id f = .ok (updated, t')) {k : String} (hk : (t.get k).isSome = true) :
    (t'.get k).isSome = true := by
  rcases modify_ok hf h with ⟨-, -, rfl⟩ | ⟨l, l', -, -, -, hget⟩
  · exact hk
  · rw [hget]
    split
    · rfl
    · exact hk

def stateOf (t : Leases) (id : String) : Option LeaseState := (t.get id).map Lease.state

theorem stateOf_updateReadiness {t t' : Leases} {id : String} {readiness : LeaseReadiness}
    {updated : Option Lease} (h : t.updateReadiness id readiness = .ok (updated, t'))
    (k : String) : t'.stateOf k = t.stateOf k := by
  rcases modify_ok (fun _ _ hl => (Lease.withReadiness_ok hl).1) h with ⟨-, -, rfl⟩ |
    ⟨l, l', hl, hl', -, hget⟩
  · rfl
  · have hstate := (Lease.withReadiness_ok hl').2
    by_cases hk : k = id
    · simp [stateOf, hk, hl, hget, hstate]
    · simp [stateOf, hk, hget]

theorem stateOf_upsert (t : Leases) (l : Lease) (k : String) :
    stateOf (t.upsert l) k = if k = l.id then some l.state else t.stateOf k := by
  unfold stateOf
  rw [Keyed.get_upsert]
  split <;> rfl

end Leases

end Pitwall
