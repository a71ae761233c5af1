import Pitwall.Leases.Launch
set_option autoImplicit false

/-!
`run_teardown`: the teardown of one lease, as a process.
-/

namespace Pitwall

structure TeardownCall where
  leaseId : String
  terminalState : LeaseState
  reason : Option String
  now : Option Instant
  /-- Whether the caller passed a Redis client. -/
  hasRedis : Bool

/-- What the world supplies to one step: the clock, the failure of a statement, RunPod's
answer to the termination, the provider's config, the failure to publish. -/
structure TeardownInput where
  utcNow : Instant
  fault : Option PyError
  terminateError : Option PyError
  provider : Option JsonObject
  publishError : Option PyError

/-- Where a `run_teardown` call stands, with the lease as it last read or wrote it. -/
inductive TeardownState where
  | reading
  | marking (lease : Lease)
  | terminating (lease : Lease)
  | loadingProvider (lease : Lease) (terminatedAt : Instant)
  | closing (lease : Lease) (costAccruedUsd : ℚ) (terminatedAt : Instant)
  | publishing (lease : Lease)
  | returned (lease : Lease) (event : Bool)
  | raised (exc : PyError)

def leaseNotFound (leaseId : String) : PyError := ⟨"LeaseNotFound", leaseId⟩

def leaseStateConflict (lease : Lease) (operation : String) : PyError :=
  ⟨"LeaseStateConflict", lease.id ++ ":" ++ lease.state.value ++ ":" ++ operation⟩

def teardownTerminalState (state : LeaseState) : Except PyError LeaseState :=
  if state ∈ [LeaseState.stopped, LeaseState.expired] then .ok state
  else .error ⟨"ValueError", "teardown terminal_state must be one of: expired, stopped"⟩

section Text
variable (text : PyText)

def nonNegativeDecimal (raw : Json) (name : String) : Except PyError ℚ :=
  match text.amount raw with
  | .boolean | .unparsable => .error ⟨"ValueError", name ++ " must be a decimal value"⟩
  | .nonFinite => .error ⟨"ValueError", name ++ " must be finite"⟩
  | .finite q =>
      if q < 0 then .error ⟨"ValueError", name ++ " must be non-negative"⟩ else .ok q

/-- `_provider_cost_rate_per_second`: under `cost` first, then at the top. -/
def providerCostRatePerSecond (provider : Option JsonObject) : Except PyError (Option ℚ) :=
  match provider with
  | none => .ok none
  | some config =>
    let sources : List JsonObject :=
      match config.get "cost" with
      | .obj cost => [cost, config]
      | _ => [config]
    match sources.find? (fun source => Json.given (source.get? "per_second_active")) with
    | none => .ok none
    | some source =>
      match nonNegativeDecimal text (source.get "per_second_active")
          "provider cost 'per_second_active'" with
      | .ok rate => .ok (some rate)
      | .error e => .error e

/-- `close_lease_cost`, in exact arithmetic. -/
def closeLeaseCost (lease : Lease) (provider : Option JsonObject) (terminatedAt : Instant) :
    Except PyError ℚ :=
  match providerCostRatePerSecond text provider with
  | .error e => .error e
  | .ok none => .ok (roundHalfAway 6 (lease.costAccruedUsd.getD 0))
  | .ok (some rate) =>
      .ok (roundHalfAway 6 (rate * (max (terminatedAt - lease.createdAt) 0 / 1000000 : ℚ)))

def normalizeReason (reason : Option String) (terminalState : LeaseState) : String :=
  let default := if terminalState = .expired then "lease_expired" else "operator_stop"
  match reason with
  | none => default
  | some reason => if text.strip reason = "" then default else text.strip reason

def teardownStep (c : TeardownCall) (l : TeardownState) (s : Fleet) (i : TeardownInput) :
    Fleet × TeardownState :=
  match l with
  | .reading =>
      match teardownTerminalState c.terminalState, i.fault, s.store.leases.get c.leaseId with
      | .error e, _, _ | .ok _, some e, _ => (s, .raised e)
      | .ok _, none, none => (s, .raised (leaseNotFound c.leaseId))
      | .ok _, none, some lease =>
          if lease.state.terminal then (s, .returned lease false)
          else
            match lease.state with
            | .stopping => (s, .terminating lease)
            | .active => (s, .marking lease)
            | _ => (s, .raised (leaseStateConflict lease "stop"))
  | .marking lease =>
      match i.fault, s.store.leases.updateState lease.id .stopping with
      | some e, _ | none, .error e => (s, .raised e)
      | none, .ok (none, t) => (s.withLeases t, .raised (leaseNotFound lease.id))
      | none, .ok (some updated, t) => (s.withLeases t, .terminating updated)
  | .terminating lease =>
      let s := { s with terminations := s.terminations ++ [(lease.id, lease.runpodPodId)] }
      match i.terminateError with
      | some e => (s, .raised e)
      | none =>
          (s.deletePod lease.runpodPodId, .loadingProvider lease (c.now.getD i.utcNow))
  | .loadingProvider lease terminatedAt =>
      match i.fault, closeLeaseCost text lease i.provider terminatedAt with
      | some e, _ | none, .error e => (s, .raised e)
      | none, .ok cost => (s, .closing lease cost terminatedAt)
  | .closing lease cost terminatedAt =>
      match transitionLeaseState lease.state c.terminalState with
      | .error e => (s, .raised e)
      | .ok state =>
        match i.fault, s.store.leases.closeTeardown lease.id state cost terminatedAt
            (normalizeReason text c.reason c.terminalState) with
        | some e, _ | none, .error e => (s, .raised e)
        | none, .ok (none, t) => (s.withLeases t, .raised (leaseNotFound lease.id))
        | none, .ok (some closed, t) =>
            ({ s.withLeases t with closed := s.closed ++ [closed.id] }, .publishing closed)
  | .publishing lease =>
      if c.hasRedis then
        match i.publishError with
        | some e => (s, .raised e)
        | none => ({ s with published := s.published ++ [lease.id] }, .returned lease true)
      else (s, .returned lease true)
  | .returned lease event => (s, .returned lease event)
  | .raised e => (s, .raised e)

end Text

end Pitwall
