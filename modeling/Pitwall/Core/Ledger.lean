import Pitwall.Core.Workloads
set_option autoImplicit false

/-!
What the request paths share: the workloads, the idempotency reservations and the
requests that have gone out to RunPod.
-/

namespace Pitwall

/-- A row of `pitwall.idempotency_keys`. -/
structure KeyReservation where
  idempotencyKey : String
  workloadId : String
  createdAt : Instant

abbrev KeyReservations := Table (fun r : KeyReservation => [r.idempotencyKey])

inductive ProviderCall where
  | runpodCaller (workloadId : String)
  | queueRun (endpointId : String) (input : Json) (webhook : Option String)
  | queueCancel (endpointId jobId : String)

def ProviderCall.starts : ProviderCall → Bool
  | .runpodCaller _ | .queueRun _ _ _ => true
  | .queueCancel _ _ => false

structure Ledger where
  workloads : Workloads
  idempotencyKeys : KeyReservations
  /-- Every request sent so far, oldest first. -/
  providerCalls : List ProviderCall

def Ledger.invocations (s : Ledger) : Nat := s.providerCalls.countP ProviderCall.starts

def Ledger.send (s : Ledger) (call : ProviderCall) : Ledger :=
  { s with providerCalls := s.providerCalls ++ [call] }

@[simp] theorem Ledger.send_invocations (s : Ledger) (call : ProviderCall) :
    (s.send call).invocations = s.invocations + if call.starts then 1 else 0 := by
  simp [Ledger.send, Ledger.invocations, List.countP_append, List.countP_cons]

def Ledger.withWorkloads (s : Ledger) (t : Workloads) : Ledger := { s with workloads := t }

@[simp] theorem Ledger.withWorkloads_workloads (s : Ledger) (t : Workloads) :
    (s.withWorkloads t).workloads = t := rfl

/-- The text functions of the standard library that the request paths call on JSON:
the byte length of the canonical text, its SHA-256, and `str`. -/
structure JsonText where
  bytes : Json → Int
  sha256 : Json → String
  str : Json → String

/-- What a reservation raises: the key is bound to a workload with another body, or
the assertion that a conflicting key can be read back fails. -/
inductive ReserveError where
  | idempotencyMismatch (originalWorkloadId : String)
  | assertionError
  deriving DecidableEq

structure IdempotencyReservation where
  isNew : Bool
  workloadId : String
  deriving DecidableEq

/-- `INSERT ... ON CONFLICT DO NOTHING`, then on a conflict the body check against the
input of the workload that the reservation names. -/
def reserveIdempotencyKey (text : JsonText) (key bodyHash workloadId : String) (now : Instant)
    (s : Ledger) : Except ReserveError (IdempotencyReservation × KeyReservations) :=
  match s.idempotencyKeys.insert ⟨key, workloadId, now⟩ with
  | some keys => .ok (⟨true, workloadId⟩, keys)
  | none =>
    match s.idempotencyKeys.find (fun r => r.idempotencyKey = key) with
    | none => .error .assertionError
    | some existing =>
      match (s.workloads.byId existing.workloadId).bind Workload.input with
      | some input =>
          if text.sha256 input ≠ bodyHash then .error (.idempotencyMismatch existing.workloadId)
          else .ok (⟨false, existing.workloadId⟩, s.idempotencyKeys)
      | none => .ok (⟨false, existing.workloadId⟩, s.idempotencyKeys)

end Pitwall
