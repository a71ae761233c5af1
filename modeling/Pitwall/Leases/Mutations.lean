import Pitwall.Leases.Leases
import Pitwall.Library.Machine
set_option autoImplicit false

/-!
`renew_lease` and `patch_lease_settings`: one transaction each, under the row lock of the
lease and the primary key of the mutation ledger.
-/

namespace Pitwall

inductive MutationOperation where
  | patch | renew
  deriving DecidableEq

def MutationOperation.value : MutationOperation → String
  | patch => "patch"
  | renew => "renew"

structure MutationRecord where
  idempotencyKey : String
  leaseId : String
  operation : MutationOperation
  requestHash : String
  actor : String
  createdAt : Instant

/-- A row of `pitwall.config_audit` whose entity is a lease. -/
structure LeaseAudit where
  actor : String
  action : MutationOperation
  leaseId : String
  oldValue : JsonObject
  newValue : JsonObject
  changeReason : Option String

structure LeaseStore where
  leases : Leases
  mutations : Keyed MutationRecord.idempotencyKey
  audit : List LeaseAudit

inductive MutationBody where
  | renew (extendsMinutes : Int)
  | patch (renewalPolicy : Option String) (autoTeardownOnExpiry : Option Bool)
  deriving DecidableEq

structure MutationRequest where
  leaseId : String
  body : MutationBody
  actor : String
  idempotencyKey : Option String
  deriving DecidableEq

def MutationBody.operation : MutationBody → MutationOperation
  | .renew _ => .renew
  | .patch _ _ => .patch

/-- What `_request_hash` is taken of; a setting left out is hashed as `None`. -/
def MutationRequest.payload (r : MutationRequest) : JsonObject :=
  match r.body with
  | .renew extendsMinutes =>
      [("lease_id", .str r.leaseId), ("extends_minutes", .int extendsMinutes)]
  | .patch renewalPolicy autoTeardownOnExpiry =>
      [("lease_id", .str r.leaseId),
        ("renewal_policy", (renewalPolicy.map Json.str).getD .null),
        ("auto_teardown_on_expiry", (autoTeardownOnExpiry.map Json.bool).getD .null)]

inductive MutationError where
  | valueError (message : String)
  | notFound (leaseId : String)
  | conflict (state : LeaseState) (operation : MutationOperation)
  | expiryLimitExceeded (leaseId : String)
  | idempotencyConflict (idempotencyKey : String)
  | raised (exc : PyError)

structure MutationText where
  requestHash : JsonObject → String
  isoformat : Instant → String

/-- What the database supplies to a transaction: `now()`, and a statement that fails. -/
structure MutationInput where
  now : Instant
  fault : Option PyError

def maxLeaseExtensionMinutes : Int := 43200
def maxLeaseExpiryHorizonMinutes : Int := 43200

def auditActors : List String :=
  ["rest:admin", "mcp:session-id", "mcp:admin", "rest:lease", "mcp", "system"]

/-- `_reserve_lease_mutation`: whether the key is a replay, and the ledger after it. -/
def reserveLeaseMutation (r : MutationRequest) (requestHash : String) (now : Instant)
    (records : Keyed MutationRecord.idempotencyKey) :
    Except MutationError (Bool × Keyed MutationRecord.idempotencyKey) :=
  match r.idempotencyKey with
  | none => .ok (false, records)
  | some key =>
    match records.insert ⟨key, r.leaseId, r.body.operation, requestHash, r.actor, now⟩ with
    | some records => .ok (false, records)
    | none =>
      match records.get key with
      | none => .error (.idempotencyConflict key)
      | some existing =>
          if existing.leaseId ≠ r.leaseId ∨ existing.operation ≠ r.body.operation ∨
              existing.requestHash ≠ requestHash then
            .error (.idempotencyConflict key)
          else .ok (true, records)

def insertLeaseMutationAudit (r : MutationRequest) (oldValue newValue : JsonObject)
    (audit : List LeaseAudit) : Except MutationError (List LeaseAudit) :=
  if r.actor ∈ auditActors then
    .ok (audit ++ [⟨r.actor, r.body.operation, r.leaseId, oldValue, newValue,
      match r.idempotencyKey with
      | some key => if key = "" then none else some ("idempotency_key=" ++ key)
      | none => none⟩])
  else .error (.raised ⟨"CheckViolationError", "config_audit_actor_check"⟩)

section Transactions
variable (text : MutationText)

def extendExpiry (r : MutationRequest) (extendsMinutes : Int) (now : Instant) (row : Lease)
    (s : LeaseStore) : Except MutationError (Lease × LeaseStore) :=
  let expiresAt := row.expiresAt + extendsMinutes * microsPerMinute
  if now + maxLeaseExpiryHorizonMinutes * microsPerMinute < expiresAt then
    .error (.expiryLimitExceeded r.leaseId)
  else
    match row.withExpiresAt expiresAt with
    | .error e => .error (.raised e)
    | .ok updated =>
      match insertLeaseMutationAudit r [("expires_at", .str (text.isoformat row.expiresAt))]
          [("expires_at", .str (text.isoformat expiresAt)),
            ("extends_minutes", .int extendsMinutes)] s.audit with
      | .error e => .error e
      | .ok audit => .ok (updated, { s with leases := s.leases.put updated, audit := audit })

def namedSettings (renewalPolicy : Option String) (autoTeardownOnExpiry : Option Bool) :
    JsonObject :=
  (renewalPolicy.map fun policy => ("renewal_policy", Json.str policy)).toList ++
  (autoTeardownOnExpiry.map fun auto => ("auto_teardown_on_expiry", Json.bool auto)).toList

/-- The write of `patch_settings`. A policy that the enum does not have fails when the
updated row is read back, inside the transaction. -/
def assignSettings (r : MutationRequest) (renewalPolicy : Option String)
    (autoTeardownOnExpiry : Option Bool) (row : Lease) (s : LeaseStore) :
    Except MutationError (Lease × LeaseStore) :=
  if renewalPolicy = none ∧ autoTeardownOnExpiry = none then .ok (row, s)
  else
    match insertLeaseMutationAudit r
        (namedSettings (renewalPolicy.map fun _ => row.renewalPolicy.value)
          (autoTeardownOnExpiry.map fun _ => row.autoTeardownOnExpiry))
        (namedSettings renewalPolicy autoTeardownOnExpiry) s.audit with
    | .error e => .error e
    | .ok audit =>
      match renewalPolicy.map LeaseRenewalPolicy.parse with
      | some none => .error (.raised ⟨"ValidationError", "renewal_policy"⟩)
      | policy =>
        let updated := { row with
          renewalPolicy := (policy.getD none).getD row.renewalPolicy
          autoTeardownOnExpiry := autoTeardownOnExpiry.getD row.autoTeardownOnExpiry }
        .ok (updated, { s with leases := s.leases.put updated, audit := audit })

def writeMutation (r : MutationRequest) (now : Instant) (row : Lease) (s : LeaseStore) :
    Except MutationError (Lease × LeaseStore) :=
  if row.state.mutable then
    match r.body with
    | .renew extendsMinutes => extendExpiry text r extendsMinutes now row s
    | .patch policy auto => assignSettings r policy auto row s
  else .error (.conflict row.state r.body.operation)

structure MutationResult where
  lease : Lease
  replayed : Bool

def mutate (r : MutationRequest) (i : MutationInput) (s : LeaseStore) :
    Except MutationError (MutationResult × LeaseStore) :=
  match i.fault with
  | some e => .error (.raised e)
  | none =>
    match s.leases.get r.leaseId with
    | none => .error (.notFound r.leaseId)
    | some row =>
      match reserveLeaseMutation r (text.requestHash r.payload) i.now s.mutations with
      | .error e => .error e
      | .ok (true, _) => .ok (⟨row, true⟩, s)
      | .ok (false, records) =>
        match writeMutation text r i.now row { s with mutations := records } with
        | .error e => .error e
        | .ok (updated, s') => .ok (⟨updated, false⟩, s')

/-- `renew_lease` and `patch_lease_settings`; only the former checks its argument. -/
def mutateLease (r : MutationRequest) (i : MutationInput) (s : LeaseStore) :
    Except MutationError MutationResult × LeaseStore :=
  match r.body with
  | .renew extendsMinutes =>
      if 1 ≤ extendsMinutes ∧ extendsMinutes ≤ maxLeaseExtensionMinutes then
        Machine.atomically (mutate text r i) s
      else (.error (.valueError "extends_minutes must be between 1 and 43200"), s)
  | .patch _ _ => Machine.atomically (mutate text r i) s

end Transactions

end Pitwall
