import Pitwall.Core.Text
import Pitwall.Leases.Leases
import Pitwall.Routing.SemanticCache
set_option autoImplicit false

/-!
`provision` of the provider plugins for Vast and Lambda Cloud, from the call that creates the
instance to the row of its lease.
-/

namespace Pitwall.Providers
open Routing (ClockReading datetimeAt timedeltaTimes)

/-- `int(text)`, where it parses, and the rest of what is written into messages. -/
structure PluginText where
  parseInt : String → Option Int
  statusMessage : Nat → String

section Payloads

/-- `_optional_string`: a `bool` is an `int`. -/
def optionalString : Json → Option String
  | .str s => if strip s = "" then none else some (strip s)
  | .int n => some (toString n)
  | .bool b => some (if b then "True" else "False")
  | _ => none

def firstString (d : JsonObject) (keys : List String) : Option String :=
  keys.findSome? fun key => optionalString (d.get key)

namespace Vast

/-- `_created_instance_id`. -/
def createdInstanceId (payload : JsonObject) : Option String :=
  firstString payload ["new_contract", "contract_id", "instance_id", "id"]

end Vast

namespace LambdaCloud

/-- `_instance_id`. -/
def instanceId (instance_ : JsonObject) : Option String := firstString instance_ ["id", "instance_id"]

/-- What `_created_instance_id` finds under `data`. -/
def idOfData (data : JsonObject) : Option String :=
  let ofIds := match JsonObject.get data "instance_ids" with
    | .arr instanceIds => instanceIds.findSome? optionalString
    | _ => none
  let ofInstance := match JsonObject.get data "instance" with
    | .obj instance_ => instanceId instance_
    | _ => none
  ofIds.or ofInstance

/-- `_created_instance_id`. -/
def createdInstanceId (payload : JsonObject) : Option String :=
  let ofData := match payload.get "data" with
    | .obj data => idOfData data
    | _ => none
  ofData.or (firstString payload ["instance_id", "id"])

end LambdaCloud

end Payloads

/-- The plugins, whose `provision` differs in what follows. -/
inductive Plugin where
  | vast | lambdaCloud
  deriving DecidableEq

namespace Plugin

def errorType : Plugin → String
  | vast => "VastProviderError"
  | lambdaCloud => "LambdaCloudProviderError"

def missingId : Plugin → String
  | vast => "Vast create succeeded but response did not include an external id"
  | lambdaCloud => "Lambda Cloud launch succeeded but response did not include an external id"

def createdInstanceId : Plugin → JsonObject → Option String
  | vast => Vast.createdInstanceId
  | lambdaCloud => LambdaCloud.createdInstanceId

end Plugin

section Responses

/-- The content of a response, read by `json.loads` unless it is empty. -/
inductive ResponseContent where
  | empty
  | json (value : Json)
  | invalid (exc : PyError)

structure HttpResponse where
  statusCode : Nat
  content : ResponseContent

/-- `_raise_for_status`. -/
def raiseForStatus (text : PluginText) (plugin : Plugin) (response : HttpResponse) :
    Except PyError Unit :=
  if 200 ≤ response.statusCode ∧ response.statusCode ≤ 299 then .ok ()
  else .error ⟨plugin.errorType, text.statusMessage response.statusCode⟩

/-- `_response_payload`. -/
def responsePayload (response : HttpResponse) : Except PyError Json :=
  match response.content with
  | .empty => .ok (.obj [])
  | .json value => .ok value
  | .invalid exc => .error exc

/-- `_raw_object`. -/
def rawObject : Json → JsonObject
  | .obj d => d
  | payload => [("data", payload)]

/-- `_json_request`, of what the request gives. -/
def jsonRequest (text : PluginText) (plugin : Plugin) (answer : Except PyError HttpResponse) :
    Except PyError JsonObject := do
  let response ← answer
  raiseForStatus text plugin response
  let payload ← responsePayload response
  return rawObject payload

end Responses

section Leases

structure ProviderRecord where
  id : String
  config : JsonObject
  id_ne : id ≠ ""

/-- `_positive_int`. -/
def positiveInt (text : PluginText) (value : Json) (name : String) : Except PyError Int :=
  let refused : Except PyError Int := .error ⟨"ValueError", name ++ " must be a positive integer"⟩
  match value with
  | .int n => if n ≤ 0 then refused else .ok n
  | .str s =>
      if strip s = "" then refused
      else
        match text.parseInt s with
        | some n => if n ≤ 0 then refused else .ok n
        | none => refused
  | _ => refused

/-- `_utc_now`, with the clock that it reads without a `now`. -/
def utcNow (now : Option ClockReading) (clock : Instant) : Except PyError Instant :=
  match now.getD (.aware clock 0) with
  | .raised exc => .error exc
  | .naive => .error ⟨"ValueError", "provider operation time must include timezone information"⟩
  | .aware wall offset => datetimeAt (wall - offset)

/-- `_expiry_for_lease`. -/
def expiryForLease (text : PluginText) (record : ProviderRecord) (createdAt : Instant) :
    Except PyError Instant := do
  let rawTtlMs := (record.config.get? "lease_ttl_ms").getD
    ((record.config.get? "ttl_ms").getD (.int 7200000))
  let ttlMs ← positiveInt text rawTtlMs "lease_ttl_ms"
  let delta ← timedeltaTimes 1000 ttlMs
  datetimeAt (createdAt + delta)

structure LeaseRow where
  id : String
  providerId : String
  runpodPodId : String
  state : LeaseState
  createdAt : Instant
  expiresAt : Instant
  renewalPolicy : LeaseRenewalPolicy
  autoTeardownOnExpiry : Bool

/-- `Lease(...)`, with what the model validates of a lease that is not active. -/
def newLease (row : LeaseRow) : Except PyError LeaseRow :=
  if row.id = "" ∨ row.providerId = "" ∨ row.runpodPodId = "" then
    .error ⟨"ValidationError", "String should have at least 1 character"⟩
  else if row.expiresAt ≤ row.createdAt then
    .error ⟨"ValidationError", "expires_at must be after created_at"⟩
  else .ok row

end Leases

/-- What the `INSERT` of a lease comes to: a failure may come before or behind its commit. -/
inductive InsertOutcome where
  | stored
  | storedAndRaised (exc : PyError)
  | refused (exc : PyError)

def InsertOutcome.isStored : InsertOutcome → Bool
  | .stored | .storedAndRaised _ => true
  | .refused _ => false

/-- A request. Its payload and the budget count up to the call that creates the instance: what is
prepared is the body, what is admitted a workload. -/
structure ProvisionRequest where
  record : ProviderRecord
  dryRun : Bool
  prepared : Except PyError JsonObject
  admitted : Except PyError (Option String)
  /-- Whether the pool of the context has an `acquire`. -/
  hasAcquire : Bool
  now : Option ClockReading

/-- What is outside of the operation: the instances that a create request makes, with the answer to
it; the clock; the random part of a lease id; and the database. -/
structure Surroundings where
  create : JsonObject → List String × Except PyError HttpResponse
  clock : Instant
  leaseSuffix : String
  insert : LeaseRow → InsertOutcome

structure ProvisionResult where
  providerId : String
  externalId : Option String
  leaseId : Option String
  workloadId : Option String

structure Estate where
  instances : List String
  leases : List LeaseRow

/-- `_lease_id_for_provider`. -/
def leaseIdForProvider (providerId suffix : String) : String :=
  let safeProviderId := String.ofList (providerId.toList.map fun c => if c = '-' then '_' else c)
  "lease_" ++ safeProviderId ++ "_" ++ suffix

def leaseRow (request : ProvisionRequest) (outside : Surroundings) (externalId : String)
    (createdAt expiresAt : Instant) : LeaseRow where
  id := leaseIdForProvider request.record.id outside.leaseSuffix
  providerId := request.record.id
  runpodPodId := externalId
  state := .creating
  createdAt := createdAt
  expiresAt := expiresAt
  renewalPolicy := .manual
  autoTeardownOnExpiry := true

/-- The lease that `_persist_created_lease` builds. -/
def buildLease (text : PluginText) (request : ProvisionRequest) (outside : Surroundings)
    (externalId : String) : Except PyError LeaseRow := do
  let createdAt ← utcNow request.now outside.clock
  let expiresAt ← expiryForLease text request.record createdAt
  newLease (leaseRow request outside externalId createdAt expiresAt)

/-- `_persist_created_lease`. -/
def persistCreatedLease (text : PluginText) (request : ProvisionRequest) (outside : Surroundings)
    (externalId : String) (estate : Estate) : Except PyError (Option String) × Estate :=
  if !request.hasAcquire then (.ok none, estate)
  else
    match buildLease text request outside externalId with
    | .error exc => (.error exc, estate)
    | .ok row =>
        match outside.insert row with
        | .stored => (.ok (some row.id), { estate with leases := estate.leases ++ [row] })
        | .storedAndRaised exc => (.error exc, { estate with leases := estate.leases ++ [row] })
        | .refused exc => (.error exc, estate)

/-- `provision`, behind the call that creates the instance. -/
def recordCreated (text : PluginText) (plugin : Plugin) (request : ProvisionRequest)
    (outside : Surroundings) (workloadId : Option String)
    (answer : Except PyError HttpResponse) (estate : Estate) :
    Except PyError ProvisionResult × Estate :=
  match jsonRequest text plugin answer with
  | .error exc => (.error exc, estate)
  | .ok raw =>
      match plugin.createdInstanceId raw with
      | none => (.error ⟨plugin.errorType, plugin.missingId⟩, estate)
      | some externalId =>
          match persistCreatedLease text request outside externalId estate with
          | (.error exc, estate) => (.error exc, estate)
          | (.ok leaseId, estate) =>
              (.ok ⟨request.record.id, some externalId, leaseId, workloadId⟩, estate)

/-- `provision`. -/
def provision (text : PluginText) (plugin : Plugin) (request : ProvisionRequest)
    (outside : Surroundings) (estate : Estate) : Except PyError ProvisionResult × Estate :=
  match request.prepared with
  | .error exc => (.error exc, estate)
  | .ok body =>
      if request.dryRun then (.ok ⟨request.record.id, none, none, none⟩, estate)
      else
        match request.admitted with
        | .error exc => (.error exc, estate)
        | .ok workloadId =>
            recordCreated text plugin request outside workloadId (outside.create body).2
              { estate with instances := estate.instances ++ (outside.create body).1 }

end Pitwall.Providers
