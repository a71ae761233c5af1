import Pitwall.Providers.Plugins
set_option autoImplicit false

/-!
`status`, `reconcile` and `teardown` of the provider plugins for Vast and Lambda Cloud, with the
requests that they send to the provider.
-/

namespace Pitwall.Providers
open Routing (ClockReading)

/-- `ResourceStatus`. -/
inductive ResourceStatus where
  | unknown | provisioning | running | terminated | failed
  deriving DecidableEq

def ResourceStatus.value : ResourceStatus → String
  | unknown => "unknown"
  | provisioning => "provisioning"
  | running => "running"
  | terminated => "terminated"
  | failed => "failed"

structure StatusResult where
  providerId : String
  externalId : String
  status : ResourceStatus
  raw : JsonObject

structure ReconcileResult where
  providerId : String
  checked : Nat
  updated : Nat
  resources : List JsonObject

structure TeardownResult where
  providerId : String
  leaseId : String
  externalId : Option String
  raw : JsonObject

/-- `ProviderOperationContext`: whether its pool has an `acquire`, whether it has a Redis client. -/
structure OperationContext where
  hasAcquire : Bool
  hasRedis : Bool
  now : Option ClockReading

/-- `str.lower`, `repr`, and the texts of a provision. -/
structure StatusText where
  plugin : PluginText
  lower : String → String
  repr : String → String

/-- `marker in value`. -/
def containsText (value marker : String) : Bool := marker.toList <:+: value.toList

section Instances
variable (text : StatusText)

/-- `_normalized_text`. -/
def normalizedText : Json → String
  | .str s => text.lower (strip s)
  | _ => ""

def firstText (d : JsonObject) (keys : List String) : String :=
  ((keys.map fun key => normalizedText text (d.get key)).find? (· ≠ "")).getD ""

def mappings (items : List Json) : List JsonObject :=
  items.filterMap fun
    | .obj d => some d
    | _ => none

def preemptionMarkers : List String :=
  ["evicted", "interrupted", "outbid", "preempted", "preempted_by_bid"]

namespace Vast

def provisioningStatuses : List String :=
  ["", "creating", "initializing", "loading", "pending", "provisioning", "starting"]

def terminatedStatuses : List String :=
  ["deleted", "destroyed", "exited", "offline", "stopped", "terminated"]

def statusText (instance_ : JsonObject) : String :=
  firstText text instance_
    ["actual_status", "cur_state", "next_state", "status", "state", "intended_status"]

def isPreempted (instance_ : JsonObject) : Bool :=
  let values := [statusText text instance_, normalizedText text (instance_.get "status_msg"),
    normalizedText text (instance_.get "status_message")]
  preemptionMarkers.any fun marker => values.any fun value => containsText value marker

def resourceStatus (instance_ : JsonObject) : ResourceStatus :=
  let status := statusText text instance_
  if isPreempted text instance_ then .failed
  else if status ∈ ["ready", "running"] then .running
  else if status ∈ provisioningStatuses then .provisioning
  else if status ∈ terminatedStatuses then .terminated
  else if status ∈ ["error", "failed", "unhealthy", "unknown"] then .failed
  else .unknown

def instanceId (instance_ : JsonObject) : Option String :=
  firstString instance_ ["id", "new_contract", "contract_id", "instance_id"]

def looksLikeInstance (payload : JsonObject) : Bool :=
  ["actual_status", "cur_state", "status", "state"].any payload.hasKey

/-- `_instance_from_payload`. -/
def instanceFromPayload (payload : Json) (externalId : String) : Option JsonObject :=
  match payload with
  | .obj payload =>
      match JsonObject.get payload "instances" with
      | .obj instance_ => some instance_
      | .arr items => (mappings items).find? fun item => instanceId item = some externalId
      | _ => if looksLikeInstance payload then some payload else none
  | _ => none

/-- `_instances_from_payload`. -/
def instancesFromPayload (payload : JsonObject) : List JsonObject :=
  match payload.get "instances" with
  | .arr items => mappings items
  | .obj instance_ => [instance_]
  | _ => if looksLikeInstance payload then [payload] else []

end Vast

namespace LambdaCloud

def provisioningStatuses : List String :=
  ["", "booting", "creating", "launching", "pending", "provisioning", "starting"]

def statusText (instance_ : JsonObject) : String :=
  firstText text instance_ ["status", "state", "lifecycle_state"]

def isPreempted (instance_ : JsonObject) : Bool := statusText text instance_ ∈ ["preempted"]

def resourceStatus (instance_ : JsonObject) : ResourceStatus :=
  let status := statusText text instance_
  if status ∈ ["active", "ready", "running"] then .running
  else if status ∈ provisioningStatuses then .provisioning
  else if status ∈ ["deleted", "terminated", "terminating"] then .terminated
  else if status ∈ ["error", "failed", "preempted", "unhealthy"] then .failed
  else .unknown

def looksLikeInstance (payload : JsonObject) : Bool :=
  ["id", "instance_id", "status", "state"].any payload.hasKey

/-- `_instance_from_mapping`. -/
def instanceFromMapping (payload : JsonObject) (externalId : String) : Option JsonObject :=
  match payload.get "instances" with
  | .obj instance_ => some instance_
  | .arr items => (mappings items).find? fun item => instanceId item = some externalId
  | _ => if looksLikeInstance payload then some payload else none

/-- `_instance_from_payload`. -/
def instanceFromPayload (payload : Json) (externalId : String) : Option JsonObject :=
  match payload with
  | .obj payload =>
      match JsonObject.get payload "data" with
      | .obj data =>
          (instanceFromMapping data externalId).or (instanceFromMapping payload externalId)
      | .arr items => (mappings items).find? fun item => instanceId item = some externalId
      | _ => instanceFromMapping payload externalId
  | _ => none

/-- `_instances_from_payload`. -/
def instancesFromPayload (payload : JsonObject) : List JsonObject :=
  let whole := if looksLikeInstance payload then [payload] else []
  match payload.get "data" with
  | .arr items => mappings items
  | .obj data =>
      match JsonObject.get data "instances" with
      | .arr items => mappings items
      | .obj instance_ => [instance_]
      | _ => if looksLikeInstance data then [data] else whole
  | _ => whole

end LambdaCloud

namespace Plugin

def title : Plugin → String
  | vast => "Vast"
  | lambdaCloud => "Lambda Cloud"

def isPreempted : Plugin → JsonObject → Bool
  | vast => Vast.isPreempted text
  | lambdaCloud => LambdaCloud.isPreempted text

def resourceStatus : Plugin → JsonObject → ResourceStatus
  | vast => Vast.resourceStatus text
  | lambdaCloud => LambdaCloud.resourceStatus text

def instanceId : Plugin → JsonObject → Option String
  | vast => Vast.instanceId
  | lambdaCloud => LambdaCloud.instanceId

def instanceFromPayload : Plugin → Json → String → Option JsonObject
  | vast => Vast.instanceFromPayload
  | lambdaCloud => LambdaCloud.instanceFromPayload

def instancesFromPayload : Plugin → JsonObject → List JsonObject
  | vast => Vast.instancesFromPayload
  | lambdaCloud => LambdaCloud.instancesFromPayload

/-- The reason with which `reconcile` closes the leases of a resource, if it does. -/
def failureReason : Plugin → JsonObject → Option String
  | vast, resource => if Vast.isPreempted text resource then some "vast_preempted" else none
  | lambdaCloud, resource =>
      if LambdaCloud.resourceStatus text resource = .failed then
        some (if LambdaCloud.isPreempted text resource then "lambda_cloud_preempted"
          else "lambda_cloud_failed")
      else none

/-- The default of `_teardown_reason` for a failed lease. -/
def failedReason : Plugin → String
  | vast => "vast_failed"
  | lambdaCloud => "lambda_cloud_failed"

def instancesPath : Plugin → String
  | vast => "/instances/"
  | lambdaCloud => "/instances"

def instancePath : Plugin → String → String
  | vast, id => "/instances/" ++ id ++ "/"
  | lambdaCloud, id => "/instances/" ++ id

end Plugin

/-- `_annotated_instance`. -/
def annotatedInstance (plugin : Plugin) (instance_ : JsonObject) : JsonObject :=
  if plugin.isPreempted text instance_ then
    (instance_.set "pitwall_preempted" (.bool true)).set "pitwall_safe_state" (.str "failed")
  else instance_

end Instances

section Operations

/-- A request to the API of a provider, with the `instance_ids` of its body. -/
structure ApiCall where
  method : String
  path : String
  instanceIds : List String
  deriving DecidableEq

namespace Plugin

def terminationCall : Plugin → String → ApiCall
  | vast, id => ⟨"DELETE", "/instances/" ++ id ++ "/", []⟩
  | lambdaCloud, id => ⟨"POST", "/instance-operations/terminate", [id]⟩

end Plugin

structure LeaseEnding where
  leaseId : String
  terminatedAt : Instant
  terminatedReason : String

structure Account where
  estate : Estate
  calls : List ApiCall
  endings : List LeaseEnding

inductive Statement where
  | readLease | markFailed | closeLease

structure Backend where
  answer : List ApiCall → ApiCall → Except PyError HttpResponse
  clock : Instant
  fault : Statement → Option PyError

variable (text : StatusText) (plugin : Plugin) (outside : Backend) (context : OperationContext)

/-- `_request`. -/
def sendRequest (call : ApiCall) (account : Account) : Except PyError HttpResponse × Account :=
  (outside.answer account.calls call, { account with calls := account.calls ++ [call] })

/-- `_resource_id`. -/
def resourceId (value : String) : Except PyError String :=
  if strip value = "" ∨ '/' ∈ (strip value).toList then
    .error ⟨plugin.errorType, plugin.title ++
      " resource id must be non-empty and contain no slashes"⟩
  else .ok (strip value)

/-- `status`, from the answer to its request. -/
def statusOfResponse (providerId externalId : String) (response : HttpResponse) :
    Except PyError StatusResult :=
  if response.statusCode = 404 then .ok ⟨providerId, externalId, .terminated, []⟩
  else do
    raiseForStatus text.plugin plugin response
    let data ← responsePayload response
    match plugin.instanceFromPayload data externalId with
    | none => pure ⟨providerId, externalId, .unknown, rawObject data⟩
    | some instance_ =>
        let raw := annotatedInstance text plugin instance_
        pure ⟨providerId, externalId, plugin.resourceStatus text raw, raw⟩

/-- `status`. -/
def status (providerId externalId : String) (account : Account) :
    Except PyError StatusResult × Account :=
  match resourceId plugin externalId with
  | .error exc => (.error exc, account)
  | .ok id =>
      let (answer, account) := sendRequest outside ⟨"GET", plugin.instancePath id, []⟩ account
      (answer.bind (statusOfResponse text plugin providerId externalId), account)

def namedResources (providerId : String) :
    List String → Account → Except PyError (List JsonObject) × Account
  | [], account => (.ok [], account)
  | externalId :: rest, account =>
      match status text plugin outside providerId externalId account with
      | (.error exc, account) => (.error exc, account)
      | (.ok result, account) =>
          let resource :=
            if result.raw.hasKey "id" then result.raw else result.raw.set "id" (.str externalId)
          let (resources, account) := namedResources providerId rest account
          (resources.map (resource :: ·), account)

/-- `_mark_preempted_failed` and `_mark_failed`: the number of leases that changed. -/
def markFailed (providerId externalId reason : String) (account : Account) :
    Except PyError Nat × Account :=
  if !context.hasAcquire then (.ok 0, account)
  else
    match utcNow context.now outside.clock, outside.fault .markFailed with
    | .error exc, _ | .ok _, some exc => (.error exc, account)
    | .ok now, none =>
        let matching := fun row : LeaseRow =>
          row.providerId = providerId ∧ row.runpodPodId = externalId ∧ row.state.terminal = false
        let changed := account.estate.leases.filter matching
        let leases := account.estate.leases.map fun row =>
          if matching row then { row with state := .failed } else row
        (.ok changed.length,
          { account with
            estate := { account.estate with leases := leases }
            endings := account.endings ++ changed.map fun row => ⟨row.id, now, reason⟩ })

/-- The loop of `reconcile` that marks leases. -/
def markResources (providerId : String) :
    List JsonObject → Account → Except PyError Nat × Account
  | [], account => (.ok 0, account)
  | resource :: rest, account =>
      match plugin.instanceId resource, plugin.failureReason text resource with
      | some externalId, some reason =>
          match markFailed outside context providerId externalId reason account with
          | (.error exc, account) => (.error exc, account)
          | (.ok changed, account) =>
              let (updated, account) := markResources providerId rest account
              (updated.map (changed + ·), account)
      | _, _ => markResources providerId rest account

/-- The resources that `reconcile` looks at. -/
def reconciledResources (providerId : String) (externalIds : List String) (account : Account) :
    Except PyError (List JsonObject) × Account :=
  if externalIds = [] then
    let (answer, account) := sendRequest outside ⟨"GET", plugin.instancesPath, []⟩ account
    ((jsonRequest text.plugin plugin answer).map fun raw =>
      (plugin.instancesFromPayload raw).map (annotatedInstance text plugin), account)
  else namedResources text plugin outside providerId externalIds account

/-- `reconcile`. -/
def reconcile (providerId : String) (externalIds : List String) (account : Account) :
    Except PyError ReconcileResult × Account :=
  match reconciledResources text plugin outside providerId externalIds account with
  | (.error exc, account) => (.error exc, account)
  | (.ok resources, account) =>
      let (updated, account) :=
        markResources text plugin outside context providerId resources account
      (updated.map fun updated => ⟨providerId, resources.length, updated, resources⟩, account)

/-- `_external_id_for_lease`. -/
def externalIdForLease (leaseId : String) (account : Account) : Except PyError (Option String) :=
  if !context.hasAcquire then .ok none
  else
    match outside.fault .readLease with
    | some exc => .error exc
    | none =>
        .ok ((account.estate.leases.find? fun row => row.id = leaseId).bind fun row =>
          optionalString (.str row.runpodPodId))

/-- `_teardown_reason`. -/
def teardownReason (reason : Option String) (state : LeaseState) : String :=
  let default :=
    match state with
    | .expired => "lease_expired"
    | .failed => plugin.failedReason
    | _ => "operator_stop"
  match reason with
  | none => default
  | some reason => if strip reason = "" then default else strip reason

/-- `_close_lease`. -/
def closeLease (leaseId : String) (terminalState : LeaseState) (reason : Option String)
    (account : Account) : Except PyError Nat × Account :=
  if !context.hasAcquire then (.ok 0, account)
  else
    match utcNow context.now outside.clock, outside.fault .closeLease with
    | .error exc, _ | .ok _, some exc => (.error exc, account)
    | .ok now, none =>
        let matching := fun row : LeaseRow => row.id = leaseId ∧ row.state.terminal = false
        let changed := account.estate.leases.filter matching
        let leases := account.estate.leases.map fun row =>
          if matching row then { row with state := terminalState } else row
        (.ok changed.length,
          { account with
            estate := { account.estate with leases := leases }
            endings := account.endings ++ changed.map fun row =>
              ⟨row.id, now, teardownReason plugin reason terminalState⟩ })

/-- What `teardown` reads from the answer to its request. -/
def terminationAnswer (response : HttpResponse) : Except PyError JsonObject :=
  if response.statusCode = 404 then
    .ok [("success", .bool true), ("already_absent", .bool true)]
  else do
    raiseForStatus text.plugin plugin response
    let payload ← responsePayload response
    pure (rawObject payload)

/-- `teardown`, for a lease whose instance is known. -/
def terminateInstance (providerId leaseId externalId : String) (terminalState : LeaseState)
    (reason : Option String) (account : Account) : Except PyError TeardownResult × Account :=
  match resourceId plugin externalId with
  | .error exc => (.error exc, account)
  | .ok id =>
      let (answer, account) := sendRequest outside (plugin.terminationCall id) account
      match answer.bind (terminationAnswer text plugin) with
      | .error exc => (.error exc, account)
      | .ok raw =>
          let (updated, account) :=
            closeLease plugin outside context leaseId terminalState reason account
          (updated.map fun updated =>
            { providerId := providerId
              leaseId := leaseId
              externalId := some externalId
              raw := if updated = 0 then raw else raw.set "lease_updated" (.int updated) },
            account)

/-- `teardown`. -/
def teardown (providerId leaseId : String) (terminalState : LeaseState) (reason : Option String)
    (account : Account) : Except PyError TeardownResult × Account :=
  match externalIdForLease outside context leaseId account with
  | .error exc => (.error exc, account)
  | .ok none =>
      (.error ⟨plugin.errorType, plugin.title ++
        " teardown requires a persisted external id for lease " ++ text.repr leaseId⟩, account)
  | .ok (some externalId) =>
      terminateInstance text plugin outside context providerId leaseId externalId terminalState
        reason account

end Operations

section Requests
variable {text : StatusText} {plugin : Plugin} {outside : Backend} {context : OperationContext}
  {account account' : Account} {providerId leaseId x : String}

def OnlyReads (account account' : Account) : Prop :=
  ∃ reads, account'.calls = account.calls ++ reads ∧ ∀ call ∈ reads, call.method = "GET"

theorem OnlyReads.refl (account : Account) : OnlyReads account account := ⟨[], by simp⟩

theorem OnlyReads.of_calls (h : account'.calls = account.calls) : OnlyReads account account' :=
  ⟨[], by simp [h]⟩

theorem OnlyReads.trans {account'' : Account} (h : OnlyReads account account')
    (h' : OnlyReads account' account'') : OnlyReads account account'' := by
  obtain ⟨reads, hreads, hget⟩ := h
  obtain ⟨reads', hreads', hget'⟩ := h'
  refine ⟨reads ++ reads', by rw [hreads', hreads, List.append_assoc], fun call hcall => ?_⟩
  rcases List.mem_append.mp hcall with hcall | hcall
  · exact hget call hcall
  · exact hget' call hcall

theorem terminationCall_method (plugin : Plugin) (x : String) :
    (plugin.terminationCall x).method ≠ "GET" := by
  cases plugin with
  | vast => simp [Plugin.terminationCall]
  | lambdaCloud => simp [Plugin.terminationCall]

theorem terminationCall_injective {y : String}
    (h : plugin.terminationCall x = plugin.terminationCall y) : x = y := by
  cases plugin with
  | vast =>
    have hpath := congrArg (fun call => call.path.toList) h
    simp only [Plugin.terminationCall, String.toList_append] at hpath
    exact String.toList_inj.mp (List.append_cancel_left (List.append_cancel_right hpath))
  | lambdaCloud =>
    have hids := congrArg ApiCall.instanceIds h
    exact List.singleton_inj.mp hids

theorem OnlyReads.termination_iff (h : OnlyReads account account') :
    plugin.terminationCall x ∈ account'.calls ↔ plugin.terminationCall x ∈ account.calls := by
  obtain ⟨reads, hreads, hget⟩ := h
  rw [hreads, List.mem_append, or_iff_left]
  exact fun hmem => terminationCall_method plugin x (hget _ hmem)

theorem onlyReads_sendRequest (outside : Backend) (path : String) (account : Account) :
    OnlyReads account (sendRequest outside ⟨"GET", path, []⟩ account).2 :=
  ⟨[⟨"GET", path, []⟩], rfl, by simp⟩

theorem onlyReads_status (account : Account) :
    OnlyReads account (status text plugin outside providerId x account).2 := by
  unfold status
  split
  · exact .refl account
  · exact onlyReads_sendRequest outside _ account

theorem onlyReads_namedResources (externalIds : List String) (account : Account) :
    OnlyReads account (namedResources text plugin outside providerId externalIds account).2 := by
  induction externalIds generalizing account with
  | nil => exact .refl account
  | cons externalId rest ih =>
    have hstatus : OnlyReads account (status text plugin outside providerId externalId account).2 :=
      onlyReads_status account
    unfold namedResources
    split
    · rename_i heq
      rwa [heq] at hstatus
    · rename_i heq
      rw [heq] at hstatus
      exact hstatus.trans (ih _)

theorem onlyReads_markFailed (reason : String) (account : Account) :
    OnlyReads account (markFailed outside context providerId x reason account).2 := by
  unfold markFailed
  split
  · exact .refl account
  · split
    · exact .refl account
    · exact .refl account
    · exact .of_calls rfl

theorem onlyReads_markResources (resources : List JsonObject) (account : Account) :
    OnlyReads account
      (markResources text plugin outside context providerId resources account).2 := by
  induction resources generalizing account with
  | nil => exact .refl account
  | cons resource rest ih =>
    unfold markResources
    split
    · rename_i externalId reason _ _
      have hmark : OnlyReads account
          (markFailed outside context providerId externalId reason account).2 :=
        onlyReads_markFailed reason account
      split
      · rename_i heq
        rwa [heq] at hmark
      · rename_i heq
        rw [heq] at hmark
        exact hmark.trans (ih _)
    · exact ih account

theorem onlyReads_reconcile (externalIds : List String) (account : Account) :
    OnlyReads account
      (reconcile text plugin outside context providerId externalIds account).2 := by
  have hresources : OnlyReads account
      (reconciledResources text plugin outside providerId externalIds account).2 := by
    unfold reconciledResources
    split
    · exact onlyReads_sendRequest outside _ account
    · exact onlyReads_namedResources externalIds account
  unfold reconcile
  split
  · rename_i heq
    rwa [heq] at hresources
  · rename_i heq
    rw [heq] at hresources
    exact hresources.trans (onlyReads_markResources _ _)

theorem closeLease_calls (terminalState : LeaseState) (reason : Option String)
    (account : Account) :
    (closeLease plugin outside context leaseId terminalState reason account).2.calls =
      account.calls := by
  unfold closeLease
  split
  · rfl
  · split <;> rfl

theorem externalIdForLease_some
    (h : externalIdForLease outside context leaseId account = .ok (some x)) :
    context.hasAcquire = true ∧
      ∃ row, account.estate.leases.find? (fun row => row.id = leaseId) = some row ∧
        strip row.runpodPodId = x := by
  unfold externalIdForLease at h
  split at h
  · cases h
  · rename_i hpool
    split at h
    · cases h
    · obtain ⟨row, hrow, hid⟩ := Option.bind_eq_some_iff.mp (Except.ok.inj h)
      refine ⟨by simpa using hpool, row, hrow, ?_⟩
      by_cases hblank : strip row.runpodPodId = ""
      · simp [optionalString, hblank] at hid
      · simpa [optionalString, hblank] using hid

theorem teardown_ok {terminalState : LeaseState} {reason : Option String}
    {result : TeardownResult}
    (h : teardown text plugin outside context providerId leaseId terminalState reason account =
      (.ok result, account')) :
    context.hasAcquire = true ∧
      ∃ row, account.estate.leases.find? (fun row => row.id = leaseId) = some row ∧
        account'.calls = account.calls ++ [plugin.terminationCall (strip row.runpodPodId)] := by
  unfold teardown at h
  split at h
  · cases h
  · cases h
  · rename_i externalId hexternal
    obtain ⟨hpool, row, hrow, hid⟩ := externalIdForLease_some hexternal
    refine ⟨hpool, row, hrow, ?_⟩
    unfold terminateInstance at h
    split at h
    · cases h
    · rename_i id hresource
      obtain rfl : strip row.runpodPodId = id := by
        unfold resourceId at hresource
        split at hresource
        · cases hresource
        · rw [← hid, strip_strip] at hresource
          exact Except.ok.inj hresource
      dsimp only at h
      split at h
      · cases h
      · have hcalls := congrArg (fun result => result.2.calls) h
        simp only [closeLease_calls] at hcalls
        exact hcalls.symm

end Requests

section Leases
variable {text : PluginText} {plugin : Plugin} {request : ProvisionRequest}
  {outside : Surroundings} {estate estate' : Estate}

theorem persistCreatedLease_leased {x : String} {leaseId : Option String}
    (h : persistCreatedLease text request outside x estate = (.ok leaseId, estate')) :
    leaseId.isSome = true ↔ request.hasAcquire = true := by
  unfold persistCreatedLease at h
  split at h
  · rename_i hpool
    cases h
    simpa using hpool
  · rename_i hpool
    have hacquire : request.hasAcquire = true := by simpa using hpool
    split at h
    · cases h
    · split at h
      · cases h
        simp [hacquire]
      · cases h
      · cases h

/-- An instance that is handed out has a lease exactly where the pool has an `acquire`. -/
theorem provision_leased {result : ProvisionResult}
    (h : provision text plugin request outside estate = (.ok result, estate'))
    (hexternal : result.externalId.isSome = true) :
    result.leaseId.isSome = true ↔ request.hasAcquire = true := by
  unfold provision at h
  split at h
  · cases h
  · split at h
    · cases h
      cases hexternal
    · split at h
      · cases h
      · unfold recordCreated at h
        split at h
        · cases h
        · split at h
          · cases h
          · split at h
            · cases h
            · rename_i hpersisted
              cases h
              exact persistCreatedLease_leased hpersisted

end Leases

end Pitwall.Providers
