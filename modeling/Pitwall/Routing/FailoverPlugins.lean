import Pitwall.Leases.Teardown
import Pitwall.Library.Machine
import Pitwall.Routing.Failover
set_option autoImplicit false

/-!
The four provider plugins of the default registry, as targets of a failover.
-/

namespace Pitwall.Routing.Failover
open Providers (ProviderRecord ProvisionResult ResourceStatus StatusResult StatusText Account
  leaseIdForProvider normalizedText)

/-- What the plugins act on: the accounts with Vast and Lambda Cloud, and the RunPod pods. -/
structure Cloud where
  account : Account
  fleet : Fleet

section RunPod

/-- What is outside of the RunPod plugin: the pods that it is shown, what enters a launch, the
inputs of the steps of a launch and of a teardown, and what a pool without `acquire` raises. -/
structure RunPodOutside where
  validate : Json → Except (List String) Json
  getPod : Fleet → String → Except PyError (Option JsonObject)
  getPods : Fleet → Except PyError (List JsonObject)
  defaultGate : BudgetGate
  plannedEndpoints : ProviderRecord → Json
  estimate : ProvisionRequest → Except PyError RawAmount
  leaseSuffix : String
  launchInputs : List LaunchInput
  launchException : LaunchError → PyError
  teardownText : PyText
  teardownInputs : List TeardownInput
  poolError : PyError

namespace RunPod
variable (text : StatusText) (outside : RunPodOutside)

/-- `_optional_string`, which does not strip. -/
def optionalString (value : Option String) : Option String :=
  value.filter fun s => strip s ≠ ""

/-- `_status_text`. -/
def statusText (pod : JsonObject) : String :=
  (["desiredStatus", "desired_status", "status", "state"].findSome? fun key =>
    match pod.get key with
    | .str s => if strip s = "" then none else some (text.lower (strip s))
    | _ => none).getD ""

/-- `_has_runtime_signal`. -/
def hasRuntimeSignal (pod : JsonObject) : Bool :=
  match pod.get "runtime" with
  | .obj runtime => !runtime.isEmpty
  | _ => false

/-- `_pod_status`. -/
def podStatus (pod : JsonObject) : ResourceStatus :=
  let status := statusText text pod
  if status ∈ ["running", "ready"] ∨ hasRuntimeSignal pod then .running
  else if status ∈ ["creating", "starting", "pending", "initializing"] then .provisioning
  else if status ∈ ["failed", "error", "unhealthy"] then .failed
  else if status ∈ ["exited", "stopped", "terminated", "deleted"] then .terminated
  else .unknown

def status (r : StatusRequest) (w : Cloud) : Outcome StatusResult × Cloud :=
  (.ofExcept ((outside.getPod w.fleet r.externalId).map fun
    | none => ⟨r.record.id, r.externalId, .terminated, []⟩
    | some pod => ⟨r.record.id, r.externalId, podStatus text pod, pod⟩), w)

/-- The call of `run_launch`. -/
def launchCall (r : ProvisionRequest) : LaunchCall where
  gate := r.budgetGate.getD outside.defaultGate
  capabilityId := r.capabilityId
  providerId := r.record.id
  providerConfig := r.record.config
  plannedEndpoints := outside.plannedEndpoints r.record
  estimate := outside.estimate r
  idempotencyKey := r.idempotencyKey
  leaseId := leaseIdForProvider r.record.id outside.leaseSuffix

/-- The inputs of a launch: without an `acquire` no template is looked up. -/
def launchInputs (r : ProvisionRequest) : List LaunchInput :=
  if r.context.hasAcquire then outside.launchInputs
  else outside.launchInputs.map fun i => { i with plan := .error outside.poolError }

def launch (r : ProvisionRequest) (fleet : Fleet) : Fleet × LaunchState :=
  Machine.run (fun s i => launchStep (launchCall outside r) s.2 s.1 i) (fleet, .admitting)
    (launchInputs outside r)

/-- The result that `provision` makes of the end of a launch. -/
def provisionOutcome (r : ProvisionRequest) (l : LaunchState) : Outcome ProvisionResult :=
  match l with
  | .returned workloadId podId =>
      .returned
        { providerId := r.record.id
          externalId := optionalString podId
          leaseId := optionalString (some (launchCall outside r).leaseId)
          workloadId := some workloadId }
  | .fallback workloadId _ =>
      .returned
        { providerId := r.record.id
          externalId := none
          leaseId := none
          workloadId := some workloadId }
  | .raised _ err => .raised (outside.launchException err)
  | _ => .pending

def provision (r : ProvisionRequest) (w : Cloud) : Outcome ProvisionResult × Cloud :=
  if r.dryRun then
    match (launchInputs outside r).head? with
    | none => (.pending, w)
    | some i => (.ofExcept (i.plan.map fun _ => ⟨r.record.id, none, none, none⟩), w)
  else
    let result := launch outside r w.fleet
    (provisionOutcome outside r result.2, { w with fleet := result.1 })

/-- `reconcile` of named pods looks at each of them, else at the list of all pods. -/
def reconcile (r : ReconcileRequest) (w : Cloud) : Outcome Unit × Cloud :=
  if r.externalIds = [] then (.ofExcept ((outside.getPods w.fleet).map fun _ => ()), w)
  else (.ofExcept ((r.externalIds.mapM (outside.getPod w.fleet)).map fun _ => ()), w)

/-- The call of `run_teardown`. A naive `now` fails a statement, as one of the inputs. -/
def teardownCall (r : TeardownRequest) : TeardownCall where
  leaseId := r.leaseId
  terminalState := r.terminalState
  reason := r.reason
  now := r.context.now.bind fun
    | .aware wall offset => some (wall - offset)
    | _ => none
  hasRedis := r.context.hasRedis

def teardownRun (r : TeardownRequest) (fleet : Fleet) : Fleet × TeardownState :=
  Machine.run (fun s i => teardownStep outside.teardownText (teardownCall r) s.2 s.1 i)
    (fleet, .reading) outside.teardownInputs

def teardown (r : TeardownRequest) (w : Cloud) : Outcome Unit × Cloud :=
  if !r.context.hasAcquire then (.raised outside.poolError, w)
  else
    let result := teardownRun outside r w.fleet
    match result.2 with
    | .returned _ _ => (.returned (), { w with fleet := result.1 })
    | .raised exc => (.raised exc, { w with fleet := result.1 })
    | _ => (.pending, { w with fleet := result.1 })

def plugin : Plugin Cloud where
  validate := outside.validate
  status := status text outside
  provision := provision outside
  reconcile := reconcile outside
  teardown := teardown outside

end RunPod

end RunPod

section Instances

structure InstancesOutside where
  validate : Json → Except (List String) Json
  prepare : ProvisionRequest → Except PyError JsonObject
  admission : ProvisionRequest → Except PyError (Option String)
  surroundings : ProvisionRequest → Providers.Surroundings
  backend : Providers.Backend

def onAccount {α β : Type} (f : α → β) (x : Except PyError α × Account) (w : Cloud) :
    Outcome β × Cloud :=
  (.ofExcept (x.1.map f), { w with account := x.2 })

namespace Instances
variable (text : StatusText) (plugin : Providers.Plugin) (outside : InstancesOutside)

def status (r : StatusRequest) (w : Cloud) : Outcome StatusResult × Cloud :=
  onAccount id (Providers.status text plugin outside.backend r.record.id r.externalId w.account) w

def provisionRequest (r : ProvisionRequest) : Providers.ProvisionRequest where
  record := r.record
  dryRun := r.dryRun
  prepared := outside.prepare r
  admitted := outside.admission r
  hasAcquire := r.context.hasAcquire
  now := r.context.now

def provision (r : ProvisionRequest) (w : Cloud) : Outcome ProvisionResult × Cloud :=
  let (result, estate) := Providers.provision text.plugin plugin (provisionRequest outside r)
    (outside.surroundings r) w.account.estate
  (.ofExcept result, { w with account := { w.account with estate := estate } })

def reconcile (r : ReconcileRequest) (w : Cloud) : Outcome Unit × Cloud :=
  onAccount (fun _ => ())
    (Providers.reconcile text plugin outside.backend r.context r.record.id r.externalIds
      w.account) w

def teardown (r : TeardownRequest) (w : Cloud) : Outcome Unit × Cloud :=
  onAccount (fun _ => ())
    (Providers.teardown text plugin outside.backend r.context r.record.id r.leaseId
      r.terminalState r.reason w.account) w

def asPlugin : Plugin Cloud where
  validate := outside.validate
  status := status text plugin outside
  provision := provision text plugin outside
  reconcile := reconcile text plugin outside
  teardown := teardown text plugin outside

end Instances

end Instances

section Together

def inferenceOnly : PyError :=
  ⟨"NotImplementedError", "TogetherProvider is inference-only; use infer()"⟩

def togetherPlugin (validate : Json → Except (List String) Json) : Plugin Cloud where
  validate := validate
  status _ w := (.raised inferenceOnly, w)
  provision _ w := (.raised inferenceOnly, w)
  reconcile _ w := (.raised inferenceOnly, w)
  teardown _ w := (.raised inferenceOnly, w)

end Together

/-- A plugin of this repository, with what is outside of it. -/
inductive Builtin where
  | runpod (outside : RunPodOutside)
  | instances (plugin : Providers.Plugin) (outside : InstancesOutside)
  | together (validate : Json → Except (List String) Json)

def Builtin.plugin (text : StatusText) : Builtin → Plugin Cloud
  | runpod outside => RunPod.plugin text outside
  | instances plugin outside => Instances.asPlugin text plugin outside
  | together validate => togetherPlugin validate

/-- `create_default_registry`. -/
def createDefaultRegistry (text : StatusText) (runpod : RunPodOutside)
    (vast lambdaCloud : InstancesOutside) (together : Json → Except (List String) Json) :
    ProviderRegistry Cloud :=
  [("runpod", (Builtin.runpod runpod).plugin text),
    ("vast", (Builtin.instances .vast vast).plugin text),
    ("together", (Builtin.together together).plugin text),
    ("lambda_cloud", (Builtin.instances .lambdaCloud lambdaCloud).plugin text)]

end Pitwall.Routing.Failover
