import Pitwall.Core.CanonicalJson
import Pitwall.Core.Inference
import Pitwall.Library.Machine
set_option autoImplicit false

/-!
`POST /v1/inference` as a process, and the requests that share an idempotency key. A request
is taken to run its own execution: the coalescer only lets one wait for another.
-/

namespace Pitwall
open Machine

def imageChangeFields : List String :=
  ["image_ref", "worker_image", "image", "runpod_template_id", "template_id", "template_name"]

def gpuChangeFields : List String :=
  ["gpu_class", "gpu_type", "gpu_type_id", "gpu_name", "gpu_types", "gpu_type_ids", "gpuTypeIds",
    "gpu_classes", "gpu_type_priority", "gpu_count", "gpu_type_priority_mode",
    "gpu_selection_priority"]

def volumeChangeFields : List String :=
  ["volume_id", "network_volume_id", "volume_mount", "volume_mount_path"]

/-- The supplied fields of a body that spans more than one axis of a paid launch. -/
def leasePatchConflictingFields (patch : JsonObject) : List String :=
  let fieldsByAxis := [imageChangeFields, gpuChangeFields, volumeChangeFields].map
    (fun axis => axis.filter fun field => patch.hasKey field)
  let conflictingAxes := fieldsByAxis.filter fun fields => !fields.isEmpty
  if conflictingAxes.length ≤ 1 then [] else conflictingAxes.flatten

/-- `_INFERENCE_CONTROL_FIELDS`. -/
def inferenceControlFields : List String :=
  ["capability_id", "capability", "capability_name", "provider_id", "dry_run", "idempotency_key"]

/-- What the handler reads of a `PreSpendPayloadScanResult`. -/
structure PreSpendScan where
  block : Bool
  redactedPayload : Json
  uniqueKeys : redactedPayload.UniqueKeys

structure InferenceRequest where
  capabilityId : String
  dryRun : Bool
  idempotencyKey : Option String

/-- A request as it arrives, byte for byte. -/
structure InferencePost where
  body : InferenceRequest
  rawBody : JsonObject
  rawBodyKeys : (Json.obj rawBody).UniqueKeys
  payloadBytes : Int
  idempotencyKeyHeader : Option String

/-- `idempotency_key_header or body.idempotency_key`. -/
def InferencePost.idempotencyKey (p : InferencePost) : Option String :=
  nonEmpty p.idempotencyKeyHeader <|> p.body.idempotencyKey

def InferencePost.passedOn (p : InferencePost) : JsonObject :=
  p.rawBody.filter fun field => field.1 ∉ inferenceControlFields

structure SyncTarget where
  gate : BudgetGate
  capabilityId : String
  capabilityName : String
  providerId : String
  providerType : String
  /-- The outcome of `_quote(...).upper_bound()` on the parameters. -/
  quote : Except PyError RawAmount
  eligibleProviderIds : List String

/-- A request with what it finds in the registry: the outcome of `resolve_inference_target`
and the id of the trace it emits. -/
structure InferenceCall where
  post : InferencePost
  target : Except PyError SyncTarget
  traceId : Option String

inductive HandlerError where
  | changeSetTooBroad (fields : List String)
  | preSpendPayloadRejected
  | idempotencyMismatch (workloadId : String)
  | call : CallError → HandlerError
  | raised : PyError → HandlerError

def HandlerError.mismatch : HandlerError → Bool
  | .idempotencyMismatch _ | .call (.reservation (.idempotencyMismatch _)) => true
  | _ => false

inductive AnswerSource where
  | replayed (workloadId : String)
  | dryRun
  | executed (admission : BudgetAdmission)

/-- Where a `create_inference` request stands. -/
inductive InferenceState where
  | received
  | lookingUp (key : String)
  | resolving
  | executing (call : SyncCall) (state : SyncState)
  | tracing (admission : BudgetAdmission) (result : Json)
  | answered (source : AnswerSource) (workloadId : String) (result : Json)
  | raised (admission : Option BudgetAdmission) (called : Bool) (error : HandlerError)

def dryRunResult (t : SyncTarget) : Json :=
  .obj [("dry_run", .bool true), ("capability_id", .str t.capabilityId),
    ("capability_name", .str t.capabilityName), ("selected_provider_id", .str t.providerId),
    ("provider_type", .str t.providerType),
    ("eligible_provider_ids", .arr (t.eligibleProviderIds.map .str))]

/-- `_UPDATE_LANGFUSE_TRACE_SQL`. -/
def Workloads.updateLangfuseTrace (t : Workloads) (id traceId : String) : Workloads :=
  t.updateById id (fun _ => true)
    { set := fun w => { w with langfuseTraceId := some traceId }, keeps := fun _ => rfl }

section Step
variable (text : JsonText) (order : KeyOrder) (scan : JsonObject → PreSpendScan)

def InferencePost.capabilityParams (p : InferencePost) : JsonObject :=
  match (scan p.passedOn).redactedPayload with
  | .obj redacted => redacted
  | _ => p.passedOn

/-- The call that `_execute_sync_inference` makes of a resolved request. -/
def InferencePost.syncCall (p : InferencePost) (t : SyncTarget) : SyncCall where
  gate := t.gate
  capabilityId := t.capabilityId
  providerId := t.providerId
  quote := t.quote
  payload := .obj (p.capabilityParams scan)
  idempotencyKey := p.idempotencyKey
  submittedAt := none
  inputBytes := some p.payloadBytes
  fallbackChain := t.eligibleProviderIds

/-- `original_input is not None and` the canonical texts differ. -/
def inputDiffers (input : Option Json) (capabilityParams : JsonObject) : Bool :=
  match input.map order.readBack with
  | none | some .null => false
  | some stored => canonicalJson stored ≠ canonicalJson (.obj capabilityParams)

def inferenceStep (c : InferenceCall) (l : InferenceState) (s : Ledger) (i : StepInput) :
    Ledger × InferenceState :=
  match l with
  | .received =>
      match leasePatchConflictingFields c.post.rawBody with
      | [] =>
          if (scan c.post.passedOn).block then (s, .raised none false .preSpendPayloadRejected)
          else
            match c.post.idempotencyKey with
            | none => (s, .resolving)
            | some key => (s, .lookingUp key)
      | fields => (s, .raised none false (.changeSetTooBroad fields))
  | .lookingUp key =>
      match i.fault, s.workloads.byKey key with
      | some e, _ => (s, .raised none false (.raised e))
      | none, none => (s, .resolving)
      | none, some w =>
          if inputDiffers order w.input (c.post.capabilityParams scan) then
            (s, .raised none false (.idempotencyMismatch w.id))
          else (s, .answered (.replayed w.id) w.id (replayResult WorkloadState.value w))
  | .resolving =>
      match i.fault, c.target with
      | some e, _ | none, .error e => (s, .raised none false (.raised e))
      | none, .ok t =>
          if c.post.body.dryRun then
            (s, .answered .dryRun ("dry_run_inference_" ++ (t.capabilityId.take 8).toString)
              (dryRunResult t))
          else (s, .executing (c.post.syncCall scan t) .quoting)
  | .executing call state =>
      match syncStep text call state s i with
      | (s', .returned a result) => (s', .tracing a result)
      | (s', .raised a called e) => (s', .raised a called (.call e))
      | (s', state') => (s', .executing call state')
  | .tracing a result =>
      match i.fault, nonEmpty c.traceId with
      | some e, _ => (s, .raised (some a) a.isNew (.raised e))
      | none, none => (s, .answered (.executed a) a.workloadId result)
      | none, some traceId =>
          (s.withWorkloads (s.workloads.updateLangfuseTrace a.workloadId traceId),
            .answered (.executed a) a.workloadId result)
  | .answered source id result => (s, .answered source id result)
  | .raised a called e => (s, .raised a called e)

end Step

/-- `_idempotency_gc`. -/
def Ledger.idempotencyGc (s : Ledger) (now : Instant) : Ledger :=
  { s with
    idempotencyKeys := s.idempotencyKeys.delete fun r => r.createdAt < now - microsPerDay }

/-- A request that may carry an idempotency key, with the place it has reached. -/
inductive KeyedRequest where
  | inference (call : InferenceCall) (state : InferenceState)
  | job (call : JobCall) (state : JobState)

def KeyedRequest.answered : KeyedRequest → Bool
  | .inference _ (.answered _ _ _) => true
  | .job _ (.returned _ _) => true
  | _ => false

inductive KeyedEvent (ι : Type) where
  | request (caller : ι) (input : StepInput)
  | idempotencyGc (now : Instant)
  /-- `apply_terminal_state`, from the poller or from the webhook job. -/
  | reconcile (id : String) (state : WorkloadState) (actualCost : Option ℚ)
      (completedAt : Instant)

section System
variable (text : JsonText) (order : KeyOrder) (scan : JsonObject → PreSpendScan)

def keyedRequestStep (r : KeyedRequest) (s : Ledger) (i : StepInput) : Ledger × KeyedRequest :=
  match r with
  | .inference c l =>
      ((inferenceStep text order scan c l s i).1,
        .inference c (inferenceStep text order scan c l s i).2)
  | .job c l => ((jobStep c l s i).1, .job c (jobStep c l s i).2)

/-- Any number of requests over one ledger, interleaved with each other, with the
reconciler and with the collection of old keys. -/
def keyedStep {ι : Type} [DecidableEq ι] (c : Config Ledger ι KeyedRequest) :
    KeyedEvent ι → Config Ledger ι KeyedRequest
  | .request caller input => c.next (fun _ => keyedRequestStep text order scan) (caller, input)
  | .idempotencyGc now => { c with shared := c.shared.idempotencyGc now }
  | .reconcile id state actualCost completedAt =>
      { c with
        shared := c.shared.withWorkloads
          (c.shared.workloads.applyTerminalState id state actualCost completedAt) }

variable {text order scan}

theorem forall_requests_step {ι : Type} [DecidableEq ι] {P : KeyedRequest → Prop}
    {c : Config Ledger ι KeyedRequest} {k : ι} {i : StepInput} (h : ∀ j, P (c.procs j))
    (hstep : P (keyedRequestStep text order scan (c.procs k) c.shared i).2) (j : ι) :
    P ((keyedStep text order scan c (.request k i)).procs j) := by
  unfold keyedStep
  exact Config.forall_procs_next h hstep j

end System

end Pitwall
