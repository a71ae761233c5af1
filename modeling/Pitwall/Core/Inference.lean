import Pitwall.Cost.SyncGate
set_option autoImplicit false

/-!
The asynchronous path: `create_and_dispatch_job`, the two ways to cancel a job, and
the guarded transitions they share with the reconciler.
-/

namespace Pitwall

namespace Workloads

/-- `transition_workload`: one `UPDATE ... WHERE id = $n AND state IN (...)`, and
whether it hit a row. -/
def transitionWorkload (t : Workloads) (id : String) (fromStates : List WorkloadState)
    (toState : WorkloadState) (patch : Table.Assignment Workload.uniq) : Bool × Workloads :=
  (t.rows.any (fun w => w.id = id && w.state ∈ fromStates),
    t.updateById id (fun w => w.state ∈ fromStates)
      { set := fun w => { patch.set w with state := toState }
        keeps := patch.keeps })

def noPatch : Table.Assignment Workload.uniq where
  set := id
  keeps := fun _ => rfl

/-- `WorkloadRepository.update_state(id, state)`, with no other column given. -/
def updateState (t : Workloads) (id : String) (state : WorkloadState) : Workloads :=
  t.updateById id (fun _ => true)
    { set := fun w => { w with state := state }, keeps := fun _ => rfl }

/-- `_APPLY_TERMINAL_SQL`. -/
def applyTerminalState (t : Workloads) (id : String) (state : WorkloadState)
    (actualCost : Option ℚ) (completedAt : Instant) : Workloads :=
  t.updateById id (fun w => !w.state.terminal)
    { set := fun w => { w with
        state := state
        costActualUsd := actualCost
        completedAt := some completedAt }
      keeps := fun _ => rfl }

/-- `_UPDATE_ASYNC_WORKLOAD_INPUT_SQL`. -/
def updateInput (t : Workloads) (id : String) (input : Json) : Workloads :=
  t.updateById id (fun _ => true)
    { set := fun w => { w with input := some input }, keeps := fun _ => rfl }

/-- `_UPDATE_RUNPOD_JOB_ID_SQL`. -/
def updateRunpodJobId (t : Workloads) (id jobId : String) : Workloads :=
  t.updateById id (fun _ => true)
    { set := fun w => { w with runpodJobId := some jobId }, keeps := fun _ => rfl }

def dispatchFailedPatch (completedAt : Instant) (exc : PyError) :
    Table.Assignment Workload.uniq where
  set := fun w => { w with
    completedAt := some completedAt
    costActualUsd := some 0
    error := some (errorPayload exc) }
  keeps := fun _ => rfl

def markAsyncDispatchFailed (t : Workloads) (id : String) (completedAt : Instant)
    (exc : PyError) : Bool × Workloads :=
  t.transitionWorkload id [.queued] .failed (dispatchFailedPatch completedAt exc)

end Workloads

structure JobCall where
  gate : BudgetGate
  capabilityId : String
  providerId : String
  runpodEndpointId : Option String
  /-- The outcome of `quote_cost(...)` and its upper bound. -/
  quote : Except PyError RawAmount
  capabilityParams : Json
  idempotencyKey : Option String
  /-- For a webhook URL, the outcome of resolving it. -/
  webhookUrl : Option (Except PyError String)

def JobCall.launchRequest (c : JobCall) (upperBound : RawAmount) (submittedAt : Instant) :
    LaunchRequest where
  capabilityId := c.capabilityId
  providerId := c.providerId
  estimateUsd := .estimate upperBound
  workloadType := "async_job"
  submittedAt := some submittedAt
  idempotencyKey := c.idempotencyKey
  beforeNewAdmission := none

/-- Where a `create_and_dispatch_job` call stands. -/
inductive JobState where
  | validating
  | admitting (endpointId : String) (webhook : Option String) (upperBound : RawAmount)
  | loadingReplay (id : String)
  | updatingInput (id endpointId : String) (webhook : Option String)
  | dispatching (id endpointId : String) (webhook : Option String)
  | markingFailed (id : String) (exc : PyError)
  | savingJobId (id jobId : String)
  | loading (id : String)
  | returned (admission : BudgetAdmission) (workload : Workload)
  | raised (admission : Option BudgetAdmission) (called : Bool) (error : CallError)

def JobState.admission : JobState → Option BudgetAdmission
  | .validating | .admitting _ _ _ => none
  | .loadingReplay id => some ⟨id, false⟩
  | .updatingInput id _ _ | .dispatching id _ _ | .markingFailed id _ | .savingJobId id _
  | .loading id => some ⟨id, true⟩
  | .returned a _ => some a
  | .raised a _ _ => a

def JobState.called : JobState → Bool
  | .markingFailed _ _ | .savingJobId _ _ | .loading _ => true
  | .returned a _ => a.isNew
  | .raised _ called _ => called
  | _ => false

def admittedNotFound (id : String) : CallError :=
  .raised ⟨"RuntimeError", s!"admitted workload '{id}' was not found"⟩

def jobStep (c : JobCall) (l : JobState) (s : Ledger) (i : StepInput) : Ledger × JobState :=
  match l with
  | .validating =>
      match nonEmpty c.runpodEndpointId, c.webhookUrl, c.quote with
      | none, _, _ => (s, .raised none false (.raised ⟨"ProviderNotFound", c.providerId⟩))
      | some _, some (.error e), _ => (s, .raised none false (.raised e))
      | some _, _, .error e => (s, .raised none false (.raised e))
      | some endpointId, some (.ok url), .ok upperBound =>
          (s, .admitting endpointId (some url) upperBound)
      | some endpointId, none, .ok upperBound => (s, .admitting endpointId none upperBound)
  | .admitting endpointId webhook upperBound =>
      match i.fault with
      | some e => (s, .raised none false (.raised e))
      | none =>
        match c.gate.launch (c.launchRequest upperBound i.env.utcNow) i.env s.workloads with
        | (.error e, t) => (s.withWorkloads t, .raised none false (.admission e))
        | (.ok a, t) =>
            (s.withWorkloads t,
              if a.isNew then .updatingInput a.workloadId endpointId webhook
              else .loadingReplay a.workloadId)
  | .loadingReplay id =>
      match i.fault, s.workloads.byId id with
      | some e, _ => (s, .raised (some ⟨id, false⟩) false (.raised e))
      | none, none => (s, .raised (some ⟨id, false⟩) false (admittedNotFound id))
      | none, some w => (s, .returned ⟨id, false⟩ w)
  | .updatingInput id endpointId webhook =>
      match i.fault with
      | some e => (s, .raised (some ⟨id, true⟩) false (.raised e))
      | none =>
          (s.withWorkloads (s.workloads.updateInput id c.capabilityParams),
            .dispatching id endpointId webhook)
  | .dispatching id endpointId webhook =>
      match i.queueJob with
      | .ok jobId =>
          (s.send (.queueRun endpointId c.capabilityParams webhook), .savingJobId id jobId)
      | .error failure =>
          (s.send (.queueRun endpointId c.capabilityParams webhook),
            if failure.caught then .markingFailed id failure.exc
            else .raised (some ⟨id, true⟩) true (.raised failure.exc))
  | .markingFailed id exc =>
      match i.fault with
      | some e => (s, .raised (some ⟨id, true⟩) true (.raised e))
      | none =>
          (s.withWorkloads (s.workloads.markAsyncDispatchFailed id i.env.utcNow exc).2,
            .raised (some ⟨id, true⟩) true (.raised exc))
  | .savingJobId id jobId =>
      match i.fault with
      | some e => (s, .raised (some ⟨id, true⟩) true (.raised e))
      | none => (s.withWorkloads (s.workloads.updateRunpodJobId id jobId), .loading id)
  | .loading id =>
      match i.fault, s.workloads.byId id with
      | some e, _ => (s, .raised (some ⟨id, true⟩) true (.raised e))
      | none, none => (s, .raised (some ⟨id, true⟩) true (admittedNotFound id))
      | none, some w => (s, .returned ⟨id, true⟩ w)
  | .returned a w => (s, .returned a w)
  | .raised a called e => (s, .raised a called e)

/-- Where a `POST /v1/jobs/{id}/cancel` request stands. -/
inductive RestCancelState where
  | reading
  | cancelling (endpointId jobId : String)
  | updating
  | responded (workload : Workload)
  | raised (exc : PyError)

def workloadNotFound (id : String) : PyError := ⟨"WorkloadNotFound", id⟩

/-- The handler cancels at RunPod under `workload.provider_id`. -/
def restCancelStep (id : String) (l : RestCancelState) (s : Ledger) (i : StepInput) :
    Ledger × RestCancelState :=
  match l with
  | .reading =>
      match i.fault, s.workloads.byId id with
      | some e, _ => (s, .raised e)
      | none, none => (s, .raised (workloadNotFound id))
      | none, some w =>
          if w.state.terminal then (s, .responded w)
          else
            match w.state, w.runpodJobId with
            | .running, some jobId => (s, .cancelling w.providerId jobId)
            | _, _ => (s, .updating)
  | .cancelling endpointId jobId =>
      match i.queueJob with
      | .error _ => (s.send (.queueCancel endpointId jobId), .raised ⟨"RateLimited", "3"⟩)
      | .ok _ => (s.send (.queueCancel endpointId jobId), .updating)
  | .updating =>
      match i.fault with
      | some e => (s, .raised e)
      | none =>
          let t := s.workloads.updateState id .cancelled
          (s.withWorkloads t,
            match t.byId id with
            | none => .raised (workloadNotFound id)
            | some w => .responded w)
  | .responded w => (s, .responded w)
  | .raised e => (s, .raised e)

/-- Where a core `cancel_job` call stands; it works on the row it read first. -/
inductive CoreCancelState where
  | reading
  | transitioning (workload : Workload)
  | lookingUpProvider (workload : Workload) (jobId providerId : String)
  | cancelling (workload : Workload) (endpointId jobId : String)
  | refreshing (workload : Workload)
  | returned (workload : Option Workload) (cancelled : Bool)
  | raised (exc : PyError)

/-- `endpointOf` reads `runpod_endpoint_id` of a provider row. -/
def coreCancelStep (endpointOf : String → Option String) (id : String) (l : CoreCancelState)
    (s : Ledger) (i : StepInput) : Ledger × CoreCancelState :=
  match l with
  | .reading =>
      match i.fault, s.workloads.byId id with
      | some e, _ => (s, .raised e)
      | none, none => (s, .returned none false)
      | none, some w => (s, .transitioning w)
  | .transitioning w =>
      match i.fault with
      | some e => (s, .raised e)
      | none =>
          let (transitioned, t) :=
            s.workloads.transitionWorkload id [.queued, .running] .cancelled Workloads.noPatch
          (s.withWorkloads t,
            if transitioned then
              match nonEmpty w.runpodJobId, nonEmpty (some w.providerId) with
              | some jobId, some providerId => .lookingUpProvider w jobId providerId
              | _, _ => .refreshing w
            else .returned (some w) false)
  | .lookingUpProvider w jobId providerId =>
      match i.fault, nonEmpty (endpointOf providerId) with
      | some e, _ => (s, .raised e)
      | none, some endpointId => (s, .cancelling w endpointId jobId)
      | none, none => (s, .refreshing w)
  | .cancelling w endpointId jobId =>
      -- A failed RunPod cancel is logged and ignored.
      (s.send (.queueCancel endpointId jobId), .refreshing w)
  | .refreshing w =>
      match i.fault with
      | some e => (s, .raised e)
      | none => (s, .returned (some ((s.workloads.byId id).getD w)) true)
  | .returned w cancelled => (s, .returned w cancelled)
  | .raised e => (s, .raised e)

end Pitwall
