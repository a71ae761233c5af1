import Pitwall.Library.Machine
import Pitwall.Reconciler.Terminal
set_option autoImplicit false

/-!
`_poll_and_reconcile`: one read at RunPod for each open workload, and the second copy of what
follows a terminal status. Sweeps and webhook jobs run side by side.
-/

namespace Pitwall
open Machine

/-- A row of `_POLL_RECONCILE_QUERY`. -/
structure PollRow where
  id : String
  runpodJobId : Option String
  providerId : String
  runpodEndpointId : Option String
  providerType : ProviderType

/-- `_POLL_RECONCILE_QUERY`. -/
def pollRows (d : Deployment) (t : Workloads) : List PollRow :=
  t.rows.filterMap fun w =>
    if !w.state.terminal && w.runpodJobId.isSome then
      (d.providers.get w.providerId).map fun p =>
        ⟨w.id, w.runpodJobId, w.providerId, p.runpodEndpointId, p.providerType⟩
    else none

/-- How the body of the loop gets its status: an exception that it catches, a status other
than `None`, or no status. -/
inductive StatusRead where
  | failed
  | none
  | status (value : Json)

/-- `str(data.get("status", ""))`. -/
def queueStatusText (text : PyText) (data : JsonObject) : String :=
  match data.get? "status" with
  | Option.none => ""
  | some (.str status) => status
  | some value => text.str value

/-- `QueueClient.status(...).status`, from the JSON of the response. The model `QueueJob`
refuses an output that is no object and an error that is no text. -/
def queueStatus (text : PyText) : Option Json → StatusRead
  | some (.obj data) =>
      match JsonObject.get data "output", JsonObject.get data "error" with
      | .null, .null | .obj _, .null | .null, .str _ | .obj _, .str _ =>
          .status (.str (queueStatusText text data))
      | _, _ => .failed
  | _ => .failed

/-- `runtime.get("podStatus") or runtime.get("status")` of a pod; a `runtime` that is neither
missing nor an object has no `get`. -/
def podStatus (pod : JsonObject) : StatusRead :=
  match (pod.get "runtime").orElse (.obj []) with
  | .obj runtime =>
      match (JsonObject.get runtime "podStatus").orElse (JsonObject.get runtime "status") with
      | .null => .none
      | value => .status value
  | _ => .failed

def leaseStatus (podId : String) (get : GetOutcome) : StatusRead :=
  match getPodSync podId get with
  | .error _ => .failed
  | .ok Option.none => .status (.str "TIMED_OUT")
  | .ok (some pod) => podStatus pod

/-- The `try` block. -/
def readStatus (text : PyText) (providerType : ProviderType) (jobId : String) (i : PathInput) :
    StatusRead :=
  match providerType with
  | .serverlessQueue => queueStatus text i.queue
  | .podLease => leaseStatus jobId i.pod
  | _ => .none

/-- `map_runpod_status(status_str)`, which looks the value up in a dict. -/
def mapPolledStatus (now : Instant) : Json → Except PyError (Option TerminalStatus)
  | .str status => .ok (mapRunpodStatus status Option.none now)
  | .arr _ => .error ⟨"TypeError", "unhashable type: 'list'"⟩
  | .obj _ => .error ⟨"TypeError", "unhashable type: 'dict'"⟩
  | _ => .ok Option.none

/-- What the sweep was started with: whether `ctx` has a pool and a Redis client, and whether
`RUNPOD_API_KEY` is set. -/
structure PollCall where
  pool : Bool
  apiKey : Bool
  redis : Bool

/-- Where a sweep stands; `rest` are the rows that it has not come to. The read that led to
an update is what the local variables hold at that point. -/
inductive PollState where
  | selecting
  | reading (rows : List PollRow)
  | updating (row : PollRow) (read : PathInput) (status : TerminalStatus) (rest : List PollRow)
  | refetching (id : String) (rest : List PollRow)
  | publishing (event : JsonObject) (rest : List PollRow)
  | returned
  | raised (exc : PyError)

section Step
variable (d : Deployment)

/-- From the head of the loop to the `UPDATE` or the next row. -/
def pollRead (row : PollRow) (rest : List PollRow) (i : PathInput) : PollState :=
  match nonEmpty row.runpodEndpointId, nonEmpty row.runpodJobId with
  | some _, some jobId =>
    match readStatus d.json row.providerType jobId i with
    | .failed | .none => .reading rest
    | .status value =>
      match mapPolledStatus i.utcNow value with
      | .error e => .raised e
      | .ok Option.none => .reading rest
      | .ok (some status) => .updating row i status rest
  | _, _ => .reading rest

def pollStep (c : PollCall) (l : PollState) (s : Reconciling) (i : PathInput) :
    Reconciling × PollState :=
  match l with
  | .selecting =>
      if !c.pool || !c.apiKey then (s, .returned)
      else
        match i.fault with
        | some e => (s, .raised e)
        | none => (s, .reading (pollRows d s.workloads))
  | .reading [] => (s, .returned)
  | .reading (row :: rest) => (s, pollRead d row rest i)
  | .updating row _ status rest =>
      match i.fault with
      | some e => (s, .raised e)
      | none =>
          (s.apply row.id status,
            if s.workloads.opens row.id && c.redis then .refetching row.id rest
            else .reading rest)
  | .refetching id rest =>
      match i.fault, s.workloads.byId id with
      | some e, _ => (s, .raised e)
      | none, none => (s, .reading rest)
      | none, some w =>
          let event := buildWorkloadCompletedEvent d.text w
          (s.build w event, .publishing event rest)
  | .publishing event rest => (s.publish event i.publish, .reading rest)
  | .returned => (s, .returned)
  | .raised e => (s, .raised e)

/-- A code path that ends workloads, with the place it has reached. -/
inductive Path where
  | webhook (call : StatusCall) (state : StatusCallState)
  | poll (call : PollCall) (state : PollState)

def Path.fresh : Path → Bool
  | .webhook _ .fetching | .poll _ .selecting => true
  | _ => false

def Path.finished : Path → Bool
  | .webhook _ (.returned _) | .webhook _ (.raised _) | .poll _ .returned
  | .poll _ (.raised _) => true
  | _ => false

def pathStep (p : Path) (s : Reconciling) (i : PathInput) : Reconciling × Path :=
  match p with
  | .webhook c l => ((statusCallStep d c l s i).1, .webhook c (statusCallStep d c l s i).2)
  | .poll c l => ((pollStep d c l s i).1, .poll c (pollStep d c l s i).2)

/-- Any number of sweeps and webhook jobs, interleaved step by step. -/
def reconcileStep {ι : Type} [DecidableEq ι] (c : Config Reconciling ι Path)
    (a : ι × PathInput) : Config Reconciling ι Path :=
  c.next (fun _ => pathStep d) a

end Step

end Pitwall
