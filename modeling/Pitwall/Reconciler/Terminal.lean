import Pitwall.Core.Inference
import Pitwall.Core.Providers
import Pitwall.RunPod.Pods
import Pitwall.Webhooks.Dispatcher
set_option autoImplicit false

/-!
The end of a workload as the reconciler writes it: the status map, the guarded update, the
completed event, and `apply_terminal_status_and_publish`, which the webhook job calls.
-/

namespace Pitwall

/-- `_RUNPOD_TERMINAL_MAP`. -/
def runpodTerminalEntries : List (String × WorkloadState) :=
  [("COMPLETED", .completed), ("FAILED", .failed), ("CANCELLED", .cancelled),
    ("TIMED_OUT", .timedOut), ("TIMEOUT", .timedOut), ("TIME_OUT", .timedOut)]

/-- `_RUNPOD_TERMINAL_MAP.get(status)`. -/
def runpodTerminalMap (status : String) : Option WorkloadState :=
  runpodTerminalEntries.lookup status

theorem terminal_of_runpodTerminalMap {status : String} {state : WorkloadState}
    (h : runpodTerminalMap status = some state) : state.terminal = true := by
  have hall : ∀ entry ∈ runpodTerminalEntries, entry.2.terminal = true := by decide
  obtain ⟨before, after, hentries, -⟩ := List.lookup_eq_some_iff.mp h
  refine hall (status, state) ?_
  rw [hentries]
  simp

/-- What `map_runpod_status` finds for a terminal status. No caller gives it a price or a
worker time, so that the actual cost is `None`. -/
structure TerminalStatus where
  state : WorkloadState
  actualCost : Option ℚ
  completedAt : Instant
  terminal : state.terminal = true

/-- `map_runpod_status(status, completed_at=...)`; `none` is `terminal=False`. -/
def mapRunpodStatus (status : String) (completedAt : Option Instant) (now : Instant) :
    Option TerminalStatus :=
  match h : runpodTerminalMap status with
  | some state => some ⟨state, none, completedAt.getD now, terminal_of_runpodTerminalMap h⟩
  | none => none

namespace Workloads

/-- The `UPDATE` of `apply_terminal_state` returns a row. -/
def opens (t : Workloads) (id : String) : Bool :=
  t.rows.any fun w => decide (w.id = id) && !w.state.terminal

/-- `_FETCH_WORKLOAD_BY_RUNPOD_JOB_ID_SQL`. No index makes a job id unique. -/
def byRunpodJobId (t : Workloads) (jobId : String) : Option Workload :=
  t.find fun w => w.runpodJobId = some jobId

def applyTerminal (t : Workloads) (id : String) (status : TerminalStatus) : Workloads :=
  t.applyTerminalState id status.state status.actualCost status.completedAt

variable {t : Workloads}

theorem opens_iff {id : String} :
    t.opens id = true ↔ ∃ w ∈ t.rows, w.id = id ∧ w.state.terminal = false := by
  simp [opens]

theorem rows_applyTerminal (id : String) (status : TerminalStatus) :
    (t.applyTerminal id status).rows = t.rows.map fun w =>
      if w.id = id ∧ (!w.state.terminal) = true then
        { w with
          state := status.state
          costActualUsd := status.actualCost
          completedAt := some status.completedAt }
      else w :=
  rows_updateById t id _ _

theorem opens_applyTerminal (id other : String) (status : TerminalStatus) :
    (t.applyTerminal id status).opens other = (t.opens other && !decide (other = id)) := by
  rw [Bool.eq_iff_iff, Bool.and_eq_true, opens_iff, opens_iff, rows_applyTerminal]
  constructor
  · rintro ⟨w', hw', hid, hopen⟩
    obtain ⟨w, hw, rfl⟩ := List.mem_map.mp hw'
    split at hid
    · rename_i hhit
      rw [if_pos hhit] at hopen
      exact absurd hopen (by simp [status.terminal])
    · rename_i hhit
      rw [if_neg hhit] at hopen
      refine ⟨⟨w, hw, hid, hopen⟩, ?_⟩
      have hne : other ≠ id := fun heq => hhit ⟨hid.trans heq, by simp [hopen]⟩
      simpa using hne
  · rintro ⟨⟨w, hw, hid, hopen⟩, hne⟩
    have hmiss : ¬ (w.id = id ∧ (!w.state.terminal) = true) := by
      rintro ⟨heq, -⟩
      simp [← hid, heq] at hne
    refine ⟨w, List.mem_map.mpr ⟨w, hw, if_neg hmiss⟩, hid, hopen⟩

theorem applyTerminal_of_closed {id : String} (h : t.opens id = false) (status : TerminalStatus) :
    t.applyTerminal id status = t := by
  refine Table.eq_of_rows ?_
  rw [rows_applyTerminal]
  refine (List.map_congr_left (g := fun w => w) fun w hw => if_neg ?_).trans (List.map_id' _)
  rintro ⟨hid, hopen⟩
  have hopens : t.opens id = true := opens_iff.mpr ⟨w, hw, hid, by simpa using hopen⟩
  rw [h] at hopens
  cases hopens

def HasCapability (t : Workloads) (id capabilityId : String) : Prop :=
  ∃ w ∈ t.rows, w.id = id ∧ w.capabilityId = capabilityId

theorem HasCapability.applyTerminal {id capabilityId : String}
    (h : t.HasCapability id capabilityId) (target : String) (status : TerminalStatus) :
    (t.applyTerminal target status).HasCapability id capabilityId := by
  obtain ⟨w, hw, hid, hcapability⟩ := h
  refine ⟨_, by rw [rows_applyTerminal]; exact List.mem_map_of_mem hw, ?_⟩
  split
  · exact ⟨hid, hcapability⟩
  · exact ⟨hid, hcapability⟩

theorem HasCapability.byId {id capabilityId : String} (h : t.HasCapability id capabilityId) :
    ∃ w, t.byId id = some w ∧ w.id = id ∧ w.capabilityId = capabilityId := by
  obtain ⟨w, hw, rfl, hcapability⟩ := h
  refine ⟨w, Table.find_eq_some hw (by simp) (fun v _ hv => ⟨.id w.id, mem_uniq_id w, ?_⟩),
    rfl, hcapability⟩
  have hid : v.id = w.id := by simpa using hv
  rw [← hid]
  exact mem_uniq_id v

end Workloads

/-- `datetime.isoformat` and `str(Decimal)`. -/
structure EventText where
  isoformat : Instant → String
  decimalStr : ℚ → String

def buildWorkloadCompletedEvent (text : EventText) (w : Workload) : JsonObject :=
  let optional (key : String) (value : Option Json) : JsonObject :=
    if Json.given value then value.toList.map fun v => (key, v) else []
  [("event", .str "workload.completed"), ("workload_id", .str w.id),
    ("capability_id", .str w.capabilityId), ("provider_id", .str w.providerId),
    ("state", .str w.state.value),
    ("completed_at", (w.completedAt.map fun t => Json.str (text.isoformat t)).getD .null),
    ("execution_ms", (w.executionMs.map Json.int).getD .null),
    ("output_bytes", (w.outputBytes.map Json.int).getD .null),
    ("cost_actual_usd", (w.costActualUsd.map fun q => Json.str (text.decimalStr q)).getD .null)] ++
  optional "error" w.error ++ optional "result" w.result ++
  optional "fallback_chain" (w.fallbackChain.map fun chain => .arr (chain.map .str))

/-- The tables that the two paths write and what they have sent, each with the workload it
is about. -/
structure Reconciling where
  workloads : Workloads
  failures : WebhookFailures
  /-- The completed events that were built. -/
  built : List (String × JsonObject)
  /-- What was published on `pitwall:workload:completed`. -/
  published : List JsonObject
  delivered : List CompletionDelivery

namespace Reconciling
variable (s : Reconciling)

def apply (id : String) (status : TerminalStatus) : Reconciling :=
  { s with workloads := s.workloads.applyTerminal id status }

def build (w : Workload) (event : JsonObject) : Reconciling :=
  { s with built := s.built ++ [(w.id, event)] }

/-- `publish_workload_completed` with a client: a failure is swallowed. -/
def publish (event : JsonObject) (fault : Option PyError) : Reconciling :=
  match fault with
  | some _ => s
  | none => { s with published := s.published ++ [event] }

def deliver (d : CompletionDelivery) : Reconciling :=
  { s with delivered := s.delivered ++ [d] }

end Reconciling

/-- What the paths read and do not write: the subscriptions, the providers, and whether the
webhook cipher is configured. -/
structure Deployment where
  text : EventText
  json : PyText
  providers : Providers
  subscriptions : WebhookSubscriptions
  cipher : Bool

/-- The subscriptions that a completion is dispatched to. -/
def Deployment.targets (d : Deployment) (capabilityId : String) : List WebhookSubscription :=
  if d.cipher then d.subscriptions.listForDispatch capabilityId else []

/-- What the world does to one step of a path: the clock, the exception of its statement, how
RunPod answers a read, the failure of a publish, the posts of a delivery with its id, and the
next id of the failure table. -/
structure PathInput where
  utcNow : Instant
  fault : Option PyError
  pod : GetOutcome
  /-- The `GET` of a job status: the JSON of the response, or a failure. -/
  queue : Option Json
  publish : Option PyError
  posts : Nat → PostOutcome
  deliveryId : String
  nextId : Int

structure StatusCall where
  /-- `redis is not None`. -/
  redis : Bool
  runpodJobId : String
  status : String
  completedAt : Option Instant

/-- Where an `apply_terminal_status_and_publish` call stands. -/
inductive StatusCallState where
  | fetching
  | updating (id : String) (status : TerminalStatus)
  | refetching (id : String)
  | publishing (workload : Workload) (event : JsonObject)
  | listing (workload : Workload) (event : JsonObject)
  | sending (workload : Workload) (event : JsonObject) (targets : List WebhookSubscription)
      (results : List (Int × DeliveryOutcome))
  | recording (workload : Workload) (results : List (Int × DeliveryOutcome))
  | returned (updated : Bool)
  | raised (exc : PyError)

/-- A failed delivery is recorded, and the exception of a failed `INSERT` is raised. -/
def recordFailure (s : Reconciling) (w : Workload) (result : Int × DeliveryOutcome)
    (i : PathInput) : Except PyError Reconciling :=
  if result.2.success then .ok s
  else
    match i.fault with
    | some e => .error e
    | none =>
      match s.failures.insert
          (deliveryFailure i.nextId i.utcNow w w.state.value result.1 result.2) with
      | none => .error ⟨"UniqueViolationError", ""⟩
      | some failures => .ok { s with failures := failures }

section Step
variable (d : Deployment)

def completionDelivery (w : Workload) (event : JsonObject) (target : WebhookSubscription)
    (i : PathInput) : CompletionDelivery :=
  ⟨target.id, i.deliveryId, i.utcNow, w.id, w.capabilityId, event⟩

/-- `apply_terminal_status_and_publish`, one statement or outside call at a step. -/
def statusCallStep (c : StatusCall) (l : StatusCallState) (s : Reconciling) (i : PathInput) :
    Reconciling × StatusCallState :=
  match l with
  | .fetching =>
      match i.fault, s.workloads.byRunpodJobId c.runpodJobId,
          mapRunpodStatus c.status c.completedAt i.utcNow with
      | some e, _, _ => (s, .raised e)
      | none, none, _ | none, _, none => (s, .returned false)
      | none, some w, some status => (s, .updating w.id status)
  | .updating id status =>
      match i.fault with
      | some e => (s, .raised e)
      | none =>
          (s.apply id status, if s.workloads.opens id then .refetching id else .returned false)
  | .refetching id =>
      match i.fault, s.workloads.byId id with
      | some e, _ => (s, .raised e)
      | none, none => (s, .returned true)
      | none, some w =>
          let event := buildWorkloadCompletedEvent d.text w
          (s.build w event, if c.redis then .publishing w event else .listing w event)
  | .publishing w event => (s.publish event i.publish, .listing w event)
  | .listing w event =>
      -- Without a cipher there is no statement that could fail.
      if !d.cipher then (s, .returned true)
      else
        match i.fault, d.targets w.capabilityId with
        | some e, _ => (s, .raised e)
        | none, [] => (s, .returned true)
        | none, targets => (s, .sending w event targets [])
  | .sending w event (target :: targets) results =>
      match sendWebhookWithRetry i.posts i.deliveryId with
      | .error e => (s.deliver (completionDelivery w event target i), .raised e)
      | .ok outcome =>
          (s.deliver (completionDelivery w event target i),
            .sending w event targets (results ++ [(target.id, outcome)]))
  | .sending w _ [] results => (s, .recording w results)
  | .recording w (result :: results) =>
      match recordFailure s w result i with
      | .error e => (s, .raised e)
      | .ok s' => (s', .recording w results)
  | .recording _ [] => (s, .returned true)
  | .returned updated => (s, .returned updated)
  | .raised e => (s, .raised e)

end Step

end Pitwall
