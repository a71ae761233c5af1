import Pitwall.Core.Ledger
import Pitwall.Cost.BudgetGate
set_option autoImplicit false

/-!
`gate_sync_inference` as a process: every database statement or transaction and the
provider call is one step, and other processes may act between two of them.
-/

namespace Pitwall

def pyFloatText : PyFloat → Option String
  | .finite _ => none
  | .infinite false => some "inf"
  | .infinite true => some "-inf"
  | .nan => some "nan"

mutual
/-- `_json_safe` on a JSON value: a float that is not finite becomes its text. -/
def jsonSafe : Json → Json
  | .float x =>
      match pyFloatText x with
      | some text => .str text
      | none => .float x
  | .arr xs => .arr (jsonSafeItems xs)
  | .obj d => .obj (jsonSafeFields d)
  | value => value

def jsonSafeItems : List Json → List Json
  | [] => []
  | x :: xs => jsonSafe x :: jsonSafeItems xs

def jsonSafeFields : JsonObject → JsonObject
  | [] => []
  | (key, x) :: d => (key, jsonSafe x) :: jsonSafeFields d
end

/-- `_json_object(value, wrapper_key=...)`. -/
def jsonObject (wrapperKey : String) (value : Json) : JsonObject :=
  match jsonSafe value with
  | .obj d => d
  | safe => [(wrapperKey, safe)]

def elapsedMs (startedAt completedAt : Instant) : Int := max 0 ((completedAt - startedAt) / 1000)

def runpodJobIdKeys : List String := ["id", "job_id", "jobId", "runpod_job_id"]

def firstGiven (d : JsonObject) : List String → Option Json
  | [] => none
  | key :: keys =>
      match d.get? key with
      | none | some .null => firstGiven d keys
      | some value => some value

/-- `_extract_runpod_job_id`; `str` is Python's text of a value. -/
def extractRunpodJobId (str : Json → String) (d : JsonObject) : Option String :=
  match firstGiven d runpodJobIdKeys with
  | some value => some (str value)
  | none =>
    match d.get? "raw" with
    | some (.obj raw) => (firstGiven raw runpodJobIdKeys).map str
    | _ => none

def activeStateFromRunpodResult (d : JsonObject) : Option WorkloadState :=
  match d.get? "status" with
  | some (.str status) =>
      if status = "IN_QUEUE" then some .queued
      else if status = "IN_PROGRESS" then some .running
      else none
  | _ => none

/-- The last test is membership in a set, which a list or a dict cannot be asked for. -/
def terminalStateFromRunpodResult (d : JsonObject) : Except PyError WorkloadState :=
  match d.get? "status" with
  | some (.str status) =>
      if status = "FAILED" then .ok .failed
      else if status = "CANCELLED" then .ok .cancelled
      else if status ∈ ["TIMED_OUT", "TIMEOUT", "TIME_OUT"] then .ok .timedOut
      else .ok .completed
  | some (.arr _) => .error ⟨"TypeError", "unhashable type: 'list'"⟩
  | some (.obj _) => .error ⟨"TypeError", "unhashable type: 'dict'"⟩
  | _ => .ok .completed

def resultErrorPayload (str : Json → String) (d : JsonObject) : Json :=
  match d.get? "error" with
  | some (.obj error) => .obj error
  | none | some .null =>
      .obj [("status", .str (match d.get? "status" with
        | none => "unknown"
        | some status => str status))]
  | some error => .obj [("message", .str (str error))]

def errorPayload (exc : PyError) : Json :=
  .obj [("type", .str exc.type), ("message", .str exc.message)]

namespace Workloads

/-- `_MARK_WORKLOAD_RUNNING_SQL`. -/
def markRunning (t : Workloads) (id : String) (startedAt : Instant) (inputBytes : Int)
    (input : JsonObject) (fallbackChain : List String) : Workloads :=
  t.updateById id (fun _ => true)
    { set := fun w => { w with
        state := .running
        startedAt := some startedAt
        queueMs := some (max 0 ((startedAt - w.submittedAt) / 1000))
        inputBytes := some inputBytes
        input := some (.obj input)
        fallbackChain := some fallbackChain }
      keeps := fun _ => rfl }

/-- `_MARK_WORKLOAD_TERMINAL_SQL`. -/
def markTerminal (t : Workloads) (id : String) (state : WorkloadState) (completedAt : Instant)
    (executionMs outputBytes : Int) (result : JsonObject) (runpodJobId : Option String)
    (error : Option Json) : Workloads :=
  t.updateById id (fun _ => true)
    { set := fun w => { w with
        state := state
        completedAt := some completedAt
        executionMs := some executionMs
        outputBytes := some outputBytes
        result := some (.obj result)
        runpodJobId := runpodJobId <|> w.runpodJobId
        error := error }
      keeps := fun _ => rfl }

/-- `_MARK_WORKLOAD_ACTIVE_AFTER_CALL_SQL`. -/
def markActiveAfterCall (t : Workloads) (id : String) (state : WorkloadState)
    (runpodJobId : Option String) (outputBytes : Int) (result : JsonObject) : Workloads :=
  t.updateById id (fun _ => true)
    { set := fun w => { w with
        state := state
        runpodJobId := runpodJobId <|> w.runpodJobId
        outputBytes := some outputBytes
        result := some (.obj result) }
      keeps := fun _ => rfl }

/-- `_MARK_WORKLOAD_FAILED_SQL`. -/
def markFailed (t : Workloads) (id : String) (completedAt : Instant) (executionMs : Int)
    (error : Json) : Workloads :=
  t.updateById id (fun _ => true)
    { set := fun w => { w with
        state := .failed
        completedAt := some completedAt
        executionMs := some executionMs
        error := some error }
      keeps := fun _ => rfl }

end Workloads

structure SyncCall where
  gate : BudgetGate
  capabilityId : String
  providerId : String
  /-- The outcome of `_quote(...).upper_bound()`. -/
  quote : Except PyError RawAmount
  payload : Json
  idempotencyKey : Option String
  submittedAt : Option Instant
  inputBytes : Option Int
  fallbackChain : List String

def SyncCall.launchRequest (c : SyncCall) (upperBound : RawAmount) : LaunchRequest where
  capabilityId := c.capabilityId
  providerId := c.providerId
  estimateUsd := .estimate upperBound
  workloadType := "inference"
  submittedAt := c.submittedAt
  idempotencyKey := c.idempotencyKey
  beforeNewAdmission := none

/-- An exception of the provider call, and whether the handler around it names its class. -/
structure ProviderFailure where
  exc : PyError
  caught : Bool

/-- What the world supplies to one step: clock readings and ids, the failure of the
step's statement, the answer of the provider. -/
structure StepInput where
  env : LaunchEnv
  fault : Option PyError
  result : Except ProviderFailure Json
  queueJob : Except ProviderFailure String

inductive CallError where
  | admission : AdmissionError → CallError
  | reservation : ReserveError → CallError
  | raised : PyError → CallError

/-- Where a `gate_sync_inference` call stands. A state past admission names the
workload; `returned` and `raised` keep what had happened by then. -/
inductive SyncState where
  | quoting
  | reserving (upperBound : RawAmount) (key : String)
  | admitting (upperBound : RawAmount)
  | replaying (id : String)
  | markingRunning (id : String)
  | calling (id : String) (startedAt : Instant)
  | markingFailed (id : String) (startedAt : Instant) (exc : PyError)
  | markingResult (id : String) (startedAt : Instant) (result : Json)
  | returned (admission : BudgetAdmission) (result : Json)
  | raised (admission : Option BudgetAdmission) (called : Bool) (error : CallError)

def SyncState.admission : SyncState → Option BudgetAdmission
  | .quoting | .reserving _ _ | .admitting _ => none
  | .replaying id => some ⟨id, false⟩
  | .markingRunning id | .calling id _ | .markingFailed id _ _ | .markingResult id _ _ =>
      some ⟨id, true⟩
  | .returned a _ => some a
  | .raised a _ _ => a

def SyncState.called : SyncState → Bool
  | .markingFailed _ _ _ | .markingResult _ _ _ => true
  | .returned a _ => a.isNew
  | .raised _ called _ => called
  | _ => false

/-- `_load_workload_replay_result`. -/
def replayResult (stateText : WorkloadState → String) (w : Workload) : Json :=
  match w.result with
  | some (.obj d) => .obj d
  | none | some .null => .obj [("status", .str (stateText w.state))]
  | some result => .obj [("result", result)]

def WorkloadState.value : WorkloadState → String
  | .queued => "queued"
  | .running => "running"
  | .completed => "completed"
  | .failed => "failed"
  | .cancelled => "cancelled"
  | .timedOut => "timed_out"

section Step
variable (text : JsonText)

def recordResult (t : Workloads) (id : String) (startedAt completedAt : Instant)
    (result : Json) : Except PyError Workloads :=
  let payload := jsonObject "result" result
  let outputBytes := text.bytes (.obj payload)
  let jobId := extractRunpodJobId text.str payload
  match activeStateFromRunpodResult payload with
  | some state => .ok (t.markActiveAfterCall id state jobId outputBytes payload)
  | none =>
    match terminalStateFromRunpodResult payload with
    | .error e => .error e
    | .ok state =>
        .ok (t.markTerminal id state completedAt (elapsedMs startedAt completedAt) outputBytes
          payload jobId
          (if state = .completed then none else some (resultErrorPayload text.str payload)))

/-- The state that `recordResult` writes, if it writes. -/
def recordedState (result : Json) : Option WorkloadState :=
  activeStateFromRunpodResult (jsonObject "result" result) <|>
    (terminalStateFromRunpodResult (jsonObject "result" result)).toOption

/-- Whatever the provider answered, the answer is recorded by one `UPDATE` of the
workload's row, which has no guard on the state it finds. -/
theorem recordResult_ok {text : JsonText} {t t' : Workloads} {id : String}
    {startedAt completedAt : Instant} {result : Json}
    (h : recordResult text t id startedAt completedAt result = .ok t') :
    ∃ state f, recordedState result = some state ∧
      (∀ w, (Table.Assignment.set f w).state = state) ∧
      t' = t.updateById id (fun _ => true) f := by
  unfold recordResult at h
  dsimp only at h
  split at h
  · rename_i state hactive
    cases h
    exact ⟨state, _, by simp [recordedState, hactive], fun _ => rfl, rfl⟩
  · rename_i hactive
    split at h
    · contradiction
    · rename_i state hterminal
      cases h
      exact ⟨state, _, by simp [recordedState, hactive, hterminal, Except.toOption],
        fun _ => rfl, rfl⟩

theorem recordResult_error {text : JsonText} {t : Workloads} {id : String}
    {startedAt completedAt : Instant} {result : Json} {e : PyError}
    (h : recordResult text t id startedAt completedAt result = .error e) :
    recordedState result = none := by
  unfold recordResult at h
  dsimp only at h
  split at h
  · contradiction
  · rename_i hactive
    split at h
    · rename_i hterminal
      simp [recordedState, hactive, hterminal, Except.toOption]
    · contradiction

def syncStep (c : SyncCall) (l : SyncState) (s : Ledger) (i : StepInput) : Ledger × SyncState :=
  match l with
  | .quoting =>
      match c.quote, c.idempotencyKey with
      | .error e, _ => (s, .raised none false (.raised e))
      | .ok upperBound, some key => (s, .reserving upperBound key)
      | .ok upperBound, none => (s, .admitting upperBound)
  | .reserving upperBound key =>
      match i.fault with
      | some e => (s, .raised none false (.raised e))
      | none =>
        match reserveIdempotencyKey text key (text.sha256 c.payload)
            ("wkl_pending_" ++ (key.take 16).toString) i.env.now s with
        | .error e => (s, .raised none false (.reservation e))
        | .ok (_, keys) => ({ s with idempotencyKeys := keys }, .admitting upperBound)
  | .admitting upperBound =>
      match i.fault with
      | some e => (s, .raised none false (.raised e))
      | none =>
        match c.gate.launch (c.launchRequest upperBound) i.env s.workloads with
        | (.error e, t) => (s.withWorkloads t, .raised none false (.admission e))
        | (.ok a, t) =>
            (s.withWorkloads t,
              if a.isNew then .markingRunning a.workloadId else .replaying a.workloadId)
  | .replaying id =>
      match i.fault, s.workloads.byId id with
      | some e, _ => (s, .raised (some ⟨id, false⟩) false (.raised e))
      | none, none =>
          (s, .raised (some ⟨id, false⟩) false (.raised ⟨"RuntimeError",
            s!"idempotency replay workload '{id}' was not found"⟩))
      | none, some w => (s, .returned ⟨id, false⟩ (replayResult WorkloadState.value w))
  | .markingRunning id =>
      match i.fault with
      | some e => (s, .raised (some ⟨id, true⟩) false (.raised e))
      | none =>
          let input := jsonObject "payload" c.payload
          (s.withWorkloads (s.workloads.markRunning id i.env.utcNow
              (c.inputBytes.getD (text.bytes (.obj input))) input
              (if c.fallbackChain.isEmpty then [c.providerId] else c.fallbackChain)),
            .calling id i.env.utcNow)
  | .calling id startedAt =>
      match i.result with
      | .ok result => (s.send (.runpodCaller id), .markingResult id startedAt result)
      | .error failure =>
          (s.send (.runpodCaller id),
            if failure.caught then .markingFailed id startedAt failure.exc
            else .raised (some ⟨id, true⟩) true (.raised failure.exc))
  | .markingFailed id startedAt exc =>
      match i.fault with
      | some e => (s, .raised (some ⟨id, true⟩) true (.raised e))
      | none =>
          (s.withWorkloads (s.workloads.markFailed id i.env.utcNow
              (elapsedMs startedAt i.env.utcNow) (errorPayload exc)),
            .raised (some ⟨id, true⟩) true (.raised exc))
  | .markingResult id startedAt result =>
      match i.fault, recordResult text s.workloads id startedAt i.env.utcNow result with
      | some e, _ | none, .error e => (s, .raised (some ⟨id, true⟩) true (.raised e))
      | none, .ok t => (s.withWorkloads t, .returned ⟨id, true⟩ result)
  | .returned a result => (s, .returned a result)
  | .raised a called e => (s, .raised a called e)

end Step

end Pitwall
