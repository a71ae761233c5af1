import Pitwall.Core.Text
import Pitwall.Core.Webhooks
import Pitwall.Library.Machine
set_option autoImplicit false

/-!
The RunPod callback endpoint: `runpod_webhook` with the dedupe table behind it and the job
queue that it feeds. The guard in front of it refuses a request before it gets here.
-/

namespace Pitwall

/-- What `json.loads` makes of a body. Text that is not UTF-8 raises something else than a
`JSONDecodeError`. -/
inductive Decoded where
  | value : Json → Decoded
  | jsonDecodeError
  | raised : PyError → Decoded

structure ReceiverText where
  loads : String → Decoded
  sha256 : String → String
  parseInt : String → Option Int
  /-- `verify_signature(body, signature, secret)`. -/
  verifySignature : String → String → String → Bool

structure WebhookRequest where
  body : String
  /-- `dict(request.headers)`. -/
  headers : List (String × String)

structure RunPodWebhookEvent where
  runpodJobId : String
  status : String
  attempt : Int
  output : Option JsonObject
  error : Option String

def idFieldVariants : List String := ["id", "job_id", "jobId", "runpod_job_id"]

def attemptHeaderVariants : List (String × String) :=
  [("X-RunPod-Attempt", "x-runpod-attempt"), ("X-Runpod-Attempt", "x-runpod-attempt"),
    ("RunPod-Attempt", "runpod-attempt"), ("Runpod-Attempt", "runpod-attempt")]

def extractId (payload : JsonObject) : Option String :=
  idFieldVariants.findSome? fun field =>
    match payload.get field with
    | .str value => if strip value = "" then none else some (strip value)
    | _ => none

/-- `isinstance(value, int) and 1 <= value <= 3`; a `bool` is an `int`. -/
def attemptValue : Json → Option Int
  | .int n => if 1 ≤ n ∧ n ≤ 3 then some n else none
  | .bool true => some 1
  | _ => none

def extractAttempt (text : ReceiverText) (payload : JsonObject)
    (headers : List (String × String)) : Int :=
  match attemptValue (payload.get "attempt") with
  | some n => n
  | none =>
    (attemptHeaderVariants.findSome? fun names =>
      match nonEmpty (headers.lookup names.1) <|> nonEmpty (headers.lookup names.2) with
      | none => none
      | some value =>
        if strip value = "" then none
        else (text.parseInt (strip value)).bind fun n => attemptValue (.int n)).getD 1

/-- `normalize_runpod_webhook` under `suppress(ValueError)`: `none` when there is no id or a
field has a type that the model refuses. -/
def normalizeRunpodWebhook (text : ReceiverText) (payload : JsonObject)
    (headers : List (String × String)) : Option RunPodWebhookEvent :=
  match extractId payload, (payload.get? "status").getD (.str ""), payload.get "output",
      payload.get "error" with
  | some id, .str status, .null, .null =>
      some ⟨id, status, extractAttempt text payload headers, none, none⟩
  | some id, .str status, .obj output, .null =>
      some ⟨id, status, extractAttempt text payload headers, some output, none⟩
  | some id, .str status, .null, .str error =>
      some ⟨id, status, extractAttempt text payload headers, none, some error⟩
  | some id, .str status, .obj output, .str error =>
      some ⟨id, status, extractAttempt text payload headers, some output, some error⟩
  | _, _, _, _ => none

def fallbackIdempotencyKey (text : ReceiverText) (payload : JsonObject)
    (request : WebhookRequest) : String :=
  match extractId payload with
  | some id => id
  | none =>
    match nonEmpty (request.headers.lookup "RunPod-Job-Id") <|>
        nonEmpty (request.headers.lookup "X-RunPod-Job-Id") with
    | some value => if strip value = "" then text.sha256 request.body else strip value
    | none => text.sha256 request.body

def runpodTerminalStatuses : List String :=
  ["COMPLETED", "FAILED", "CANCELLED", "TIMED_OUT", "TIMEOUT", "TIME_OUT"]

structure ArqJob where
  function : String
  runpodJobId : String
  status : String
  deriving DecidableEq

/-- The name `_enqueue_terminal_status_job` enqueues under. -/
def enqueuedName : String := "process_webhook_terminal_status"

/-- `WorkerSettings.functions`. arq registers a function under its `__qualname__`. -/
def workerFunctions : List String := ["_process_webhook_terminal_status"]

structure Receiver where
  deliveries : WebhookDeliveries
  queue : List ArqJob

/-- What is set at startup: the secrets, and whether `REDIS_URL` gave settings. -/
structure ReceiverConfig where
  secrets : List String
  redisSettings : Bool

/-- What the world supplies to one request: the next id of the table and the clock, the
failures of the `INSERT`, of `create_pool`, of `enqueue_job` and of `aclose`, and whether arq
can be imported. -/
structure ReceiverInput where
  nextId : Int
  receivedAt : Instant
  insertFault : Option PyError
  arqImports : Bool
  createPool : Option PyError
  enqueue : Option PyError
  aclose : Option PyError

structure HttpResponse where
  status : Nat
  content : JsonObject

def refusal (status : Nat) (detail : String) : HttpResponse :=
  ⟨status, [("ok", .bool false), ("detail", .str detail)]⟩

/-- `insert_or_skip`: the table after it and whether the row is new. -/
def insertOrSkip (t : WebhookDeliveries) (runpodJobId : String) (attempt : Int)
    (payload : JsonObject) (i : ReceiverInput) : Except PyError (WebhookDeliveries × Bool) :=
  match i.insertFault with
  | some e => .error e
  | none =>
    match t.find fun d => decide (d.runpodJobId = runpodJobId) && decide (d.attempt = attempt) with
    | some _ => .ok (t, false)
    | none =>
      match t.insert ⟨i.nextId, runpodJobId, attempt, i.receivedAt, some (.obj payload)⟩ with
      | some t' => .ok (t', true)
      | none => .error ⟨"UniqueViolationError", ""⟩

/-- `_enqueue_terminal_status_job`: the queue after it, and what it raises. -/
def enqueueTerminalStatusJob (cfg : ReceiverConfig) (i : ReceiverInput)
    (runpodJobId status : String) (queue : List ArqJob) : List ArqJob × Option PyError :=
  if !cfg.redisSettings then (queue, none)
  else if !i.arqImports then (queue, none)
  else
    match i.createPool with
    | some e => (queue, some e)
    | none =>
      match i.enqueue with
      | some _ => (queue, i.aclose)
      | none => (queue ++ [⟨enqueuedName, runpodJobId, status⟩], i.aclose)

def unhashable (status : Json) : PyError :=
  ⟨"TypeError", "unhashable type: '" ++ status.typeName ++ "'"⟩

/-- The second half of the handler, the same for a normalized event and for the fallback. -/
def fileDelivery (cfg : ReceiverConfig) (i : ReceiverInput) (s : Receiver) (runpodJobId : String)
    (attempt : Int) (status : Json) (payload : JsonObject) :
    Receiver × Except PyError HttpResponse :=
  match insertOrSkip s.deliveries runpodJobId attempt payload i with
  | .error e => (s, .error e)
  | .ok (deliveries, false) =>
      (⟨deliveries, s.queue⟩, .ok ⟨200, [("ok", .bool true), ("duplicate", .bool true)]⟩)
  | .ok (deliveries, true) =>
    let answer : HttpResponse := ⟨200, [("ok", .bool true), ("duplicate", .bool false)]⟩
    match status with
    | .arr _ | .obj _ => (⟨deliveries, s.queue⟩, .error (unhashable status))
    | .str value =>
        if runpodTerminalStatuses.contains value then
          match enqueueTerminalStatusJob cfg i runpodJobId value s.queue with
          | (queue, some e) => (⟨deliveries, queue⟩, .error e)
          | (queue, none) => (⟨deliveries, queue⟩, .ok answer)
        else (⟨deliveries, s.queue⟩, .ok answer)
    | _ => (⟨deliveries, s.queue⟩, .ok answer)

section Handler
variable (text : ReceiverText) (cfg : ReceiverConfig)

def signatureValid (request : WebhookRequest) : Bool :=
  cfg.secrets.isEmpty || cfg.secrets.any fun secret =>
    text.verifySignature request.body
      ((request.headers.lookup "x-pitwall-webhook-signature").getD "") secret

def decodeBody (request : WebhookRequest) : Decoded :=
  text.loads (if request.body = "" then "\x7b\x7d" else request.body)

def runpodWebhook (request : WebhookRequest) (i : ReceiverInput) (s : Receiver) :
    Receiver × Except PyError HttpResponse :=
  if !signatureValid text cfg request then
    (s, .ok (refusal 401 "invalid or missing webhook signature"))
  else
    match decodeBody text request with
    | .raised e => (s, .error e)
    | .jsonDecodeError => (s, .ok (refusal 400 "webhook body must be valid JSON"))
    | .value (.obj payload) =>
      match normalizeRunpodWebhook text payload request.headers with
      | some event =>
          fileDelivery cfg i s event.runpodJobId event.attempt (.str event.status) payload
      | none =>
          fileDelivery cfg i s (fallbackIdempotencyKey text payload request) 1
            ((JsonObject.get? payload "status").getD (.str "")) payload
    | .value _ => (s, .ok (refusal 400 "webhook body must be a JSON object"))

end Handler

end Pitwall
