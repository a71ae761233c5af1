import Pitwall.Webhooks.Receiver
set_option autoImplicit false

/-!
What becomes of a terminal status that RunPod delivers: the answer it gets, the dedupe row it
leaves, and the job that is to apply it.
-/

namespace Pitwall
open Machine

structure Filing where
  runpodJobId : String
  attempt : Int
  status : Json
  payload : JsonObject

structure WebhookArrival where
  request : WebhookRequest
  input : ReceiverInput

def succeeds : Except PyError HttpResponse → Bool
  | .ok response => response.status == 200
  | .error _ => false

section Receive
variable (text : ReceiverText) (cfg : ReceiverConfig)

def filed (request : WebhookRequest) : Option Filing :=
  if !signatureValid text cfg request then none
  else
    match decodeBody text request with
    | .value (.obj payload) =>
      match normalizeRunpodWebhook text payload request.headers with
      | some event => some ⟨event.runpodJobId, event.attempt, .str event.status, payload⟩
      | none => some ⟨fallbackIdempotencyKey text payload request, 1,
          (JsonObject.get? payload "status").getD (.str ""), payload⟩
    | _ => none

def answer (s : Receiver) (d : WebhookArrival) : Except PyError HttpResponse :=
  (runpodWebhook text cfg d.request d.input s).2

def receiverStep (s : Receiver) (d : WebhookArrival) : Receiver :=
  (runpodWebhook text cfg d.request d.input s).1

def FilesTerminal (request : WebhookRequest) (f : Filing) : Prop :=
  filed text cfg request = some f ∧ ∃ value ∈ runpodTerminalStatuses, f.status = .str value

def Queued (queue : List ArqJob) (runpodJobId : String) : Prop :=
  ∃ job ∈ queue, job.function ∈ workerFunctions ∧ job.runpodJobId = runpodJobId

/-- A terminal delivery that is answered with success has its job in the queue, and one that
is answered as a duplicate had it there before. -/
def NotLost (s : Receiver) (d : WebhookArrival) : Prop :=
  ∀ f, FilesTerminal text cfg d.request f →
    (succeeds (answer text cfg s d) = true →
      Queued (receiverStep text cfg s d).queue f.runpodJobId) ∧
    (answer text cfg s d = .ok ⟨200, [("ok", .bool true), ("duplicate", .bool true)]⟩ →
      Queued s.queue f.runpodJobId)

end Receive

def Receiver.hasRow (s : Receiver) (f : Filing) : Bool :=
  (s.deliveries.find fun d =>
    decide (d.runpodJobId = f.runpodJobId) && decide (d.attempt = f.attempt)).isSome

/-- The receiver fails on the delivery: the `INSERT` fails, or the row is new and the
connection to the queue cannot be opened or closed. -/
def fails (cfg : ReceiverConfig) (s : Receiver) (i : ReceiverInput) (f : Filing) : Bool :=
  i.insertFault.isSome || (!s.hasRow f &&
    ((s.deliveries.insert
        ⟨i.nextId, f.runpodJobId, f.attempt, i.receivedAt, some (.obj f.payload)⟩).isNone ||
      (cfg.redisSettings && i.arqImports && (i.createPool.isSome || i.aclose.isSome))))

def NeverAnswered (text : ReceiverText) (cfg : ReceiverConfig) (s : Receiver)
    (d : WebhookArrival) : Prop :=
  ∀ f, FilesTerminal text cfg d.request f → fails cfg s d.input f = true

section Steps
variable {text : ReceiverText} {cfg : ReceiverConfig} {s : Receiver}

theorem runpodWebhook_of_filed {request : WebhookRequest} {f : Filing} (i : ReceiverInput)
    (h : filed text cfg request = some f) :
    runpodWebhook text cfg request i s =
      fileDelivery cfg i s f.runpodJobId f.attempt f.status f.payload := by
  unfold filed at h
  unfold runpodWebhook
  split at h
  · cases h
  · rename_i hvalid
    rw [if_neg hvalid]
    split at h
    · rename_i payload hdecoded
      rw [hdecoded]
      split at h
      · rename_i event hevent
        cases h
        simp only [hevent]
      · rename_i hevent
        cases h
        simp only [hevent]
    · cases h

theorem enqueue_keeps_unregistered (cfg : ReceiverConfig) (i : ReceiverInput)
    (runpodJobId status : String) {queue : List ArqJob}
    (h : ∀ job ∈ queue, job.function ∉ workerFunctions) :
    ∀ job ∈ (enqueueTerminalStatusJob cfg i runpodJobId status queue).1,
      job.function ∉ workerFunctions := by
  unfold enqueueTerminalStatusJob
  split
  · exact h
  · split
    · exact h
    · split
      · exact h
      · split
        · exact h
        · intro job hjob
          rcases List.mem_append.mp hjob with hjob | hjob
          · exact h job hjob
          · rw [List.mem_singleton.mp hjob]
            show enqueuedName ∉ workerFunctions
            decide

theorem fileDelivery_keeps_unregistered {i : ReceiverInput} {runpodJobId : String}
    {attempt : Int} {status : Json} {payload : JsonObject}
    (h : ∀ job ∈ s.queue, job.function ∉ workerFunctions) :
    ∀ job ∈ (fileDelivery cfg i s runpodJobId attempt status payload).1.queue,
      job.function ∉ workerFunctions := by
  unfold fileDelivery
  split
  · exact h
  · exact h
  · split
    · exact h
    · exact h
    · rename_i value
      split
      · have hqueue := enqueue_keeps_unregistered cfg i runpodJobId value h
        split
        · rename_i queue e henqueue
          rw [henqueue] at hqueue
          exact hqueue
        · rename_i queue henqueue
          rw [henqueue] at hqueue
          exact hqueue
      · exact h
    · exact h

theorem insertOrSkip_of_fault {i : ReceiverInput} {e : PyError} (h : i.insertFault = some e)
    (f : Filing) :
    insertOrSkip s.deliveries f.runpodJobId f.attempt f.payload i = .error e := by
  simp [insertOrSkip, h]

theorem insertOrSkip_of_row {i : ReceiverInput} {f : Filing} (h : i.insertFault = none)
    (hrow : s.hasRow f = true) :
    insertOrSkip s.deliveries f.runpodJobId f.attempt f.payload i = .ok (s.deliveries, false) := by
  obtain ⟨d, hd⟩ := Option.isSome_iff_exists.mp hrow
  simp [insertOrSkip, h, hd]

theorem insertOrSkip_of_new {i : ReceiverInput} {f : Filing} (h : i.insertFault = none)
    (hrow : s.hasRow f = false) :
    insertOrSkip s.deliveries f.runpodJobId f.attempt f.payload i =
      match s.deliveries.insert
        ⟨i.nextId, f.runpodJobId, f.attempt, i.receivedAt, some (.obj f.payload)⟩ with
      | some t => .ok (t, true)
      | none => .error ⟨"UniqueViolationError", ""⟩ := by
  have hnone : (s.deliveries.find fun d =>
      decide (d.runpodJobId = f.runpodJobId) && decide (d.attempt = f.attempt)) = none := by
    simpa [Receiver.hasRow] using hrow
  cases hinsert : s.deliveries.insert
      ⟨i.nextId, f.runpodJobId, f.attempt, i.receivedAt, some (.obj f.payload)⟩ with
  | none => simp [insertOrSkip, h, hnone, hinsert]
  | some t => simp [insertOrSkip, h, hnone, hinsert]

theorem raises_enqueueTerminalStatusJob (cfg : ReceiverConfig) (i : ReceiverInput)
    (runpodJobId status : String) (queue : List ArqJob) :
    (enqueueTerminalStatusJob cfg i runpodJobId status queue).2.isSome =
      (cfg.redisSettings && i.arqImports && (i.createPool.isSome || i.aclose.isSome)) := by
  unfold enqueueTerminalStatusJob
  cases cfg.redisSettings with
  | false => rfl
  | true =>
    cases i.arqImports with
    | false => rfl
    | true =>
      cases i.createPool with
      | some e => rfl
      | none => cases i.enqueue <;> rfl

theorem succeeds_fileDelivery {f : Filing} {value : String}
    (hvalue : value ∈ runpodTerminalStatuses) (hstatus : f.status = .str value)
    (i : ReceiverInput) :
    succeeds (fileDelivery cfg i s f.runpodJobId f.attempt f.status f.payload).2 =
      !fails cfg s i f := by
  unfold fileDelivery fails
  cases hfault : i.insertFault with
  | some e =>
    rw [insertOrSkip_of_fault hfault f]
    rfl
  | none =>
    cases hrow : s.hasRow f with
    | true =>
      rw [insertOrSkip_of_row hfault hrow]
      rfl
    | false =>
      rw [insertOrSkip_of_new hfault hrow]
      cases s.deliveries.insert
          ⟨i.nextId, f.runpodJobId, f.attempt, i.receivedAt, some (.obj f.payload)⟩ with
      | none => rfl
      | some t =>
        have hraises := raises_enqueueTerminalStatusJob cfg i f.runpodJobId value s.queue
        simp only [hstatus, List.contains_iff_mem.mpr hvalue, if_true]
        split
        · rename_i queue e henqueue
          rw [henqueue] at hraises
          simp [succeeds, ← hraises]
        · rename_i queue henqueue
          rw [henqueue] at hraises
          simp [succeeds, ← hraises]

theorem redelivery_swallowed {request : WebhookRequest} {f : Filing} {i : ReceiverInput}
    (hfiled : filed text cfg request = some f) (hrow : s.hasRow f = true)
    (hfault : i.insertFault = none) :
    answer text cfg s ⟨request, i⟩ =
      .ok ⟨200, [("ok", .bool true), ("duplicate", .bool true)]⟩ ∧
    (receiverStep text cfg s ⟨request, i⟩).queue = s.queue := by
  unfold answer receiverStep
  rw [runpodWebhook_of_filed i hfiled]
  unfold fileDelivery
  rw [insertOrSkip_of_row hfault hrow]
  exact ⟨rfl, rfl⟩

theorem unregistered_step (d : WebhookArrival)
    (h : ∀ job ∈ s.queue, job.function ∉ workerFunctions) :
    ∀ job ∈ (receiverStep text cfg s d).queue, job.function ∉ workerFunctions := by
  unfold receiverStep runpodWebhook
  split
  · exact h
  · split
    · exact h
    · exact h
    · split
      · exact fileDelivery_keeps_unregistered h
      · exact fileDelivery_keeps_unregistered h
    · exact h

theorem not_queued {queue : List ArqJob} (h : ∀ job ∈ queue, job.function ∉ workerFunctions)
    (runpodJobId : String) : ¬ Queued queue runpodJobId := by
  rintro ⟨job, hjob, hname, -⟩
  exact h job hjob hname

theorem notLost_iff (d : WebhookArrival) (h : ∀ job ∈ s.queue, job.function ∉ workerFunctions) :
    NotLost text cfg s d ↔ NeverAnswered text cfg s d := by
  refine forall_congr' (fun f => forall_congr' (fun hf => ?_))
  obtain ⟨hfiled, value, hvalue, hstatus⟩ := hf
  have hanswer : answer text cfg s d =
      (fileDelivery cfg d.input s f.runpodJobId f.attempt f.status f.payload).2 := by
    unfold answer
    rw [runpodWebhook_of_filed d.input hfiled]
  have hsucceeds : succeeds (answer text cfg s d) = !fails cfg s d.input f := by
    rw [hanswer]
    exact succeeds_fileDelivery hvalue hstatus d.input
  constructor
  · rintro ⟨hqueued, -⟩
    cases hfails : fails cfg s d.input f with
    | true => rfl
    | false =>
      rw [hfails] at hsucceeds
      exact absurd (hqueued hsucceeds) (not_queued (unregistered_step d h) _)
  · intro hfails
    rw [hfails] at hsucceeds
    refine ⟨fun hsuccess => ?_, fun hduplicate => ?_⟩
    · rw [hsucceeds] at hsuccess
      cases hsuccess
    · rw [hduplicate] at hsucceeds
      cases hsucceeds

end Steps

/-- Over every sequence of requests: no terminal status that is answered with success is lost
exactly when none is ever answered so, since the queue never gets a job that the worker
knows. -/
theorem webhook_not_lost_iff (text : ReceiverText) (cfg : ReceiverConfig)
    (deliveries : WebhookDeliveries) (arrivals : List WebhookArrival) :
    Along (receiverStep text cfg) (NotLost text cfg) ⟨deliveries, []⟩ arrivals ↔
      Along (receiverStep text cfg) (NeverAnswered text cfg) ⟨deliveries, []⟩ arrivals := by
  have hempty : ∀ job ∈ (⟨deliveries, []⟩ : Receiver).queue, job.function ∉ workerFunctions := by
    simp
  constructor
  · intro hkept
    refine along_of_invariant
      (I := fun s : Receiver => ∀ job ∈ s.queue, job.function ∉ workerFunctions)
      (fun s d h hd => ⟨unregistered_step d h, (notLost_iff d h).mp hd⟩) hempty hkept
  · intro hfails
    refine along_of_invariant
      (I := fun s : Receiver => ∀ job ∈ s.queue, job.function ∉ workerFunctions)
      (fun s d h hd => ⟨unregistered_step d h, (notLost_iff d h).mpr hd⟩) hempty hfails

section Lost

def completionBody : ReceiverText where
  loads := fun _ => .value (.obj [("id", .str "job_1"), ("status", .str "COMPLETED")])
  sha256 := fun _ => ""
  parseInt := fun _ => none
  verifySignature := fun _ _ _ => true

def smoothArrival : WebhookArrival :=
  ⟨⟨"body", []⟩, ⟨1, 0, none, true, none, none, none⟩⟩

/-- With everything up and configured, the job is enqueued under a name that the worker does
not have. -/
theorem completed_webhook_lost :
    ¬ ∀ (text : ReceiverText) (cfg : ReceiverConfig) (deliveries : WebhookDeliveries)
      (arrivals : List WebhookArrival),
      Along (receiverStep text cfg) (NotLost text cfg) ⟨deliveries, []⟩ arrivals := by
  intro h
  have hkept := (h completionBody ⟨["secret"], true⟩ Table.empty [smoothArrival]).1
  obtain ⟨job, hjob, hname, -⟩ := (hkept _ ⟨rfl, "COMPLETED", by decide, rfl⟩).1 (by decide +kernel)
  exact unregistered_step smoothArrival (by simp) job hjob hname

end Lost

end Pitwall
