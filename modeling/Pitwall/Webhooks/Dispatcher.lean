import Pitwall.Core.Webhooks
import Pitwall.Core.Workloads
set_option autoImplicit false

/-!
Delivery of a completion event to the subscriptions of a capability:
`dispatch_workload_completion_webhooks` with the dispatcher that it calls.
-/

namespace Pitwall

/-- A row of `pitwall.webhook_subscriptions`, its secret as the cipher gives it back. -/
structure WebhookSubscription where
  id : Int
  consumer : String
  webhookUrl : String
  hmacSecret : Option String
  active : Bool
  deriving DecidableEq

abbrev WebhookSubscriptions := Keyed WebhookSubscription.id

/-- `list_for_dispatch`. -/
def WebhookSubscriptions.listForDispatch (t : WebhookSubscriptions) (consumer : String) :
    List WebhookSubscription :=
  ((t.rows.filter fun s => decide (s.consumer = consumer) && s.active).mergeSort
    fun a b => decide (a.id ≤ b.id)).take 100

inductive PostOutcome where
  | status (code : Int)
  | targetRejected
  | transportFailure
  | raised (exc : PyError)

structure DeliveryOutcome where
  success : Bool
  attempt : Int
  statusCode : Option Int
  errorMessage : Option String
  deliveryId : String

def maxAttempts : Nat := 4

section Send
variable (posts : Nat → PostOutcome) (deliveryId : String)

/-- The attempts from `attempt` on, `left` of them, with what the ones before have left in
`last_status_code` and `last_error`. -/
def sendAttempts (attempt : Nat) (lastStatus : Option Int) (lastError : Option String) :
    Nat → Except PyError DeliveryOutcome
  | 0 => .ok ⟨false, maxAttempts, lastStatus,
      some ((nonEmpty lastError).getD "Webhook delivery failed"), deliveryId⟩
  | left + 1 =>
    match posts attempt with
    | .status code =>
        if 200 ≤ code ∧ code < 300 then .ok ⟨true, attempt, some code, none, deliveryId⟩
        else if code ∉ [408, 425, 429] ∧ code < 500 then
          .ok ⟨false, attempt, some code, some s!"Non-retryable HTTP status: {code}", deliveryId⟩
        else
          sendAttempts (attempt + 1) (some code) (some s!"Retryable HTTP status: {code}") left
    | .targetRejected =>
        .ok ⟨false, attempt, none, some "Webhook target rejected by egress policy", deliveryId⟩
    | .transportFailure =>
        sendAttempts (attempt + 1) lastStatus (some "Webhook delivery transport failure") left
    | .raised e => .error e

def sendWebhookWithRetry : Except PyError DeliveryOutcome :=
  sendAttempts posts deliveryId 1 none none maxAttempts

variable {posts : Nat → PostOutcome} {deliveryId : String}

theorem attempt_of_sendAttempts {attempt left : Nat} {lastStatus : Option Int}
    {lastError : Option String} {outcome : DeliveryOutcome} (hpos : 1 ≤ attempt)
    (hbound : attempt + left ≤ maxAttempts + 1)
    (h : sendAttempts posts deliveryId attempt lastStatus lastError left = .ok outcome) :
    1 ≤ outcome.attempt ∧ outcome.attempt ≤ maxAttempts := by
  induction left generalizing attempt lastStatus lastError with
  | zero =>
    cases h
    have hone : (1 : Int) ≤ (maxAttempts : Nat) := by decide
    exact ⟨hone, le_refl _⟩
  | succ left ih =>
    have hthis : 1 ≤ (attempt : Int) ∧ (attempt : Int) ≤ maxAttempts := by omega
    unfold sendAttempts at h
    split at h
    · split at h
      · cases h
        exact hthis
      · split at h
        · cases h
          exact hthis
        · exact ih (by omega) (by omega) h
    · cases h
      exact hthis
    · exact ih (by omega) (by omega) h
    · cases h

/-- The outcome of a delivery is within the `CHECK` of the failure table. -/
theorem attempt_of_sendWebhookWithRetry {outcome : DeliveryOutcome}
    (h : sendWebhookWithRetry posts deliveryId = .ok outcome) :
    1 ≤ outcome.attempt ∧ outcome.attempt ≤ maxAttempts :=
  attempt_of_sendAttempts (le_refl 1) (by decide) h

end Send

/-- The envelope of `build_completion_event`, with the subscription it is sent to. -/
structure CompletionDelivery where
  subscriptionId : Int
  deliveryId : String
  occurredAt : Instant
  workloadId : String
  consumer : String
  data : JsonObject

def deliveryFailure (nextId : Int) (now : Instant) (workload : Workload) (state : String)
    (subscriptionId : Int) (outcome : DeliveryOutcome) : WebhookFailure where
  id := nextId
  workloadId := workload.id
  subscriptionId := subscriptionId
  attempt := if outcome.attempt = 0 then 1 else outcome.attempt
  attemptedAt := now
  nextRetryAt := none
  payload := .obj [("event", .str "workload.completed"), ("workload_id", .str workload.id),
    ("delivery_id", .str outcome.deliveryId), ("state", .str state)]
  statusCode := outcome.statusCode
  errorMessage := outcome.errorMessage

end Pitwall
