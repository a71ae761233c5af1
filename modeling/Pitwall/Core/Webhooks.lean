import Pitwall.Core.Clock
import Pitwall.Core.Json
import Pitwall.Library.Table
set_option autoImplicit false

/-!
The two webhook tables: deliveries that RunPod made to the receiver, and deliveries to
subscribers that failed.
-/

namespace Pitwall

/-- A row of `pitwall.runpod_webhook_deliveries`. -/
structure WebhookDelivery where
  id : Int
  runpodJobId : String
  attempt : Int
  receivedAt : Instant
  payload : Option Json

inductive DeliveryIndex where
  | id : Int → DeliveryIndex
  | delivery (runpodJobId : String) (attempt : Int)
  deriving DecidableEq

def WebhookDelivery.uniq (d : WebhookDelivery) : List DeliveryIndex :=
  [.id d.id, .delivery d.runpodJobId d.attempt]

abbrev WebhookDeliveries := Table WebhookDelivery.uniq

/-- A row of `pitwall.webhook_delivery_failures`. -/
structure WebhookFailure where
  id : Int
  workloadId : String
  subscriptionId : Int
  attempt : Int
  attemptedAt : Instant
  nextRetryAt : Option Instant
  payload : Json
  statusCode : Option Int
  errorMessage : Option String

inductive FailureIndex where
  | id : Int → FailureIndex
  | failure (workloadId : String) (subscriptionId attempt : Int)
  deriving DecidableEq

def WebhookFailure.uniq (f : WebhookFailure) : List FailureIndex :=
  [.id f.id, .failure f.workloadId f.subscriptionId f.attempt]

abbrev WebhookFailures := Table WebhookFailure.uniq

end Pitwall
