import Pitwall.Library.JsonWriting
import Pitwall.Library.Puts
import Pitwall.Webhooks.Dispatcher
import Pitwall.Webhooks.EgressPolicy
set_option autoImplicit false

/-!
`dispatch_completion`: one event to several subscriptions, each with its attempts, and what one
subscription can cost the others.
-/

namespace Pitwall

namespace DeliveryOutcome

def shouldRetry (o : DeliveryOutcome) : Bool :=
  if o.success then false
  else if (maxAttempts : Int) ≤ o.attempt then false
  else
    match o.statusCode with
    | none => true
    | some code => decide (code ∈ [408, 425, 429]) || decide (500 ≤ code)

def state (o : DeliveryOutcome) : String :=
  if o.success then "delivered"
  else if o.shouldRetry then "retry_scheduled"
  else "terminal_failure"

variable {o : DeliveryOutcome}

theorem shouldRetry_of_success (h : o.success = true) : o.shouldRetry = false := by
  rw [shouldRetry, if_pos h]

theorem state_eq_delivered_iff : o.state = "delivered" ↔ o.success = true := by
  unfold state
  cases o.success with
  | true => simp
  | false =>
    cases o.shouldRetry with
    | true => simp
    | false => simp

theorem state_settled_iff :
    o.state = "delivered" ∨ o.state = "terminal_failure" ↔ o.shouldRetry = false := by
  unfold state
  cases hsuccess : o.success with
  | true => simp [shouldRetry_of_success hsuccess]
  | false =>
    cases o.shouldRetry with
    | true => simp
    | false => simp

end DeliveryOutcome

namespace Dispatch
open Egress JsonSyntax NumberText

structure World where
  resolver : Resolver
  remote : Remote

section Loop
variable (posts : Nat → PostOutcome) (deliveryId : String) (total : Nat)

/-- The attempts from `attempt` on, `left` of them, each with what it meets. -/
def sendLoop (attempt : Nat) (lastStatus : Option Int) (lastError : Option String) :
    Nat → List PostOutcome × Except PyError DeliveryOutcome
  | 0 => ([], .ok ⟨false, total, lastStatus,
      some ((nonEmpty lastError).getD "Webhook delivery failed"), deliveryId⟩)
  | left + 1 =>
    match posts attempt with
    | .status code =>
        if 200 ≤ code ∧ code < 300 then
          ([.status code], .ok ⟨true, attempt, some code, none, deliveryId⟩)
        else if code ∉ [408, 425, 429] ∧ code < 500 then
          ([.status code], .ok ⟨false, attempt, some code,
            some s!"Non-retryable HTTP status: {code}", deliveryId⟩)
        else
          let (made, result) := sendLoop (attempt + 1) (some code)
            (some s!"Retryable HTTP status: {code}") left
          (.status code :: made, result)
    | .targetRejected =>
        ([.targetRejected], .ok ⟨false, attempt, none,
          some "Webhook target rejected by egress policy", deliveryId⟩)
    | .transportFailure =>
        let (made, result) := sendLoop (attempt + 1) lastStatus
          (some "Webhook delivery transport failure") left
        (.transportFailure :: made, result)
    | .raised e => ([.raised e], .error e)

theorem sendLoop_default (attempt : Nat) (lastStatus : Option Int) (lastError : Option String)
    (left : Nat) : (sendLoop posts deliveryId maxAttempts attempt lastStatus lastError left).2 =
      sendAttempts posts deliveryId attempt lastStatus lastError left := by
  induction left generalizing attempt lastStatus lastError with
  | zero => rfl
  | succ left ih =>
    unfold sendLoop sendAttempts
    cases posts attempt with
    | status code =>
      dsimp only
      split
      · rfl
      · split
        · rfl
        · exact ih _ _ _
    | targetRejected => rfl
    | transportFailure => exact ih _ _ _
    | raised e => rfl

end Loop

section Outcomes

def Succeeds (code : Int) : Prop := 200 ≤ code ∧ code < 300

def Retryable (code : Int) : Prop := code ∈ [408, 425, 429] ∨ 500 ≤ code

def Retried : PostOutcome → Prop
  | .status code => Retryable code
  | .transportFailure => True
  | .targetRejected | .raised _ => False

def Stops (made : List PostOutcome) : Prop :=
  ∀ before code after, made = before ++ .status code :: after → ¬ Retryable code → after = []

def Delivered (made : List PostOutcome) : Prop := ∃ code, .status code ∈ made ∧ Succeeds code

/-- What an attempt meets ends the delivery for good: a status that is not retried, or a rejection
when no attempt could follow. -/
def Final (attempt : Nat) (outcome : PostOutcome) : Prop :=
  (∃ code, outcome = .status code ∧ ¬ Retryable code) ∨
    outcome = .targetRejected ∧ maxAttempts ≤ attempt

/-- Of `left` attempts from `attempt` on, one ends the delivery for good, or all are retried and no
attempt could follow. -/
def Settles (posts : Nat → PostOutcome) (total attempt left : Nat) : Prop :=
  (∃ k < left, (∀ j < k, Retried (posts (attempt + j))) ∧
      Final (attempt + k) (posts (attempt + k))) ∨
    maxAttempts ≤ total ∧ ∀ j < left, Retried (posts (attempt + j))

variable {posts : Nat → PostOutcome} {deliveryId : String} {total attempt left : Nat}

theorem settles_zero : Settles posts total attempt 0 ↔ maxAttempts ≤ total := by
  simp [Settles]

theorem settles_succ : Settles posts total attempt (left + 1) ↔ Final attempt (posts attempt) ∨
    Retried (posts attempt) ∧ Settles posts total (attempt + 1) left := by
  have hshift : ∀ k, attempt + (k + 1) = attempt + 1 + k := fun k => by omega
  constructor
  · rintro (⟨k, hk, hretried, hfinal⟩ | ⟨htotal, hretried⟩)
    · cases k with
      | zero => exact .inl hfinal
      | succ k =>
        rw [hshift] at hfinal
        refine .inr ⟨hretried 0 (by omega), .inl ⟨k, by omega, fun j hj => ?_, hfinal⟩⟩
        rw [← hshift]
        exact hretried (j + 1) (by omega)
    · refine .inr ⟨hretried 0 (by omega), .inr ⟨htotal, fun j hj => ?_⟩⟩
      rw [← hshift]
      exact hretried (j + 1) (by omega)
  · have hlater : Retried (posts attempt) → ∀ k, (∀ j < k, Retried (posts (attempt + 1 + j))) →
        ∀ j < k + 1, Retried (posts (attempt + j)) := by
      intro hfirst k hretried j hj
      cases j with
      | zero => exact hfirst
      | succ j =>
        rw [hshift]
        exact hretried j (by omega)
    rintro (hfinal | ⟨hfirst, ⟨k, hk, hretried, hfinal⟩ | ⟨htotal, hretried⟩⟩)
    · exact .inl ⟨0, by omega, fun j hj => absurd hj (by omega), hfinal⟩
    · rw [← hshift] at hfinal
      exact .inl ⟨k + 1, by omega, hlater hfirst k hretried, hfinal⟩
    · exact .inr ⟨htotal, hlater hfirst left hretried⟩

theorem stops_singleton (outcome : PostOutcome) : Stops [outcome] := by
  intro before code after heq _
  cases before with
  | nil => exact ((List.cons.inj heq).2).symm
  | cons first before => simp at heq

theorem stops_cons {outcome : PostOutcome} {made : List PostOutcome} (h : Stops made)
    (hretried : Retried outcome) : Stops (outcome :: made) := by
  intro before code after heq hcode
  cases before with
  | nil =>
    obtain rfl : outcome = .status code := (List.cons.inj heq).1
    exact absurd hretried hcode
  | cons first before => exact h before code after (List.cons.inj heq).2 hcode

structure LoopSpec (posts : Nat → PostOutcome) (total attempt left : Nat)
    (run : List PostOutcome × Except PyError DeliveryOutcome) : Prop where
  bounded : run.1.length ≤ left
  stops : Stops run.1
  delivered : ∀ outcome, run.2 = .ok outcome → (outcome.success = true ↔ Delivered run.1)
  settles : (∃ outcome, run.2 = .ok outcome ∧ outcome.shouldRetry = false) ↔
    Settles posts total attempt left

theorem loopSpec_cons {run : List PostOutcome × Except PyError DeliveryOutcome}
    {outcome : PostOutcome} (hpost : posts attempt = outcome) (hretried : Retried outcome)
    (h : LoopSpec posts total (attempt + 1) left run) :
    LoopSpec posts total attempt (left + 1) (outcome :: run.1, run.2) where
  bounded := Nat.succ_le_succ h.bounded
  stops := stops_cons h.stops hretried
  delivered o ho := by
    rw [h.delivered o ho]
    refine ⟨fun ⟨code, hmem, hcode⟩ => ⟨code, List.mem_cons_of_mem _ hmem, hcode⟩, ?_⟩
    rintro ⟨code, hmem, hcode⟩
    rcases List.mem_cons.mp hmem with rfl | hmem
    · exfalso
      have hcode' : Retryable code := hretried
      rcases hcode' with hlisted | hlarge
      · simp only [Succeeds] at hcode
        simp only [List.mem_cons, List.not_mem_nil, or_false] at hlisted
        omega
      · simp only [Succeeds] at hcode
        omega
    · exact ⟨code, hmem, hcode⟩
  settles := by
    rw [settles_succ, hpost, h.settles]
    refine ⟨fun hsettles => .inr ⟨hretried, hsettles⟩, ?_⟩
    rintro ((⟨code, rfl, hcode⟩ | ⟨rfl, -⟩) | ⟨-, hsettles⟩)
    · exact absurd hretried hcode
    · exact absurd hretried id
    · exact hsettles

theorem loopSpec_last {outcome : PostOutcome} {result : Except PyError DeliveryOutcome}
    (hpost : posts attempt = outcome) (hretried : ¬ Retried outcome)
    (hdelivered : ∀ o, result = .ok o → (o.success = true ↔ Delivered [outcome]))
    (hfinal : (∃ o, result = .ok o ∧ o.shouldRetry = false) ↔ Final attempt outcome) :
    LoopSpec posts total attempt (left + 1) ([outcome], result) where
  bounded := by simp
  stops := stops_singleton outcome
  delivered := hdelivered
  settles := by
    rw [settles_succ, hpost, hfinal]
    simp [hretried]

theorem retryable_iff {code : Int} :
    ¬ Retryable code ↔ code ∉ [408, 425, 429] ∧ code < 500 := by
  rw [Retryable, not_or, not_le]

theorem not_retryable_of_succeeds {code : Int} (h : Succeeds code) : ¬ Retryable code := by
  rw [retryable_iff]
  simp only [Succeeds] at h
  simp only [List.mem_cons, List.not_mem_nil, or_false]
  omega

/-- Of an unsuccessful outcome before the last attempt, only a status that is not retried keeps it
from `retry_scheduled`. -/
theorem shouldRetry_eq_false_iff {o : DeliveryOutcome} : o.shouldRetry = false ↔
    o.success = true ∨ (maxAttempts : Int) ≤ o.attempt ∨
      ∃ code, o.statusCode = some code ∧ ¬ Retryable code := by
  unfold DeliveryOutcome.shouldRetry
  split
  · rename_i hsuccess
    simp [hsuccess]
  · rename_i hsuccess
    split
    · rename_i hattempt
      simp [hattempt]
    · rename_i hattempt
      cases o.statusCode with
      | none => simp [hsuccess, hattempt]
      | some code => simp [hsuccess, hattempt, Retryable]

/-- The loop from any attempt on, when what is left in `last_status_code` is retried. -/
theorem sendLoop_spec {lastStatus : Option Int} {lastError : Option String}
    (hlast : ∀ code, lastStatus = some code → Retryable code) :
    LoopSpec posts total attempt left
      (sendLoop posts deliveryId total attempt lastStatus lastError left) := by
  induction left generalizing attempt lastStatus lastError with
  | zero =>
    refine
      { bounded := le_refl 0
        stops := fun before code after heq => by simp [sendLoop] at heq
        delivered := fun outcome houtcome => ?_
        settles := ?_ }
    · obtain rfl := Except.ok.inj houtcome
      simp [sendLoop, Delivered]
    · rw [settles_zero]
      simp only [sendLoop, Except.ok.injEq, exists_eq_left']
      rw [shouldRetry_eq_false_iff]
      have hnone : ¬ ∃ code, lastStatus = some code ∧ ¬ Retryable code := by
        rintro ⟨code, hcode, hnot⟩
        exact hnot (hlast code hcode)
      simp [hnone]
  | succ left ih =>
    unfold sendLoop
    cases hpost : posts attempt with
    | status code =>
      dsimp only
      split
      · rename_i hsucceeds
        refine loopSpec_last hpost (not_retryable_of_succeeds hsucceeds) (fun o ho => ?_) ?_
        · obtain rfl := Except.ok.inj ho
          exact iff_of_true rfl ⟨code, by simp, hsucceeds⟩
        · refine iff_of_true ⟨_, rfl, DeliveryOutcome.shouldRetry_of_success rfl⟩ ?_
          exact .inl ⟨code, rfl, not_retryable_of_succeeds hsucceeds⟩
      · rename_i hsucceeds
        split
        · rename_i hterminal
          have hcode : ¬ Retryable code := retryable_iff.mpr hterminal
          refine loopSpec_last hpost hcode (fun o ho => ?_) ?_
          · obtain rfl := Except.ok.inj ho
            refine iff_of_false (by simp) ?_
            rintro ⟨code', hmem, hcode'⟩
            obtain rfl : code' = code := by simpa using hmem
            exact hsucceeds hcode'
          · refine iff_of_true ⟨_, rfl, ?_⟩ (.inl ⟨code, rfl, hcode⟩)
            exact shouldRetry_eq_false_iff.mpr (.inr (.inr ⟨code, rfl, hcode⟩))
        · rename_i hterminal
          have hcode : Retryable code := by
            by_contra hnot
            exact hterminal (retryable_iff.mp hnot)
          exact loopSpec_cons hpost hcode (ih fun code' heq => Option.some.inj heq ▸ hcode)
    | targetRejected =>
      refine loopSpec_last hpost id (fun o ho => ?_) ?_
      · obtain rfl := Except.ok.inj ho
        simp [Delivered]
      · simp [shouldRetry_eq_false_iff, Final]
    | transportFailure => exact loopSpec_cons hpost trivial (ih hlast)
    | raised e =>
      refine loopSpec_last hpost id (fun o ho => by cases ho) ?_
      refine iff_of_false (fun ⟨_, ho, _⟩ => by cases ho) ?_
      rintro (⟨code, hcode, -⟩ | ⟨hcode, -⟩)
      · cases hcode
      · cases hcode

end Outcomes

section Functions
variable {Address : Type} [DecidableEq Address] (ip : IpModule Address) (unicode : Unicode)
  (floatRepr : Binary64 → List Char) (limits : Limits)

def attemptOutcome (world : World) (url : List Char) : PostOutcome :=
  match (resolveWebhookTarget ip unicode world.resolver url).bind fun target =>
    (postPinnedSync ip world.remote target).2 with
  | .ok code => .status code
  | .error (.rejected _) => .targetRejected
  | .error (.transport _) => .transportFailure
  | .error (.other exc) => .raised exc

structure Completion where
  workloadId : String
  consumer : String
  payload : Value
  /-- `retry_delays`, of which the loop takes the first four. -/
  retryDelays : List ℚ

structure Subscription where
  id : Int
  webhookUrl : List Char
  deriving DecidableEq

/-- What each subscription meets: its delivery id, the time of its event, and the world at each
attempt. -/
structure Surroundings where
  deliveryId : Int → String
  occurredAt : Int → String
  world : Int → Nat → World

def text (s : String) : List Nat := codesOf s.toList

/-- `build_completion_event`. -/
def buildCompletionEvent (c : Completion) (deliveryId occurredAt : String) : Value :=
  .obj
    [(text "version", .str (text "1")), (text "event", .str (text "workload.completed")),
      (text "delivery_id", .str (text deliveryId)), (text "occurred_at", .str (text occurredAt)),
      (text "workload_id", .str (text c.workloadId)), (text "consumer", .str (text c.consumer)),
      (text "data", c.payload)]

def writeError : WriteFailure → PyError
  | .range => ⟨"ValueError", "Out of range float values are not JSON compliant"⟩
  | .digits => ⟨"ValueError", "Exceeds the limit for integer string conversion"⟩
  | .depth => ⟨"RecursionError", "maximum recursion depth exceeded while encoding a JSON object"⟩
  | .surrogate =>
      ⟨"UnicodeEncodeError", "'utf-8' codec can't encode characters: surrogates not allowed"⟩

def attemptCount (c : Completion) : Nat := (c.retryDelays.take maxAttempts).length

/-- `_send_webhook_with_retry`: the body, then the attempts. -/
def sendWebhook (c : Completion) (around : Surroundings) (s : Subscription) :
    List PostOutcome × Except PyError DeliveryOutcome :=
  match dumps floatRepr limits
      (buildCompletionEvent c (around.deliveryId s.id) (around.occurredAt s.id)) with
  | .error failure => ([], .error (writeError failure))
  | .ok _ =>
      sendLoop (fun attempt => attemptOutcome ip unicode (around.world s.id attempt) s.webhookUrl)
        (around.deliveryId s.id) (attemptCount c) 1 none none (attemptCount c)

structure Entry where
  success : Bool
  attempt : Int
  statusCode : Option Int
  errorMessage : Option String
  nextRetryAt : Option String
  deliveryId : String
  state : String
  deriving DecidableEq

def entryOf (o : DeliveryOutcome) : Entry :=
  ⟨o.success, o.attempt, o.statusCode, o.errorMessage, none, o.deliveryId, o.state⟩

abbrev Results := List (List Char × Entry)

abbrev AttemptLog := List (Int × List PostOutcome)

/-- `str(subscription_id)`. -/
def idText (id : Int) : Except PyError (List Char) :=
  if digitCount id ≤ limits.digits then .ok (intText id) else .error (writeError .digits)

/-- The loop of `dispatch_completion`. -/
def dispatchLoop (c : Completion) (around : Surroundings) :
    List Subscription → Results → AttemptLog × Except PyError Results
  | [], results => ([], .ok results)
  | s :: rest, results =>
      match idText limits s.id with
      | .error e => ([], .error e)
      | .ok key =>
          let (made, sent) := sendWebhook ip unicode floatRepr limits c around s
          match sent with
          | .error e => ([(s.id, made)], .error e)
          | .ok outcome =>
              let (log, result) :=
                dispatchLoop c around rest (putBy Prod.fst results (key, entryOf outcome))
              ((s.id, made) :: log, result)

/-- `dispatch_completion`. -/
def dispatchCompletion (c : Completion) (around : Surroundings)
    (subscriptions : List Subscription) : AttemptLog × Except PyError Results :=
  dispatchLoop ip unicode floatRepr limits c around subscriptions []

end Functions

section Isolation
variable {Address : Type} [DecidableEq Address] {ip : IpModule Address} {unicode : Unicode}
  {floatRepr : Binary64 → List Char} {limits : Limits} {c : Completion} {around : Surroundings}
  {subscriptions : List Subscription} {results : Results}

structure Handled (made : List PostOutcome) (entry : Entry) : Prop where
  bounded : made.length ≤ maxAttempts
  stops : Stops made
  delivered : entry.state = "delivered" ↔ Delivered made
  settled : entry.state = "delivered" ∨ entry.state = "terminal_failure"

/-- One entry a subscription, each with its own attempts. -/
structure Isolates (subscriptions : List Subscription)
    (run : AttemptLog × Except PyError Results) : Prop where
  logged : run.1.map Prod.fst = subscriptions.map Subscription.id
  returned : ∃ results, run.2 = .ok results ∧
    results.map Prod.fst = subscriptions.map (fun s => intText s.id) ∧
    ∀ s ∈ subscriptions, ∃ made entry, (s.id, made) ∈ run.1 ∧ (intText s.id, entry) ∈ results ∧
      Handled made entry

def Sends (ip : IpModule Address) (unicode : Unicode) (floatRepr : Binary64 → List Char)
    (limits : Limits) (c : Completion) (around : Surroundings) (s : Subscription)
    (outcome : DeliveryOutcome) : Prop :=
  digitCount s.id ≤ limits.digits ∧
    (sendWebhook ip unicode floatRepr limits c around s).2 = .ok outcome

theorem dispatchLoop_returns
    (h : ∃ out, (dispatchLoop ip unicode floatRepr limits c around subscriptions results).2 =
      .ok out) :
    ∀ s ∈ subscriptions, ∃ o, Sends ip unicode floatRepr limits c around s o := by
  induction subscriptions generalizing results with
  | nil => simp
  | cons s rest ih =>
    obtain ⟨out, h⟩ := h
    unfold dispatchLoop at h
    split at h
    · cases h
    · rename_i key hkey
      have hdigits : digitCount s.id ≤ limits.digits := by
        by_contra hnot
        rw [idText, if_neg hnot] at hkey
        cases hkey
      rcases hsent : sendWebhook ip unicode floatRepr limits c around s with ⟨made, e | outcome⟩
      · rw [hsent] at h
        cases h
      · rw [hsent] at h
        rw [List.forall_mem_cons]
        exact ⟨⟨outcome, hdigits, by rw [hsent]⟩, ih ⟨out, h⟩⟩

theorem dispatchLoop_ok
    (hids : (subscriptions.map Subscription.id).Nodup)
    (hfresh : ∀ s ∈ subscriptions, ∀ r ∈ results, r.1 ≠ intText s.id)
    (h : ∀ s ∈ subscriptions, ∃ o, Sends ip unicode floatRepr limits c around s o) :
    ∃ out, (dispatchLoop ip unicode floatRepr limits c around subscriptions results).2 =
        .ok (results ++ out) ∧
      out.map Prod.fst = subscriptions.map (fun s => intText s.id) ∧
      (dispatchLoop ip unicode floatRepr limits c around subscriptions results).1 =
        subscriptions.map
          (fun s => (s.id, (sendWebhook ip unicode floatRepr limits c around s).1)) ∧
      ∀ s ∈ subscriptions, ∃ o, Sends ip unicode floatRepr limits c around s o ∧
        (intText s.id, entryOf o) ∈ out := by
  induction subscriptions generalizing results with
  | nil => exact ⟨[], by simp [dispatchLoop]⟩
  | cons s rest ih =>
    obtain ⟨⟨outcome, hdigits, hsent⟩, hrest⟩ := List.forall_mem_cons.mp h
    rw [List.map_cons, List.nodup_cons] at hids
    have hnew : ∀ r ∈ results, r.1 ≠ intText s.id := hfresh s (by simp)
    have hput : putBy Prod.fst results (intText s.id, entryOf outcome) =
        results ++ [(intText s.id, entryOf outcome)] := putBy_of_notMem hnew
    obtain ⟨out, hout, hkeys, hlog, hentries⟩ :=
      @ih (results ++ [(intText s.id, entryOf outcome)]) hids.2 (by
        intro s' hs' r hr
        rcases List.mem_append.mp hr with hr | hr
        · exact hfresh s' (by simp [hs']) r hr
        · obtain rfl := List.mem_singleton.mp hr
          intro heq
          exact hids.1 (List.mem_map.mpr ⟨s', hs', (intText_injective heq).symm⟩)) hrest
    have hstep : dispatchLoop ip unicode floatRepr limits c around (s :: rest) results =
        ((s.id, (sendWebhook ip unicode floatRepr limits c around s).1) ::
            (dispatchLoop ip unicode floatRepr limits c around rest
              (results ++ [(intText s.id, entryOf outcome)])).1,
          (dispatchLoop ip unicode floatRepr limits c around rest
              (results ++ [(intText s.id, entryOf outcome)])).2) := by
      rw [← hput]
      rcases hrun : sendWebhook ip unicode floatRepr limits c around s with ⟨made, sent⟩
      rw [hrun] at hsent
      obtain rfl : sent = .ok outcome := hsent
      rw [dispatchLoop, idText, if_pos hdigits, hrun]
    rw [hstep]
    refine ⟨(intText s.id, entryOf outcome) :: out, ?_, ?_, ?_, ?_⟩
    · rw [hout, List.append_assoc, List.singleton_append]
    · rw [List.map_cons, List.map_cons, hkeys]
    · rw [hlog, List.map_cons]
    · rw [List.forall_mem_cons]
      refine ⟨⟨outcome, ⟨hdigits, hsent⟩, by simp⟩, fun s' hs' => ?_⟩
      obtain ⟨o, ho, hmem⟩ := hentries s' hs'
      exact ⟨o, ho, List.mem_cons_of_mem _ hmem⟩

/-- What a subscription meets that costs the others nothing and leaves no retry pending. -/
structure Deliverable (ip : IpModule Address) (unicode : Unicode) (limits : Limits)
    (c : Completion) (around : Surroundings) (s : Subscription) : Prop where
  identified : digitCount s.id ≤ limits.digits
  writable : writable limits limits.depth
    (buildCompletionEvent c (around.deliveryId s.id) (around.occurredAt s.id)) = true
  settles : Settles
    (fun attempt => attemptOutcome ip unicode (around.world s.id attempt) s.webhookUrl)
    (attemptCount c) 1 (attemptCount c)

variable {s : Subscription}

theorem attemptCount_le (c : Completion) : attemptCount c ≤ maxAttempts := by
  rw [attemptCount, List.length_take]
  exact min_le_left _ _

theorem sendWebhook_eq (hwritable : writable limits limits.depth
    (buildCompletionEvent c (around.deliveryId s.id) (around.occurredAt s.id)) = true) :
    sendWebhook ip unicode floatRepr limits c around s =
      sendLoop (fun attempt => attemptOutcome ip unicode (around.world s.id attempt) s.webhookUrl)
        (around.deliveryId s.id) (attemptCount c) 1 none none (attemptCount c) := by
  obtain ⟨body, hbody⟩ := (@dumps_returns_iff floatRepr limits _).mpr hwritable
  rw [sendWebhook, hbody]

theorem sendWebhook_spec (hwritable : writable limits limits.depth
    (buildCompletionEvent c (around.deliveryId s.id) (around.occurredAt s.id)) = true) :
    LoopSpec (fun attempt => attemptOutcome ip unicode (around.world s.id attempt) s.webhookUrl)
      (attemptCount c) 1 (attemptCount c)
      (sendWebhook ip unicode floatRepr limits c around s) := by
  rw [sendWebhook_eq hwritable]
  exact sendLoop_spec fun code heq => by cases heq

theorem writable_of_sends {o : DeliveryOutcome}
    (h : Sends ip unicode floatRepr limits c around s o) : writable limits limits.depth
      (buildCompletionEvent c (around.deliveryId s.id) (around.occurredAt s.id)) = true := by
  rw [← @dumps_returns_iff floatRepr]
  obtain ⟨-, hsent⟩ := h
  unfold sendWebhook at hsent
  split at hsent
  · cases hsent
  · rename_i body hbody
    exact ⟨body, hbody⟩

theorem handled_of_sends {o : DeliveryOutcome}
    (h : Sends ip unicode floatRepr limits c around s o) (hretry : o.shouldRetry = false) :
    Handled (sendWebhook ip unicode floatRepr limits c around s).1 (entryOf o) := by
  have hspec := @sendWebhook_spec _ _ ip unicode floatRepr limits c around s (writable_of_sends h)
  exact
    { bounded := hspec.bounded.trans (attemptCount_le c)
      stops := hspec.stops
      delivered := DeliveryOutcome.state_eq_delivered_iff.trans (hspec.delivered o h.2)
      settled := DeliveryOutcome.state_settled_iff.mpr hretry }

theorem deliverable_iff : Deliverable ip unicode limits c around s ↔
    ∃ o, Sends ip unicode floatRepr limits c around s o ∧ o.shouldRetry = false := by
  refine ⟨fun h => ?_, ?_⟩
  · have hspec := @sendWebhook_spec _ _ ip unicode floatRepr limits c around s h.writable
    obtain ⟨o, ho, hretry⟩ := hspec.settles.mpr h.settles
    exact ⟨o, ⟨h.identified, ho⟩, hretry⟩
  · rintro ⟨o, hsends, hretry⟩
    have hwritable := writable_of_sends hsends
    have hspec := @sendWebhook_spec _ _ ip unicode floatRepr limits c around s hwritable
    exact ⟨hsends.1, hwritable, hspec.settles.mp ⟨o, hsends.2, hretry⟩⟩

/-- A URL that `urlsplit` refuses costs the other subscriptions their events, whatever the world. -/
theorem not_deliverable_of_refused {exc : PyError} (hsome : s.webhookUrl ≠ [])
    (hprintable : ∀ ch ∈ s.webhookUrl, 32 ≤ ch.toNat)
    (hrefused : refuses ip unicode (Url.components s.webhookUrl).netloc = some exc)
    (hattempts : attemptCount c ≠ 0) : ¬ Deliverable ip unicode limits c around s := by
  intro h
  have hraised : ∀ attempt,
      attemptOutcome ip unicode (around.world s.id attempt) s.webhookUrl = .raised exc := by
    intro attempt
    have hform : ¬ (s.webhookUrl = [] ∨
        (s.webhookUrl.any fun ch => decide (ch.toNat < 32)) = true) := by
      rw [not_or]
      refine ⟨hsome, ?_⟩
      simp only [List.any_eq_true, decide_eq_true_eq, not_exists, not_and, not_lt]
      exact hprintable
    unfold attemptOutcome resolveWebhookTarget Url.urlsplit
    rw [if_neg hform, hrefused]
    rfl
  obtain ⟨left, hleft⟩ := Nat.exists_eq_succ_of_ne_zero hattempts
  have hsettles := h.settles
  rw [hleft, Nat.succ_eq_add_one, settles_succ, hraised] at hsettles
  rcases hsettles with (⟨code, hcode, -⟩ | ⟨hcode, -⟩) | ⟨hretried, -⟩
  · cases hcode
  · cases hcode
  · exact hretried

/-- A dispatch isolates its subscriptions exactly when what each of them meets costs the others
nothing and leaves no retry pending. -/
theorem dispatch_isolates_iff (hids : (subscriptions.map Subscription.id).Nodup) :
    Isolates subscriptions
        (dispatchCompletion ip unicode floatRepr limits c around subscriptions) ↔
      ∀ s ∈ subscriptions, Deliverable ip unicode limits c around s := by
  unfold dispatchCompletion
  have hfresh : ∀ s ∈ subscriptions, ∀ r ∈ ([] : Results), r.1 ≠ intText s.id := by simp
  refine ⟨fun h s hs => ?_, fun h => ?_⟩
  · obtain ⟨results, hresults, hkeys, hentries⟩ := h.returned
    obtain ⟨out, hout, -, -, hsent⟩ := dispatchLoop_ok hids hfresh
      (dispatchLoop_returns ⟨results, hresults⟩)
    obtain rfl : results = out := Except.ok.inj (hresults.symm.trans hout)
    obtain ⟨o, hsends, hmem⟩ := hsent s hs
    obtain ⟨made, entry, -, hentry, hhandled⟩ := hentries s hs
    -- the keys are distinct, so the entry is the one that was put
    have hdistinct : (results.map Prod.fst).Nodup := by
      have hcomp : subscriptions.map (fun s => intText s.id) =
          (subscriptions.map Subscription.id).map intText := by rw [List.map_map]; rfl
      rw [hkeys, hcomp]
      exact hids.map intText_injective
    have hsame := List.inj_on_of_nodup_map hdistinct hentry hmem rfl
    obtain rfl : entry = entryOf o := congrArg Prod.snd hsame
    exact (@deliverable_iff _ _ _ _ floatRepr _ _ _ _).mpr
      ⟨o, hsends, DeliveryOutcome.state_settled_iff.mp hhandled.settled⟩
  · have hsends : ∀ s ∈ subscriptions, ∃ o, Sends ip unicode floatRepr limits c around s o ∧
        o.shouldRetry = false := fun s hs => deliverable_iff.mp (h s hs)
    obtain ⟨out, hout, hkeys, hlog, hentries⟩ := dispatchLoop_ok hids hfresh
      fun s hs => (hsends s hs).imp fun _ ho => ho.1
    refine ⟨by rw [hlog, List.map_map]; rfl, out, hout, hkeys, fun s hs => ?_⟩
    obtain ⟨o, ho, hmem⟩ := hentries s hs
    obtain ⟨o', ho', hretry⟩ := hsends s hs
    obtain rfl : o' = o := Except.ok.inj (ho'.2.symm.trans ho.2)
    refine ⟨_, entryOf o', ?_, hmem, handled_of_sends ho' hretry⟩
    rw [hlog]
    exact List.mem_map_of_mem hs

end Isolation

section Example

def answering (code : Int) : World where
  resolver := exampleResolver
  remote :=
    { connect := fun _ _ => .ok exampleAddress
      wrapSocket := fun _ => .ok ()
      response := fun _ => .ok code }

def unreachable : World where
  resolver := exampleResolver
  remote :=
    { connect := fun _ _ => .error (.transport ⟨"TimeoutError", "timed out"⟩)
      wrapSocket := fun _ => .ok ()
      response := fun _ => .ok 200 }

def exampleCompletion : Completion where
  workloadId := "w"
  consumer := "chat"
  payload := .obj [(text "state", .str (text "succeeded"))]
  retryDelays := [0, 1, 3, 9]

def exampleSurroundings : Surroundings where
  deliveryId _ := "d"
  occurredAt _ := "2025-01-01T00:00:00Z"
  world id _ := if id = 1 then answering 204 else unreachable

def exampleLimits : Limits := ⟨4300, 1000⟩

def exampleDispatch (urls : List (Int × String)) : AttemptLog × Except PyError Results :=
  dispatchCompletion exampleIp exampleUnicode (fun _ => []) exampleLimits exampleCompletion
    exampleSurroundings (urls.map fun entry => ⟨entry.1, entry.2.toList⟩)

theorem answered_and_unreached_isolated :
    Isolates [⟨1, "https://example.com/".toList⟩, ⟨2, "https://example.com/".toList⟩]
      (exampleDispatch [(1, "https://example.com/"), (2, "https://example.com/")]) := by
  refine (dispatch_isolates_iff (by decide)).mpr fun s hs => ?_
  simp only [List.mem_cons, List.not_mem_nil, or_false] at hs
  rcases hs with rfl | rfl
  · refine ⟨by decide, by rfl, .inl ⟨0, by decide, fun j hj => absurd hj (by omega), ?_⟩⟩
    exact .inl ⟨204, by rfl, by simp [Retryable]⟩
  · refine ⟨by decide, by rfl, .inr ⟨by decide, fun j _ => ?_⟩⟩
    have hfailure : attemptOutcome exampleIp exampleUnicode unreachable
        "https://example.com/".toList = .transportFailure := by rfl
    change Retried (attemptOutcome exampleIp exampleUnicode unreachable
      "https://example.com/".toList)
    rw [hfailure]
    trivial

/-- One subscription with half a bracketed host costs the next one its event, and one with a target
that is rejected keeps a retry pending. -/
theorem bracket_and_rejection_not_isolated :
    ¬ Isolates [⟨1, "https://[".toList⟩, ⟨2, "https://example.com/".toList⟩]
        (exampleDispatch [(1, "https://["), (2, "https://example.com/")]) ∧
      ¬ Isolates [⟨1, "http://example.com/".toList⟩]
        (exampleDispatch [(1, "http://example.com/")]) := by
  refine ⟨fun h => ?_, fun h => ?_⟩
  · have hraised : (exampleDispatch [(1, "https://["), (2, "https://example.com/")]).2 =
        .error ⟨"ValueError", "Invalid IPv6 URL"⟩ := by
      simp only [exampleDispatch, List.map_cons, dispatchCompletion, dispatchLoop]
      rw [sendWebhook_eq (by rfl)]
      rfl
    obtain ⟨results, hresults, -⟩ := h.returned
    rw [hraised] at hresults
    cases hresults
  · have hentry : (exampleDispatch [(1, "http://example.com/")]).2 = .ok [(['1'],
        ⟨false, 1, none, some "Webhook target rejected by egress policy", none, "d",
          "retry_scheduled"⟩)] := by
      simp only [exampleDispatch, List.map_cons, dispatchCompletion, dispatchLoop]
      rw [sendWebhook_eq (by rfl)]
      rfl
    obtain ⟨results, hresults, -, hhandled⟩ := h.returned
    rw [hentry] at hresults
    obtain rfl := Except.ok.inj hresults
    obtain ⟨made, entry, -, hmem, hentry⟩ := hhandled _ (List.mem_singleton_self _)
    obtain rfl := congrArg Prod.snd (List.mem_singleton.mp hmem)
    exact absurd hentry.settled (by decide)

end Example

end Dispatch

end Pitwall
