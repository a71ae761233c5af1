import Mathlib.Data.Fintype.Basic
import Pitwall.Api.SameRetry
import Pitwall.Core.Admission
set_option autoImplicit false

/-!
Which request an idempotency key is bound to. The stored input is compared by the replay
look-up alone, and only once it is there; an admission under a key that has a row takes the
row as it is.
-/

namespace Pitwall
open Machine

def InferenceState.called : InferenceState → Bool
  | .executing _ l => l.called
  | .tracing a _ => a.isNew
  | .answered (.executed a) _ _ => a.isNew
  | .raised _ called _ => called
  | _ => false

def InferenceState.progress (l : InferenceState) : Progress := ⟨l.admission, l.called⟩

def KeyedRequest.progress : KeyedRequest → Progress
  | .inference _ l => l.progress
  | .job _ l => l.progress

/-- The request carries `key`, and looks up and executes under no other. -/
def KeyedRequest.Keyed (key : String) : KeyedRequest → Prop
  | .inference c (.lookingUp key') => c.post.idempotencyKey = some key ∧ key' = key
  | .inference c (.executing call _) =>
      c.post.idempotencyKey = some key ∧ call.idempotencyKey = some key
  | .inference c _ => c.post.idempotencyKey = some key
  | .job c _ => c.idempotencyKey = some key

def KeyedRequest.Submits (key : String) : KeyedRequest → Prop
  | .inference c .received => c.post.idempotencyKey = some key
  | .job c .validating => c.idempotencyKey = some key
  | _ => False

section Steps
variable (text : JsonText) (order : KeyOrder) (scan : JsonObject → PreSpendScan)

/-- `capability_id` and `capability_params` of a request, the parameters up to the order
of their keys. -/
def KeyedRequest.content : KeyedRequest → String × Json
  | .inference c _ => (c.post.body.capabilityId, canonicalJson (.obj (c.post.capabilityParams scan)))
  | .job c _ => (c.capabilityId, canonicalJson c.capabilityParams)

/-- The row that the request's next statement takes its answer from: the look-up's, if its
input does not differ, or the one the admission finds. -/
def KeyedRequest.answersFrom (s : Ledger) : KeyedRequest → Option Workload
  | .inference c (.lookingUp key) =>
      (s.workloads.byKey key).filter fun w =>
        !inputDiffers order w.input (c.post.capabilityParams scan)
  | .inference _ (.executing call (.admitting _)) => call.idempotencyKey.bind s.workloads.byKey
  | .job call (.admitting _ _ _) => call.idempotencyKey.bind s.workloads.byKey
  | _ => none

def KeyedRequest.answersDry : KeyedRequest → Bool
  | .inference c .resolving => c.post.body.dryRun
  | _ => false

variable {text order scan}
variable {key : String} {s : Ledger} {i : StepInput}

theorem content_step (r : KeyedRequest) :
    (keyedRequestStep text order scan r s i).2.content scan = r.content scan := by
  cases r <;> rfl

theorem progress_executing (c : InferenceCall) (call : SyncCall) (state : SyncState) :
    (inferenceStep text order scan c (.executing call state) s i).2.progress =
      (syncStep text call state s i).2.progress := by
  rw [inferenceStep_executing]
  cases (syncStep text call state s i).2 <;> rfl

theorem advance_inference {c : InferenceCall} {l : InferenceState}
    (hr : (KeyedRequest.inference c l).Keyed key) :
    Advance key s (inferenceStep text order scan c l s i).1 l.progress
      (inferenceStep text order scan c l s i).2.progress := by
  cases l with
  | received =>
    simp only [inferenceStep]
    split
    · split
      · exact .refl key s _
      · split <;> exact .refl key s _
    · exact .refl key s _
  | lookingUp key' =>
    simp only [inferenceStep]
    split
    · exact .refl key s _
    · exact .refl key s _
    · split <;> exact .refl key s _
  | resolving =>
    simp only [inferenceStep]
    split
    · exact .refl key s _
    · exact .refl key s _
    · split <;> exact .refl key s _
  | executing call state =>
    rw [progress_executing, inferenceStep_executing]
    exact advance_sync text state i hr.2
  | tracing a result =>
    simp only [inferenceStep]
    split
    · exact .refl key s _
    · exact .refl key s _
    · exact .updated key s _ _ _ _
  | answered source id result => exact .refl key s _
  | raised a called e => exact .refl key s _

theorem advance_keyed {r : KeyedRequest} (hr : r.Keyed key) :
    Advance key s (keyedRequestStep text order scan r s i).1 r.progress
      (keyedRequestStep text order scan r s i).2.progress := by
  cases r with
  | inference c l => exact advance_inference hr
  | job c l => exact advance_job l i hr

theorem keyed_inference {c : InferenceCall} {l : InferenceState}
    (hr : (KeyedRequest.inference c l).Keyed key) :
    (KeyedRequest.inference c (inferenceStep text order scan c l s i).2).Keyed key := by
  cases l with
  | received =>
    simp only [inferenceStep]
    split
    · split
      · exact hr
      · split
        · exact hr
        · rename_i hkey
          exact ⟨hr, Option.some.inj (hkey.symm.trans hr)⟩
    · exact hr
  | lookingUp key' =>
    simp only [inferenceStep]
    split
    · exact hr.1
    · exact hr.1
    · split <;> exact hr.1
  | resolving =>
    simp only [inferenceStep]
    split
    · exact hr
    · exact hr
    · split
      · exact hr
      · exact ⟨hr, hr⟩
  | executing call state =>
    rw [inferenceStep_executing]
    dsimp only
    split
    · exact hr.1
    · exact hr.1
    · exact hr
  | tracing a result =>
    simp only [inferenceStep]
    split <;> exact hr
  | answered source id result => exact hr
  | raised a called e => exact hr

theorem keyed_keyedRequest {r : KeyedRequest} (hr : r.Keyed key) :
    (keyedRequestStep text order scan r s i).2.Keyed key := by
  cases r with
  | inference c l => exact keyed_inference hr
  | job c l => exact hr

/-- The rows of `key` after a step were there before, or the step admitted them. -/
def CreatedBy (key : String) (t t' : Workloads) (admission : Option BudgetAdmission) : Prop :=
  ∀ w ∈ t'.rows, w.idempotencyKey = some key →
    t.Carries key w.id ∨ admission = some ⟨w.id, true⟩

theorem RowsFrom.createdBy {t t' : Workloads} {written : Json} {newId : String}
    {key' : Option String} {admission : Option BudgetAdmission}
    (h : RowsFrom t written key' newId admission t') : CreatedBy key t t' admission := by
  intro w hw hkey
  cases h w hw with
  | kept mem id keys input => exact .inl ⟨_, mem, keys.symm.trans hkey, id.symm⟩
  | admitted id keys input isNew => exact .inr (by rw [isNew, id])

theorem CreatedBy.refl (t : Workloads) (admission : Option BudgetAdmission) :
    CreatedBy key t t admission :=
  fun w hw hkey => .inl ⟨w, hw, hkey, rfl⟩

theorem CreatedBy.updated {t : Workloads} {admission : Option BudgetAdmission} (target : String)
    (guard : Workload → Bool) (f : Table.Assignment Workload.uniq) :
    CreatedBy key t (t.updateById target guard f) admission := by
  intro w hw hkey
  obtain ⟨v, hv, hid, hkeys, -⟩ := Workloads.row_of_updateById hw
  exact .inl ⟨v, hv, hkeys.symm.trans hkey, hid.symm⟩

theorem Advance.admission_kept {s' : Ledger} {p q : Progress} (h : Advance key s s' p q)
    {a : BudgetAdmission} (hp : p.admission = some a) : q.admission = some a := by
  cases h with
  | quiet _ carries invocations => exact hp
  | admitted b carries carried fresh invocations => contradiction
  | call id workloads invocations => exact hp

theorem launch_replay {gate : BudgetGate} {req : LaunchRequest} {env : LaunchEnv}
    {t t' : Workloads} {id : String} (h : gate.launch req env t = (.ok ⟨id, false⟩, t')) :
    ∃ w, req.idempotencyKey.bind t.byKey = some w ∧ w.id = id := by
  rcases gate.launch_cases req env t with ⟨e, h'⟩ | ⟨a, key', h', -, hkey, hc⟩ | ⟨t'', x, c, h', -⟩
  · rw [h'] at h
    cases h
  · rw [h'] at h
    cases h
    obtain ⟨w, hw, hwkey, hid⟩ := hc
    refine ⟨w, ?_, hid⟩
    rw [hkey]
    exact Workloads.byKey_eq_some hw hwkey
  · rw [h'] at h
    cases h

theorem sync_replays {c : SyncCall} {l : SyncState} {id : String} (hl : l.admission = none)
    (h : (syncStep text c l s i).2.admission = some ⟨id, false⟩) :
    i.fault = none ∧ ∃ upperBound, l = .admitting upperBound ∧
      ∃ w, c.idempotencyKey.bind s.workloads.byKey = some w ∧ w.id = id := by
  cases l with
  | quoting =>
    simp only [syncStep] at h
    split at h <;> cases h
  | reserving upperBound key' =>
    simp only [syncStep] at h
    split at h
    · cases h
    · split at h <;> cases h
  | admitting upperBound =>
    simp only [syncStep] at h
    split at h
    · cases h
    · rename_i hfault
      split at h
      · cases h
      · rename_i a t' hlaunch
        obtain ⟨id', new⟩ := a
        cases new with
        | true => cases h
        | false =>
          cases h
          exact ⟨hfault, upperBound, rfl, launch_replay hlaunch⟩
  | raised a called e =>
    cases hl
    cases h
  | _ => cases hl

theorem job_replays {c : JobCall} {l : JobState} {id : String} (hl : l.admission = none)
    (h : (jobStep c l s i).2.admission = some ⟨id, false⟩) :
    i.fault = none ∧ ∃ endpointId webhook upperBound, l = .admitting endpointId webhook upperBound ∧
      ∃ w, c.idempotencyKey.bind s.workloads.byKey = some w ∧ w.id = id := by
  cases l with
  | validating =>
    simp only [jobStep] at h
    split at h <;> cases h
  | admitting endpointId webhook upperBound =>
    simp only [jobStep] at h
    split at h
    · cases h
    · rename_i hfault
      split at h
      · cases h
      · rename_i a t' hlaunch
        obtain ⟨id', new⟩ := a
        cases new with
        | true => cases h
        | false =>
          cases h
          exact ⟨hfault, endpointId, webhook, upperBound, rfl, launch_replay hlaunch⟩
  | raised a called e =>
    cases hl
    cases h
  | _ => cases hl

theorem not_admitted_before_execution {c : InferenceCall} {l : InferenceState}
    (hl : l.admission = none) (hexec : ∀ call state, l ≠ .executing call state) :
    (inferenceStep text order scan c l s i).2.admission = none := by
  cases l with
  | received =>
    simp only [inferenceStep]
    split
    · split
      · rfl
      · split <;> rfl
    · rfl
  | lookingUp key' =>
    simp only [inferenceStep]
    split
    · rfl
    · rfl
    · split <;> rfl
  | resolving =>
    simp only [inferenceStep]
    split
    · rfl
    · rfl
    · split <;> rfl
  | executing call state => exact absurd rfl (hexec call state)
  | tracing a result => cases hl
  | answered source id result => exact hl
  | raised a called e => exact hl

theorem keyed_replays {r : KeyedRequest} {id : String} (hr : r.progress.admission = none)
    (h : (keyedRequestStep text order scan r s i).2.progress.admission = some ⟨id, false⟩) :
    i.fault = none ∧ ∃ w, r.answersFrom order scan s = some w ∧ w.id = id := by
  cases r with
  | job c l =>
    obtain ⟨hfault, endpointId, webhook, upperBound, rfl, hw⟩ := job_replays hr h
    exact ⟨hfault, hw⟩
  | inference c l =>
    by_cases hexec : ∃ call state, l = .executing call state
    · obtain ⟨call, state, rfl⟩ := hexec
      have hprogress : (inferenceStep text order scan c (.executing call state) s i).2.progress =
          (syncStep text call state s i).2.progress := progress_executing c call state
      have hadmission := congrArg Progress.admission hprogress
      obtain ⟨hfault, upperBound, rfl, hw⟩ := sync_replays hr (hadmission.symm.trans h)
      exact ⟨hfault, hw⟩
    · have hnone : (inferenceStep text order scan c l s i).2.admission = none :=
        not_admitted_before_execution hr (fun call state hl => hexec ⟨call, state, hl⟩)
      cases hnone.symm.trans h

theorem keyed_answers {r : KeyedRequest} (hr : r.answered = false)
    (h : (keyedRequestStep text order scan r s i).2.answered = true) :
    (∃ a, r.progress.admission = some a) ∨
      (i.fault = none ∧ ∃ w, r.answersFrom order scan s = some w) ∨
      (i.fault = none ∧ r.answersDry = true) := by
  cases r with
  | job c l =>
    refine .inl ?_
    cases l with
    | loadingReplay id => exact ⟨_, rfl⟩
    | loading id => exact ⟨_, rfl⟩
    | updatingInput id endpointId webhook => exact ⟨_, rfl⟩
    | dispatching id endpointId webhook => exact ⟨_, rfl⟩
    | markingFailed id exc => exact ⟨_, rfl⟩
    | savingJobId id jobId => exact ⟨_, rfl⟩
    | returned a w => cases hr
    | raised a called e => cases h
    | validating =>
      simp only [keyedRequestStep, jobStep] at h
      split at h <;> cases h
    | admitting endpointId webhook upperBound =>
      simp only [keyedRequestStep, jobStep] at h
      split at h
      · cases h
      · split at h
        · cases h
        · split at h <;> cases h
  | inference c l =>
    cases l with
    | received =>
      simp only [keyedRequestStep, inferenceStep] at h
      split at h
      · split at h
        · cases h
        · split at h <;> cases h
      · cases h
    | lookingUp key' =>
      simp only [keyedRequestStep, inferenceStep] at h
      split at h
      · cases h
      · cases h
      · rename_i w hfault hfound
        split at h
        · cases h
        · rename_i hdiffers
          refine .inr (.inl ⟨hfault, w, ?_⟩)
          simp [KeyedRequest.answersFrom, hfound, hdiffers]
    | resolving =>
      simp only [keyedRequestStep, inferenceStep] at h
      split at h
      · cases h
      · cases h
      · rename_i hfault _
        split at h
        · rename_i hdry
          exact .inr (.inr ⟨hfault, hdry⟩)
        · cases h
    | executing call state =>
      simp only [keyedRequestStep, inferenceStep_executing] at h
      split at h <;> cases h
    | tracing a result => exact .inl ⟨a, rfl⟩
    | answered source id result => cases hr
    | raised a called e => cases h

def KeyedRequest.looksUp : KeyedRequest → Bool
  | .inference _ (.lookingUp _) => true
  | _ => false

variable (scan) in
def KeyedRequest.stored : KeyedRequest → Json
  | .inference c _ => jsonSafe (.obj (c.post.capabilityParams scan))
  | .job c _ => c.capabilityParams

variable (order scan) in
/-- The look-up of the request would tell the input from its own parameters. -/
def KeyedRequest.refuses (input : Json) : KeyedRequest → Prop
  | .inference c _ => inputDiffers order (some input) (c.post.capabilityParams scan) = true
  | .job _ _ => True

variable (scan) in
def KeyedRequest.Pays : KeyedRequest → Prop
  | .inference c (.executing call _) => call.payload = .obj (c.post.capabilityParams scan)
  | _ => True

theorem stored_step (r : KeyedRequest) :
    (keyedRequestStep text order scan r s i).2.stored scan = r.stored scan := by
  cases r <;> rfl

theorem refuses_step (input : Json) (r : KeyedRequest) :
    (keyedRequestStep text order scan r s i).2.refuses order scan input =
      r.refuses order scan input := by
  cases r <;> rfl

theorem pays_step {r : KeyedRequest} (hr : r.Pays scan) :
    (keyedRequestStep text order scan r s i).2.Pays scan := by
  cases r with
  | job c l => trivial
  | inference c l =>
    cases l with
    | received =>
      simp only [keyedRequestStep, inferenceStep]
      split
      · split
        · trivial
        · split <;> trivial
      · trivial
    | lookingUp key' =>
      simp only [keyedRequestStep, inferenceStep]
      split
      · trivial
      · trivial
      · split <;> trivial
    | resolving =>
      simp only [keyedRequestStep, inferenceStep]
      split
      · trivial
      · trivial
      · split
        · trivial
        · exact rfl
    | executing call state =>
      simp only [keyedRequestStep, inferenceStep_executing]
      split
      · trivial
      · trivial
      · exact hr
    | tracing a result =>
      simp only [keyedRequestStep, inferenceStep]
      split <;> trivial
    | answered source id result => trivial
    | raised a called e => trivial

theorem workloads_unadmitted {r : KeyedRequest}
    (h : (keyedRequestStep text order scan r s i).2.progress.admission = none) :
    (keyedRequestStep text order scan r s i).1.workloads = s.workloads := by
  cases r with
  | job c l => exact workloads_job_unadmitted h
  | inference c l =>
    cases l with
    | executing call state =>
      have hprogress : (inferenceStep text order scan c (.executing call state) s i).2.progress =
          (syncStep text call state s i).2.progress := progress_executing c call state
      have hadmission := congrArg Progress.admission hprogress
      simp only [keyedRequestStep, inferenceStep_executing]
      exact workloads_sync_unadmitted (hadmission.symm.trans h)
    | received =>
      simp only [keyedRequestStep, inferenceStep]
      split
      · split
        · rfl
        · split <;> rfl
      · rfl
    | lookingUp key' =>
      simp only [keyedRequestStep, inferenceStep]
      split
      · rfl
      · rfl
      · split <;> rfl
    | resolving =>
      simp only [keyedRequestStep, inferenceStep]
      split
      · rfl
      · rfl
      · split <;> rfl
    | tracing a result =>
      simp only [keyedRequestStep, inferenceStep] at h
      split at h <;> cases h
    | answered source id result => rfl
    | raised a called e => rfl

/-- The rows after a step of a request: those there were, the input of some overwritten by the
request's own, and the one it admits. -/
theorem rowsFrom_keyed {r : KeyedRequest} (hkeyed : r.Keyed key) (hpays : r.Pays scan) :
    RowsFrom s.workloads (r.stored scan) (some key) i.env.newWorkloadId
      (keyedRequestStep text order scan r s i).2.progress.admission
      (keyedRequestStep text order scan r s i).1.workloads := by
  cases r with
  | job c l =>
    have hkey : c.idempotencyKey = some key := hkeyed
    rw [← hkey]
    exact rowsFrom_job c l s i
  | inference c l =>
    by_cases hnone : (inferenceStep text order scan c l s i).2.admission = none
    · have hsame : (keyedRequestStep text order scan (.inference c l) s i).1.workloads =
          s.workloads := workloads_unadmitted hnone
      rw [hsame]
      exact .refl
    · cases l with
      | executing call state =>
        have hprogress : (inferenceStep text order scan c (.executing call state) s i).2.progress =
            (syncStep text call state s i).2.progress := progress_executing c call state
        have hadmission := congrArg Progress.admission hprogress
        have hrows := rowsFrom_sync text call state s i
        have hstored : call.storedInput = jsonSafe (.obj (c.post.capabilityParams scan)) := by
          rw [SyncCall.storedInput, show call.payload = _ from hpays]
          rfl
        rw [hstored, hkeyed.2,
          ← show _ = (syncStep text call state s i).2.admission from hadmission] at hrows
        simp only [keyedRequestStep, inferenceStep_executing] at hrows ⊢
        exact hrows
      | tracing a result =>
        simp only [keyedRequestStep, inferenceStep]
        split
        · exact .refl
        · exact .refl
        · exact .updated _ _ _ (fun _ => .inl rfl)
      | answered source id result => exact .refl
      | raised a called e => exact .refl
      | received | lookingUp key' | resolving =>
        exact absurd (not_admitted_before_execution rfl (fun _ _ h => by cases h)) hnone

end Steps

section Runs
variable {ι : Type}
variable (text : JsonText) (order : KeyOrder) (scan : JsonObject → PreSpendScan)

/-- A request takes its answer from a row only where the request that was admitted with the
row is the same, and is answered dry only where all requests are the same. -/
def TakesOwnAnswer (c : Config Ledger ι KeyedRequest) : KeyedEvent ι → Prop
  | .request k i => i.fault = none →
      (∀ w ∈ (c.procs k).answersFrom order scan c.shared, ∀ j,
        (c.procs j).progress.admission = some ⟨w.id, true⟩ →
          (c.procs j).content scan = (c.procs k).content scan) ∧
      ((c.procs k).answersDry = true →
        ∀ j, (c.procs j).content scan = (c.procs k).content scan)
  | _ => True

/-- What the request is bound to: a request that was admitted and is the same, or all of them. -/
def BoundLike (c : Config Ledger ι KeyedRequest) (i : ι) : Prop :=
  (∃ j id, (c.procs j).progress.admission = some ⟨id, true⟩ ∧
    (c.procs j).content scan = (c.procs i).content scan) ∨
  ∀ j, (c.procs j).content scan = (c.procs i).content scan

/-- The invariant of the requests under `key`: the admissions, who made each row, and what
every request that has a row or an answer is bound to. -/
structure KeyBound (key : String) (n : Nat) (c : Config Ledger ι KeyedRequest) : Prop where
  keyed : ∀ i, (c.procs i).Keyed key
  pays : ∀ i, (c.procs i).Pays scan
  one : OneAdmission key n c.shared (fun i => (c.procs i).progress)
  created : ∀ w ∈ c.shared.workloads.rows, w.idempotencyKey = some key →
    ∃ j, (c.procs j).progress.admission = some ⟨w.id, true⟩
  admitted : ∀ i, (c.procs i).progress.admission ≠ none → BoundLike scan c i
  answered : ∀ i, (c.procs i).answered = true → BoundLike scan c i

def TellsApart (requests : ι → KeyedRequest) : Prop :=
  ∀ j k, (requests j).content scan ≠ (requests k).content scan →
    (requests k).refuses order scan ((requests j).stored scan)

/-- A request that takes an answer is no dry run, and meets a row under its key at its look-up
only, when the row has its input. -/
def SeenStored (c : Config Ledger ι KeyedRequest) : KeyedEvent ι → Prop
  | .request k i => i.fault = none →
      (∀ w ∈ (c.procs k).answersFrom order scan c.shared,
        (c.procs k).looksUp = true ∧ w.input ≠ none) ∧ (c.procs k).answersDry = false
  | _ => True

/-- No request has taken the row of another, and each input under the key is the one of the
request that was admitted with the row. -/
structure InputsOwn (key : String) (c : Config Ledger ι KeyedRequest) : Prop where
  admitted : ∀ i a, (c.procs i).progress.admission = some a → a.isNew = true
  inputs : ∀ w ∈ c.shared.workloads.rows, w.idempotencyKey = some key → ∀ input,
    w.input = some input → ∃ j, (c.procs j).progress.admission = some ⟨w.id, true⟩ ∧
      (c.procs j).stored scan = input

variable {text order scan}
variable {key : String} {n : Nat} {c : Config Ledger ι KeyedRequest}

theorem KeyBound.same (h : KeyBound scan key n c) {i j : ι} (hi : (c.procs i).answered = true)
    (hj : (c.procs j).answered = true) :
    (c.procs i).content scan = (c.procs j).content scan := by
  rcases h.answered i hi with ⟨a, x, ha, hai⟩ | hall
  · rcases h.answered j hj with ⟨b, y, hb, hbj⟩ | hall
    · have hab : a = b := h.one.new_unique a b _ _ ha hb rfl rfl
      subst hab
      exact hai.symm.trans hbj
    · exact hall i
  · exact (hall j).symm

/-- A row under the key was admitted with a request that `i` is bound to, if it is bound. -/
theorem KeyBound.boundLike_of_row (h : KeyBound scan key n c) {w : Workload} {i : ι}
    (hw : w ∈ c.shared.workloads.rows) (hkey : w.idempotencyKey = some key)
    (hown : ∀ j, (c.procs j).progress.admission = some ⟨w.id, true⟩ →
      (c.procs j).content scan = (c.procs i).content scan) : BoundLike scan c i := by
  obtain ⟨j, hj⟩ := h.created w hw hkey
  exact .inl ⟨j, w.id, hj, hown j hj⟩

theorem answersFrom_mem {r : KeyedRequest} {s : Ledger} {w : Workload} (hr : r.Keyed key)
    (h : r.answersFrom order scan s = some w) :
    w ∈ s.workloads.rows ∧ w.idempotencyKey = some key := by
  have hfound : s.workloads.byKey key = some w := by
    cases r with
    | job call l =>
      have hcall : call.idempotencyKey = some key := hr
      cases l with
      | admitting endpointId webhook upperBound =>
        simpa [KeyedRequest.answersFrom, hcall] using h
      | _ => cases h
    | inference call l =>
      cases l with
      | lookingUp key' =>
        obtain ⟨-, rfl⟩ := hr
        exact (Option.filter_eq_some_iff.mp h).1
      | executing sync state =>
        have hsync : sync.idempotencyKey = some key := hr.2
        cases state with
        | admitting upperBound => simpa [KeyedRequest.answersFrom, hsync] using h
        | _ => cases h
      | _ => cases h
  obtain ⟨hw, hkey⟩ := Table.find_some hfound
  exact ⟨hw, by simpa using hkey⟩

variable [DecidableEq ι]

section Step
variable {k : ι} {i : StepInput}

theorem procs_fixed {α : Sort*} {f : KeyedRequest → α}
    (hf : ∀ r s i, f (keyedRequestStep text order scan r s i).2 = f r)
    (c : Config Ledger ι KeyedRequest) (e : KeyedEvent ι) (j : ι) :
    f ((keyedStep text order scan c e).procs j) = f (c.procs j) := by
  cases e with
  | request k i =>
    unfold keyedStep
    by_cases hj : j = k
    · subst hj
      rw [Config.next_procs_self _ c (j, i)]
      exact hf _ _ _
    · rw [Config.next_procs_of_ne _ c hj]
  | idempotencyGc now => rfl
  | reconcile id state actualCost completedAt => rfl

theorem content_procs (c : Config Ledger ι KeyedRequest) (e : KeyedEvent ι) (j : ι) :
    ((keyedStep text order scan c e).procs j).content scan = (c.procs j).content scan :=
  procs_fixed (fun r _ _ => content_step r) c e j

theorem progress_keyedStep (c : Config Ledger ι KeyedRequest) :
    (fun j => ((keyedStep text order scan c (.request k i)).procs j).progress) =
      Function.update (fun j => (c.procs j).progress) k
        (keyedRequestStep text order scan (c.procs k) c.shared i).2.progress := by
  funext j
  unfold keyedStep
  by_cases hj : j = k
  · rw [hj, Function.update_self]
    exact congrArg KeyedRequest.progress (Config.next_procs_self _ c (k, i))
  · rw [Function.update_of_ne hj]
    exact congrArg KeyedRequest.progress (Config.next_procs_of_ne _ c hj)

theorem admission_kept (h : ∀ j, (c.procs j).Keyed key) {e : KeyedEvent ι} {j : ι}
    {a : BudgetAdmission} (ha : (c.procs j).progress.admission = some a) :
    ((keyedStep text order scan c e).procs j).progress.admission = some a := by
  cases e with
  | request k i =>
    unfold keyedStep
    by_cases hj : j = k
    · subst hj
      rw [Config.next_procs_self _ c (j, i)]
      exact (advance_keyed (h j)).admission_kept ha
    · rwa [Config.next_procs_of_ne _ c hj]
  | idempotencyGc now => exact ha
  | reconcile id state actualCost completedAt => exact ha

theorem BoundLike.kept (h : ∀ j, (c.procs j).Keyed key) {e : KeyedEvent ι} {j : ι}
    (hj : BoundLike scan c j) : BoundLike scan (keyedStep text order scan c e) j := by
  rcases hj with ⟨a, id, ha, hcontent⟩ | hall
  · refine .inl ⟨a, id, admission_kept h ha, ?_⟩
    rw [content_procs, content_procs, hcontent]
  · refine .inr (fun a => ?_)
    rw [content_procs, content_procs, hall a]

theorem boundLike_step {P : KeyedRequest → Prop} (hkeyed : ∀ j, (c.procs j).Keyed key)
    (h : ∀ j, P (c.procs j) → BoundLike scan c j)
    (hmoved : P (keyedRequestStep text order scan (c.procs k) c.shared i).2 →
      BoundLike scan (keyedStep text order scan c (.request k i)) k) (j : ι)
    (hj : P ((keyedStep text order scan c (.request k i)).procs j)) :
    BoundLike scan (keyedStep text order scan c (.request k i)) j := by
  by_cases hjk : j = k
  · subst hjk
    refine hmoved ?_
    rwa [keyedStep, Config.next_procs_self _ c (j, i)] at hj
  · rw [keyedStep, Config.next_procs_of_ne _ c hjk] at hj
    exact (h j hj).kept hkeyed

theorem progress_moved (c : Config Ledger ι KeyedRequest) :
    ((keyedStep text order scan c (.request k i)).procs k).progress =
      (keyedRequestStep text order scan (c.procs k) c.shared i).2.progress := by
  rw [keyedStep, Config.next_procs_self _ c (k, i)]

theorem KeyBound.admitted_moved (h : KeyBound scan key n c)
    (he : TakesOwnAnswer order scan c (.request k i))
    (hadmitted : (keyedRequestStep text order scan (c.procs k) c.shared i).2.progress.admission ≠
      none) : BoundLike scan (keyedStep text order scan c (.request k i)) k := by
  cases hbefore : (c.procs k).progress.admission with
  | some a => exact (h.admitted k (by simp [hbefore])).kept h.keyed
  | none =>
    obtain ⟨⟨id, new⟩, ha⟩ := Option.ne_none_iff_exists'.mp hadmitted
    cases new with
    | true => exact .inl ⟨k, id, by rw [progress_moved, ha], rfl⟩
    | false =>
      obtain ⟨hfault, w, hfrom, -⟩ := keyed_replays hbefore ha
      obtain ⟨hw, hkey⟩ := answersFrom_mem (h.keyed k) hfrom
      exact (h.boundLike_of_row hw hkey ((he hfault).1 w hfrom)).kept h.keyed

theorem KeyBound.answered_moved (h : KeyBound scan key n c)
    (he : TakesOwnAnswer order scan c (.request k i))
    (hanswered : (keyedRequestStep text order scan (c.procs k) c.shared i).2.answered = true) :
    BoundLike scan (keyedStep text order scan c (.request k i)) k := by
  cases hbefore : (c.procs k).answered with
  | true => exact (h.answered k hbefore).kept h.keyed
  | false =>
    rcases keyed_answers hbefore hanswered with ⟨a, ha⟩ | ⟨hfault, w, hfrom⟩ | ⟨hfault, hdry⟩
    · exact (h.admitted k (by simp [ha])).kept h.keyed
    · obtain ⟨hw, hkey⟩ := answersFrom_mem (h.keyed k) hfrom
      exact (h.boundLike_of_row hw hkey ((he hfault).1 w hfrom)).kept h.keyed
    · have hall : BoundLike scan c k := .inr ((he hfault).2 hdry)
      exact hall.kept h.keyed

theorem KeyBound.created_kept (h : KeyBound scan key n c) (e : KeyedEvent ι) {id : String}
    (hc : c.shared.workloads.Carries key id) :
    ∃ j, ((keyedStep text order scan c e).procs j).progress.admission = some ⟨id, true⟩ := by
  obtain ⟨v, hv, hkey, rfl⟩ := hc
  obtain ⟨j, hj⟩ := h.created v hv hkey
  exact ⟨j, admission_kept h.keyed hj⟩

theorem KeyBound.step (h : KeyBound scan key n c) (e : KeyedEvent ι)
    (he : TakesOwnAnswer order scan c e) :
    KeyBound scan key n (keyedStep text order scan c e) := by
  cases e with
  | request k i =>
    refine ⟨forall_requests_step h.keyed (keyed_keyedRequest (h.keyed k)),
      forall_requests_step h.pays (pays_step (h.pays k)), ?_, ?_,
      boundLike_step (P := fun r => r.progress.admission ≠ none) h.keyed h.admitted
        (h.admitted_moved he),
      boundLike_step (P := fun r => r.answered = true) h.keyed h.answered (h.answered_moved he)⟩
    · rw [progress_keyedStep]
      exact h.one.advance (advance_keyed (h.keyed k))
    · intro w hw hkey
      have hrows : CreatedBy key c.shared.workloads
          (keyedRequestStep text order scan (c.procs k) c.shared i).1.workloads
          (keyedRequestStep text order scan (c.procs k) c.shared i).2.progress.admission :=
        (rowsFrom_keyed (h.keyed k) (h.pays k)).createdBy
      rcases hrows w hw hkey with hc | hadm
      · exact h.created_kept _ hc
      · exact ⟨k, by rw [progress_moved, hadm]⟩
  | idempotencyGc now =>
    exact ⟨h.keyed, h.pays, h.one.quiet (fun _ hc => hc) rfl, h.created, h.admitted, h.answered⟩
  | reconcile id state actualCost completedAt =>
    refine ⟨h.keyed, h.pays, h.one.quiet (fun _ hc => hc.updateById) rfl, ?_, h.admitted,
      h.answered⟩
    intro w hw hkey
    have hrows : CreatedBy key c.shared.workloads
        (c.shared.workloads.applyTerminalState id state actualCost completedAt) none :=
      .updated _ _ _
    rcases hrows w hw hkey with hc | hadm
    · exact h.created_kept (.reconcile id state actualCost completedAt) hc
    · cases hadm

end Step

theorem fresh_of_submits {r : KeyedRequest} (h : r.Submits key) :
    r.Keyed key ∧ r.Pays scan ∧ r.progress = ⟨none, false⟩ ∧ r.answered = false := by
  cases r with
  | inference c l =>
    cases l with
    | received => exact ⟨h, trivial, rfl, rfl⟩
    | _ => exact h.elim
  | job c l =>
    cases l with
    | validating => exact ⟨h, trivial, rfl, rfl⟩
    | _ => exact h.elim

omit [DecidableEq ι] in
theorem keyBound_submitted {s : Ledger} {requests : ι → KeyedRequest}
    (h : ∀ i, (requests i).Submits key)
    (hunused : ∀ w ∈ s.workloads.rows, w.idempotencyKey ≠ some key) :
    KeyBound scan key s.invocations ⟨s, requests⟩ := by
  have hfresh := fun i => @fresh_of_submits scan key (requests i) (h i)
  refine ⟨fun i => (hfresh i).1, fun i => (hfresh i).2.1, ⟨?_, ?_, .inl rfl⟩, ?_, ?_, ?_⟩
  · intro i a ha
    rw [(hfresh i).2.2.1] at ha
    cases ha
  · intro i j a b ha
    rw [(hfresh i).2.2.1] at ha
    cases ha
  · exact fun w hw hkey => absurd hkey (hunused w hw)
  · intro i hi
    rw [(hfresh i).2.2.1] at hi
    exact absurd rfl hi
  · intro i hi
    rw [(hfresh i).2.2.2] at hi
    cases hi

omit [DecidableEq ι] in
/-- A row that compares equal at a look-up holds the input of the request that was admitted with
it, which then is no other. -/
theorem InputsOwn.takesOwnAnswer (h : InputsOwn scan key c) (hbound : KeyBound scan key n c)
    (hapart : TellsApart order scan c.procs) {e : KeyedEvent ι} (hseen : SeenStored order scan c e) :
    TakesOwnAnswer order scan c e := by
  cases e with
  | idempotencyGc now => trivial
  | reconcile id state actualCost completedAt => trivial
  | request k i =>
    intro hfault
    obtain ⟨hrows, hdry⟩ := hseen hfault
    refine ⟨fun w hw j hj => ?_, fun hanswers => ?_⟩
    · obtain ⟨hlooks, hstored⟩ := hrows w hw
      obtain ⟨input, hinput⟩ := Option.ne_none_iff_exists'.mp hstored
      obtain ⟨hmem, hkey⟩ := answersFrom_mem (hbound.keyed k) hw
      obtain ⟨j', hj', rfl⟩ := h.inputs w hmem hkey input hinput
      obtain rfl : j' = j := hbound.one.new_unique j' j _ _ hj' hj rfl rfl
      by_contra hne
      have hrefuses := hapart j' k hne
      cases hk : c.procs k with
      | job call l =>
        rw [hk] at hlooks
        cases hlooks
      | inference call l =>
        rw [hk] at hlooks hrefuses hw
        cases l with
        | lookingUp key' =>
          obtain ⟨-, hsame⟩ := Option.filter_eq_some_iff.mp hw
          rw [hinput] at hsame
          rw [KeyedRequest.refuses] at hrefuses
          simp [hrefuses] at hsame
        | _ => cases hlooks
    · rw [hdry] at hanswers
      cases hanswers

section SeenStep
variable {k : ι} {i : StepInput}

omit [DecidableEq ι] in
theorem InputsOwn.admitted_moved (h : InputsOwn scan key c)
    (hseen : SeenStored order scan c (.request k i)) {a : BudgetAdmission}
    (ha : (keyedRequestStep text order scan (c.procs k) c.shared i).2.progress.admission =
      some a) (hkeyed : (c.procs k).Keyed key) : a.isNew = true := by
  cases hbefore : (c.procs k).progress.admission with
  | some b =>
    have hadvance : Advance key c.shared
        (keyedRequestStep text order scan (c.procs k) c.shared i).1 (c.procs k).progress
        (keyedRequestStep text order scan (c.procs k) c.shared i).2.progress := advance_keyed hkeyed
    obtain rfl : b = a := Option.some.inj ((hadvance.admission_kept hbefore).symm.trans ha)
    exact h.admitted k b hbefore
  | none =>
    obtain ⟨id, new⟩ := a
    cases new with
    | true => rfl
    | false =>
      obtain ⟨hfault, w, hw, -⟩ := keyed_replays hbefore ha
      have hlooks := ((hseen hfault).1 w hw).1
      cases hk : c.procs k with
      | job call l =>
        rw [hk] at hlooks
        cases hlooks
      | inference call l =>
        rw [hk] at hlooks ha
        cases l with
        | lookingUp key' =>
          have hnone : (inferenceStep text order scan call (.lookingUp key') c.shared
              i).2.admission = none :=
            not_admitted_before_execution rfl (fun _ _ h => by cases h)
          cases hnone.symm.trans ha
        | _ => cases hlooks

theorem InputsOwn.inputs_kept (h : InputsOwn scan key c) (hkeyed : ∀ j, (c.procs j).Keyed key)
    (e : KeyedEvent ι) {w : Workload} (hw : w ∈ c.shared.workloads.rows)
    (hkey : w.idempotencyKey = some key) {input : Json} (hinput : w.input = some input) :
    ∃ j, ((keyedStep text order scan c e).procs j).progress.admission = some ⟨w.id, true⟩ ∧
      ((keyedStep text order scan c e).procs j).stored scan = input := by
  obtain ⟨j, hj, hstored⟩ := h.inputs w hw hkey input hinput
  refine ⟨j, admission_kept hkeyed hj, ?_⟩
  rw [procs_fixed (fun r _ _ => stored_step r), hstored]

theorem InputsOwn.step (h : InputsOwn scan key c) (hbound : KeyBound scan key n c)
    {e : KeyedEvent ι} (hafter : KeyBound scan key n (keyedStep text order scan c e))
    (hseen : SeenStored order scan c e) : InputsOwn scan key (keyedStep text order scan c e) := by
  cases e with
  | idempotencyGc now => exact ⟨h.admitted, h.inputs⟩
  | reconcile id state actualCost completedAt =>
    refine ⟨h.admitted, fun w hw hkey input hinput => ?_⟩
    obtain ⟨v, hv, hid, hkeys, hsame⟩ := Workloads.row_of_updateById hw
    have hkept : w.input = v.input := by rcases hsame with rfl | rfl <;> rfl
    rw [hid]
    exact h.inputs v hv (hkeys.symm.trans hkey) input (hkept.symm.trans hinput)
  | request k i =>
    have hmoved : ∀ a, ((keyedStep text order scan c (.request k i)).procs k).progress.admission =
        some a → a.isNew = true := by
      intro a ha
      rw [progress_moved] at ha
      exact h.admitted_moved hseen ha (hbound.keyed k)
    refine ⟨fun j a ha => ?_, fun w hw hkey input hinput => ?_⟩
    · by_cases hj : j = k
      · subst hj
        exact hmoved a ha
      · rw [keyedStep, Config.next_procs_of_ne _ c hj] at ha
        exact h.admitted j a ha
    · cases hadm : ((keyedStep text order scan c (.request k i)).procs k).progress.admission with
      | none =>
        rw [progress_moved] at hadm
        have hsame : (keyedStep text order scan c (.request k i)).shared.workloads =
            c.shared.workloads := workloads_unadmitted hadm
        rw [hsame] at hw
        exact h.inputs_kept hbound.keyed _ hw hkey hinput
      | some a =>
        cases rowsFrom_keyed (i := i) (hbound.keyed k) (hbound.pays k) w hw with
        | admitted id keys none isNew =>
          rw [none] at hinput
          cases hinput
        | kept mem id keys kept =>
          rcases kept with same | written
          · rw [id]
            exact h.inputs_kept hbound.keyed _ mem (keys.symm.trans hkey) (same.symm.trans hinput)
          · -- The row was overwritten by the one request that has been admitted with a row.
            obtain ⟨j, hj⟩ := hafter.created w hw hkey
            obtain rfl : j = k := hafter.one.new_unique j k _ a hj hadm rfl (hmoved a hadm)
            refine ⟨j, hj, ?_⟩
            rw [procs_fixed (fun r _ _ => stored_step r)]
            exact Option.some.inj (written.symm.trans hinput)

end SeenStep

/-- Where different requests differ under the look-up's comparison too, and the key is looked up
only when the row under it has its input, each takes its own answer. -/
theorem along_takesOwnAnswer {s : Ledger} {requests : ι → KeyedRequest}
    (hsubmits : ∀ i, (requests i).Submits key)
    (hunused : ∀ w ∈ s.workloads.rows, w.idempotencyKey ≠ some key)
    (hapart : TellsApart order scan requests) {events : List (KeyedEvent ι)}
    (hseen : Along (keyedStep text order scan) (SeenStored order scan) ⟨s, requests⟩ events) :
    Along (keyedStep text order scan) (TakesOwnAnswer order scan) ⟨s, requests⟩ events := by
  have hbound : KeyBound scan key s.invocations ⟨s, requests⟩ :=
    keyBound_submitted hsubmits hunused
  have hown : InputsOwn scan key ⟨s, requests⟩ := by
    refine ⟨fun i a ha => ?_, fun w hw hkey => absurd hkey (hunused w hw)⟩
    obtain ⟨-, -, hprogress, -⟩ := @fresh_of_submits scan key (requests i) (hsubmits i)
    rw [hprogress] at ha
    cases ha
  refine along_of_invariant (I := fun c => KeyBound scan key s.invocations c ∧
    InputsOwn scan key c ∧ TellsApart order scan c.procs) ?_ ⟨hbound, hown, hapart⟩ hseen
  rintro c e ⟨hbound, hown, hapart⟩ he
  have hanswer := hown.takesOwnAnswer hbound hapart he
  have hafter : KeyBound scan key s.invocations (keyedStep text order scan c e) :=
    hbound.step e hanswer
  refine ⟨⟨hafter, hown.step hbound hafter he, fun j k hne => ?_⟩, hanswer⟩
  rw [content_procs, content_procs] at hne
  rw [procs_fixed (fun r _ _ => stored_step r), procs_fixed (fun r _ _ => refuses_step _ r)]
  exact hapart j k hne

theorem KeyBound.refuses (h : KeyBound scan key n c) {i j : ι} {call : InferenceCall}
    {input : StepInput} (hi : (c.procs i).answered = true)
    (hdiffer : (c.procs i).content scan ≠ (c.procs j).content scan)
    (hj : c.procs j = .inference call (.lookingUp key)) (hfault : input.fault = none)
    (hown : TakesOwnAnswer order scan c (.request j input)) :
    ((keyedStep text order scan c (.request j input)).procs j).mismatched = true := by
  rcases h.answered i hi with ⟨a, id, ha, hai⟩ | hall
  · obtain ⟨w, hw, hkey, rfl⟩ := h.one.carried a _ ha
    have hfound : c.shared.workloads.byKey key = some w := Workloads.byKey_eq_some hw hkey
    have hdiffers : inputDiffers order w.input (call.post.capabilityParams scan) = true := by
      by_contra hsame
      have hfrom : (c.procs j).answersFrom order scan c.shared = some w := by
        simpa [hj, KeyedRequest.answersFrom, hfound] using hsame
      exact hdiffer (hai.symm.trans ((hown hfault).1 w hfrom a ha))
    rw [keyedStep, Config.next_procs_self _ c (j, input), hj]
    simp only [keyedRequestStep, inferenceStep, hfault, hfound, hdiffers, if_true]
    rfl
  · exact absurd (hall j).symm hdiffer

/-- In a run of requests under one key, in which each takes its answer only from a row
admitted for the same request, those that are answered are the same; and once one is
answered, a different one that looks the key up is told of the mismatch. -/
theorem key_binds_request (text : JsonText) (order : KeyOrder)
    (scan : JsonObject → PreSpendScan) (key : String) (s : Ledger)
    (requests : ι → KeyedRequest) (hsubmits : ∀ i, (requests i).Submits key)
    (hunused : ∀ w ∈ s.workloads.rows, w.idempotencyKey ≠ some key)
    (events : List (KeyedEvent ι))
    (hown : Along (keyedStep text order scan) (TakesOwnAnswer order scan) ⟨s, requests⟩ events) :
    let c := run (keyedStep text order scan) ⟨s, requests⟩ events
    (∀ i j, (c.procs i).answered = true → (c.procs j).answered = true →
      (c.procs i).content scan = (c.procs j).content scan) ∧
    (∀ i j call input, (c.procs i).answered = true →
      (c.procs i).content scan ≠ (c.procs j).content scan →
      c.procs j = .inference call (.lookingUp key) → input.fault = none →
      TakesOwnAnswer order scan c (.request j input) →
      ((keyedStep text order scan c (.request j input)).procs j).mismatched = true) := by
  intro c
  have hc : KeyBound scan key s.invocations c :=
    run_invariant (fun _ e h he => h.step e he) (keyBound_submitted hsubmits hunused) hown
  exact ⟨fun i j hi hj => hc.same hi hj,
    fun i j call input hi hdiffer hj hfault hown => hc.refuses hi hdiffer hj hfault hown⟩

end Runs

instance decidableTakesOwnAnswer {ι : Type} [Fintype ι] (order : KeyOrder)
    (scan : JsonObject → PreSpendScan) (c : Config Ledger ι KeyedRequest) :
    (e : KeyedEvent ι) → Decidable (TakesOwnAnswer order scan c e)
  | .request k i => inferInstanceAs (Decidable (i.fault = none →
      (∀ w ∈ (c.procs k).answersFrom order scan c.shared, ∀ j,
        (c.procs j).progress.admission = some ⟨w.id, true⟩ →
          (c.procs j).content scan = (c.procs k).content scan) ∧
      ((c.procs k).answersDry = true →
        ∀ j, (c.procs j).content scan = (c.procs k).content scan)))
  | .idempotencyGc _ => isTrue trivial
  | .reconcile _ _ _ _ => isTrue trivial

instance decidableSeenStored {ι : Type} (order : KeyOrder) (scan : JsonObject → PreSpendScan)
    (c : Config Ledger ι KeyedRequest) : (e : KeyedEvent ι) → Decidable (SeenStored order scan c e)
  | .request k i => inferInstanceAs (Decidable (i.fault = none →
      (∀ w ∈ (c.procs k).answersFrom order scan c.shared,
        (c.procs k).looksUp = true ∧ w.input ≠ none) ∧ (c.procs k).answersDry = false))
  | .idempotencyGc _ => isTrue trivial
  | .reconcile _ _ _ _ => isTrue trivial

def rivalPost (prompt : String) : InferencePost where
  body := ⟨"chat", false, none⟩
  rawBody := [("prompt", .str prompt)]
  rawBodyKeys := ⟨List.nodup_singleton _, trivial, trivial⟩
  payloadBytes := 20
  idempotencyKeyHeader := some "order-7"

def rivals (caller : Bool) : KeyedRequest :=
  .inference ⟨rivalPost (if caller then "red" else "blue"),
    .ok ⟨tenDollarGate, "cap_1", "chat", "prov_1", "serverless_lb", .ok (.finite 1), []⟩, none⟩
    .received

def rivalScan : JsonObject → PreSpendScan
  | [(key, .str prompt)] =>
      ⟨false, .obj [(key, .str prompt)], ⟨List.nodup_singleton _, trivial, trivial⟩⟩
  | _ => ⟨false, .null, trivial⟩

def rivalText : JsonText := ⟨fun _ => 15, fun _ => "", fun _ => ""⟩

def rivalEvents : List (KeyedEvent Bool) :=
  List.replicate 10 (.request true resendInput) ++ [.request false resendInput]

theorem rivals_apart : TellsApart ⟨id, fun d => List.Perm.refl d⟩ rivalScan rivals := by
  intro j k hne
  cases j <;> cases k
  · exact absurd rfl hne
  · show inputDiffers _ _ _ = true
    decide +kernel
  · show inputDiffers _ _ _ = true
    decide +kernel
  · exact absurd rfl hne

theorem key_binds_request_rivals :
    let c := run (keyedStep rivalText ⟨id, fun d => List.Perm.refl d⟩ rivalScan)
      ⟨emptyLedger, rivals⟩ rivalEvents
    (c.procs true).answered = true ∧
    ((keyedStep rivalText ⟨id, fun d => List.Perm.refl d⟩ rivalScan c
      (.request false resendInput)).procs false).mismatched = true :=
  ⟨by decide +kernel,
    (key_binds_request rivalText ⟨id, fun d => List.Perm.refl d⟩ rivalScan "order-7" emptyLedger
      rivals (fun i => by cases i <;> rfl) (unused_empty "order-7").workloads rivalEvents
      (along_takesOwnAnswer (fun i => by cases i <;> rfl) (unused_empty "order-7").workloads
        rivals_apart (by decide +kernel))).2 true false
        ⟨rivalPost "blue", .ok ⟨tenDollarGate, "cap_1", "chat", "prov_1", "serverless_lb",
          .ok (.finite 1), []⟩, none⟩ resendInput (by decide +kernel) (by decide +kernel)
        rfl rfl (by decide +kernel)⟩

/-- The second request looks the key up after the first has been admitted and before its
input is stored. Both are answered. -/
theorem key_binds_request_fails :
    let c := run (keyedStep rivalText ⟨id, fun d => List.Perm.refl d⟩ rivalScan)
      ⟨emptyLedger, rivals⟩ (List.replicate 6 (.request true resendInput) ++
        List.replicate 2 (.request false resendInput) ++
        List.replicate 4 (.request true resendInput))
    (c.procs true).answered = true ∧ (c.procs false).answered = true ∧
      (c.procs true).content rivalScan ≠ (c.procs false).content rivalScan := by
  decide +kernel

end Pitwall
