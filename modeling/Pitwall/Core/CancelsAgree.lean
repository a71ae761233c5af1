import Pitwall.Core.CancelRace
import Pitwall.Core.Providers
set_option autoImplicit false

/-!
The two ways to cancel one job, `POST /v1/jobs/{id}/cancel` and the core `cancel_job`, each
run alone on the same ledger and against the same answer of RunPod. Core cancels the ledger
first and RunPod with best effort; the REST handler asks RunPod first and keeps the job
running when it refuses.
-/

namespace Pitwall
open Machine

/-- `provider_repo.get(provider_id)` and its `runpod_endpoint_id`. -/
def Providers.endpointOf (providers : Providers) (providerId : String) : Option String :=
  (providers.get providerId).bind Provider.runpodEndpointId

def restCancelNext (id : String) (c : Ledger × RestCancelState) (i : StepInput) :
    Ledger × RestCancelState :=
  restCancelStep id c.2 c.1 i

def coreCancelNext (providers : Providers) (id : String) (c : Ledger × CoreCancelState)
    (i : StepInput) : Ledger × CoreCancelState :=
  coreCancelStep providers.endpointOf id c.2 c.1 i

/-- No statement fails and RunPod answers a cancel with `outcome`. -/
def StepInput.Answers (outcome : Except ProviderFailure String) (i : StepInput) : Prop :=
  i.fault = none ∧ i.queueJob = outcome

def Workload.restCancels (w : Workload) : Option String :=
  match w.state with
  | .running => w.runpodJobId
  | _ => none

def Workload.coreEndpoint (providers : Providers) (w : Workload) : Option String :=
  (nonEmpty (some w.providerId)).bind fun providerId => nonEmpty (providers.endpointOf providerId)

def Workload.coreCancels (providers : Providers) (w : Workload) : Option String :=
  match w.state.terminal, w.coreEndpoint providers with
  | false, some _ => nonEmpty w.runpodJobId
  | _, _ => none

def Workload.CancelRefused (outcome : Except ProviderFailure String) (w : Workload) : Prop :=
  w.state = .running ∧ w.runpodJobId.isSome = true ∧ outcome.isOk = false

def Workload.cancelledRow (w : Workload) : Workload := { w with state := .cancelled }

namespace Ledger
variable (s : Ledger) (id : String)

def stateOf : Option WorkloadState := (s.workloads.byId id).map Workload.state

/-- The calls that `s'` has sent beyond those of `s` cancel the job at some endpoint. -/
def SentCancel (s' : Ledger) (jobId : Option String) : Prop :=
  ∃ endpointId, s'.providerCalls =
    s.providerCalls ++ jobId.toList.map (ProviderCall.queueCancel endpointId)

theorem stateOf_updateState (w : Workload) (h : s.workloads.byId id = some w) :
    (s.withWorkloads (s.workloads.updateState id .cancelled)).stateOf id = some .cancelled := by
  rw [stateOf, withWorkloads_workloads, Workloads.updateState, Workloads.byId_updateById, h]
  simp

end Ledger

section Rest
variable {id : String} {s : Ledger} {outcome : Except ProviderFailure String} {w : Workload}
  {is : List StepInput}

theorem run_restCancel_responded (v : Workload) (is : List StepInput) :
    run (restCancelNext id) (s, .responded v) is = (s, .responded v) :=
  run_of_fixed (fun _ => rfl) is

theorem run_restCancel_raised (e : PyError) (is : List StepInput) :
    run (restCancelNext id) (s, .raised e) is = (s, .raised e) :=
  run_of_fixed (fun _ => rfl) is

/-- From `updating` on, the handler cancels the row. -/
theorem run_restCancel_updating (hrow : s.workloads.byId id = some w)
    (his : ∀ i ∈ is, i.Answers outcome) (hlen : 1 ≤ is.length) :
    run (restCancelNext id) (s, .updating) is =
      (s.withWorkloads (s.workloads.updateState id .cancelled),
        .responded w.cancelledRow) := by
  cases is with
  | nil => simp at hlen
  | cons i is =>
    have hfault : i.fault = none := (his i (by simp)).1
    have hfound : (s.workloads.updateState id .cancelled).byId id = some w.cancelledRow := by
      rw [Workloads.updateState, Workloads.byId_updateById, hrow]
      simp [Workload.cancelledRow]
    rw [run_cons, restCancelNext]
    simp only [restCancelStep, hfault, hfound]
    rw [run_restCancel_responded]

theorem run_restCancel_missing (hrow : s.workloads.byId id = none)
    (his : ∀ i ∈ is, i.Answers outcome) (hlen : 1 ≤ is.length) :
    (run (restCancelNext id) (s, .reading) is).1 = s := by
  cases is with
  | nil => simp at hlen
  | cons i is =>
    have hfault : i.fault = none := (his i (by simp)).1
    rw [run_cons, restCancelNext]
    simp only [restCancelStep, hfault, hrow]
    rw [run_restCancel_raised]

theorem run_restCancel (hrow : s.workloads.byId id = some w)
    (his : ∀ i ∈ is, i.Answers outcome) (hlen : 3 ≤ is.length) :
    run (restCancelNext id) (s, .reading) is =
      if w.state.terminal = true then (s, .responded w)
      else
        match w.restCancels, outcome with
        | none, _ =>
            (s.withWorkloads (s.workloads.updateState id .cancelled),
              .responded w.cancelledRow)
        | some jobId, .ok _ =>
            ((s.send (.queueCancel w.providerId jobId)).withWorkloads
              (s.workloads.updateState id .cancelled), .responded w.cancelledRow)
        | some jobId, .error _ =>
            (s.send (.queueCancel w.providerId jobId), .raised ⟨"RateLimited", "3"⟩) := by
  obtain ⟨a, b, is, rfl⟩ : ∃ a b rest, is = a :: b :: rest := by
    match is, hlen with
    | a :: b :: rest, _ => exact ⟨a, b, rest, rfl⟩
  have hfault : a.fault = none := (his a (by simp)).1
  have hanswer : b.queueJob = outcome := (his b (by simp)).2
  have hrest : ∀ i ∈ is, i.Answers outcome := fun i hi => his i (by simp [hi])
  have hrest' : ∀ i ∈ b :: is, i.Answers outcome := fun i hi => his i (by simp_all)
  have hlen' : 1 ≤ is.length := by simp at hlen; omega
  rw [run_cons, restCancelNext]
  simp only [restCancelStep, hfault, hrow]
  split
  · rw [run_restCancel_responded]
  · next hterminal =>
    cases hstate : w.state with
    | queued =>
      simp only [Workload.restCancels, hstate]
      exact run_restCancel_updating hrow hrest' (by simp)
    | running =>
      cases hjob : w.runpodJobId with
      | none =>
        simp only [Workload.restCancels, hstate, hjob]
        exact run_restCancel_updating hrow hrest' (by simp)
      | some jobId =>
        simp only [Workload.restCancels, hstate, hjob]
        rw [run_cons, restCancelNext]
        simp only [restCancelStep, hanswer]
        subst hanswer
        cases b.queueJob with
        | error failure => exact run_restCancel_raised _ _
        | ok answer =>
          exact run_restCancel_updating (s := s.send (.queueCancel w.providerId jobId)) hrow hrest
            hlen'
    | _ => simp [hstate, WorkloadState.terminal] at hterminal

end Rest

section Core
variable {providers : Providers} {id : String} {s : Ledger}
  {outcome : Except ProviderFailure String} {w : Workload} {is : List StepInput}

def Ledger.transitioned (s : Ledger) (id : String) : Ledger :=
  s.withWorkloads
    (s.workloads.transitionWorkload id [.queued, .running] .cancelled Workloads.noPatch).2

theorem transitioned_of_terminal (hrow : s.workloads.byId id = some w)
    (hw : w.state.terminal = true) : s.transitioned id = s := by
  have hsame : (s.workloads.transitionWorkload id [.queued, .running] .cancelled
      Workloads.noPatch).2 = s.workloads := by
    refine Table.eq_of_rows ?_
    rw [Workloads.transitionWorkload, Workloads.rows_updateById]
    refine (List.map_congr_left fun v hv => if_neg ?_).trans (List.map_id _)
    rintro ⟨hid, hguard⟩
    obtain ⟨hwmem, hwid⟩ := Workloads.byId_some hrow
    obtain rfl := Workloads.eq_of_id _ hv hwmem (hid.trans hwid.symm)
    rcases List.mem_pair.mp (of_decide_eq_true hguard) with hstate | hstate <;>
      simp [hstate, WorkloadState.terminal] at hw
  rw [Ledger.transitioned, hsame]
  rfl

theorem stateOf_transitioned (hrow : s.workloads.byId id = some w) :
    (s.transitioned id).stateOf id =
      some (if w.state.terminal = true then w.state else .cancelled) := by
  rw [Ledger.stateOf, Ledger.transitioned, Ledger.withWorkloads_workloads,
    Workloads.transitionWorkload, Workloads.byId_updateById, hrow]
  cases hstate : w.state <;> simp [hstate, WorkloadState.terminal]

theorem run_coreCancel_returned (v : Option Workload) (cancelled : Bool) (is : List StepInput) :
    run (coreCancelNext providers id) (s, .returned v cancelled) is = (s, .returned v cancelled) :=
  run_of_fixed (fun _ => rfl) is

theorem run_coreCancel_refreshing (his : ∀ i ∈ is, i.Answers outcome) :
    (run (coreCancelNext providers id) (s, .refreshing w) is).1 = s := by
  cases is with
  | nil => rfl
  | cons i is =>
    have hfault : i.fault = none := (his i (by simp)).1
    rw [run_cons, coreCancelNext]
    simp only [coreCancelStep, hfault]
    rw [run_coreCancel_returned]

theorem run_coreCancel_missing (hrow : s.workloads.byId id = none)
    (his : ∀ i ∈ is, i.Answers outcome) (hlen : 1 ≤ is.length) :
    (run (coreCancelNext providers id) (s, .reading) is).1 = s := by
  cases is with
  | nil => simp at hlen
  | cons i is =>
    have hfault : i.fault = none := (his i (by simp)).1
    rw [run_cons, coreCancelNext]
    simp only [coreCancelStep, hfault, hrow]
    rw [run_coreCancel_returned]

theorem run_coreCancel_lookingUp {jobId providerId : String}
    (his : ∀ i ∈ is, i.Answers outcome) (hlen : 2 ≤ is.length) :
    (run (coreCancelNext providers id) (s, .lookingUpProvider w jobId providerId) is).1 =
      match nonEmpty (providers.endpointOf providerId) with
      | some endpointId => s.send (.queueCancel endpointId jobId)
      | none => s := by
  obtain ⟨a, b, is, rfl⟩ : ∃ a b rest, is = a :: b :: rest := by
    match is, hlen with
    | a :: b :: rest, _ => exact ⟨a, b, rest, rfl⟩
  have hfault : a.fault = none := (his a (by simp)).1
  have hrest : ∀ i ∈ is, i.Answers outcome := fun i hi => his i (by simp [hi])
  rw [run_cons, coreCancelNext]
  simp only [coreCancelStep, hfault]
  cases nonEmpty (providers.endpointOf providerId) with
  | none => exact run_coreCancel_refreshing (fun i hi => his i (by simp_all))
  | some endpointId =>
    rw [run_cons, coreCancelNext]
    exact run_coreCancel_refreshing hrest

theorem run_coreCancel (hrow : s.workloads.byId id = some w)
    (his : ∀ i ∈ is, i.Answers outcome) (hlen : 5 ≤ is.length) :
    (run (coreCancelNext providers id) (s, .reading) is).1 =
      match w.coreCancels providers, w.coreEndpoint providers with
      | some jobId, some endpointId => (s.transitioned id).send (.queueCancel endpointId jobId)
      | _, _ => s.transitioned id := by
  obtain ⟨a, b, is, rfl⟩ : ∃ a b rest, is = a :: b :: rest := by
    match is, hlen with
    | a :: b :: rest, _ => exact ⟨a, b, rest, rfl⟩
  have hread : a.fault = none := (his a (by simp)).1
  have hmove : b.fault = none := (his b (by simp)).1
  have hrest : ∀ i ∈ is, i.Answers outcome := fun i hi => his i (by simp [hi])
  have hlen' : 2 ≤ is.length := by simp at hlen; omega
  rw [run_cons, run_cons, coreCancelNext, coreCancelNext]
  simp only [coreCancelStep, hread, hrow, hmove]
  rw [Workloads.transitionWorkload_hits, hrow, Option.any_some]
  have hhit : decide (w.state ∈ [WorkloadState.queued, .running]) = !w.state.terminal := by
    cases w.state <;> rfl
  rw [hhit]
  cases hterminal : w.state.terminal with
  | true =>
    simp only [Workload.coreCancels, hterminal, Bool.not_true]
    exact congrArg Prod.fst (run_coreCancel_returned _ _ _)
  | false =>
    simp only [Workload.coreCancels, Workload.coreEndpoint, hterminal, Bool.not_false, if_true]
    cases nonEmpty w.runpodJobId with
    | none =>
      refine (run_coreCancel_refreshing hrest).trans ?_
      cases (nonEmpty (some w.providerId)).bind fun p => nonEmpty (providers.endpointOf p) <;> rfl
    | some jobId =>
      cases nonEmpty (some w.providerId) with
      | none => exact run_coreCancel_refreshing hrest
      | some providerId =>
        refine (run_coreCancel_lookingUp hrest hlen').trans ?_
        simp only [Option.bind_some]
        cases nonEmpty (providers.endpointOf providerId) <;> rfl

end Core

section Agreement
variable {providers : Providers} {id : String} {s : Ledger}
  {outcome : Except ProviderFailure String} {w : Workload} {is js : List StepInput}

theorem restCancel_sends (hrow : s.workloads.byId id = some w)
    (his : ∀ i ∈ is, i.Answers outcome) (hlen : 3 ≤ is.length) :
    s.SentCancel (run (restCancelNext id) (s, .reading) is).1 w.restCancels := by
  refine ⟨w.providerId, ?_⟩
  rw [run_restCancel hrow his hlen]
  split
  · next hterminal =>
    have hnone : w.restCancels = none := by
      cases hstate : w.state <;> simp_all [Workload.restCancels, WorkloadState.terminal]
    simp [hnone]
  · split
    · next hnone => simp [hnone, Ledger.withWorkloads]
    · next jobId _ hsome => simp [hsome, Ledger.withWorkloads, Ledger.send]
    · next jobId _ hsome => simp [hsome, Ledger.send]

theorem coreCancel_sends (hrow : s.workloads.byId id = some w)
    (his : ∀ i ∈ is, i.Answers outcome) (hlen : 5 ≤ is.length) :
    (run (coreCancelNext providers id) (s, .reading) is).1.providerCalls =
      s.providerCalls ++ (w.coreCancels providers).toList.map
        (.queueCancel ((w.coreEndpoint providers).getD "")) := by
  rw [run_coreCancel hrow his hlen]
  cases hendpoint : w.coreEndpoint providers with
  | none =>
    have hnone : w.coreCancels providers = none := by simp [Workload.coreCancels, hendpoint]
    simp [hnone, Ledger.transitioned, Ledger.withWorkloads]
  | some endpointId =>
    cases w.coreCancels providers with
    | none => simp [Ledger.transitioned, Ledger.withWorkloads]
    | some jobId => simp [Ledger.transitioned, Ledger.withWorkloads, Ledger.send]

/-- The handler raises `RateLimited` exactly when RunPod refuses, and leaves the rows then. -/
theorem restCancel_raises_iff (hrow : s.workloads.byId id = some w)
    (his : ∀ i ∈ is, i.Answers outcome) (hlen : 3 ≤ is.length) :
    ((run (restCancelNext id) (s, .reading) is).2 = .raised ⟨"RateLimited", "3"⟩ ↔
      w.CancelRefused outcome) ∧
    (w.CancelRefused outcome →
      (run (restCancelNext id) (s, .reading) is).1.workloads = s.workloads) := by
  rw [run_restCancel hrow his hlen]
  cases hstate : w.state <;>
    simp only [Workload.CancelRefused, Workload.restCancels, hstate, WorkloadState.terminal,
      if_true, Bool.false_eq_true, if_false, reduceCtorEq, false_and, false_imp_iff, true_and,
      and_true]
  cases w.runpodJobId with
  | none => simp
  | some jobId => cases outcome <;> simp [Except.isOk, Except.toBool, Ledger.send]

theorem restCancel_state (hrow : s.workloads.byId id = some w) (hw : w.state.terminal = false)
    (his : ∀ i ∈ is, i.Answers outcome) (hlen : 3 ≤ is.length) :
    (w.CancelRefused outcome →
      (run (restCancelNext id) (s, .reading) is).1.stateOf id = some .running) ∧
    (¬ w.CancelRefused outcome →
      (run (restCancelNext id) (s, .reading) is).1.stateOf id = some .cancelled) := by
  rw [run_restCancel hrow his hlen]
  simp only [hw, Bool.false_eq_true, if_false]
  have hcancelled := s.stateOf_updateState id w hrow
  constructor
  · rintro ⟨hstate, hjob, houtcome⟩
    obtain ⟨jobId, hjob⟩ := Option.isSome_iff_exists.mp hjob
    cases outcome with
    | ok answer => cases houtcome
    | error failure =>
      simp only [Workload.restCancels, hstate, hjob]
      simp [Ledger.stateOf, Ledger.send, hrow, hstate]
  · intro hrefused
    split
    · exact hcancelled
    · exact hcancelled
    · next jobId failure hsome =>
      refine absurd ⟨?_, ?_, rfl⟩ hrefused
      · cases hstate : w.state <;> simp_all [Workload.restCancels]
      · cases hstate : w.state <;> simp_all [Workload.restCancels]

theorem run_coreCancel_terminal (hrow : s.workloads.byId id = some w)
    (hw : w.state.terminal = true) (his : ∀ i ∈ is, i.Answers outcome) (hlen : 5 ≤ is.length) :
    (run (coreCancelNext providers id) (s, .reading) is).1 = s := by
  have hnone : w.coreCancels providers = none := by simp [Workload.coreCancels, hw]
  rw [run_coreCancel hrow his hlen, hnone]
  exact transitioned_of_terminal hrow hw

theorem coreCancel_state (hrow : s.workloads.byId id = some w)
    (his : ∀ i ∈ is, i.Answers outcome) (hlen : 5 ≤ is.length) :
    (run (coreCancelNext providers id) (s, .reading) is).1.stateOf id =
      some (if w.state.terminal = true then w.state else .cancelled) := by
  rw [run_coreCancel hrow his hlen]
  split
  · exact stateOf_transitioned hrow
  · exact stateOf_transitioned hrow

/-- A missing or a finished workload is left alone by both. Of an active one, core cancels
the row whatever RunPod answers, the REST handler unless RunPod refuses to cancel a running
job: then it raises `RateLimited`. At RunPod the REST handler cancels the job of a running row,
core that of any active row whose provider has an endpoint; it is the same job. -/
theorem cancels_agree (providers : Providers) (id : String) (s : Ledger)
    (outcome : Except ProviderFailure String) (is js : List StepInput)
    (his : ∀ i ∈ is, i.Answers outcome) (hjs : ∀ i ∈ js, i.Answers outcome)
    (hrest : 3 ≤ is.length) (hcore : 5 ≤ js.length) :
    let rest := run (restCancelNext id) (s, .reading) is
    let core := (run (coreCancelNext providers id) (s, .reading) js).1
    (s.workloads.byId id = none → rest.1 = s ∧ core = s) ∧
    ∀ w, s.workloads.byId id = some w →
      (w.state.terminal = true → rest.1 = s ∧ core = s) ∧
      s.SentCancel rest.1 w.restCancels ∧
      core.providerCalls = s.providerCalls ++ (w.coreCancels providers).toList.map
        (.queueCancel ((w.coreEndpoint providers).getD "")) ∧
      (rest.1.stateOf id = core.stateOf id ↔ ¬ w.CancelRefused outcome) ∧
      core.stateOf id = some (if w.state.terminal = true then w.state else .cancelled) ∧
      (rest.2 = .raised ⟨"RateLimited", "3"⟩ ↔ w.CancelRefused outcome) ∧
      (w.CancelRefused outcome →
        rest.1.stateOf id = some .running ∧ rest.1.workloads = s.workloads) := by
  refine ⟨fun hrow => ⟨run_restCancel_missing hrow his (by omega),
    run_coreCancel_missing hrow hjs (by omega)⟩, fun w hrow => ?_⟩
  obtain ⟨hraises, hkept⟩ := restCancel_raises_iff hrow his hrest
  refine ⟨fun hw => ⟨?_, ?_⟩, restCancel_sends hrow his hrest, coreCancel_sends hrow hjs hcore, ?_,
    coreCancel_state hrow hjs hcore, hraises, fun hrefused => ⟨?_, hkept hrefused⟩⟩
  · rw [run_restCancel hrow his hrest, if_pos hw]
  · exact run_coreCancel_terminal hrow hw hjs hcore
  · rw [coreCancel_state hrow hjs hcore]
    cases hw : w.state.terminal with
    | true =>
      have hstate : ¬ w.CancelRefused outcome := by
        rintro ⟨hrunning, -⟩
        simp [hrunning, WorkloadState.terminal] at hw
      rw [run_restCancel hrow his hrest]
      simp [hw, hstate, Ledger.stateOf, hrow]
    | false =>
      have hstates := restCancel_state hrow hw his hrest
      by_cases hrefused : w.CancelRefused outcome
      · simp [hstates.1 hrefused, hrefused]
      · simp [hstates.2 hrefused, hrefused]
  · have hw : w.state.terminal = false := by rw [hrefused.1]; rfl
    exact (restCancel_state hrow hw his hrest).1 hrefused

end Agreement

def runningJobRow : Ledger where
  workloads := ⟨[{ Workload.bare "wkl_1" "cap" "ep_1" "async_job" .running 0 with
    runpodJobId := some "job_1" }], by decide⟩
  idempotencyKeys := Table.empty
  providerCalls := []

def queueProvider : Providers := ⟨[⟨"ep_1", "queue", .serverlessQueue, some "ep_1"⟩], by decide⟩

def refusedCancel : Except ProviderFailure String :=
  .error ⟨⟨"HTTPStatusError", "503 Service Unavailable"⟩, true⟩

def refusedInputs : List StepInput :=
  List.replicate 5 ⟨⟨.utc, 0, 0, "wkl_2"⟩, none, .ok .null, refusedCancel⟩

theorem refusedInputs_answer : ∀ i ∈ refusedInputs, i.Answers refusedCancel := by
  intro i hi
  rw [List.eq_of_mem_replicate hi]
  exact ⟨rfl, rfl⟩

theorem cancels_agree_on_refusal :
    (run (restCancelNext "wkl_1") (runningJobRow, .reading) refusedInputs).2 =
        .raised ⟨"RateLimited", "3"⟩ ∧
      (run (restCancelNext "wkl_1") (runningJobRow, .reading) refusedInputs).1.stateOf "wkl_1" =
        some .running ∧
      (run (coreCancelNext queueProvider "wkl_1") (runningJobRow, .reading)
        refusedInputs).1.stateOf "wkl_1" = some .cancelled := by
  have h := cancels_agree queueProvider "wkl_1" runningJobRow refusedCancel refusedInputs refusedInputs
    refusedInputs_answer refusedInputs_answer (by decide) (by decide)
  obtain ⟨-, -, -, -, hcore, hraises, hrefused⟩ := h.2 _ rfl
  exact ⟨hraises.mpr ⟨rfl, rfl, rfl⟩, (hrefused ⟨rfl, rfl, rfl⟩).1, hcore⟩

/-- When RunPod refuses, the two leave different states. -/
theorem cancels_differ_on_refusal :
    ¬ ∀ (providers : Providers) (id : String) (s : Ledger)
      (outcome : Except ProviderFailure String) (is js : List StepInput),
      (∀ i ∈ is, i.Answers outcome) → (∀ i ∈ js, i.Answers outcome) →
      3 ≤ is.length → 5 ≤ js.length →
      (run (restCancelNext id) (s, .reading) is).1.providerCalls =
          (run (coreCancelNext providers id) (s, .reading) js).1.providerCalls ∧
        (run (restCancelNext id) (s, .reading) is).1.stateOf id =
          (run (coreCancelNext providers id) (s, .reading) js).1.stateOf id := by
  intro h
  have hstates := (h queueProvider "wkl_1" runningJobRow refusedCancel refusedInputs refusedInputs
    refusedInputs_answer refusedInputs_answer (by decide) (by decide)).2
  revert hstates
  decide

end Pitwall
