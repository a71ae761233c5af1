import Pitwall.Core.Inference
import Pitwall.Library.Machine
set_option autoImplicit false

/-!
One `create_and_dispatch_job` call against any number of core `cancel_job` calls on one
workload. The job id is stored after RunPod has accepted the job, and a cancel works on the
row that it read before its transition.
-/

namespace Pitwall
open Machine

namespace Workloads
variable {t : Workloads}

theorem byId_updateById (id target : String) (guard : Workload → Bool)
    (f : Table.Assignment Workload.uniq) :
    (t.updateById target guard f).byId id =
      (t.byId id).map fun w => if id = target ∧ guard w = true then f.set w else w := by
  have hids : ∀ w, (if w.id = target ∧ guard w = true then f.set w else w).id = w.id := by
    intro w
    split
    · exact (uniq_fields (f.keeps w)).1
    · rfl
  unfold byId Table.find
  rw [rows_updateById, List.find?_map]
  have hpred : (fun w => decide (w.id = id)) ∘
      (fun w => if w.id = target ∧ guard w = true then f.set w else w) =
        fun w : Workload => decide (w.id = id) := by
    funext w
    simp only [Function.comp, hids]
  rw [hpred]
  cases hfound : t.rows.find? fun w => decide (w.id = id) with
  | none => rfl
  | some w =>
    have hw : w.id = id := by simpa using List.find?_some hfound
    simp [hw]

theorem byId_of_append {t' : Workloads} {w : Workload} (h : t'.rows = t.rows ++ [w])
    (id : String) : t'.byId id = (t.byId id).or (if w.id = id then some w else none) := by
  unfold byId Table.find
  rw [h, List.find?_append]
  by_cases hid : w.id = id <;> simp [hid]

theorem transitionWorkload_hits {id : String} {fromStates : List WorkloadState}
    {toState : WorkloadState} {patch : Table.Assignment Workload.uniq} :
    (t.transitionWorkload id fromStates toState patch).1 =
      (t.byId id).any fun w => decide (w.state ∈ fromStates) := by
  cases hfound : t.byId id with
  | none =>
    simp only [transitionWorkload, Option.any_none, List.any_eq_false]
    intro w hw
    have hmiss := Table.find_none hfound hw
    simp_all
  | some w =>
    obtain ⟨hw, hid⟩ := byId_some hfound
    simp only [transitionWorkload, Option.any_some]
    rw [Bool.eq_iff_iff, List.any_eq_true]
    constructor
    · rintro ⟨v, hv, hhit⟩
      simp only [Bool.and_eq_true, decide_eq_true_eq] at hhit
      rw [← t.eq_of_id hv hw (hhit.1.trans hid.symm)]
      simpa using hhit.2
    · intro hstate
      exact ⟨w, hw, by simpa [hid] using hstate⟩

end Workloads

def acceptedBy (id : String) (l : JobState) (i : StepInput) : List String :=
  match l, i.queueJob with
  | .dispatching other _ _, .ok jobId => if other = id then [jobId] else []
  | _, _ => []

structure Race (ι : Type) where
  ledger : Ledger
  job : JobState
  cancels : ι → CoreCancelState
  /-- The job ids that RunPod has accepted for the workload. -/
  accepted : List String

inductive RaceEvent (ι : Type) where
  | job (input : StepInput)
  | cancel (caller : ι) (input : StepInput)

section Step
variable {ι : Type} [DecidableEq ι]
variable (call : JobCall) (endpointOf : String → Option String) (id : String)

/-- A statement or a RunPod call of the job, or one of a cancel. -/
def raceStep (c : Race ι) : RaceEvent ι → Race ι
  | .job i =>
      { c with
        ledger := (jobStep call c.job c.ledger i).1
        job := (jobStep call c.job c.ledger i).2
        accepted := c.accepted ++ acceptedBy id c.job i }
  | .cancel k i =>
      { c with
        ledger := (coreCancelStep endpointOf id (c.cancels k) c.ledger i).1
        cancels := Function.update c.cancels k
          (coreCancelStep endpointOf id (c.cancels k) c.ledger i).2 }

end Step

def CoreCancelState.finished : CoreCancelState → Bool
  | .returned _ _ | .raised _ => true
  | _ => false

def Ledger.Cancels (s : Ledger) (jobId : String) : Prop :=
  ∃ endpointId, ProviderCall.queueCancel endpointId jobId ∈ s.providerCalls

/-- If the workload is cancelled, so is at RunPod every job that was accepted for it. -/
def CancelReaches {ι : Type} (id : String) (c : Race ι) : Prop :=
  ∀ w, c.ledger.workloads.byId id = some w → w.state = .cancelled →
    ∀ jobId ∈ c.accepted, c.ledger.Cancels jobId

/-- The steps at which a job gets away: RunPod accepts it for a workload that is already
cancelled; a cancel takes effect with a row that it read without the job id, or without a
provider; or the cancel does not find the endpoint. -/
def Strays {ι : Type} (endpointOf : String → Option String) (id : String) (c : Race ι) :
    RaceEvent ι → Prop
  | .job i =>
      acceptedBy id c.job i ≠ [] ∧
        ∃ w, c.ledger.workloads.byId id = some w ∧ w.state = .cancelled
  | .cancel k i =>
      c.accepted ≠ [] ∧
        match c.cancels k with
        | .transitioning w =>
            i.fault = none ∧ (nonEmpty w.runpodJobId = none ∨ nonEmpty (some w.providerId) = none) ∧
              ∃ v, c.ledger.workloads.byId id = some v ∧ v.state.terminal = false
        | .lookingUpProvider _ _ providerId =>
            i.fault.isSome = true ∨ nonEmpty (endpointOf providerId) = none
        | _ => False

section Job
variable (call : JobCall) (i : StepInput) {id jobId : String} {s : Ledger} {l : JobState}

namespace JobState

def Waiting : JobState → Prop
  | .validating | .admitting _ _ _ => True
  | _ => False

def Pending (id : String) : JobState → Prop
  | .updatingInput other _ _ | .dispatching other _ _ => other = id
  | _ => False

def After (id jobId : String) : JobState → Prop
  | .savingJobId other saved => other = id ∧ saved = jobId
  | .loading _ | .returned _ _ | .raised _ _ _ => True
  | _ => False

def Settled (id : String) (row : Option Workload) : JobState → Prop
  | .validating | .admitting _ _ _ => row.isSome = true
  | .updatingInput other _ _ | .dispatching other _ _ => other ≠ id
  | _ => True

end JobState

def Ledger.NoCancels (s : Ledger) : Prop := ∀ jobId, ¬ s.Cancels jobId

theorem noCancels_send_queueRun (h : s.NoCancels) (endpointId : String) (input : Json)
    (webhook : Option String) : (s.send (.queueRun endpointId input webhook)).NoCancels := by
  rintro jobId ⟨endpoint, hmem⟩
  rcases List.mem_append.mp hmem with hmem | hmem
  · exact h jobId ⟨endpoint, hmem⟩
  · cases List.mem_singleton.mp hmem

theorem byId_of_inserted {t t' : Workloads} {w : Workload} (h : t'.rows = t.rows ++ [w]) :
    t.byId w.id = none := by
  cases hfound : t.byId w.id with
  | none => rfl
  | some v =>
    obtain ⟨hv, hid⟩ := Workloads.byId_some hfound
    have hnodup := t'.nodup
    rw [h, List.flatMap_append, List.nodup_append] at hnodup
    refine absurd rfl (hnodup.2.2 (.id v.id) ?_ (.id v.id) ?_)
    · exact List.mem_flatMap.mpr ⟨v, hv, Workloads.mem_uniq_id v⟩
    · rw [hid]
      exact List.mem_flatMap.mpr ⟨w, by simp, Workloads.mem_uniq_id w⟩

theorem jobStep_after (s : Ledger) (h : l.After id jobId) :
    (jobStep call l s i).2.After id jobId ∧
    (jobStep call l s i).1.providerCalls = s.providerCalls ∧ acceptedBy id l i = [] ∧
    ((jobStep call l s i).1.workloads.byId id = s.workloads.byId id ∨
      (jobStep call l s i).1.workloads.byId id =
        (s.workloads.byId id).map fun w => { w with runpodJobId := some jobId }) := by
  cases l with
  | savingJobId other saved =>
    obtain ⟨rfl, rfl⟩ := h
    simp only [jobStep]
    split
    · exact ⟨trivial, rfl, rfl, .inl rfl⟩
    · refine ⟨trivial, rfl, rfl, .inr ?_⟩
      rw [Ledger.withWorkloads_workloads, Workloads.updateRunpodJobId,
        Workloads.byId_updateById]
      simp
  | loading other =>
    simp only [jobStep]
    split <;> exact ⟨trivial, rfl, rfl, .inl rfl⟩
  | returned a w => exact ⟨trivial, rfl, rfl, .inl rfl⟩
  | raised a called e => exact ⟨trivial, rfl, rfl, .inl rfl⟩
  | _ => exact h.elim

theorem jobStep_settled (h : l.Settled id (s.workloads.byId id)) :
    (jobStep call l s i).2.Settled id ((jobStep call l s i).1.workloads.byId id) ∧
    acceptedBy id l i = [] := by
  cases l with
  | validating =>
    refine ⟨?_, rfl⟩
    simp only [jobStep]
    split
    · trivial
    · trivial
    · trivial
    · exact h
    · exact h
  | admitting endpointId webhook upperBound =>
    refine ⟨?_, rfl⟩
    simp only [jobStep]
    split
    · trivial
    · rcases call.gate.launch_cases (call.launchRequest upperBound i.env.utcNow) i.env
        s.workloads with ⟨e, hlaunch⟩ | ⟨a, key, hlaunch, hnew, -⟩ | ⟨t', x, cost, hlaunch, hadm⟩
      · rw [hlaunch]
        trivial
      · rw [hlaunch]
        simp only [hnew]
        trivial
      · rw [hlaunch]
        show i.env.newWorkloadId ≠ id
        rintro rfl
        have hnone : s.workloads.byId i.env.newWorkloadId = none := byId_of_inserted hadm.rows
        have hsome : (s.workloads.byId i.env.newWorkloadId).isSome = true := h
        rw [hnone] at hsome
        cases hsome
  | updatingInput other endpointId webhook =>
    refine ⟨?_, rfl⟩
    simp only [jobStep]
    split
    · trivial
    · exact h
  | dispatching other endpointId webhook =>
    constructor
    · simp only [jobStep]
      split
      · trivial
      · dsimp only
        split <;> trivial
    · unfold acceptedBy
      cases i.queueJob with
      | error e => rfl
      | ok jobId => exact if_neg h
  | loadingReplay other =>
    simp only [jobStep]
    split <;> exact ⟨trivial, rfl⟩
  | markingFailed other exc =>
    simp only [jobStep]
    split <;> exact ⟨trivial, rfl⟩
  | savingJobId other saved =>
    simp only [jobStep]
    split <;> exact ⟨trivial, rfl⟩
  | loading other =>
    simp only [jobStep]
    split <;> exact ⟨trivial, rfl⟩
  | returned a w => exact ⟨trivial, rfl⟩
  | raised a called e => exact ⟨trivial, rfl⟩

theorem jobStep_waiting (h : l.Waiting) (hrow : s.workloads.byId id = none) :
    acceptedBy id l i = [] ∧ (jobStep call l s i).1.providerCalls = s.providerCalls ∧
    (((jobStep call l s i).2.Waiting ∧ (jobStep call l s i).1.workloads.byId id = none) ∨
      (jobStep call l s i).2.Settled id ((jobStep call l s i).1.workloads.byId id) ∨
      ((jobStep call l s i).2.Pending id ∧ ∃ w,
        (jobStep call l s i).1.workloads.byId id = some w ∧ w.state = .queued ∧
          w.runpodJobId = none)) := by
  cases l with
  | validating =>
    simp only [jobStep]
    split
    · exact ⟨rfl, rfl, .inr (.inl trivial)⟩
    · exact ⟨rfl, rfl, .inr (.inl trivial)⟩
    · exact ⟨rfl, rfl, .inr (.inl trivial)⟩
    · exact ⟨rfl, rfl, .inl ⟨trivial, hrow⟩⟩
    · exact ⟨rfl, rfl, .inl ⟨trivial, hrow⟩⟩
  | admitting endpointId webhook upperBound =>
    simp only [jobStep]
    split
    · exact ⟨rfl, rfl, .inr (.inl trivial)⟩
    · rcases call.gate.launch_cases (call.launchRequest upperBound i.env.utcNow) i.env
        s.workloads with ⟨e, hlaunch⟩ | ⟨a, key, hlaunch, hnew, -⟩ | ⟨t', x, cost, hlaunch, hadm⟩
      · rw [hlaunch]
        exact ⟨rfl, rfl, .inr (.inl trivial)⟩
      · rw [hlaunch]
        simp only [hnew]
        exact ⟨rfl, rfl, .inr (.inl trivial)⟩
      · rw [hlaunch]
        refine ⟨rfl, rfl, ?_⟩
        by_cases hid : i.env.newWorkloadId = id
        · refine .inr (.inr ⟨hid, queuedWorkload (call.launchRequest upperBound i.env.utcNow)
            i.env cost, ?_, rfl, rfl⟩)
          rw [Ledger.withWorkloads_workloads, Workloads.byId_of_append hadm.rows, hrow]
          exact if_pos hid
        · exact .inr (.inl hid)
  | _ => exact h.elim

theorem jobStep_pending {w : Workload} (h : l.Pending id)
    (hrow : s.workloads.byId id = some w) (hcalls : s.NoCancels) :
    (jobStep call l s i).1.NoCancels ∧
    ((acceptedBy id l i = [] ∧ (jobStep call l s i).2.Pending id ∧ ∃ w',
        (jobStep call l s i).1.workloads.byId id = some w' ∧ w'.state = w.state ∧
          w'.runpodJobId = w.runpodJobId) ∨
      (acceptedBy id l i = [] ∧
        (jobStep call l s i).2.Settled id ((jobStep call l s i).1.workloads.byId id)) ∨
      ∃ jobId, acceptedBy id l i = [jobId] ∧ (jobStep call l s i).2.After id jobId ∧
        (jobStep call l s i).1.workloads.byId id = some w) := by
  cases l with
  | updatingInput other endpointId webhook =>
    obtain rfl : other = id := h
    simp only [jobStep]
    split
    · exact ⟨hcalls, .inr (.inl ⟨rfl, trivial⟩)⟩
    · refine ⟨hcalls, .inl ⟨rfl, rfl, { w with input := some call.capabilityParams }, ?_, rfl,
        rfl⟩⟩
      rw [Ledger.withWorkloads_workloads, Workloads.updateInput, Workloads.byId_updateById, hrow]
      simp
  | dispatching other endpointId webhook =>
    obtain rfl : other = id := h
    have hcalls' := noCancels_send_queueRun hcalls endpointId call.capabilityParams webhook
    cases hqueue : i.queueJob with
    | error failure =>
      simp only [jobStep, hqueue]
      refine ⟨hcalls', .inr (.inl ⟨by simp [acceptedBy, hqueue], ?_⟩)⟩
      cases failure.caught <;> trivial
    | ok jobId =>
      simp only [jobStep, hqueue]
      exact ⟨hcalls', .inr (.inr ⟨jobId, by simp [acceptedBy, hqueue], ⟨rfl, rfl⟩, hrow⟩)⟩
  | _ => exact h.elim

end Job

section Cancel
variable {endpointOf : String → Option String} {id : String} {s : Ledger} {i : StepInput}
  {l : CoreCancelState}

namespace CoreCancelState

def snapshot : CoreCancelState → Option Workload
  | .transitioning w => some w
  | _ => none

def pursued : CoreCancelState → Option String
  | .lookingUpProvider _ jobId _ | .cancelling _ _ jobId => some jobId
  | _ => none

end CoreCancelState

theorem coreCancelStep_row :
    (coreCancelStep endpointOf id l s i).1.workloads.byId id =
      if l.snapshot.isSome ∧ i.fault = none then
        (s.workloads.byId id).map fun w =>
          if w.state.terminal = true then w else { w with state := .cancelled }
      else s.workloads.byId id := by
  cases l with
  | transitioning w =>
    simp only [coreCancelStep, CoreCancelState.snapshot]
    cases hfault : i.fault with
    | some e => simp
    | none =>
      simp only [Ledger.withWorkloads_workloads, Workloads.transitionWorkload,
        Workloads.byId_updateById]
      simp only [Option.isSome_some, true_and, if_true]
      congr 1
      funext v
      cases hstate : v.state <;> simp [Workloads.noPatch, WorkloadState.terminal]
  | reading =>
    simp only [coreCancelStep]
    split <;> simp [CoreCancelState.snapshot]
  | lookingUpProvider w jobId providerId =>
    simp only [coreCancelStep]
    split <;> simp [CoreCancelState.snapshot]
  | cancelling w endpointId jobId => simp [coreCancelStep, CoreCancelState.snapshot, Ledger.send]
  | refreshing w =>
    simp only [coreCancelStep]
    split <;> simp [CoreCancelState.snapshot]
  | returned w cancelled => simp [coreCancelStep, CoreCancelState.snapshot]
  | raised e => simp [coreCancelStep, CoreCancelState.snapshot]

theorem coreCancelStep_snapshot {v : Workload}
    (h : (coreCancelStep endpointOf id l s i).2.snapshot = some v) :
    s.workloads.byId id = some v := by
  cases l with
  | reading =>
    simp only [coreCancelStep] at h
    split at h
    · cases h
    · cases h
    · rename_i hrow
      cases h
      exact hrow
  | transitioning w =>
    simp only [coreCancelStep] at h
    split at h
    · cases h
    · dsimp only at h
      split at h
      · split at h <;> cases h
      · cases h
  | lookingUpProvider w jobId providerId =>
    simp only [coreCancelStep] at h
    split at h <;> cases h
  | cancelling w endpointId jobId => cases h
  | refreshing w =>
    simp only [coreCancelStep] at h
    split at h <;> cases h
  | returned w cancelled => cases h
  | raised e => cases h

theorem coreCancelStep_quiet (endpointOf : String → Option String) (id : String) (s : Ledger)
    (i : StepInput) (hpursued : l.pursued = none)
    (hmiss : ∀ w, l.snapshot = some w →
      (nonEmpty w.runpodJobId = none ∨ nonEmpty (some w.providerId) = none) ∨
        ∀ v, s.workloads.byId id = some v → v.state.terminal = true) :
    (coreCancelStep endpointOf id l s i).2.pursued = none ∧
      (coreCancelStep endpointOf id l s i).1.providerCalls = s.providerCalls := by
  cases l with
  | reading =>
    simp only [coreCancelStep]
    split <;> exact ⟨rfl, rfl⟩
  | transitioning w =>
    simp only [coreCancelStep]
    split
    · exact ⟨rfl, rfl⟩
    · refine ⟨?_, rfl⟩
      dsimp only
      split
      · rename_i hhit
        rcases hmiss w rfl with hlacks | hclosed
        · split
          · rename_i jobId providerId hjob hprovider
            rcases hlacks with hlacks | hlacks
            · rw [hjob] at hlacks; cases hlacks
            · rw [hprovider] at hlacks; cases hlacks
          · rfl
        · rw [Workloads.transitionWorkload_hits] at hhit
          cases hrow : s.workloads.byId id with
          | none => rw [hrow] at hhit; cases hhit
          | some v =>
            have hterminal := hclosed v hrow
            rw [hrow] at hhit
            cases hstate : v.state <;> simp [hstate, WorkloadState.terminal] at hhit hterminal
      · rfl
  | lookingUpProvider w jobId providerId => cases hpursued
  | cancelling w endpointId jobId => cases hpursued
  | refreshing w =>
    simp only [coreCancelStep]
    split <;> exact ⟨rfl, rfl⟩
  | returned w cancelled => exact ⟨rfl, rfl⟩
  | raised e => exact ⟨rfl, rfl⟩

theorem coreCancelStep_hits (endpointOf : String → Option String) {v w : Workload}
    {jobId providerId : String}
    (hfault : i.fault = none) (hrow : s.workloads.byId id = some v)
    (hopen : v.state.terminal = false) (hjob : nonEmpty w.runpodJobId = some jobId)
    (hprovider : nonEmpty (some w.providerId) = some providerId) :
    (coreCancelStep endpointOf id (.transitioning w) s i).2.pursued = some jobId ∧
      (coreCancelStep endpointOf id (.transitioning w) s i).1.providerCalls = s.providerCalls := by
  have hhit : (s.workloads.transitionWorkload id [.queued, .running] .cancelled
      Workloads.noPatch).1 = true := by
    rw [Workloads.transitionWorkload_hits, hrow]
    cases hstate : v.state <;> simp [hstate, WorkloadState.terminal] at hopen ⊢
  simp only [coreCancelStep, hfault, hhit, hjob, hprovider]
  exact ⟨rfl, rfl⟩

end Cancel

section Runs
variable {ι : Type} [DecidableEq ι] {call : JobCall} {endpointOf : String → Option String}
  {id : String}

inductive Phase (id : String) (c : Race ι) : Prop where
  | absent (hrow : c.ledger.workloads.byId id = none) (hjob : c.job.Waiting)
      (haccepted : c.accepted = [])
      (hcancels : ∀ k, (c.cancels k).snapshot = none ∧ (c.cancels k).pursued = none)
      (hcalls : c.ledger.NoCancels)
  | settled (haccepted : c.accepted = [])
      (hjob : c.job.Settled id (c.ledger.workloads.byId id))
  | pending (w : Workload) (hrow : c.ledger.workloads.byId id = some w)
      (hunsaved : w.runpodJobId = none) (hstate : w.state = .queued ∨ w.state = .cancelled)
      (hjob : c.job.Pending id) (haccepted : c.accepted = [])
      (hcancels : ∀ k, (∀ v, (c.cancels k).snapshot = some v → v.runpodJobId = none) ∧
        (c.cancels k).pursued = none)
      (hcalls : c.ledger.NoCancels)
  | running (w : Workload) (jobId : String) (hrow : c.ledger.workloads.byId id = some w)
      (hopen : w.state.terminal = false)
      (hsaved : w.runpodJobId = none ∨ w.runpodJobId = some jobId)
      (hjob : c.job.After id jobId) (haccepted : c.accepted = [jobId])
      (hcancels : ∀ k, (∀ v, (c.cancels k).snapshot = some v →
        v.runpodJobId = none ∨ v.runpodJobId = some jobId) ∧ (c.cancels k).pursued = none)
      (hcalls : c.ledger.NoCancels)
  | pursued (w : Workload) (jobId : String) (k : ι)
      (hrow : c.ledger.workloads.byId id = some w) (hstate : w.state = .cancelled)
      (hjob : c.job.After id jobId) (haccepted : c.accepted = [jobId])
      (hself : (c.cancels k).pursued = some jobId)
      (hothers : ∀ k', k' ≠ k → (c.cancels k').pursued = none)
      (hcalls : c.ledger.NoCancels)
  | issued (w : Workload) (jobId : String) (hrow : c.ledger.workloads.byId id = some w)
      (hstate : w.state = .cancelled) (hjob : c.job.After id jobId)
      (haccepted : c.accepted = [jobId]) (hcancels : ∀ k, (c.cancels k).pursued = none)
      (hissued : c.ledger.Cancels jobId)

structure Astray (id : String) (c : Race ι) (w : Workload) (jobId : String) : Prop where
  row : c.ledger.workloads.byId id = some w
  state : w.state = .cancelled
  job : c.job.After id jobId
  accepted : c.accepted = [jobId]
  cancels : ∀ k, (c.cancels k).pursued = none
  uncancelled : ¬ c.ledger.Cancels jobId

theorem cancels_congr {s s' : Ledger} {jobId : String}
    (h : s'.providerCalls = s.providerCalls) : s'.Cancels jobId ↔ s.Cancels jobId := by
  unfold Ledger.Cancels
  rw [h]

theorem noCancels_congr {s s' : Ledger} (h : s'.providerCalls = s.providerCalls)
    (hcalls : s.NoCancels) : s'.NoCancels :=
  fun jobId hcancels => hcalls jobId ((cancels_congr h).mp hcancels)

theorem accepted_of_none {c : Race ι} {i : StepInput} {accepted : List String}
    (haccepted : c.accepted = accepted) (hnone : acceptedBy id c.job i = []) :
    (raceStep call endpointOf id c (.job i)).accepted = accepted := by
  rw [raceStep, hnone, haccepted]
  exact List.append_nil accepted

theorem jobStep_after_row (call : JobCall) (i : StepInput) {s : Ledger} {l : JobState}
    {w : Workload} {jobId : String} (h : l.After id jobId) (hrow : s.workloads.byId id = some w) :
    ∃ w', (jobStep call l s i).1.workloads.byId id = some w' ∧ w'.state = w.state ∧
      (w'.runpodJobId = w.runpodJobId ∨ w'.runpodJobId = some jobId) := by
  rcases (jobStep_after call i s h).2.2.2 with hsame | hsaved
  · exact ⟨w, hsame.trans hrow, rfl, .inl rfl⟩
  · refine ⟨{ w with runpodJobId := some jobId }, ?_, rfl, .inr rfl⟩
    rw [hsaved, hrow]
    rfl

theorem phase_job {c : Race ι} {i : StepInput} (h : Phase id c)
    (hkept : ¬ Strays endpointOf id c (.job i)) :
    Phase id (raceStep call endpointOf id c (.job i)) := by
  cases h with
  | absent hrow hjob haccepted hcancels hcalls =>
    obtain ⟨hnone, hsame, hnext⟩ := jobStep_waiting call i hjob hrow
    have haccepted' : c.accepted ++ acceptedBy id c.job i = [] := by rw [haccepted, hnone]; rfl
    rcases hnext with ⟨hwaiting, hrow'⟩ | hsettled | ⟨hpending, w, hrow', hstate, hunsaved⟩
    · exact .absent hrow' hwaiting haccepted' hcancels (noCancels_congr hsame hcalls)
    · exact .settled haccepted' hsettled
    · refine .pending w hrow' hunsaved (.inl hstate) hpending haccepted' (fun k => ?_)
        (noCancels_congr hsame hcalls)
      refine ⟨fun v hv => ?_, (hcancels k).2⟩
      have hv : (c.cancels k).snapshot = some v := hv
      rw [(hcancels k).1] at hv
      cases hv
  | settled haccepted hjob =>
    obtain ⟨hsettled, hnone⟩ := jobStep_settled call i hjob
    exact .settled (accepted_of_none haccepted hnone) hsettled
  | pending w hrow hunsaved hstate hjob haccepted hcancels hcalls =>
    obtain ⟨hcalls', hnext⟩ := jobStep_pending call i hjob hrow hcalls
    rcases hnext with ⟨hnone, hpending, w', hrow', hstate', hunsaved'⟩ | ⟨hnone, hsettled⟩ |
      ⟨jobId, hone, hafter, hrow'⟩
    · exact .pending w' hrow' (hunsaved'.trans hunsaved) (by rw [hstate']; exact hstate) hpending
        (accepted_of_none haccepted hnone) hcancels hcalls'
    · exact .settled (accepted_of_none haccepted hnone) hsettled
    · have hqueued : w.state = .queued := by
        rcases hstate with hqueued | hcancelled
        · exact hqueued
        · exact absurd ⟨by rw [hone]; simp, w, hrow, hcancelled⟩ hkept
      refine .running w jobId hrow' (by rw [hqueued]; rfl) (.inl hunsaved) hafter
        (by rw [raceStep, haccepted, hone]; rfl) (fun k => ?_) hcalls'
      exact ⟨fun v hv => .inl ((hcancels k).1 v hv), (hcancels k).2⟩
  | running w jobId hrow hopen hsaved hjob haccepted hcancels hcalls =>
    obtain ⟨hafter, hsame, hnone, -⟩ := jobStep_after call i c.ledger hjob
    obtain ⟨w', hrow', hstate', hsaved'⟩ := jobStep_after_row call i hjob hrow
    refine .running w' jobId hrow' (by rw [hstate']; exact hopen) ?_ hafter
      (accepted_of_none haccepted hnone) hcancels (noCancels_congr hsame hcalls)
    rcases hsaved' with hsaved' | hsaved'
    · rw [hsaved']
      exact hsaved
    · exact .inr hsaved'
  | pursued w jobId k hrow hstate hjob haccepted hself hothers hcalls =>
    obtain ⟨hafter, hsame, hnone, -⟩ := jobStep_after call i c.ledger hjob
    obtain ⟨w', hrow', hstate', -⟩ := jobStep_after_row call i hjob hrow
    exact .pursued w' jobId k hrow' (hstate'.trans hstate) hafter
      (accepted_of_none haccepted hnone) hself hothers (noCancels_congr hsame hcalls)
  | issued w jobId hrow hstate hjob haccepted hcancels hissued =>
    obtain ⟨hafter, hsame, hnone, -⟩ := jobStep_after call i c.ledger hjob
    obtain ⟨w', hrow', hstate', -⟩ := jobStep_after_row call i hjob hrow
    exact .issued w' jobId hrow' (hstate'.trans hstate) hafter
      (accepted_of_none haccepted hnone) hcancels ((cancels_congr hsame).mpr hissued)

theorem forall_cancels_update {P : CoreCancelState → Prop} {cancels : ι → CoreCancelState}
    {k : ι} {l : CoreCancelState} (h : ∀ k', P (cancels k')) (hl : P l) (k' : ι) :
    P (Function.update cancels k l k') := by
  by_cases hk : k' = k
  · rw [hk, Function.update_self]
    exact hl
  · rw [Function.update_of_ne hk]
    exact h k'

theorem JobState.Settled.of_isSome {l : JobState} {row row' : Option Workload}
    (h : l.Settled id row) (hsome : row.isSome = true → row'.isSome = true) :
    l.Settled id row' := by
  cases l with
  | validating => exact hsome h
  | admitting endpointId webhook upperBound => exact hsome h
  | _ => exact h

section CancelRow
variable {s : Ledger} {i : StepInput} {l : CoreCancelState} {w : Workload}

theorem coreCancelStep_closed (hrow : s.workloads.byId id = some w)
    (hclosed : w.state.terminal = true) :
    (coreCancelStep endpointOf id l s i).1.workloads.byId id = some w := by
  rw [coreCancelStep_row, hrow]
  split
  · simp [hclosed]
  · rfl

theorem coreCancelStep_idle (h : l.snapshot = none) :
    (coreCancelStep endpointOf id l s i).1.workloads.byId id = s.workloads.byId id := by
  rw [coreCancelStep_row]
  simp [h]

theorem coreCancelStep_keeps (endpointOf : String → Option String) (l : CoreCancelState)
    (i : StepInput) (hrow : s.workloads.byId id = some w) :
    ∃ w', (coreCancelStep endpointOf id l s i).1.workloads.byId id = some w' ∧
      w'.runpodJobId = w.runpodJobId ∧ (w'.state = w.state ∨ w'.state = .cancelled) := by
  rw [coreCancelStep_row, hrow]
  split
  · refine ⟨if w.state.terminal = true then w else { w with state := .cancelled }, rfl, ?_⟩
    split
    · exact ⟨rfl, .inl rfl⟩
    · exact ⟨rfl, .inr rfl⟩
  · exact ⟨w, rfl, rfl, .inl rfl⟩

end CancelRow

theorem phase_running_cancel {c : Race ι} {k : ι} {i : StepInput} {w : Workload}
    {jobId : String} (hrow : c.ledger.workloads.byId id = some w)
    (hopen : w.state.terminal = false)
    (hsaved : w.runpodJobId = none ∨ w.runpodJobId = some jobId)
    (hjob : c.job.After id jobId) (haccepted : c.accepted = [jobId])
    (hcancels : ∀ k, (∀ v, (c.cancels k).snapshot = some v →
      v.runpodJobId = none ∨ v.runpodJobId = some jobId) ∧ (c.cancels k).pursued = none)
    (hcalls : c.ledger.NoCancels) (hkept : ¬ Strays endpointOf id c (.cancel k i)) :
    Phase id (raceStep call endpointOf id c (.cancel k i)) := by
  have hstill : (coreCancelStep endpointOf id (c.cancels k) c.ledger i).1.workloads.byId id =
        some w →
      (coreCancelStep endpointOf id (c.cancels k) c.ledger i).2.pursued = none →
      (coreCancelStep endpointOf id (c.cancels k) c.ledger i).1.providerCalls =
        c.ledger.providerCalls →
      Phase id (raceStep call endpointOf id c (.cancel k i)) := by
    intro hrow' hpursued hsame
    refine .running w jobId hrow' hopen hsaved hjob haccepted ?_ (noCancels_congr hsame hcalls)
    refine forall_cancels_update (P := fun l => (∀ v, l.snapshot = some v →
      v.runpodJobId = none ∨ v.runpodJobId = some jobId) ∧ l.pursued = none) hcancels
      ⟨fun v hv => ?_, hpursued⟩
    have hv := coreCancelStep_snapshot hv
    rw [hrow] at hv
    cases hv
    exact hsaved
  cases hsnapshot : (c.cancels k).snapshot with
  | none =>
    obtain ⟨hpursued, hsame⟩ := coreCancelStep_quiet endpointOf id c.ledger i (hcancels k).2
      (fun v hv => by rw [hsnapshot] at hv; cases hv)
    exact hstill ((coreCancelStep_idle hsnapshot).trans hrow) hpursued hsame
  | some v =>
    have hl : c.cancels k = .transitioning v := by
      cases hk : c.cancels k <;> rw [hk] at hsnapshot <;> cases hsnapshot
      rfl
    cases hfault : i.fault with
    | some e =>
      refine hstill ?_ ?_ ?_
      · rw [hl]
        simp [coreCancelStep, hfault, hrow]
      · rw [hl]
        simp [coreCancelStep, hfault, CoreCancelState.pursued]
      · rw [hl]
        simp [coreCancelStep, hfault]
    | none =>
      have hmet : ¬ (nonEmpty v.runpodJobId = none ∨ nonEmpty (some v.providerId) = none) := by
        intro hlacks
        refine hkept ⟨by rw [haccepted]; simp, ?_⟩
        rw [hl]
        exact ⟨hfault, hlacks, w, hrow, hopen⟩
      obtain ⟨hasJob, hasProvider⟩ := not_or.mp hmet
      obtain ⟨found, hfound⟩ := Option.ne_none_iff_exists'.mp hasJob
      obtain ⟨providerId, hprovider⟩ := Option.ne_none_iff_exists'.mp hasProvider
      have hsame : found = jobId := by
        rcases (hcancels k).1 v hsnapshot with hunsaved | hsaved
        · rw [hunsaved] at hfound; cases hfound
        · rw [eq_some_of_nonEmpty hfound] at hsaved
          exact Option.some.inj hsaved
      obtain ⟨hpursued, hcallsame⟩ :=
        coreCancelStep_hits endpointOf hfault hrow hopen hfound hprovider
      refine .pursued { w with state := .cancelled } jobId k ?_ rfl hjob haccepted ?_ ?_ ?_
      · show (coreCancelStep endpointOf id (c.cancels k) c.ledger i).1.workloads.byId id = _
        rw [coreCancelStep_row, hrow, hl]
        simp [CoreCancelState.snapshot, hfault, hopen]
      · show (Function.update c.cancels k _ k).pursued = some jobId
        rw [Function.update_self, hl, hpursued, hsame]
      · intro k' hk'
        show (Function.update c.cancels k _ k').pursued = none
        rw [Function.update_of_ne hk']
        exact (hcancels k').2
      · refine noCancels_congr ?_ hcalls
        show (coreCancelStep endpointOf id (c.cancels k) c.ledger i).1.providerCalls = _
        rw [hl]
        exact hcallsame

theorem phase_pursued_self {c : Race ι} {k : ι} {i : StepInput} {w : Workload} {jobId : String}
    (hrow : c.ledger.workloads.byId id = some w) (hstate : w.state = .cancelled)
    (hjob : c.job.After id jobId) (haccepted : c.accepted = [jobId])
    (hself : (c.cancels k).pursued = some jobId)
    (hothers : ∀ k', k' ≠ k → (c.cancels k').pursued = none)
    (hcalls : c.ledger.NoCancels) (hkept : ¬ Strays endpointOf id c (.cancel k i)) :
    Phase id (raceStep call endpointOf id c (.cancel k i)) := by
  have hrow' : (coreCancelStep endpointOf id (c.cancels k) c.ledger i).1.workloads.byId id =
      some w := coreCancelStep_closed hrow (by rw [hstate]; rfl)
  have hothers' : ∀ l, ∀ k', k' ≠ k → (Function.update c.cancels k l k').pursued = none := by
    intro l k' hk'
    rw [Function.update_of_ne hk']
    exact hothers k' hk'
  cases hl : c.cancels k with
  | lookingUpProvider v found providerId =>
    rw [hl] at hself
    obtain rfl : found = jobId := Option.some.inj hself
    have hmet : ¬ (i.fault.isSome = true ∨ nonEmpty (endpointOf providerId) = none) := by
      intro hfails
      refine hkept ⟨by rw [haccepted]; simp, ?_⟩
      rw [hl]
      exact hfails
    obtain ⟨hfault, hendpoint⟩ := not_or.mp hmet
    have hfault : i.fault = none := by simpa using hfault
    obtain ⟨endpointId, hendpoint⟩ := Option.ne_none_iff_exists'.mp hendpoint
    have hstep : coreCancelStep endpointOf id (c.cancels k) c.ledger i =
        (c.ledger, .cancelling v endpointId found) := by
      rw [hl]
      simp [coreCancelStep, hfault, hendpoint]
    refine .pursued w found k hrow' hstate hjob haccepted ?_ (hothers' _) ?_
    · show (Function.update c.cancels k _ k).pursued = some found
      rw [Function.update_self, hstep]
      rfl
    · refine noCancels_congr ?_ hcalls
      show (coreCancelStep endpointOf id (c.cancels k) c.ledger i).1.providerCalls = _
      rw [hstep]
  | cancelling v endpointId found =>
    rw [hl] at hself
    obtain rfl : found = jobId := Option.some.inj hself
    have hstep : coreCancelStep endpointOf id (c.cancels k) c.ledger i =
        (c.ledger.send (.queueCancel endpointId found), .refreshing v) := by
      rw [hl]
      rfl
    refine .issued w found hrow' hstate hjob haccepted (fun k' => ?_) ⟨endpointId, ?_⟩
    · by_cases hk' : k' = k
      · show (Function.update c.cancels k _ k').pursued = none
        rw [hk', Function.update_self, hstep]
        rfl
      · exact hothers' _ k' hk'
    · show _ ∈ (coreCancelStep endpointOf id (c.cancels k) c.ledger i).1.providerCalls
      rw [hstep]
      simp [Ledger.send]
  | _ => rw [hl] at hself; cases hself

theorem cancel_of_closed (call : JobCall) (endpointOf : String → Option String) (i : StepInput)
    {c : Race ι} {k : ι} {w : Workload} (hrow : c.ledger.workloads.byId id = some w)
    (hstate : w.state = .cancelled) (hpursued : (c.cancels k).pursued = none) :
    (raceStep call endpointOf id c (.cancel k i)).ledger.workloads.byId id = some w ∧
    (raceStep call endpointOf id c (.cancel k i)).ledger.providerCalls =
      c.ledger.providerCalls ∧
    (coreCancelStep endpointOf id (c.cancels k) c.ledger i).2.pursued = none := by
  have hclosed : w.state.terminal = true := by rw [hstate]; rfl
  have hmiss : ∀ v, c.ledger.workloads.byId id = some v → v.state.terminal = true := by
    intro v hv
    rw [hrow] at hv
    cases hv
    exact hclosed
  obtain ⟨hpursued', hsame⟩ :=
    coreCancelStep_quiet endpointOf id c.ledger i hpursued (fun _ _ => .inr hmiss)
  exact ⟨coreCancelStep_closed hrow hclosed, hsame, hpursued'⟩

theorem phase_cancel {c : Race ι} {k : ι} {i : StepInput} (h : Phase id c)
    (hkept : ¬ Strays endpointOf id c (.cancel k i)) :
    Phase id (raceStep call endpointOf id c (.cancel k i)) := by
  cases h with
  | absent hrow hjob haccepted hcancels hcalls =>
    obtain ⟨hpursued, hsame⟩ := coreCancelStep_quiet endpointOf id c.ledger i (hcancels k).2
      (fun v hv => by rw [(hcancels k).1] at hv; cases hv)
    refine .absent ((coreCancelStep_idle (hcancels k).1).trans hrow) hjob haccepted ?_
      (noCancels_congr hsame hcalls)
    refine forall_cancels_update (P := fun l => l.snapshot = none ∧ l.pursued = none) hcancels
      ⟨?_, hpursued⟩
    cases hv : (coreCancelStep endpointOf id (c.cancels k) c.ledger i).2.snapshot with
    | none => rfl
    | some v =>
      have hfound := coreCancelStep_snapshot hv
      rw [hrow] at hfound
      cases hfound
  | settled haccepted hjob =>
    refine .settled haccepted (JobState.Settled.of_isSome hjob fun hsome => ?_)
    obtain ⟨w, hrow⟩ := Option.isSome_iff_exists.mp hsome
    obtain ⟨w', hrow', -⟩ := coreCancelStep_keeps endpointOf (c.cancels k) i hrow
    exact Option.isSome_iff_exists.mpr ⟨w', hrow'⟩
  | pending w hrow hunsaved hstate hjob haccepted hcancels hcalls =>
    obtain ⟨hpursued, hsame⟩ := coreCancelStep_quiet endpointOf id c.ledger i (hcancels k).2
      (fun v hv => .inl (.inl (by rw [(hcancels k).1 v hv]; rfl)))
    obtain ⟨w', hrow', hunsaved', hstate'⟩ := coreCancelStep_keeps endpointOf (c.cancels k) i hrow
    refine .pending w' hrow' (hunsaved'.trans hunsaved) ?_ hjob haccepted ?_
      (noCancels_congr hsame hcalls)
    · rcases hstate' with hstate' | hstate'
      · rw [hstate']
        exact hstate
      · exact .inr hstate'
    · refine forall_cancels_update (P := fun l => (∀ v, l.snapshot = some v →
        v.runpodJobId = none) ∧ l.pursued = none) hcancels ⟨fun v hv => ?_, hpursued⟩
      have hv := coreCancelStep_snapshot hv
      rw [hrow] at hv
      cases hv
      exact hunsaved
  | running w jobId hrow hopen hsaved hjob haccepted hcancels hcalls =>
    exact phase_running_cancel hrow hopen hsaved hjob haccepted hcancels hcalls hkept
  | pursued w jobId k' hrow hstate hjob haccepted hself hothers hcalls =>
    by_cases hk : k = k'
    · subst hk
      exact phase_pursued_self hrow hstate hjob haccepted hself hothers hcalls hkept
    · obtain ⟨hrow', hsame, hpursued⟩ :=
        cancel_of_closed call endpointOf i hrow hstate (hothers k hk)
      refine .pursued w jobId k' hrow' hstate hjob haccepted ?_ (fun j hj => ?_)
        (noCancels_congr hsame hcalls)
      · show (Function.update c.cancels k _ k').pursued = some jobId
        rw [Function.update_of_ne (fun heq => hk heq.symm)]
        exact hself
      · show (Function.update c.cancels k _ j).pursued = none
        by_cases hjk : j = k
        · rw [hjk, Function.update_self]
          exact hpursued
        · rw [Function.update_of_ne hjk]
          exact hothers j hj
  | issued w jobId hrow hstate hjob haccepted hcancels hissued =>
    obtain ⟨hrow', hsame, hpursued⟩ := cancel_of_closed call endpointOf i hrow hstate (hcancels k)
    refine .issued w jobId hrow' hstate hjob haccepted ?_ ((cancels_congr hsame).mpr hissued)
    exact forall_cancels_update (P := fun l => l.pursued = none) hcancels hpursued

theorem astray_of_job {c : Race ι} {i : StepInput} (h : Phase id c)
    (hstrays : Strays endpointOf id c (.job i)) :
    ∃ w jobId, Astray id (raceStep call endpointOf id c (.job i)) w jobId := by
  obtain ⟨haccepts, w, hrow, hstate⟩ := hstrays
  cases h with
  | absent hnone => rw [hnone] at hrow; cases hrow
  | settled haccepted hjob => exact absurd (jobStep_settled call i hjob).2 haccepts
  | pending v _ _ _ hjob haccepted hcancels hcalls =>
    obtain ⟨hcalls', hnext⟩ := jobStep_pending call i hjob hrow hcalls
    rcases hnext with ⟨hnone, -⟩ | ⟨hnone, -⟩ | ⟨jobId, hone, hafter, hrow'⟩
    · exact absurd hnone haccepts
    · exact absurd hnone haccepts
    · exact ⟨w, jobId, hrow', hstate, hafter, by rw [raceStep, haccepted, hone]; rfl,
        fun k => (hcancels k).2, hcalls' jobId⟩
  | running _ jobId _ _ _ hjob =>
    exact absurd (jobStep_after call i c.ledger hjob).2.2.1 haccepts
  | pursued _ jobId _ _ _ hjob =>
    exact absurd (jobStep_after call i c.ledger hjob).2.2.1 haccepts
  | issued _ jobId _ _ hjob =>
    exact absurd (jobStep_after call i c.ledger hjob).2.2.1 haccepts

theorem astray_of_cancel {c : Race ι} {k : ι} {i : StepInput} (h : Phase id c)
    (hstrays : Strays endpointOf id c (.cancel k i)) :
    ∃ w jobId, Astray id (raceStep call endpointOf id c (.cancel k i)) w jobId := by
  obtain ⟨hsome, hstrays⟩ := hstrays
  cases hl : c.cancels k with
  | transitioning v =>
    rw [hl] at hstrays
    obtain ⟨hfault, hlacks, u, hrow, hopen⟩ := hstrays
    cases h with
    | absent _ _ haccepted => exact absurd haccepted hsome
    | settled haccepted => exact absurd haccepted hsome
    | pending _ _ _ _ _ haccepted => exact absurd haccepted hsome
    | running w jobId hrow' _ _ hjob haccepted hcancels hcalls =>
      obtain ⟨hpursued, hsame⟩ :=
        coreCancelStep_quiet endpointOf id c.ledger i (hcancels k).2 (fun v' hv' => by
          rw [hl] at hv'
          cases hv'
          exact .inl hlacks)
      refine ⟨{ u with state := .cancelled }, jobId, ?_, rfl, hjob, haccepted, ?_, ?_⟩
      · show (coreCancelStep endpointOf id (c.cancels k) c.ledger i).1.workloads.byId id = _
        rw [coreCancelStep_row, hrow, hl]
        simp [CoreCancelState.snapshot, hfault, hopen]
      · exact forall_cancels_update (P := fun l => l.pursued = none) (fun k' => (hcancels k').2)
          hpursued
      · exact noCancels_congr hsame hcalls jobId
    | pursued w _ _ hrow' hstate =>
      rw [hrow'] at hrow
      cases hrow
      rw [hstate] at hopen
      cases hopen
    | issued w _ hrow' hstate =>
      rw [hrow'] at hrow
      cases hrow
      rw [hstate] at hopen
      cases hopen
  | lookingUpProvider v found providerId =>
    rw [hl] at hstrays
    have hpursues : (c.cancels k).pursued = some found := by rw [hl]; rfl
    cases h with
    | absent _ _ haccepted => exact absurd haccepted hsome
    | settled haccepted => exact absurd haccepted hsome
    | pending _ _ _ _ _ haccepted => exact absurd haccepted hsome
    | running _ _ _ _ _ _ _ hcancels => rw [(hcancels k).2] at hpursues; cases hpursues
    | issued _ _ _ _ _ _ hcancels => rw [hcancels k] at hpursues; cases hpursues
    | pursued w jobId k' hrow hstate hjob haccepted _ hothers hcalls =>
      have hk : k = k' := by
        by_contra hne
        rw [hothers k hne] at hpursues
        cases hpursues
      subst hk
      have hstep : (coreCancelStep endpointOf id (c.cancels k) c.ledger i).1 = c.ledger ∧
          (coreCancelStep endpointOf id (c.cancels k) c.ledger i).2.pursued = none := by
        rw [hl]
        cases hfault : i.fault with
        | some e =>
          simp only [coreCancelStep, hfault]
          exact ⟨trivial, rfl⟩
        | none =>
          have hendpoint : nonEmpty (endpointOf providerId) = none := by
            simpa [hfault] using hstrays
          simp only [coreCancelStep, hfault, hendpoint]
          exact ⟨trivial, rfl⟩
      refine ⟨w, jobId, ?_, hstate, hjob, haccepted, fun k' => ?_, ?_⟩
      · show (coreCancelStep endpointOf id (c.cancels k) c.ledger i).1.workloads.byId id = _
        rw [hstep.1]
        exact hrow
      · show (Function.update c.cancels k _ k').pursued = none
        by_cases hk' : k' = k
        · rw [hk', Function.update_self]
          exact hstep.2
        · rw [Function.update_of_ne hk']
          exact hothers k' hk'
      · show ¬ (coreCancelStep endpointOf id (c.cancels k) c.ledger i).1.Cancels jobId
        rw [hstep.1]
        exact hcalls jobId
  | _ => rw [hl] at hstrays; exact hstrays.elim

theorem astray_step (call : JobCall) (endpointOf : String → Option String) (e : RaceEvent ι)
    {c : Race ι} {w : Workload} {jobId : String} (h : Astray id c w jobId) :
    ∃ w', Astray id (raceStep call endpointOf id c e) w' jobId := by
  cases e with
  | job i =>
    obtain ⟨hafter, hsame, hnone, -⟩ := jobStep_after call i c.ledger h.job
    obtain ⟨w', hrow', hstate', -⟩ := jobStep_after_row call i h.job h.row
    exact ⟨w', hrow', hstate'.trans h.state, hafter, accepted_of_none h.accepted hnone,
      h.cancels, fun hcancels => h.uncancelled ((cancels_congr hsame).mp hcancels)⟩
  | cancel k i =>
    obtain ⟨hrow', hsame, hpursued⟩ :=
      cancel_of_closed call endpointOf i h.row h.state (h.cancels k)
    exact ⟨w, hrow', h.state, h.job, h.accepted,
      forall_cancels_update (P := fun l => l.pursued = none) h.cancels hpursued,
      fun hcancels => h.uncancelled ((cancels_congr hsame).mp hcancels)⟩

/-- Over every interleaving of the job with any number of cancels that have come to their
end: a cancelled workload has its job cancelled at RunPod, exactly when no step let the
job get away. -/
theorem cancel_reaches_iff (call : JobCall) (endpointOf : String → Option String) (id : String)
    (workloads : Workloads) (keys : KeyReservations) (events : List (RaceEvent ι))
    (hcancels : ∀ k, ((run (raceStep call endpointOf id)
      ⟨⟨workloads, keys, []⟩, .validating, fun _ => .reading, []⟩ events).cancels k).finished =
        true) :
    CancelReaches id (run (raceStep call endpointOf id)
      ⟨⟨workloads, keys, []⟩, .validating, fun _ => .reading, []⟩ events) ↔
    Along (raceStep call endpointOf id) (fun c e => ¬ Strays endpointOf id c e)
      ⟨⟨workloads, keys, []⟩, .validating, fun _ => .reading, []⟩ events := by
  have hstart :
      Phase id (⟨⟨workloads, keys, []⟩, .validating, fun _ => .reading, []⟩ : Race ι) := by
    cases hrow : workloads.byId id with
    | none =>
      refine .absent hrow trivial rfl (fun _ => ⟨rfl, rfl⟩) ?_
      rintro jobId ⟨endpointId, hmem⟩
      cases hmem
    | some w =>
      refine .settled rfl ?_
      show (workloads.byId id).isSome = true
      rw [hrow]
      rfl
  have hkeep : ∀ (c : Race ι) e, Phase id c → ¬ Strays endpointOf id c e →
      Phase id (raceStep call endpointOf id c e) := by
    intro c e h hkept
    cases e with
    | job i => exact phase_job h hkept
    | cancel k i => exact phase_cancel h hkept
  have hlose : ∀ (c : Race ι) e, Phase id c → ¬ ¬ Strays endpointOf id c e →
      ∃ w jobId, Astray id (raceStep call endpointOf id c e) w jobId := by
    intro c e h hstrays
    cases e with
    | job i => exact astray_of_job h (not_not.mp hstrays)
    | cancel k i => exact astray_of_cancel h (not_not.mp hstrays)
  have htrap : ∀ (c : Race ι) e, (∃ w jobId, Astray id c w jobId) →
      ∃ w jobId, Astray id (raceStep call endpointOf id c e) w jobId := by
    rintro c e ⟨w, jobId, h⟩
    obtain ⟨w', h'⟩ := astray_step call endpointOf e h
    exact ⟨w', jobId, h'⟩
  have hrun := run_or_trapped (P := fun c e => ¬ Strays endpointOf id c e) (I := Phase id)
    (D := fun c => ∃ w jobId, Astray id c w jobId) hkeep hlose htrap hstart events
  rcases hrun with ⟨hphase, hkept⟩ | ⟨⟨w, jobId, hastray⟩, hlost⟩
  · refine iff_of_true ?_ hkept
    intro w hrow hstate jobId hmem
    cases hphase with
    | absent hnone => rw [hnone] at hrow; cases hrow
    | settled haccepted => rw [haccepted] at hmem; cases hmem
    | pending _ _ _ _ _ haccepted => rw [haccepted] at hmem; cases hmem
    | running v _ hrow' hopen =>
      rw [hrow'] at hrow
      cases hrow
      rw [hstate] at hopen
      cases hopen
    | pursued _ _ k _ _ _ _ hself =>
      have hfinished := hcancels k
      revert hself hfinished
      cases (run (raceStep call endpointOf id)
        (⟨⟨workloads, keys, []⟩, .validating, fun _ => .reading, []⟩ : Race ι) events).cancels k <;>
        simp [CoreCancelState.pursued, CoreCancelState.finished]
    | issued _ accepted _ _ _ haccepted _ hissued =>
      rw [haccepted] at hmem
      rw [List.mem_singleton.mp hmem]
      exact hissued
  · refine iff_of_false (fun hreaches => ?_) hlost
    exact hastray.uncancelled
      (hreaches w hastray.row hastray.state jobId (by rw [hastray.accepted]; simp))

end Runs

section Orphan

def jobCall : JobCall where
  gate := tenDollarGate
  capabilityId := "cap"
  providerId := "prov"
  runpodEndpointId := some "ep"
  quote := .ok (.finite 1)
  capabilityParams := .null
  idempotencyKey := none
  webhookUrl := none

/-- RunPod gives the job the id `job_1`. -/
def acceptInput : StepInput := ⟨⟨.utc, 0, 0, "wkl_1"⟩, none, .ok .null, .ok "job_1"⟩

def jobSteps (n : Nat) : List (RaceEvent Unit) := List.replicate n (.job acceptInput)

def cancelSteps (n : Nat) : List (RaceEvent Unit) := List.replicate n (.cancel () acceptInput)

def raceStart : Race Unit :=
  ⟨⟨Table.empty, Table.empty, []⟩, .validating, fun _ => .reading, []⟩

def Ledger.cancelledJobs (s : Ledger) : List String :=
  s.providerCalls.filterMap fun
    | .queueCancel _ jobId => some jobId
    | _ => none

theorem cancels_iff_mem {s : Ledger} {jobId : String} :
    s.Cancels jobId ↔ jobId ∈ s.cancelledJobs := by
  unfold Ledger.cancelledJobs
  rw [List.mem_filterMap]
  constructor
  · rintro ⟨endpointId, hmem⟩
    exact ⟨_, hmem, rfl⟩
  · rintro ⟨providerCall, hmem, hjob⟩
    cases providerCall with
    | queueCancel endpointId found =>
      cases hjob
      exact ⟨endpointId, hmem⟩
    | _ => cases hjob

def lateCancel : List (RaceEvent Unit) := jobSteps 6 ++ cancelSteps 5

/-- The cancel reads the row before RunPod has accepted the job, and takes effect after it. -/
def earlyCancel : List (RaceEvent Unit) :=
  jobSteps 3 ++ cancelSteps 1 ++ jobSteps 3 ++ cancelSteps 2

theorem late_cancel_reaches :
    CancelReaches "wkl_1" (run (raceStep jobCall (fun _ => some "ep") "wkl_1") raceStart
      lateCancel) ∧
    Along (raceStep jobCall (fun _ => some "ep") "wkl_1")
      (fun c e => ¬ Strays (fun _ => some "ep") "wkl_1" c e) raceStart lateCancel := by
  have hreaches : CancelReaches "wkl_1"
      (run (raceStep jobCall (fun _ => some "ep") "wkl_1") raceStart lateCancel) := by
    intro w _ _ jobId hmem
    have hjobs : (run (raceStep jobCall (fun _ => some "ep") "wkl_1") raceStart
        lateCancel).accepted = ["job_1"] := by decide +kernel
    rw [hjobs] at hmem
    rw [List.mem_singleton.mp hmem, cancels_iff_mem]
    decide +kernel
  exact ⟨hreaches, (cancel_reaches_iff jobCall (fun _ => some "ep") "wkl_1" Table.empty
    Table.empty lateCancel (fun k => by cases k; decide +kernel)).mp hreaches⟩

/-- The workload is cancelled, the job was accepted, and nobody cancels it at RunPod. -/
theorem early_cancel_orphans :
    ¬ ∀ (call : JobCall) (endpointOf : String → Option String) (id : String)
      (events : List (RaceEvent Unit)),
      (∀ k, ((run (raceStep call endpointOf id) raceStart events).cancels k).finished = true) →
      CancelReaches id (run (raceStep call endpointOf id) raceStart events) := by
  intro h
  have hreaches := h jobCall (fun _ => some "ep") "wkl_1" earlyCancel
    (fun k => by cases k; decide +kernel)
  have hjobs : (run (raceStep jobCall (fun _ => some "ep") "wkl_1") raceStart
      earlyCancel).accepted = ["job_1"] := by decide +kernel
  have hcalls : (run (raceStep jobCall (fun _ => some "ep") "wkl_1") raceStart
      earlyCancel).ledger.cancelledJobs = [] := by decide +kernel
  have hcancelled : ((run (raceStep jobCall (fun _ => some "ep") "wkl_1") raceStart
      earlyCancel).ledger.workloads.byId "wkl_1").map Workload.state = some .cancelled := by
    decide +kernel
  obtain ⟨w, hrow, hstate⟩ := Option.map_eq_some_iff.mp hcancelled
  have hmem := cancels_iff_mem.mp (hreaches w hrow hstate "job_1" (by rw [hjobs]; simp))
  rw [hcalls] at hmem
  cases hmem

end Orphan

end Pitwall
