import Pitwall.Api.CreateInference
set_option autoImplicit false

/-!
What one step of a request can do to the rows of `pitwall.workloads`: it keeps a row, its
input perhaps overwritten by the request's own, or it admits a row without an input.
-/

namespace Pitwall
open Machine

/-- Where a row comes from, after a step that may write `written` and may admit `newId`. -/
inductive RowOrigin (t : Workloads) (written : Json) (key : Option String) (newId : String)
    (admission : Option BudgetAdmission) (w : Workload) : Prop
  | kept {v : Workload} (mem : v ∈ t.rows) (id : w.id = v.id)
      (keys : w.idempotencyKey = v.idempotencyKey)
      (input : w.input = v.input ∨ w.input = some written) :
      RowOrigin t written key newId admission w
  | admitted (id : w.id = newId) (keys : w.idempotencyKey = key) (input : w.input = none)
      (isNew : admission = some ⟨newId, true⟩) : RowOrigin t written key newId admission w

def RowsFrom (t : Workloads) (written : Json) (key : Option String) (newId : String)
    (admission : Option BudgetAdmission) (t' : Workloads) : Prop :=
  ∀ w ∈ t'.rows, RowOrigin t written key newId admission w

section Rows
variable {t t' : Workloads} {written : Json} {key : Option String} {newId : String}
variable {admission : Option BudgetAdmission}

theorem RowsFrom.refl : RowsFrom t written key newId admission t :=
  fun _ h => .kept h rfl rfl (.inl rfl)

theorem Workloads.row_of_updateById {t : Workloads} {target : String} {guard : Workload → Bool}
    {f : Table.Assignment Workload.uniq} {w : Workload}
    (hw : w ∈ (t.updateById target guard f).rows) :
    ∃ v ∈ t.rows, w.id = v.id ∧ w.idempotencyKey = v.idempotencyKey ∧ (w = v ∨ w = f.set v) := by
  rw [Workloads.rows_updateById, List.mem_map] at hw
  obtain ⟨v, hv, rfl⟩ := hw
  refine ⟨v, hv, ?_⟩
  by_cases hhit : v.id = target ∧ guard v = true
  · rw [if_pos hhit]
    obtain ⟨hid, hkey⟩ := Workloads.uniq_fields (f.keeps v)
    exact ⟨hid, hkey, .inr rfl⟩
  · rw [if_neg hhit]
    exact ⟨rfl, rfl, .inl rfl⟩

theorem RowsFrom.updated (target : String) (guard : Workload → Bool)
    (f : Table.Assignment Workload.uniq)
    (h : ∀ w, (f.set w).input = w.input ∨ (f.set w).input = some written) :
    RowsFrom t written key newId admission (t.updateById target guard f) := by
  intro w hw
  obtain ⟨v, hv, hid, hkey, rfl | rfl⟩ := Workloads.row_of_updateById hw
  · exact .kept hv hid hkey (.inl rfl)
  · exact .kept hv hid hkey (h v)

theorem rowsFrom_launch {gate : BudgetGate} {req : LaunchRequest} {env : LaunchEnv}
    {a : BudgetAdmission} (h : gate.launch req env t = (.ok a, t')) :
    RowsFrom t written req.idempotencyKey env.newWorkloadId (some a) t' := by
  rcases gate.launch_cases req env t with ⟨e, h'⟩ | ⟨b, k, h', -⟩ | ⟨t'', x, cost, h', hadm⟩
  · rw [h'] at h
    cases h
  · rw [h'] at h
    cases h
    exact .refl
  · rw [h'] at h
    cases h
    intro w hw
    rw [hadm.rows, List.mem_append, List.mem_singleton] at hw
    rcases hw with hw | rfl
    · exact .kept hw rfl rfl (.inl rfl)
    · exact .admitted rfl rfl rfl rfl

theorem launch_error {gate : BudgetGate} {req : LaunchRequest} {env : LaunchEnv}
    {e : AdmissionError} (h : gate.launch req env t = (.error e, t')) : t' = t := by
  rcases gate.launch_cases req env t with ⟨e', h'⟩ | ⟨b, k, h', -⟩ | ⟨t'', x, cost, h', -⟩
  · rw [h'] at h
    cases h
    rfl
  · rw [h'] at h
    cases h
  · rw [h'] at h
    cases h

end Rows

theorem recordResult_keepsInput {text : JsonText} {t t' : Workloads} {id : String}
    {startedAt completedAt : Instant} {result : Json}
    (h : recordResult text t id startedAt completedAt result = .ok t') :
    ∃ f : Table.Assignment Workload.uniq, (∀ w, (f.set w).input = w.input) ∧
      t' = t.updateById id (fun _ => true) f := by
  unfold recordResult at h
  dsimp only at h
  split at h
  · cases h
    exact ⟨_, fun _ => rfl, rfl⟩
  · split at h
    · contradiction
    · cases h
      exact ⟨_, fun _ => rfl, rfl⟩

def SyncCall.storedInput (c : SyncCall) : Json := .obj (jsonObject "payload" c.payload)

theorem rowsFrom_sync (text : JsonText) (c : SyncCall) (l : SyncState) (s : Ledger)
    (i : StepInput) :
    RowsFrom s.workloads c.storedInput c.idempotencyKey i.env.newWorkloadId
      (syncStep text c l s i).2.admission (syncStep text c l s i).1.workloads := by
  cases l with
  | quoting =>
    simp only [syncStep]
    split <;> exact .refl
  | reserving upperBound key =>
    simp only [syncStep]
    split
    · exact .refl
    · split <;> exact .refl
  | admitting upperBound =>
    simp only [syncStep]
    split
    · exact .refl
    · split
      · rename_i e t' h
        rw [launch_error h]
        exact .refl
      · rename_i a t' h
        have hrows : RowsFrom s.workloads c.storedInput c.idempotencyKey i.env.newWorkloadId
            (some a) t' := rowsFrom_launch h
        obtain ⟨id, new⟩ := a
        cases new <;> exact hrows
  | replaying id =>
    simp only [syncStep]
    split <;> exact .refl
  | markingRunning id =>
    simp only [syncStep]
    split
    · exact .refl
    · exact .updated id _ _ (fun _ => .inr rfl)
  | calling id startedAt =>
    simp only [syncStep]
    split <;> exact .refl
  | markingFailed id startedAt exc =>
    simp only [syncStep]
    split
    · exact .refl
    · exact .updated id _ _ (fun _ => .inl rfl)
  | markingResult id startedAt result =>
    simp only [syncStep]
    split
    · exact .refl
    · exact .refl
    · rename_i t' hrecord
      obtain ⟨f, hinput, rfl⟩ := recordResult_keepsInput hrecord
      exact .updated id _ f (fun w => .inl (hinput w))
  | returned a result => exact .refl
  | raised a called e => exact .refl

theorem rowsFrom_job (c : JobCall) (l : JobState) (s : Ledger) (i : StepInput) :
    RowsFrom s.workloads c.capabilityParams c.idempotencyKey i.env.newWorkloadId
      (jobStep c l s i).2.admission (jobStep c l s i).1.workloads := by
  cases l with
  | validating =>
    simp only [jobStep]
    split <;> exact .refl
  | admitting endpointId webhook upperBound =>
    simp only [jobStep]
    split
    · exact .refl
    · split
      · rename_i e t' h
        rw [launch_error h]
        exact .refl
      · rename_i a t' h
        have hrows : RowsFrom s.workloads c.capabilityParams c.idempotencyKey i.env.newWorkloadId
            (some a) t' := rowsFrom_launch h
        obtain ⟨id, new⟩ := a
        cases new <;> exact hrows
  | loadingReplay id =>
    simp only [jobStep]
    split <;> exact .refl
  | updatingInput id endpointId webhook =>
    simp only [jobStep]
    split
    · exact .refl
    · exact .updated id _ _ (fun _ => .inr rfl)
  | dispatching id endpointId webhook =>
    simp only [jobStep]
    split <;> exact .refl
  | markingFailed id exc =>
    simp only [jobStep]
    split
    · exact .refl
    · exact .updated id _ _ (fun _ => .inl rfl)
  | savingJobId id jobId =>
    simp only [jobStep]
    split
    · exact .refl
    · exact .updated id _ _ (fun _ => .inl rfl)
  | loading id =>
    simp only [jobStep]
    split <;> exact .refl
  | returned a w => exact .refl
  | raised a called e => exact .refl

/-! Without an admission, a call has not written to a row. -/

section Unadmitted
variable {text : JsonText} {s : Ledger} {i : StepInput}

theorem workloads_sync_unadmitted {c : SyncCall} {l : SyncState}
    (h : (syncStep text c l s i).2.admission = none) :
    (syncStep text c l s i).1.workloads = s.workloads := by
  cases l with
  | quoting =>
    simp only [syncStep]
    split <;> rfl
  | reserving upperBound key' =>
    simp only [syncStep]
    split
    · rfl
    · split <;> rfl
  | admitting upperBound =>
    simp only [syncStep] at h ⊢
    split
    · rfl
    · split
      · rename_i hlaunch
        exact launch_error hlaunch
      · rename_i hfault _ a t' hlaunch
        simp only [hfault, hlaunch] at h
        obtain ⟨id, new⟩ := a
        cases new <;> cases h
  | replaying id =>
    simp only [syncStep]
    split <;> rfl
  | calling id startedAt =>
    simp only [syncStep]
    split
    · rfl
    · split <;> rfl
  | markingRunning id =>
    simp only [syncStep] at h
    split at h <;> cases h
  | markingFailed id startedAt exc =>
    simp only [syncStep] at h
    split at h <;> cases h
  | markingResult id startedAt result =>
    simp only [syncStep] at h
    split at h <;> cases h
  | returned a result => rfl
  | raised a called e => rfl

theorem workloads_job_unadmitted {c : JobCall} {l : JobState}
    (h : (jobStep c l s i).2.admission = none) :
    (jobStep c l s i).1.workloads = s.workloads := by
  cases l with
  | validating =>
    simp only [jobStep]
    split <;> rfl
  | admitting endpointId webhook upperBound =>
    simp only [jobStep] at h ⊢
    split
    · rfl
    · split
      · rename_i hlaunch
        exact launch_error hlaunch
      · rename_i hfault _ a t' hlaunch
        simp only [hfault, hlaunch] at h
        obtain ⟨id, new⟩ := a
        cases new <;> cases h
  | loadingReplay id =>
    simp only [jobStep]
    split <;> rfl
  | dispatching id endpointId webhook =>
    simp only [jobStep]
    split <;> rfl
  | loading id =>
    simp only [jobStep]
    split <;> rfl
  | updatingInput id endpointId webhook =>
    simp only [jobStep] at h
    split at h <;> cases h
  | markingFailed id exc =>
    simp only [jobStep] at h
    split at h <;> cases h
  | savingJobId id jobId =>
    simp only [jobStep] at h
    split at h <;> cases h
  | returned a w => rfl
  | raised a called e => rfl

end Unadmitted

end Pitwall
