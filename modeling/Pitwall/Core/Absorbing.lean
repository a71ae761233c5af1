import Pitwall.Core.Requests
set_option autoImplicit false

/-!
When terminal workload states are absorbing. The transitions of the reconciler, of core
`cancel_job` and of `_mark_async_dispatch_failed` name the states they leave; the
statements of the sync gate and of the REST cancel handler do not.
-/

namespace Pitwall
open Machine

namespace Workloads

def Absorbs (t t' : Workloads) : Prop :=
  ∀ w ∈ t.rows, w.state.terminal = true → ∃ w' ∈ t'.rows, w'.id = w.id ∧ w'.state = w.state

theorem Absorbs.refl (t : Workloads) : t.Absorbs t := fun w hw _ => ⟨w, hw, rfl, rfl⟩

theorem Absorbs.trans {t t' t'' : Workloads} (h : t.Absorbs t') (h' : t'.Absorbs t'') :
    t.Absorbs t'' := by
  intro w hw hterminal
  obtain ⟨w', hw', hid, hstate⟩ := h w hw hterminal
  obtain ⟨w'', hw'', hid', hstate'⟩ := h' w' hw' (by rw [hstate]; exact hterminal)
  exact ⟨w'', hw'', hid'.trans hid, hstate'.trans hstate⟩

theorem absorbs_of_append {t t' : Workloads} {new : List Workload}
    (h : t'.rows = t.rows ++ new) : t.Absorbs t' := by
  intro w hw _
  exact ⟨w, by rw [h]; exact List.mem_append_left _ hw, rfl, rfl⟩

theorem mem_updateById {t : Workloads} {id : String} {guard : Workload → Bool}
    {f : Table.Assignment Workload.uniq} {w : Workload} (hw : w ∈ t.rows) :
    (if w.id = id ∧ guard w = true then f.set w else w) ∈ (t.updateById id guard f).rows := by
  rw [rows_updateById]
  exact List.mem_map_of_mem hw

/-- A row and its updated version have the same id, so an update absorbs exactly when
it leaves the state of each terminal row it hits. -/
theorem absorbs_updateById {t : Workloads} {id : String} {guard : Workload → Bool}
    {f : Table.Assignment Workload.uniq} :
    t.Absorbs (t.updateById id guard f) ↔
      ∀ w ∈ t.rows, w.state.terminal = true → w.id = id → guard w = true →
        (f.set w).state = w.state := by
  have hids : ∀ v, (if v.id = id ∧ guard v = true then f.set v else v).id = v.id := by
    intro v
    split
    · exact (uniq_fields (f.keeps v)).1
    · rfl
  constructor
  · intro h w hw hterminal hid hguard
    obtain ⟨w', hw', hid', hstate⟩ := h w hw hterminal
    rw [rows_updateById] at hw'
    obtain ⟨v, hv, rfl⟩ := List.mem_map.mp hw'
    rw [hids] at hid'
    obtain rfl := t.eq_of_id hv hw hid'
    simpa [hid, hguard] using hstate
  · intro h w hw hterminal
    refine ⟨_, mem_updateById hw, hids w, ?_⟩
    split
    · rename_i hhit
      exact h w hw hterminal hhit.1 hhit.2
    · rfl

theorem absorbs_transitionWorkload {t : Workloads} {id : String}
    {fromStates : List WorkloadState} {toState : WorkloadState}
    {patch : Table.Assignment Workload.uniq}
    (h : ∀ state ∈ fromStates, state.terminal = false) :
    t.Absorbs (t.transitionWorkload id fromStates toState patch).2 := by
  refine absorbs_updateById.mpr (fun w _ hterminal _ hguard => ?_)
  have hmem : w.state ∈ fromStates := by simpa using hguard
  rw [h _ hmem] at hterminal
  contradiction

theorem absorbs_applyTerminalState {t : Workloads} {id : String} {state : WorkloadState}
    {actualCost : Option ℚ} {completedAt : Instant} :
    t.Absorbs (t.applyTerminalState id state actualCost completedAt) := by
  refine absorbs_updateById.mpr (fun w _ hterminal _ hguard => ?_)
  rw [hterminal] at hguard
  contradiction

theorem absorbs_of_keeps_state {t : Workloads} {id : String} {guard : Workload → Bool}
    {f : Table.Assignment Workload.uniq} (h : ∀ w, (f.set w).state = w.state) :
    t.Absorbs (t.updateById id guard f) :=
  absorbs_updateById.mpr (fun w _ _ _ _ => h w)

end Workloads

/-- The row and the state that the next step of a request writes without looking at the
state the row is in. -/
def Request.unguardedWrite (r : Request) (i : StepInput) : Option (String × WorkloadState) :=
  match r, i.fault with
  | .sync _ (.markingRunning id), none => some (id, .running)
  | .sync _ (.markingFailed id _ _), none => some (id, .failed)
  | .sync _ (.markingResult id _ result), none => (recordedState result).map (fun st => (id, st))
  | .restCancel id .updating, none => some (id, .cancelled)
  | _, _ => none

def Unhit (t : Workloads) : Option (String × WorkloadState) → Prop
  | none => True
  | some (id, state) =>
      ∀ w ∈ t.rows, w.id = id → w.state.terminal = true → w.state = state

theorem absorbs_iff_unhit {t : Workloads} {id : String} {state : WorkloadState}
    {f : Table.Assignment Workload.uniq} (hf : ∀ w, (f.set w).state = state) :
    t.Absorbs (t.updateById id (fun _ => true) f) ↔ Unhit t (some (id, state)) := by
  rw [Workloads.absorbs_updateById]
  constructor
  · intro h w hw hid hterminal
    rw [← h w hw hterminal hid rfl, hf w]
  · intro h w hw hterminal hid _
    rw [h w hw hid hterminal, hf w]

theorem absorbs_launch (gate : BudgetGate) (req : LaunchRequest) (env : LaunchEnv)
    (t : Workloads) : t.Absorbs (gate.launch req env t).2 := by
  rcases gate.launch_cases req env t with ⟨e, h⟩ | ⟨a, key, h, -⟩ | ⟨t', x, c, h, hadm⟩
  · rw [h]; exact .refl t
  · rw [h]; exact .refl t
  · rw [h]; exact Workloads.absorbs_of_append hadm.rows

section Steps
variable (s : Ledger) (i : StepInput)

theorem sync_absorbs_iff (text : JsonText) (c : SyncCall) (l : SyncState) :
    s.workloads.Absorbs (syncStep text c l s i).1.workloads ↔
      Unhit s.workloads ((Request.sync c l).unguardedWrite i) := by
  have hrefl : s.workloads.Absorbs s.workloads ↔ True := iff_true_intro (.refl _)
  cases l with
  | quoting =>
    simp only [syncStep]
    split <;> exact hrefl
  | reserving upperBound k =>
    simp only [syncStep]
    split
    · exact hrefl
    · split <;> exact hrefl
  | admitting upperBound =>
    have hlaunch := absorbs_launch c.gate (c.launchRequest upperBound) i.env s.workloads
    simp only [syncStep]
    split
    · exact hrefl
    · split
      · rename_i h
        rw [h] at hlaunch
        exact iff_true_intro hlaunch
      · rename_i h
        rw [h] at hlaunch
        exact iff_true_intro hlaunch
  | replaying id =>
    simp only [syncStep]
    split <;> exact hrefl
  | markingRunning id =>
    simp only [syncStep]
    split
    · rename_i hfault
      simp only [Request.unguardedWrite, hfault]
      exact hrefl
    · rename_i hfault
      simp only [Request.unguardedWrite, hfault]
      exact absorbs_iff_unhit (fun _ => rfl)
  | calling id startedAt =>
    simp only [syncStep]
    split <;> exact hrefl
  | markingFailed id startedAt exc =>
    simp only [syncStep]
    split
    · rename_i hfault
      simp only [Request.unguardedWrite, hfault]
      exact hrefl
    · rename_i hfault
      simp only [Request.unguardedWrite, hfault]
      exact absorbs_iff_unhit (fun _ => rfl)
  | markingResult id startedAt result =>
    simp only [syncStep]
    split
    · rename_i hfault
      simp only [Request.unguardedWrite, hfault]
      exact hrefl
    · rename_i hfault hrecord
      simp only [Request.unguardedWrite, hfault, recordResult_error hrecord]
      exact hrefl
    · rename_i hfault hrecord
      obtain ⟨state, f, hstate, hf, rfl⟩ := recordResult_ok hrecord
      simp only [Request.unguardedWrite, hfault, hstate]
      exact absorbs_iff_unhit hf
  | returned a result => exact hrefl
  | raised a called e => exact hrefl

/-- The one state change of a job, `_mark_async_dispatch_failed`, is guarded. -/
theorem job_absorbs (c : JobCall) (l : JobState) :
    s.workloads.Absorbs (jobStep c l s i).1.workloads := by
  cases l with
  | validating =>
    simp only [jobStep]
    split <;> exact .refl _
  | admitting endpointId webhook upperBound =>
    have hlaunch :=
      absorbs_launch c.gate (c.launchRequest upperBound i.env.utcNow) i.env s.workloads
    simp only [jobStep]
    split
    · exact .refl _
    · split
      · rename_i h
        rwa [h] at hlaunch
      · rename_i h
        rwa [h] at hlaunch
  | loadingReplay id =>
    simp only [jobStep]
    split <;> exact .refl _
  | updatingInput id endpointId webhook =>
    simp only [jobStep]
    split
    · exact .refl _
    · exact Workloads.absorbs_of_keeps_state (fun _ => rfl)
  | dispatching id endpointId webhook =>
    simp only [jobStep]
    split <;> exact .refl _
  | markingFailed id exc =>
    simp only [jobStep]
    split
    · exact .refl _
    · exact Workloads.absorbs_transitionWorkload (by decide)
  | savingJobId id jobId =>
    simp only [jobStep]
    split
    · exact .refl _
    · exact Workloads.absorbs_of_keeps_state (fun _ => rfl)
  | loading id =>
    simp only [jobStep]
    split <;> exact .refl _
  | returned a w => exact .refl _
  | raised a called e => exact .refl _

theorem restCancel_absorbs_iff (id : String) (l : RestCancelState) :
    s.workloads.Absorbs (restCancelStep id l s i).1.workloads ↔
      Unhit s.workloads ((Request.restCancel id l).unguardedWrite i) := by
  have hrefl : s.workloads.Absorbs s.workloads ↔ True := iff_true_intro (.refl _)
  cases l with
  | reading =>
    simp only [restCancelStep]
    split
    · exact hrefl
    · exact hrefl
    · split
      · exact hrefl
      · split <;> exact hrefl
  | cancelling endpointId jobId =>
    simp only [restCancelStep]
    split <;> exact hrefl
  | updating =>
    simp only [restCancelStep]
    split
    · rename_i hfault
      simp only [Request.unguardedWrite, hfault]
      exact hrefl
    · rename_i hfault
      simp only [Request.unguardedWrite, hfault]
      exact absorbs_iff_unhit (fun _ => rfl)
  | responded w => exact hrefl
  | raised e => exact hrefl

theorem coreCancel_absorbs (endpointOf : String → Option String) (id : String)
    (l : CoreCancelState) :
    s.workloads.Absorbs (coreCancelStep endpointOf id l s i).1.workloads := by
  cases l with
  | reading =>
    simp only [coreCancelStep]
    split <;> exact .refl _
  | transitioning w =>
    simp only [coreCancelStep]
    split
    · exact .refl _
    · exact Workloads.absorbs_transitionWorkload (by decide)
  | lookingUpProvider w jobId providerId =>
    simp only [coreCancelStep]
    split <;> exact .refl _
  | cancelling w endpointId jobId => exact .refl _
  | refreshing w =>
    simp only [coreCancelStep]
    split <;> exact .refl _
  | returned w cancelled => exact .refl _
  | raised e => exact .refl _

theorem request_absorbs_iff (text : JsonText) (r : Request) :
    s.workloads.Absorbs (requestStep text r s i).1.workloads ↔
      Unhit s.workloads (r.unguardedWrite i) := by
  cases r with
  | sync c l => exact sync_absorbs_iff s i text c l
  | job c l => exact iff_true_intro (job_absorbs s i c l)
  | restCancel id l => exact restCancel_absorbs_iff s i id l
  | coreCancel endpointOf id l => exact iff_true_intro (coreCancel_absorbs s i endpointOf id l)
  | reconcile id state cost completedAt =>
    simp only [requestStep]
    split
    · exact iff_true_intro (.refl _)
    · exact iff_true_intro Workloads.absorbs_applyTerminalState
  | reconciled => exact iff_true_intro (.refl _)

end Steps

section Runs
variable {ι : Type} [DecidableEq ι]

/-- The step is no unguarded write to a row that has become terminal meanwhile. -/
def NotOvertaken (c : Config Ledger ι Request) (e : ι × StepInput) : Prop :=
  Unhit c.shared.workloads ((c.procs e.1).unguardedWrite e.2)

/-- What is terminal at one point of a run has the same state at every later point,
in exactly the runs in which no unguarded write comes after another path has closed
its row. -/
theorem terminal_absorbing_iff (text : JsonText) (c : Config Ledger ι Request)
    (events : List (ι × StepInput)) :
    (∀ es fs, es ++ fs <+: events →
      (run (systemStep text) c es).shared.workloads.Absorbs
        (run (systemStep text) c (es ++ fs)).shared.workloads) ↔
      Along (systemStep text) NotOvertaken c events := by
  rw [← along_iff_forall_run
    (R := fun a b : Config Ledger ι Request => a.shared.workloads.Absorbs b.shared.workloads)
    (fun _ => .refl _) (fun h h' => h.trans h')]
  exact along_congr (fun c e => request_absorbs_iff c.shared e.2 text (c.procs e.1)) c events

end Runs

section Overtaken

def statusCompleted : Json := .obj [("status", .str "COMPLETED")]

def syncInput : StepInput := ⟨⟨.utc, 0, 0, "wkl_1"⟩, none, .ok statusCompleted, .ok ""⟩

def callAndCancel : Bool → Request
  | true => .sync ⟨tenDollarGate, "cap", "prov", .ok (.finite 1), .null, none,
      none, some 16, []⟩ .quoting
  | false => .restCancel "wkl_1" .reading

/-- The text functions on the values of this run: `{"status":"COMPLETED"}` has 22 bytes. -/
def completedText : JsonText where
  bytes := fun _ => 22
  sha256 := fun _ => ""
  str := fun
    | .str text => text
    | _ => ""

def beforeAnswer : List (Bool × StepInput) :=
  [(true, syncInput), (true, syncInput), (true, syncInput), (false, syncInput), (false, syncInput)]

/-- A workload that was cancelled while its provider call was out ends as completed. -/
theorem cancelled_workload_completes :
    ¬ ∀ (text : JsonText) (requests : Bool → Request), (∀ i, (requests i).fresh = true) →
      ∀ es fs, (run (systemStep text) ⟨⟨Table.empty, Table.empty, []⟩, requests⟩
          es).shared.workloads.Absorbs
        (run (systemStep text) ⟨⟨Table.empty, Table.empty, []⟩, requests⟩
          (es ++ fs)).shared.workloads := by
  intro h
  have hkept := h completedText callAndCancel (by decide) beforeAnswer
    [(true, syncInput), (true, syncInput)]
  revert hkept
  unfold Workloads.Absorbs
  decide +kernel

end Overtaken

end Pitwall
