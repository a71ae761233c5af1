import Pitwall.Core.Requests
set_option autoImplicit false

/-!
Admission under an idempotency key, over every interleaving of the calls that carry it.
-/

namespace Pitwall
open Machine

/-- What a call has got so far: its admission, and whether it has reached its provider. -/
structure Progress where
  admission : Option BudgetAdmission
  called : Bool

def SyncState.progress (l : SyncState) : Progress := ⟨l.admission, l.called⟩

def JobState.progress (l : JobState) : Progress := ⟨l.admission, l.called⟩

def Request.progress : Request → Progress
  | .sync _ l => l.progress
  | .job _ l => l.progress
  | _ => ⟨none, false⟩

def Request.returnedId : Request → Option String
  | .sync _ (.returned a _) => some a.workloadId
  | .job _ (.returned _ w) => some w.id
  | _ => none

def Request.Keyed (key : String) : Request → Prop
  | .sync c _ => c.idempotencyKey = some key
  | .job c _ => c.idempotencyKey = some key
  | _ => False

def Request.Submits (key : String) : Request → Prop
  | .sync c .quoting => c.idempotencyKey = some key
  | .job c .validating => c.idempotencyKey = some key
  | _ => False

/-- Everything one step of a call that carries `key` can do. -/
inductive Advance (key : String) (s s' : Ledger) : Progress → Progress → Prop
  | quiet (p : Progress)
      (carries : ∀ id, s.workloads.Carries key id → s'.workloads.Carries key id)
      (invocations : s'.invocations = s.invocations) : Advance key s s' p p
  | admitted (a : BudgetAdmission)
      (carries : ∀ id, s.workloads.Carries key id → s'.workloads.Carries key id)
      (carried : s'.workloads.Carries key a.workloadId)
      (fresh : a.isNew = true → ∀ id, ¬ s.workloads.Carries key id)
      (invocations : s'.invocations = s.invocations) :
      Advance key s s' ⟨none, false⟩ ⟨some a, false⟩
  | call (id : String) (workloads : s'.workloads = s.workloads)
      (invocations : s'.invocations = s.invocations + 1) :
      Advance key s s' ⟨some ⟨id, true⟩, false⟩ ⟨some ⟨id, true⟩, true⟩

theorem Advance.refl (key : String) (s : Ledger) (p : Progress) : Advance key s s p p :=
  .quiet p (fun _ h => h) rfl

theorem Advance.updated (key : String) (s : Ledger) (p : Progress) (target : String)
    (guard : Workload → Bool) (f : Table.Assignment Workload.uniq) :
    Advance key s (s.withWorkloads (s.workloads.updateById target guard f)) p p :=
  .quiet p (fun _ h => h.updateById) rfl

theorem carries_of_rows {t t' : Workloads} {key : String} {new : List Workload}
    (hrows : t'.rows = t.rows ++ new) (id : String) (h : t.Carries key id) :
    t'.Carries key id := by
  obtain ⟨w, hw, hkey, hid⟩ := h
  exact ⟨w, by rw [hrows]; exact List.mem_append_left _ hw, hkey, hid⟩

theorem advance_launch (gate : BudgetGate) (req : LaunchRequest) (env : LaunchEnv)
    (s : Ledger) {key : String} (hkey : req.idempotencyKey = some key) :
    (∃ e, gate.launch req env s.workloads = (.error e, s.workloads)) ∨
    (∃ a t', gate.launch req env s.workloads = (.ok a, t') ∧
      Advance key s (s.withWorkloads t') ⟨none, false⟩ ⟨some a, false⟩) := by
  rcases gate.launch_cases req env s.workloads with h | ⟨a, key', h, hnew, hk', hc⟩ |
    ⟨t', x, c, h, hadm⟩
  · exact .inl h
  · rw [hkey] at hk'
    cases hk'
    refine .inr ⟨a, s.workloads, h, .admitted a (fun _ h => h) hc ?_ rfl⟩
    simp [hnew]
  · refine .inr ⟨_, t', h, .admitted _ (carries_of_rows hadm.rows) ?_ ?_ rfl⟩
    · refine ⟨queuedWorkload req env c, ?_, hkey, rfl⟩
      simp [hadm.rows]
    · intro _ id
      exact Workloads.byKey_none (hadm.absent key hkey)

section Steps
variable {key : String} {s : Ledger}

theorem advance_sync (text : JsonText) {c : SyncCall} (l : SyncState) (i : StepInput)
    (hkey : c.idempotencyKey = some key) :
    Advance key s (syncStep text c l s i).1 l.progress (syncStep text c l s i).2.progress := by
  cases l with
  | quoting =>
    simp only [syncStep]
    split <;> exact .refl key s _
  | reserving upperBound k =>
    simp only [syncStep]
    split
    · exact .refl key s _
    · split
      · exact .refl key s _
      · exact .quiet _ (fun _ h => h) rfl
  | admitting upperBound =>
    simp only [syncStep]
    split
    · exact .refl key s _
    · rcases advance_launch c.gate (c.launchRequest upperBound) i.env s hkey with
        ⟨e, h⟩ | ⟨a, t', h, hadv⟩
      · rw [h]
        exact .quiet _ (fun _ h => h) rfl
      · rw [h]
        obtain ⟨id, new⟩ := a
        cases new <;> exact hadv
  | replaying id =>
    simp only [syncStep]
    split <;> exact .refl key s _
  | markingRunning id =>
    simp only [syncStep]
    split
    · exact .refl key s _
    · exact .updated key s _ id _ _
  | calling id startedAt =>
    simp only [syncStep]
    split
    · exact .call id rfl (by simp [ProviderCall.starts])
    · split <;> exact .call id rfl (by simp [ProviderCall.starts])
  | markingFailed id startedAt exc =>
    simp only [syncStep]
    split
    · exact .refl key s _
    · exact .updated key s _ id _ _
  | markingResult id startedAt result =>
    simp only [syncStep]
    split
    · exact .refl key s _
    · exact .refl key s _
    · rename_i t' hrecord
      obtain ⟨state, f, -, -, rfl⟩ := recordResult_ok hrecord
      exact .updated key s _ id _ f
  | returned a result => exact .refl key s _
  | raised a called e => exact .refl key s _

theorem advance_job {c : JobCall} (l : JobState) (i : StepInput)
    (hkey : c.idempotencyKey = some key) :
    Advance key s (jobStep c l s i).1 l.progress (jobStep c l s i).2.progress := by
  cases l with
  | validating =>
    simp only [jobStep]
    split <;> exact .refl key s _
  | admitting endpointId webhook upperBound =>
    simp only [jobStep]
    split
    · exact .refl key s _
    · rcases advance_launch c.gate (c.launchRequest upperBound i.env.utcNow) i.env s hkey with
        ⟨e, h⟩ | ⟨a, t', h, hadv⟩
      · rw [h]
        exact .quiet _ (fun _ h => h) rfl
      · rw [h]
        obtain ⟨id, new⟩ := a
        cases new <;> exact hadv
  | loadingReplay id =>
    simp only [jobStep]
    split <;> exact .refl key s _
  | updatingInput id endpointId webhook =>
    simp only [jobStep]
    split
    · exact .refl key s _
    · exact .updated key s _ id _ _
  | dispatching id endpointId webhook =>
    simp only [jobStep]
    split
    · exact .call id rfl (by simp [ProviderCall.starts])
    · split <;> exact .call id rfl (by simp [ProviderCall.starts])
  | markingFailed id exc =>
    simp only [jobStep]
    split
    · exact .refl key s _
    · exact .updated key s _ id _ _
  | savingJobId id jobId =>
    simp only [jobStep]
    split
    · exact .refl key s _
    · exact .updated key s _ id _ _
  | loading id =>
    simp only [jobStep]
    split <;> exact .refl key s _
  | returned a w => exact .refl key s _
  | raised a called e => exact .refl key s _

theorem advance_request (text : JsonText) {r : Request} (i : StepInput) (hr : r.Keyed key) :
    Advance key s (requestStep text r s i).1 r.progress (requestStep text r s i).2.progress := by
  cases r with
  | sync c l => exact advance_sync text l i hr
  | job c l => exact advance_job l i hr
  | restCancel id l => exact hr.elim
  | coreCancel endpointOf id l => exact hr.elim
  | reconcile id state cost completedAt => exact hr.elim
  | reconciled => exact hr.elim

theorem keyed_step (text : JsonText) {r : Request} (i : StepInput) (hr : r.Keyed key) :
    (requestStep text r s i).2.Keyed key := by
  cases r with
  | sync c l => exact hr
  | job c l => exact hr
  | restCancel id l => exact hr.elim
  | coreCancel endpointOf id l => exact hr.elim
  | reconcile id state cost completedAt => exact hr.elim
  | reconciled => exact hr.elim

theorem jobStep_returned {c : JobCall} {l : JobState} {i : StepInput} {a : BudgetAdmission}
    {w : Workload} (h : (jobStep c l s i).2 = .returned a w) :
    l = .returned a w ∨ w.id = a.workloadId := by
  cases l with
  | loadingReplay id =>
    simp only [jobStep] at h
    split at h
    · contradiction
    · contradiction
    · rename_i hfound
      cases h
      exact .inr (Workloads.byId_some hfound).2
  | loading id =>
    simp only [jobStep] at h
    split at h
    · contradiction
    · contradiction
    · rename_i hfound
      cases h
      exact .inr (Workloads.byId_some hfound).2
  | returned a' w' => exact .inl h
  | raised a' called e => contradiction
  | validating =>
    simp only [jobStep] at h
    split at h <;> contradiction
  | admitting endpointId webhook upperBound =>
    simp only [jobStep] at h
    split at h
    · contradiction
    · split at h
      · contradiction
      · split at h <;> contradiction
  | updatingInput id endpointId webhook =>
    simp only [jobStep] at h
    split at h <;> contradiction
  | dispatching id endpointId webhook =>
    simp only [jobStep] at h
    split at h
    · contradiction
    · split at h <;> contradiction
  | markingFailed id exc =>
    simp only [jobStep] at h
    split at h <;> contradiction
  | savingJobId id jobId =>
    simp only [jobStep] at h
    split at h <;> contradiction

def Request.Honest (r : Request) : Prop :=
  ∀ id, r.returnedId = some id → ∃ a, r.progress.admission = some a ∧ a.workloadId = id

theorem honest_sync (c : SyncCall) (l : SyncState) : (Request.sync c l).Honest := by
  intro id h
  cases l with
  | returned a result => exact ⟨a, rfl, Option.some.inj h⟩
  | _ => contradiction

theorem honest_job {c : JobCall} {l : JobState}
    (hl : ∀ a w, l = .returned a w → w.id = a.workloadId) : (Request.job c l).Honest := by
  intro id h
  cases l with
  | returned a w => exact ⟨a, rfl, (hl a w rfl).symm.trans (Option.some.inj h)⟩
  | _ => contradiction

theorem honest_step (text : JsonText) {r : Request} (i : StepInput) (hr : r.Honest) :
    (requestStep text r s i).2.Honest := by
  cases r with
  | sync c l => exact honest_sync c _
  | job c l =>
    refine honest_job (fun a w h => ?_)
    rcases jobStep_returned h with rfl | hid
    · obtain ⟨a', ha, hid⟩ := hr w.id rfl
      cases ha
      exact hid.symm
    · exact hid
  | restCancel id l => exact fun id h => nomatch h
  | coreCancel endpointOf id l => exact fun id h => nomatch h
  | reconcile id state cost completedAt =>
    simp only [requestStep]
    split <;> exact fun id h => nomatch h
  | reconciled => exact hr

end Steps

section Runs
variable {ι : Type}

/-- The invariant of the calls that carry `key`. `n` is how often the provider had been
called before the first of them. -/
structure OneAdmission (key : String) (n : Nat) (s : Ledger) (p : ι → Progress) : Prop where
  carried : ∀ i a, (p i).admission = some a → s.workloads.Carries key a.workloadId
  new_unique : ∀ i j a b, (p i).admission = some a → (p j).admission = some b →
    a.isNew = true → b.isNew = true → i = j
  invoked : s.invocations = n ∨
    s.invocations = n + 1 ∧ ∃ i a, p i = ⟨some a, true⟩ ∧ a.isNew = true

theorem OneAdmission.quiet {key : String} {n : Nat} {s s' : Ledger} {p : ι → Progress}
    (h : OneAdmission key n s p)
    (carries : ∀ id, s.workloads.Carries key id → s'.workloads.Carries key id)
    (invocations : s'.invocations = s.invocations) : OneAdmission key n s' p where
  carried := fun i a ha => carries _ (h.carried i a ha)
  new_unique := h.new_unique
  invoked := by rw [invocations]; exact h.invoked

theorem OneAdmission.admitted [DecidableEq ι] {key : String} {n : Nat} {s : Ledger}
    {p : ι → Progress} {i : ι}
    {a : BudgetAdmission} (h : OneAdmission key n s p) (hp : p i = ⟨none, false⟩)
    (carried : s.workloads.Carries key a.workloadId)
    (fresh : a.isNew = true → ∀ j b, (p j).admission ≠ some b) :
    OneAdmission key n s (Function.update p i ⟨some a, false⟩) where
  carried := by
    intro j b hb
    by_cases hj : j = i
    · subst hj
      rw [Function.update_self] at hb
      cases hb
      exact carried
    · rw [Function.update_of_ne hj] at hb
      exact h.carried j b hb
  new_unique := by
    intro j k b d hb hd hbnew hdnew
    by_cases hj : j = i <;> by_cases hk : k = i
    · rw [hj, hk]
    · subst hj
      rw [Function.update_self] at hb
      rw [Function.update_of_ne hk] at hd
      cases hb
      exact absurd hd (fresh hbnew k d)
    · subst hk
      rw [Function.update_self] at hd
      rw [Function.update_of_ne hj] at hb
      cases hd
      exact absurd hb (fresh hdnew j b)
    · rw [Function.update_of_ne hj] at hb
      rw [Function.update_of_ne hk] at hd
      exact h.new_unique j k b d hb hd hbnew hdnew
  invoked := by
    rcases h.invoked with hn | ⟨hn, j, b, hj, hbnew⟩
    · exact .inl hn
    · have hne : j ≠ i := by
        rintro rfl
        simp [hp] at hj
      refine .inr ⟨hn, j, b, ?_, hbnew⟩
      rw [Function.update_of_ne hne, hj]

theorem OneAdmission.call [DecidableEq ι] {key : String} {n : Nat} {s s' : Ledger}
    {p : ι → Progress} {i : ι}
    {id : String} (h : OneAdmission key n s p) (hp : p i = ⟨some ⟨id, true⟩, false⟩)
    (workloads : s'.workloads = s.workloads) (invocations : s'.invocations = s.invocations + 1) :
    OneAdmission key n s' (Function.update p i ⟨some ⟨id, true⟩, true⟩) := by
  have hsame : ∀ j, (Function.update p i ⟨some ⟨id, true⟩, true⟩ j).admission =
      (p j).admission := by
    intro j
    by_cases hj : j = i
    · subst hj
      rw [Function.update_self, hp]
    · rw [Function.update_of_ne hj]
  refine ⟨?_, ?_, ?_⟩
  · intro j a ha
    rw [hsame] at ha
    rw [workloads]
    exact h.carried j a ha
  · intro j k a b ha hb
    rw [hsame] at ha hb
    exact h.new_unique j k a b ha hb
  · -- The earlier invocation would be by the same call, which has not made one yet.
    have hn : s.invocations = n := by
      rcases h.invoked with hn | ⟨-, j, b, hj, hbnew⟩
      · exact hn
      · have hji : j = i :=
          h.new_unique j i b ⟨id, true⟩ (by rw [hj]) (by rw [hp]) hbnew rfl
        rw [hji, hp] at hj
        simp at hj
    exact .inr ⟨by rw [invocations, hn], i, ⟨id, true⟩, Function.update_self .., rfl⟩

theorem OneAdmission.advance [DecidableEq ι] {key : String} {n : Nat} {s s' : Ledger}
    {p : ι → Progress}
    {i : ι} {q : Progress} (h : OneAdmission key n s p) (hadv : Advance key s s' (p i) q) :
    OneAdmission key n s' (Function.update p i q) := by
  generalize hp : p i = pi at hadv
  cases hadv with
  | quiet _ carries invocations =>
    rw [← hp, Function.update_eq_self]
    exact h.quiet carries invocations
  | admitted a carries carried fresh invocations =>
    refine (h.quiet carries invocations).admitted hp carried (fun hnew j b hb => ?_)
    exact fresh hnew _ (h.carried j b hb)
  | call id workloads invocations => exact h.call hp workloads invocations

structure KeyedCalls (key : String) (n : Nat) (c : Config Ledger ι Request) : Prop where
  keyed : ∀ i, (c.procs i).Keyed key
  honest : ∀ i, (c.procs i).Honest
  one : OneAdmission key n c.shared (fun i => (c.procs i).progress)

theorem keyedCalls_submitted {key : String} {s : Ledger} {requests : ι → Request}
    (h : ∀ i, (requests i).Submits key) : KeyedCalls key s.invocations ⟨s, requests⟩ := by
  have hfresh : ∀ i, (requests i).Keyed key ∧ (requests i).Honest ∧
      (requests i).progress = ⟨none, false⟩ := by
    intro i
    have hi := h i
    cases hr : requests i with
    | sync c l =>
      rw [hr] at hi
      cases l with
      | quoting => exact ⟨hi, honest_sync c _, rfl⟩
      | _ => exact hi.elim
    | job c l =>
      rw [hr] at hi
      cases l with
      | validating => exact ⟨hi, honest_job (fun _ _ h => nomatch h), rfl⟩
      | _ => exact hi.elim
    | _ => rw [hr] at hi; exact hi.elim
  refine ⟨fun i => (hfresh i).1, fun i => (hfresh i).2.1, ⟨?_, ?_, .inl rfl⟩⟩
  · intro i a ha
    rw [(hfresh i).2.2] at ha
    contradiction
  · intro i j a b ha
    rw [(hfresh i).2.2] at ha
    contradiction

variable [DecidableEq ι]

theorem progress_systemStep (text : JsonText) (c : Config Ledger ι Request)
    (e : ι × StepInput) :
    (fun i => ((systemStep text c e).procs i).progress) =
      Function.update (fun i => (c.procs i).progress) e.1
        (requestStep text (c.procs e.1) c.shared e.2).2.progress := by
  funext i
  by_cases hi : i = e.1
  · rw [hi, Function.update_self]
    exact congrArg Request.progress (Config.next_procs_self _ c e)
  · rw [Function.update_of_ne hi]
    exact congrArg Request.progress (Config.next_procs_of_ne _ c hi)

theorem KeyedCalls.step (text : JsonText) {key : String} {n : Nat}
    {c : Config Ledger ι Request} (e : ι × StepInput) (h : KeyedCalls key n c) :
    KeyedCalls key n (systemStep text c e) where
  keyed := Config.forall_procs_next h.keyed (keyed_step text e.2 (h.keyed e.1))
  honest := Config.forall_procs_next h.honest (honest_step text e.2 (h.honest e.1))
  one := by
    rw [progress_systemStep]
    exact h.one.advance (advance_request text e.2 (h.keyed e.1))

/-- However the calls that carry one key are interleaved, one row carries it, one call
is told that it is new, every call that returns names the same workload, and the
provider is invoked once. -/
theorem idempotent_admission (text : JsonText) (key : String) (s : Ledger)
    (requests : ι → Request) (h : ∀ i, (requests i).Submits key)
    (events : List (ι × StepInput)) :
    let c := run (systemStep text) ⟨s, requests⟩ events
    c.shared.workloads.rows.countP (fun w => w.idempotencyKey = some key) ≤ 1 ∧
    (∀ i j a b, (c.procs i).progress.admission = some a →
      (c.procs j).progress.admission = some b → a.isNew = true → b.isNew = true → i = j) ∧
    (∀ i j a b, (c.procs i).returnedId = some a → (c.procs j).returnedId = some b → a = b) ∧
    c.shared.invocations ≤ s.invocations + 1 := by
  intro c
  have hc : KeyedCalls key s.invocations c :=
    run_preserves (fun _ e h => h.step text e) (keyedCalls_submitted h) events
  refine ⟨?_, hc.one.new_unique, ?_, ?_⟩
  · refine c.shared.workloads.countP_le_one (k := .key key) (fun w hw => ?_)
    exact Workloads.mem_uniq_key (by simpa using hw)
  · intro i j a b ha hb
    obtain ⟨x, hx, rfl⟩ := hc.honest i a ha
    obtain ⟨y, hy, rfl⟩ := hc.honest j b hb
    exact (hc.one.carried i x hx).unique (hc.one.carried j y hy)
  · rcases hc.one.invoked with hn | ⟨hn, -⟩ <;> omega

end Runs

def twinCalls : Bool → Request
  | true => .sync ⟨tenDollarGate, "cap", "prov", .ok (.finite 1), .null,
      some "k", none, some 16, []⟩ .quoting
  | false => .job ⟨tenDollarGate, "cap", "prov", some "endpoint",
      .ok (.finite 1), .null, some "k", none⟩ .validating

def nullText : JsonText where
  bytes := fun _ => 15
  sha256 := fun _ => "74234e98afe7498fb5daf1f36ac2d78acc339464f950703b8c019892f982b90b"
  str := fun _ => "None"

def twinInput : StepInput := ⟨⟨.utc, 0, 0, "wkl_1"⟩, none, .ok .null, .ok "job"⟩

def twinEvents : List (Bool × StepInput) :=
  [(true, twinInput), (false, twinInput), (true, twinInput), (true, twinInput),
    (false, twinInput), (true, twinInput), (true, twinInput), (false, twinInput),
    (true, twinInput)]

/-- Both calls return, with one workload and one invocation between them. -/
theorem idempotent_admission_twins :
    ((run (systemStep nullText) ⟨⟨Table.empty, Table.empty, []⟩, twinCalls⟩
      twinEvents).procs true).returnedId = some "wkl_1" ∧
    ((run (systemStep nullText) ⟨⟨Table.empty, Table.empty, []⟩, twinCalls⟩
      twinEvents).procs false).returnedId = some "wkl_1" ∧
    (run (systemStep nullText) ⟨⟨Table.empty, Table.empty, []⟩, twinCalls⟩
      twinEvents).shared.invocations ≤ 1 :=
  ⟨by decide +kernel, by decide +kernel,
    (idempotent_admission nullText "k" ⟨Table.empty, Table.empty, []⟩ twinCalls
      (fun i => by cases i <;> rfl) twinEvents).2.2.2⟩

end Pitwall
