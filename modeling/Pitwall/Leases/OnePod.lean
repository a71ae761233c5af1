import Pitwall.Leases.Reservation
set_option autoImplicit false

/-!
Launches under one idempotency key. The admission tells a replay from a new row, but
`try_launch` hands on only the workload id, so a replayed launch goes on like a new one.
-/

namespace Pitwall
open Machine

/-- The pods that can be alive while a sole launch stands at `l`. -/
def Holds (l : LaunchState) (pods : List String) : Prop :=
  match l with
  | .planning _ | .provisioning _ | .coolingDown _ _ | .fallback _ _ => pods = []
  | .persisting _ podId _ | .waiting _ podId => pods = [podId]
  | _ => pods.length ≤ 1

theorem length_of_holds {l : LaunchState} {pods : List String} (h : Holds l pods) :
    pods.length ≤ 1 := by
  cases l <;> simp only [Holds] at h <;> simp [h]

theorem holds_afterPodError (workloadId : String) (err : PodError) :
    Holds (afterPodError workloadId err) [] := by
  cases err <;> simp [afterPodError, Holds]

/-- The leases after a step of launch `c`: as many as before, or one more, the launch's own. -/
def LeaseGrowth (c : LaunchCall) (t t' : Leases) : Prop :=
  (∀ id, (t.get id).isSome = true → (t'.get id).isSome = true) ∧
    (t'.rows.length = t.rows.length ∨
      (t'.rows.length = t.rows.length + 1 ∧ t.get c.leaseId = none ∧
        (t'.get c.leaseId).isSome = true))

theorem LeaseGrowth.refl (c : LaunchCall) (t : Leases) : LeaseGrowth c t t :=
  ⟨fun _ h => h, .inl rfl⟩

theorem leaseGrowth_modify {c : LaunchCall} {t t' : Leases} {id : String}
    {f : Lease → Except PyError Lease} {updated : Option Lease}
    (hf : ∀ l l', f l = .ok l' → l'.id = l.id) (h : t.modify id f = .ok (updated, t')) :
    LeaseGrowth c t t' :=
  ⟨fun _ hk => Leases.isSome_of_modify hf h hk, .inl (Leases.length_of_modify h)⟩

theorem leaseGrowth_upsert {c : LaunchCall} {t : Leases} {l : Lease} (hid : l.id = c.leaseId) :
    LeaseGrowth c t (t.upsert l) := by
  refine ⟨fun id h => ?_, ?_⟩
  · rw [Keyed.get_upsert]
    split
    · rfl
    · exact h
  · rw [Keyed.length_upsert, hid, Keyed.get_upsert, hid]
    cases h : t.get c.leaseId with
    | some row => simp
    | none => simp

def LaunchState.isWaiting : LaunchState → Bool
  | .waiting _ _ => true
  | _ => false

def LaunchState.beforePod : LaunchState → Bool
  | .planning _ | .provisioning _ => true
  | _ => false

def LaunchState.isProvisioning : LaunchState → Bool
  | .provisioning _ => true
  | _ => false

def PodWait.isRetried : PodWait → Bool
  | .retried => true
  | _ => false

def PodEvent.isDiscarded : PodEvent → Bool
  | .discarded _ none => true
  | _ => false

theorem beforePod_afterPodError (workloadId : String) (err : PodError) :
    (afterPodError workloadId err).beforePod = false := by
  cases err <;> rfl

section Step
variable (c : LaunchCall) {l : LaunchState} {s : Fleet} (i : LaunchInput)

theorem persistStep_spec {r : ReadyLaunch} {next : LaunchState} {fault : Option PyError}
    {id : String} {f : Lease → Except PyError Lease}
    (hf : ∀ l l', f l = .ok l' → l'.id = l.id) (hpods : s.pods.length ≤ 1)
    (hnext : ∀ pods : List String, pods.length ≤ 1 → Holds next pods) :
    Holds (persistStep r next s fault (s.store.leases.modify id f)).2
        (persistStep r next s fault (s.store.leases.modify id f)).1.pods ∧
      LeaseGrowth c s.store.leases
        (persistStep r next s fault (s.store.leases.modify id f)).1.store.leases := by
  unfold persistStep
  split
  · exact ⟨hpods, .refl c _⟩
  · exact ⟨hpods, .refl c _⟩
  · rename_i hmodify
    exact ⟨hnext _ hpods, leaseGrowth_modify hf hmodify⟩

theorem launchStep_holds {id : String} (hl : l.workloadId = some id) (h : Holds l s.pods) :
    Holds (launchStep c l s i).2 (launchStep c l s i).1.pods ∧
      LeaseGrowth c s.store.leases (launchStep c l s i).1.store.leases := by
  cases l with
  | admitting => contradiction
  | planning id =>
    simp only [Holds] at h
    simp only [launchStep]
    split
    · exact ⟨by simp [Holds, h], .refl c _⟩
    · exact ⟨by simp [Holds, h], .refl c _⟩
    · exact ⟨h, .refl c _⟩
  | provisioning p =>
    simp only [Holds] at h
    simp only [launchStep]
    split
    · exact ⟨by simp [Holds, Fleet.addPod, h], .refl c _⟩
    · exact ⟨by simp [Holds, Fleet.addPod, Fleet.deletePod, h], .refl c _⟩
    · exact ⟨by simp [Holds, Fleet.addPod, Fleet.deletePod, h], .refl c _⟩
    · exact ⟨by simp [Holds, Fleet.addPod, h], .refl c _⟩
    · rw [h]
      exact ⟨holds_afterPodError _ _, .refl c _⟩
  | persisting p podId bodyId =>
    simp only [Holds] at h
    simp only [launchStep]
    split
    · exact ⟨h, .refl c _⟩
    · split
      · exact ⟨by simp [Holds, Fleet.deletePod, h], .refl c _⟩
      · exact ⟨by simp [Holds, Fleet.deletePod, h], .refl c _⟩
      · rename_i hlease
        exact ⟨h, leaseGrowth_upsert (LaunchCall.initialLease_ok hlease).1⟩
  | waiting p podId =>
    simp only [Holds] at h
    simp only [launchStep]
    split
    · split
      · exact ⟨by simp [Holds, h], .refl c _⟩
      · exact ⟨by simp [Holds, h], .refl c _⟩
    · exact ⟨by simp [Holds, Fleet.deletePod, h], .refl c _⟩
    · refine ⟨?_, .refl c _⟩
      simp only [Fleet.deletePod, h]
      simpa using holds_afterPodError _ _
  | coolingDown id reason =>
    simp only [Holds] at h
    simp only [launchStep]
    split
    · exact ⟨by simp [Holds, h], .refl c _⟩
    · exact ⟨h, .refl c _⟩
  | markingRuntime r =>
    exact persistStep_spec c (fun _ _ hf => (Lease.withState_ok hf).1) h (fun _ hp => hp)
  | markingProbe r =>
    exact persistStep_spec c (fun _ _ hf => (Lease.withState_ok hf).1) h (fun _ hp => hp)
  | savingReadiness r =>
    exact persistStep_spec c (fun _ _ hf => (Lease.withReadiness_ok hf).1) h (fun _ hp => hp)
  | markingActive r =>
    exact persistStep_spec c (fun _ _ hf => (Lease.withState_ok hf).1) h (fun _ hp => hp)
  | returned id podId => exact ⟨h, .refl c _⟩
  | fallback id reason => exact ⟨h, .refl c _⟩
  | raised id err => exact ⟨h, .refl c _⟩

theorem persistStep_created {r : ReadyLaunch} {next : LaunchState} {fault : Option PyError}
    {statement : Except PyError (Option Lease × Leases)} (hnext : next.beforePod = false) :
    (persistStep r next s fault statement).1.created = s.created ∧
      (persistStep r next s fault statement).2.beforePod = false := by
  unfold persistStep
  split
  · exact ⟨rfl, rfl⟩
  · exact ⟨rfl, rfl⟩
  · exact ⟨rfl, hnext⟩

theorem launchStep_created {id : String} (hl : l.workloadId = some id)
    (hkept : l.isWaiting = true → i.wait.isRetried = false)
    (hguards : l.isProvisioning = true → i.pod.isDiscarded = false) :
    (l.beforePod = true ∧ (launchStep c l s i).1.created.length ≤ s.created.length + 1 ∧
      ((launchStep c l s i).2.beforePod = true →
        (launchStep c l s i).1.created = s.created)) ∨
    ((launchStep c l s i).1.created = s.created ∧
      (launchStep c l s i).2.beforePod = false) := by
  cases l with
  | admitting => contradiction
  | planning id =>
    refine .inl ⟨rfl, ?_, fun _ => ?_⟩
    · simp only [launchStep]
      split <;> simp
    · simp only [launchStep]
      split <;> rfl
  | provisioning p =>
    have hpod := hguards rfl
    simp only [launchStep]
    split
    · exact .inl ⟨rfl, by simp [Fleet.addPod], by simp [LaunchState.beforePod]⟩
    · rename_i hdiscarded
      simp [hdiscarded, PodEvent.isDiscarded] at hpod
    · exact .inl ⟨rfl, by simp [Fleet.addPod, Fleet.deletePod], by simp [LaunchState.beforePod]⟩
    · exact .inl ⟨rfl, by simp [Fleet.addPod], by simp [LaunchState.beforePod]⟩
    · exact .inr ⟨rfl, beforePod_afterPodError _ _⟩
  | persisting p podId bodyId =>
    simp only [launchStep]
    split
    · exact .inr ⟨rfl, rfl⟩
    · split <;> exact .inr ⟨rfl, rfl⟩
  | waiting p podId =>
    have hwait := hkept rfl
    simp only [launchStep]
    split
    · split <;> exact .inr ⟨rfl, rfl⟩
    · rename_i hretried
      simp [hretried, PodWait.isRetried] at hwait
    · exact .inr ⟨rfl, beforePod_afterPodError _ _⟩
  | coolingDown id reason =>
    simp only [launchStep]
    split <;> exact .inr ⟨rfl, rfl⟩
  | markingRuntime r => exact .inr (persistStep_created rfl)
  | markingProbe r => exact .inr (persistStep_created rfl)
  | savingReadiness r => exact .inr (persistStep_created rfl)
  | markingActive r => exact .inr (persistStep_created rfl)
  | returned id podId => exact .inr ⟨rfl, rfl⟩
  | fallback id reason => exact .inr ⟨rfl, rfl⟩
  | raised id err => exact .inr ⟨rfl, rfl⟩

end Step

def LaunchState.isAdmitting : LaunchState → Bool
  | .admitting => true
  | _ => false

section Runs
variable {ι : Type} (calls : ι → LaunchCall) (key : String)

def launchesStep [DecidableEq ι] (c : Config Fleet ι LaunchState) (e : ι × LaunchInput) :
    Config Fleet ι LaunchState :=
  c.next (fun i => launchStep (calls i)) e

/-- A step of admission finds no row with the key: it does not replay one. -/
def NotReplayed (c : Config Fleet ι LaunchState) (e : ι × LaunchInput) : Prop :=
  (c.procs e.1).isAdmitting = true → c.shared.workloads.byKey key = none

/-- At most one launch has been admitted, and it accounts for every pod and new lease. -/
structure SoleLaunch (n : Nat) (c : Config Fleet ι LaunchState) : Prop where
  sole : ∀ i j, (c.procs i).workloadId.isSome = true → (c.procs j).workloadId.isSome = true →
    i = j
  carried : ∀ i, (c.procs i).workloadId.isSome = true →
    ∃ id, c.shared.workloads.Carries key id
  holds : ∀ i, (c.procs i).workloadId.isSome = true → Holds (c.procs i) c.shared.pods
  leases : c.shared.store.leases.rows.length = n ∨
    (c.shared.store.leases.rows.length = n + 1 ∧ ∃ i, (c.procs i).workloadId.isSome = true ∧
      (c.shared.store.leases.get (calls i).leaseId).isSome = true)
  idle : (∀ i, (c.procs i).workloadId = none) →
    c.shared.pods = [] ∧ c.shared.store.leases.rows.length = n

/-- Neither a readiness wait nor a guard sends the launch back to create another pod in place of
the one it deletes. -/
def KeepsPod (c : Config Fleet ι LaunchState) (e : ι × LaunchInput) : Prop :=
  ((c.procs e.1).isWaiting = true → e.2.wait.isRetried = false) ∧
    ((c.procs e.1).isProvisioning = true → e.2.pod.isDiscarded = false)

/-- No pod has been created while a launch is about to create one, and at most one at all. -/
structure FirstPod (n : Nat) (c : Config Fleet ι LaunchState) : Prop where
  bound : c.shared.created.length ≤ n + 1
  idle : (∀ i, (c.procs i).workloadId = none) → c.shared.created.length = n
  before : ∀ i, (c.procs i).beforePod = true → c.shared.created.length = n

theorem workloadId_of_beforePod {l : LaunchState} (h : l.beforePod = true) :
    l.workloadId.isSome = true := by
  cases l <;> simp [LaunchState.beforePod, LaunchState.workloadId] at h ⊢

variable {calls key} {n : Nat} {c : Config Fleet ι LaunchState} {e : ι × LaunchInput}

theorem SoleLaunch.nobody (h : SoleLaunch calls key n c)
    (habsent : c.shared.workloads.byKey key = none) (i : ι) : (c.procs i).workloadId = none := by
  cases hid : (c.procs i).workloadId with
  | none => rfl
  | some id =>
    obtain ⟨w, hw⟩ := h.carried i (by simp [hid])
    exact absurd hw (Workloads.byKey_none habsent)

theorem soleLaunch_pods (h : SoleLaunch calls key n c) : c.shared.pods.length ≤ 1 := by
  by_cases hsome : ∃ i, (c.procs i).workloadId.isSome = true
  · obtain ⟨i, hi⟩ := hsome
    exact length_of_holds (h.holds i hi)
  · have hnobody : ∀ i, (c.procs i).workloadId = none := by
      intro i
      cases hid : (c.procs i).workloadId with
      | none => rfl
      | some id => exact absurd ⟨i, by simp [hid]⟩ hsome
    simp [(h.idle hnobody).1]

theorem soleLaunch_start (s : Fleet) (hpods : s.pods = []) :
    SoleLaunch calls key s.store.leases.rows.length
      (⟨s, fun _ => .admitting⟩ : Config Fleet ι LaunchState) :=
  ⟨by simp [LaunchState.workloadId], by simp [LaunchState.workloadId],
    by simp [LaunchState.workloadId], .inl rfl, fun _ => ⟨hpods, rfl⟩⟩

variable [DecidableEq ι]

theorem SoleLaunch.unadmitted (h : SoleLaunch calls key n c)
    (hnobody : ∀ i, (c.procs i).workloadId = none) {l : LaunchState} (hl : l.workloadId = none) :
    SoleLaunch calls key n ⟨c.shared, Function.update c.procs e.1 l⟩ := by
  have hafter : ∀ i, (Function.update c.procs e.1 l i).workloadId = none := by
    intro i
    by_cases hi : i = e.1
    · rw [hi, Function.update_self, hl]
    · rw [Function.update_of_ne hi]
      exact hnobody i
  refine ⟨?_, ?_, ?_, .inl (h.idle hnobody).2, fun _ => h.idle hnobody⟩
  · intro i j hi
    simp [hafter i] at hi
  · intro i hi
    simp [hafter i] at hi
  · intro i hi
    simp [hafter i] at hi

theorem SoleLaunch.first (h : SoleLaunch calls key n c)
    (hnobody : ∀ i, (c.procs i).workloadId = none) {t : Workloads} {workloadId id : String}
    (hcarries : t.Carries key id) :
    SoleLaunch calls key n ⟨{ c.shared with workloads := t },
      Function.update c.procs e.1 (.planning workloadId)⟩ := by
  have hother : ∀ i, i ≠ e.1 →
      (Function.update c.procs e.1 (LaunchState.planning workloadId) i).workloadId = none := by
    intro i hi
    rw [Function.update_of_ne hi]
    exact hnobody i
  have honly : ∀ i, (Function.update c.procs e.1 (LaunchState.planning workloadId)
      i).workloadId.isSome = true → i = e.1 := by
    intro i hi
    by_contra hne
    simp [hother i hne] at hi
  refine ⟨fun i j hi hj => (honly i hi).trans (honly j hj).symm, fun _ _ => ⟨id, hcarries⟩, ?_,
    .inl (h.idle hnobody).2, fun _ => h.idle hnobody⟩
  intro i hi
  have hself : Function.update c.procs e.1 (LaunchState.planning workloadId) i =
      .planning workloadId := by rw [honly i hi, Function.update_self]
  simp only [hself]
  exact (h.idle hnobody).1

theorem SoleLaunch.later (h : SoleLaunch calls key n c) {id : String}
    (hid : (c.procs e.1).workloadId = some id) :
    SoleLaunch calls key n (launchesStep calls c e) := by
  have hadmitted : (c.procs e.1).workloadId.isSome = true := by simp [hid]
  obtain ⟨hworkloads, hid'⟩ := launchStep_admitted (calls e.1) c.shared e.2 hid
  obtain ⟨hholds, hkept, hgrowth⟩ := launchStep_holds (calls e.1) e.2 hid (h.holds e.1 hadmitted)
  have hself : (launchesStep calls c e).procs e.1 =
      (launchStep (calls e.1) (c.procs e.1) c.shared e.2).2 := Config.next_procs_self _ c e
  have honly : ∀ i, ((launchesStep calls c e).procs i).workloadId.isSome = true → i = e.1 := by
    intro i hi
    by_contra hne
    rw [launchesStep, Config.next_procs_of_ne _ c hne] at hi
    exact hne (h.sole i e.1 hi hadmitted)
  have hstill : ((launchesStep calls c e).procs e.1).workloadId.isSome = true := by
    rw [hself, hid']
    rfl
  refine ⟨fun i j hi hj => (honly i hi).trans (honly j hj).symm, ?_, ?_, ?_, ?_⟩
  · intro i _
    simp only [launchesStep, Config.next_shared, hworkloads]
    exact h.carried e.1 hadmitted
  · intro i hi
    rw [honly i hi, hself]
    exact hholds
  · have hsome : (c.shared.store.leases.get (calls e.1).leaseId).isSome = true →
        ((launchesStep calls c e).shared.store.leases.get (calls e.1).leaseId).isSome = true :=
      hkept _
    rcases h.leases with hn | ⟨hn, j, hj, hrow⟩
    · rcases hgrowth with hsame | ⟨hgrown, -, hrow⟩
      · exact .inl (hsame.trans hn)
      · exact .inr ⟨by rw [← hn]; exact hgrown, e.1, hstill, hrow⟩
    · rw [h.sole j e.1 hj hadmitted] at hrow
      rcases hgrowth with hsame | ⟨-, hnone, -⟩
      · exact .inr ⟨hsame.trans hn, e.1, hstill, hsome hrow⟩
      · simp [hnone] at hrow
  · intro hnobody
    rw [hnobody e.1] at hstill
    contradiction

theorem launchesStep_raised {id : Option String} {err : LaunchError}
    (h : c.procs e.1 = .raised id err) : launchesStep calls c e = c := by
  have hupdate : Function.update c.procs e.1 (.raised id err) = c.procs := by
    rw [← h, Function.update_eq_self]
  simp [launchesStep, Config.next, h, launchStep, hupdate]

theorem soleLaunch_step (hkey : ∀ i, (calls i).idempotencyKey = some key)
    (h : SoleLaunch calls key n c) (hfresh : NotReplayed key c e) :
    SoleLaunch calls key n (launchesStep calls c e) := by
  cases hid : (c.procs e.1).workloadId with
  | some id => exact h.later hid
  | none =>
    cases hl : c.procs e.1 with
    | admitting =>
      have habsent := hfresh (by rw [hl]; rfl)
      have hnobody := h.nobody habsent
      simp only [launchesStep, Config.next, hl]
      rcases launchStep_admitting (calls e.1) c.shared e.2 with ⟨err, hstep⟩ |
        ⟨k, w, hstep, hk, hw⟩ | ⟨t, req, cost, hstep, hrows, hreq, -⟩
      · rw [hstep]
        exact h.unadmitted hnobody rfl
      · rw [hkey e.1] at hk
        cases hk
        simp [habsent] at hw
      · rw [hstep]
        have hcarries : t.Carries key e.2.env.newWorkloadId :=
          ⟨queuedWorkload req e.2.env cost, by simp [hrows], hreq.trans (hkey e.1), rfl⟩
        exact h.first hnobody hcarries
    | raised id' err =>
      rw [launchesStep_raised hl]
      exact h
    | _ => simp [hl, LaunchState.workloadId] at hid

theorem firstPod_step {m : Nat} (h : SoleLaunch calls key n c) (hm : FirstPod m c)
    (hfresh : NotReplayed key c e) (hkept : KeepsPod c e) :
    FirstPod m (launchesStep calls c e) := by
  cases hid : (c.procs e.1).workloadId with
  | some id =>
    have hadmitted : (c.procs e.1).workloadId.isSome = true := by simp [hid]
    have hself : (launchesStep calls c e).procs e.1 =
        (launchStep (calls e.1) (c.procs e.1) c.shared e.2).2 := Config.next_procs_self _ c e
    have hbusy : ¬ ∀ i, ((launchesStep calls c e).procs i).workloadId = none := by
      intro hnobody
      have hnone := hnobody e.1
      rw [hself, (launchStep_admitted (calls e.1) c.shared e.2 hid).2] at hnone
      contradiction
    -- Only the launch that moved can be about to create a pod.
    have honly : ∀ i, ((launchesStep calls c e).procs i).beforePod = true → i = e.1 := by
      intro i hi
      by_contra hne
      rw [launchesStep, Config.next_procs_of_ne _ c hne] at hi
      exact hne (h.sole i e.1 (workloadId_of_beforePod hi) hadmitted)
    rcases launchStep_created (calls e.1) (s := c.shared) e.2 hid hkept.1 hkept.2 with
      ⟨hbefore, hbound, hstill⟩ | ⟨hsame, hafter⟩
    · have hcount := hm.before e.1 hbefore
      refine ⟨by rw [← hcount]; exact hbound, fun hnobody => absurd hnobody hbusy, ?_⟩
      intro i hi
      rw [honly i hi, hself] at hi
      rw [← hcount, ← hstill hi]
      rfl
    · refine ⟨by rw [launchesStep, Config.next_shared, hsame]; exact hm.bound,
        fun hnobody => absurd hnobody hbusy, ?_⟩
      intro i hi
      rw [honly i hi, hself, hafter] at hi
      contradiction
  | none =>
    cases hl : c.procs e.1 with
    | admitting =>
      have hnobody := h.nobody (hfresh (by rw [hl]; rfl))
      have hsame : (launchesStep calls c e).shared.created = c.shared.created := by
        simp only [launchesStep, Config.next_shared, hl]
        rcases launchStep_admitting (calls e.1) c.shared e.2 with ⟨err, hstep⟩ |
          ⟨_, w, hstep, -⟩ | ⟨t, req, cost, hstep, -⟩
        · rw [hstep]
        · rw [hstep]
        · rw [hstep]
      have hcount : (launchesStep calls c e).shared.created.length = m := by
        rw [hsame]
        exact hm.idle hnobody
      exact ⟨by omega, fun _ => hcount, fun _ _ => hcount⟩
    | raised id' err =>
      rw [launchesStep_raised hl]
      exact hm
    | _ => simp [hl, LaunchState.workloadId] at hid

/-- In a run in which no admission replays the key, the launches that carry it have at most one
pod alive and one lease between them at every moment, also where the creation loop goes on. -/
theorem one_live_pod (hkey : ∀ i, (calls i).idempotencyKey = some key) (s : Fleet)
    (hpods : s.pods = []) {events : List (ι × LaunchInput)}
    (hrun : Along (launchesStep calls) (NotReplayed key) ⟨s, fun _ => .admitting⟩ events) :
    (run (launchesStep calls) ⟨s, fun _ => .admitting⟩ events).shared.pods.length ≤ 1 ∧
      (run (launchesStep calls) ⟨s, fun _ => .admitting⟩
        events).shared.store.leases.rows.length ≤ s.store.leases.rows.length + 1 := by
  have hend : SoleLaunch calls key s.store.leases.rows.length
      (run (launchesStep calls) ⟨s, fun _ => .admitting⟩ events) :=
    run_invariant (fun _ _ h hp => soleLaunch_step hkey h hp) (soleLaunch_start s hpods) hrun
  refine ⟨soleLaunch_pods hend, ?_⟩
  rcases hend.leases with hn | ⟨hn, -⟩ <;> omega

/-- In a run in which no admission replays the key and no pod is given up for another one, the
launches that carry the key create at most one pod and one lease between them. -/
theorem one_pod_per_key (calls : ι → LaunchCall) (key : String)
    (hkey : ∀ i, (calls i).idempotencyKey = some key) (s : Fleet) (hpods : s.pods = [])
    (events : List (ι × LaunchInput))
    (hrun : Along (launchesStep calls) (fun c e => NotReplayed key c e ∧ KeepsPod c e)
      ⟨s, fun _ => .admitting⟩ events) :
    ∀ es, es <+: events →
      (run (launchesStep calls) ⟨s, fun _ => .admitting⟩ es).shared.pods.length ≤ 1 ∧
      (run (launchesStep calls) ⟨s, fun _ => .admitting⟩ es).shared.created.length ≤
        s.created.length + 1 ∧
      (run (launchesStep calls) ⟨s, fun _ => .admitting⟩ es).shared.store.leases.rows.length ≤
        s.store.leases.rows.length + 1 ∧
      (run (launchesStep calls) ⟨s, fun _ => .admitting⟩ es).shared.workloads.rows.countP
        (fun w => w.idempotencyKey = some key) ≤ 1 := by
  intro es hes
  have hprefix := hrun.of_prefix hes
  obtain ⟨hlive, hleases⟩ := one_live_pod hkey s hpods
    (along_of_invariant (I := fun _ => True) (fun _ _ _ h => ⟨trivial, h.1⟩) trivial hprefix)
  refine ⟨hlive, ?_, hleases, ?_⟩
  · have hfirst : FirstPod s.created.length
        (⟨s, fun _ => .admitting⟩ : Config Fleet ι LaunchState) :=
      ⟨by simp, fun _ => rfl, by simp [LaunchState.beforePod]⟩
    have hboth := run_invariant
      (I := fun c => SoleLaunch calls key s.store.leases.rows.length c ∧
        FirstPod s.created.length c)
      (fun _ _ h hp => ⟨soleLaunch_step hkey h.1 hp.1, firstPod_step h.1 h.2 hp.1 hp.2⟩)
      ⟨soleLaunch_start s hpods, hfirst⟩ hprefix
    exact hboth.2.bound
  · refine Table.countP_le_one _ (k := .key key) (fun w hw => ?_)
    exact Workloads.mem_uniq_key (by simpa using hw)

end Runs

def smoothInput (workloadId podId : String) : LaunchInput where
  env := ⟨.utc, 0, 0, workloadId⟩
  fault := none
  plan := .ok ()
  pod := .created podId (some podId)
  wait := .ready (some podId) (some (.ok ⟨some 0, some 0, some 0, none⟩))

def launchAndRetry : Bool → LaunchCall
  | true => oneDollarLaunch (some "k") "lease_1"
  | false => oneDollarLaunch (some "k") "lease_2"

def launchEvents : List (Bool × LaunchInput) :=
  List.replicate 9 (true, smoothInput "wkl_1" "pod_1")

def retryEvents : List (Bool × LaunchInput) :=
  List.replicate 9 (false, smoothInput "wkl_2" "pod_2")

def failedThenLaunched : List (Bool × LaunchInput) :=
  (false, { smoothInput "wkl_2" "pod_2" with fault := some ⟨"TimeoutError", ""⟩ }) :: launchEvents

theorem one_pod_per_key_launched :
    (run (launchesStep launchAndRetry) ⟨emptyFleet, fun _ => .admitting⟩
      failedThenLaunched).shared.created = ["pod_1"] ∧
    (run (launchesStep launchAndRetry) ⟨emptyFleet, fun _ => .admitting⟩
      failedThenLaunched).shared.created.length ≤ 1 := by
  refine ⟨by decide +kernel, ?_⟩
  refine (one_pod_per_key launchAndRetry "k" (by decide) emptyFleet rfl failedThenLaunched ?_
    failedThenLaunched (List.prefix_refl _)).2.1
  unfold NotReplayed KeepsPod
  decide +kernel

/-- The retry of a launch creates a second pod and a second lease under one workload. -/
theorem retry_creates_second_pod :
    ¬ ∀ (calls : Bool → LaunchCall) (key : String),
      (∀ i, (calls i).idempotencyKey = some key) → ∀ events : List (Bool × LaunchInput),
      (run (launchesStep calls) ⟨emptyFleet, fun _ => .admitting⟩
        events).shared.created.length ≤ 1 ∧
      (run (launchesStep calls) ⟨emptyFleet, fun _ => .admitting⟩
        events).shared.store.leases.rows.length ≤ 1 := by
  intro h
  have hpods := (h launchAndRetry "k" (by decide) (launchEvents ++ retryEvents)).1
  revert hpods
  decide +kernel

end Pitwall
