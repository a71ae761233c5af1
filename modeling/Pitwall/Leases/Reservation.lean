import Pitwall.Leases.Launch
set_option autoImplicit false

/-!
What becomes of the workload row that a launch was admitted under.
-/

namespace Pitwall
open Machine

section Steps
variable (c : LaunchCall) {l : LaunchState} (s : Fleet) (i : LaunchInput)

theorem persistStep_workloads (r : ReadyLaunch) (next : LaunchState) (fault : Option PyError)
    (statement : Except PyError (Option Lease × Leases)) :
    (persistStep r next s fault statement).1.workloads = s.workloads := by
  unfold persistStep
  split <;> rfl

theorem persistStep_workloadId {r : ReadyLaunch} {next : LaunchState} {fault : Option PyError}
    {statement : Except PyError (Option Lease × Leases)}
    (h : next.workloadId = some r.workloadId) :
    (persistStep r next s fault statement).2.workloadId = some r.workloadId := by
  unfold persistStep
  split
  · rfl
  · rfl
  · exact h

theorem workloadId_afterPodError (workloadId : String) (err : PodError) :
    (afterPodError workloadId err).workloadId = some workloadId := by
  cases err <;> rfl

theorem launchStep_admitted {workloadId : String} (h : l.workloadId = some workloadId) :
    (launchStep c l s i).1.workloads = s.workloads ∧
      (launchStep c l s i).2.workloadId = some workloadId := by
  cases l with
  | admitting => contradiction
  | planning id =>
    simp only [launchStep]
    split <;> exact ⟨rfl, h⟩
  | provisioning p =>
    simp only [launchStep]
    split
    · exact ⟨rfl, h⟩
    · exact ⟨rfl, h⟩
    · exact ⟨rfl, h⟩
    · exact ⟨rfl, h⟩
    · exact ⟨rfl, (workloadId_afterPodError _ _).trans h⟩
  | persisting p podId bodyId =>
    simp only [launchStep]
    split
    · exact ⟨rfl, h⟩
    · split <;> exact ⟨rfl, h⟩
  | waiting p podId =>
    simp only [launchStep]
    split
    · split <;> exact ⟨rfl, h⟩
    · exact ⟨rfl, h⟩
    · exact ⟨rfl, (workloadId_afterPodError _ _).trans h⟩
  | coolingDown id reason =>
    simp only [launchStep]
    split <;> exact ⟨rfl, h⟩
  | markingRuntime r =>
    exact ⟨persistStep_workloads s r _ _ _, (persistStep_workloadId s rfl).trans h⟩
  | markingProbe r =>
    exact ⟨persistStep_workloads s r _ _ _, (persistStep_workloadId s rfl).trans h⟩
  | savingReadiness r =>
    exact ⟨persistStep_workloads s r _ _ _, (persistStep_workloadId s rfl).trans h⟩
  | markingActive r =>
    exact ⟨persistStep_workloads s r _ _ _, (persistStep_workloadId s rfl).trans h⟩
  | returned id podId => exact ⟨rfl, h⟩
  | fallback id reason => exact ⟨rfl, h⟩
  | raised id err => exact ⟨rfl, h⟩

theorem launchStep_admitting :
    (∃ err, launchStep c .admitting s i = (s, .raised none err)) ∨
    (∃ key w, launchStep c .admitting s i = (s, .planning w.id) ∧
      c.idempotencyKey = some key ∧ s.workloads.byKey key = some w) ∨
    (∃ t req cost, launchStep c .admitting s i =
        ({ s with workloads := t }, .planning i.env.newWorkloadId) ∧
      t.rows = s.workloads.rows ++ [queuedWorkload req i.env cost] ∧
      req.idempotencyKey = c.idempotencyKey ∧
      ∀ key, c.idempotencyKey = some key → s.workloads.byKey key = none) := by
  simp only [launchStep]
  split
  · exact .inl ⟨_, rfl⟩
  · exact .inl ⟨_, rfl⟩
  · rename_i estimate _ _
    rcases c.gate.launch_cases (c.launchRequest estimate) i.env s.workloads with
      ⟨e, h⟩ | ⟨a, key, h, -, hkey, hc⟩ | ⟨t', x, cost, h, hadm⟩
    · left
      simp only [BudgetGate.tryLaunch, h, Except.map]
      exact ⟨_, rfl⟩
    · obtain ⟨w, hw, hwkey, hid⟩ := hc
      have hfound := Workloads.byKey_eq_some hw hwkey
      refine .inr (.inl ⟨key, w, ?_, hkey, hfound⟩)
      simp [BudgetGate.tryLaunch, h, Except.map, hid]
    · refine .inr (.inr ⟨t', _, cost, ?_, hadm.rows, rfl, hadm.absent⟩)
      simp [BudgetGate.tryLaunch, h, Except.map]

end Steps

/-- The workload of a launch that has ended without handing out a pod. -/
def LaunchState.failed : LaunchState → Option String
  | .fallback id _ => some id
  | .raised id _ => id
  | _ => none

theorem workloadId_of_failed {l : LaunchState} {id : String} (h : l.failed = some id) :
    l.workloadId = some id := by
  cases l with
  | fallback id' reason => exact h
  | raised id' err => exact h
  | _ => contradiction

def launchAlone (c : LaunchCall) (x : Fleet × LaunchState) (i : LaunchInput) :
    Fleet × LaunchState := launchStep c x.2 x.1 i

def Workloads.Released (t : Workloads) (start : Instant) (id : String) : Prop :=
  ∃ w ∈ t.rows, w.id = id ∧ w.state.terminal = true ∧ w.spendSince start = 0

theorem run_launchAlone_admitted (c : LaunchCall) {s : Fleet} {l : LaunchState} {id : String}
    (h : l.workloadId = some id) (events : List LaunchInput) :
    (run (launchAlone c) (s, l) events).1.workloads = s.workloads ∧
      (run (launchAlone c) (s, l) events).2.workloadId = some id := by
  refine run_preserves
    (I := fun x : Fleet × LaunchState => x.1.workloads = s.workloads ∧ x.2.workloadId = some id)
    ?_ ⟨rfl, h⟩ events
  intro x i hx
  obtain ⟨hkept, hid⟩ := launchStep_admitted c x.1 i hx.2
  exact ⟨hkept.trans hx.1, hid⟩

theorem run_launchAlone_rejected (c : LaunchCall) (s : Fleet) (err : LaunchError)
    (events : List LaunchInput) :
    (run (launchAlone c) (s, .raised none err) events).2.failed = none := by
  have hstay : run (launchAlone c) (s, .raised none err) events = (s, .raised none err) := by
    refine run_preserves (I := fun x : Fleet × LaunchState => x = (s, .raised none err)) ?_ rfl
      events
    intro x i hx
    rw [hx]
    rfl
  rw [hstay]
  rfl

/-- A failed launch has given its reservation back only if it never made one: its key
named a row that was terminal and free of charge already. -/
theorem failed_launch_released_iff (c : LaunchCall) (s : Fleet) (events : List LaunchInput)
    (start : Instant) {id : String}
    (hend : (run (launchAlone c) (s, .admitting) events).2.failed = some id) :
    (run (launchAlone c) (s, .admitting) events).1.workloads.Released start id ↔
      ∃ key w, c.idempotencyKey = some key ∧ s.workloads.byKey key = some w ∧
        w.state.terminal = true ∧ w.spendSince start = 0 := by
  cases events with
  | nil => contradiction
  | cons i events =>
    rw [run_cons] at hend ⊢
    rcases launchStep_admitting c s i with ⟨err, h⟩ | ⟨key, w, h, hkey, hw⟩ |
      ⟨t, req, cost, h, hrows, -, habsent⟩
    · have hnone := run_launchAlone_rejected c s err events
      simp only [launchAlone, h] at hend
      simp [hnone] at hend
    · have hrun := run_launchAlone_admitted c (s := s) (l := .planning w.id) rfl events
      simp only [launchAlone, h] at hend hrun ⊢
      have hid : id = w.id := by
        have hfinal := workloadId_of_failed hend
        rw [hrun.2] at hfinal
        exact (Option.some.inj hfinal).symm
      have hmem := Table.find_some hw
      rw [hrun.1, hid]
      constructor
      · rintro ⟨v, hv, hvid, hterminal, hfree⟩
        obtain rfl := s.workloads.eq_of_id hv hmem.1 hvid
        exact ⟨key, v, hkey, hw, hterminal, hfree⟩
      · rintro ⟨key', w', hkey', hw', hterminal, hfree⟩
        rw [hkey] at hkey'
        cases hkey'
        rw [hw] at hw'
        cases hw'
        exact ⟨w, hmem.1, rfl, hterminal, hfree⟩
    · have hrun := run_launchAlone_admitted c (s := { s with workloads := t })
        (l := .planning i.env.newWorkloadId) rfl events
      simp only [launchAlone, h] at hend hrun ⊢
      have hid : id = i.env.newWorkloadId := by
        have hfinal := workloadId_of_failed hend
        rw [hrun.2] at hfinal
        exact (Option.some.inj hfinal).symm
      rw [hrun.1, hid]
      constructor
      · -- The new row is the only one with its id, and it is still queued.
        rintro ⟨v, hv, hvid, hterminal, -⟩
        have hnew : queuedWorkload req i.env cost ∈ t.rows := by simp [hrows]
        obtain rfl := t.eq_of_id hv hnew hvid
        contradiction
      · rintro ⟨key, w, hkey, hw, -⟩
        simp [habsent key hkey] at hw

def oneDollarLaunch (key : Option String) (leaseId : String) : LaunchCall where
  gate := tenDollarGate
  capabilityId := "cap"
  providerId := "prov"
  providerConfig := []
  plannedEndpoints := .obj [("http", .obj []), ("tcp", .obj [])]
  estimate := .ok (.finite 1)
  idempotencyKey := key
  leaseId := leaseId

def emptyFleet : Fleet := ⟨Table.empty, ⟨Table.empty, Table.empty, []⟩, [], [], [], [], []⟩

def exhaustedInput : LaunchInput where
  env := ⟨.utc, 0, 0, "wkl_1"⟩
  fault := none
  plan := .ok ()
  pod := .ended (.noCapacity "all GPU types exhausted")
  wait := .retried

theorem exhausted_launch_keeps_reservation :
    ¬ ∀ (c : LaunchCall) (s : Fleet) (events : List LaunchInput) (start : Instant) (id : String),
      (run (launchAlone c) (s, .admitting) events).2.failed = some id →
      (run (launchAlone c) (s, .admitting) events).1.workloads.Released start id := by
  intro h
  have hreleased := h (oneDollarLaunch none "lease_1") emptyFleet
    [exhaustedInput, exhaustedInput, exhaustedInput] 0 "wkl_1" (by decide +kernel)
  revert hreleased
  unfold Workloads.Released
  decide +kernel

theorem failed_launch_released_exhausted :
    (run (launchAlone (oneDollarLaunch none "lease_1")) (emptyFleet, .admitting)
      [exhaustedInput, exhaustedInput, exhaustedInput]).2.failed = some "wkl_1" ∧
    ¬ (run (launchAlone (oneDollarLaunch none "lease_1")) (emptyFleet, .admitting)
      [exhaustedInput, exhaustedInput, exhaustedInput]).1.workloads.Released 0 "wkl_1" := by
  refine ⟨by decide +kernel, fun hreleased => ?_⟩
  obtain ⟨key, w, hkey, -⟩ := (failed_launch_released_iff (oneDollarLaunch none "lease_1")
    emptyFleet [exhaustedInput, exhaustedInput, exhaustedInput] 0 (by decide +kernel)).mp hreleased
  contradiction

end Pitwall
