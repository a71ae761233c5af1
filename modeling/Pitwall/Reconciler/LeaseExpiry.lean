import Mathlib.Data.List.Sort
import Pitwall.Leases.Teardown
set_option autoImplicit false

/-!
`_lease_expiry_reconcile`: the job that tears expired leases down. It reads the leases
once and then works through what it has read; the warnings it publishes on the way are
best-effort and change nothing here.
-/

namespace Pitwall
open Machine

structure ExpiryJob where
  now : Instant
  hasRedis : Bool

/-- What the world supplies to one step of the job. Rows come back from the database in
an order of its own. -/
structure ExpiryInput where
  dbNow : Instant
  planOrder : Lease → Lease → Bool
  fault : Option PyError
  teardown : TeardownInput

inductive ExpiryState where
  | selecting
  | sweeping (rows : List Lease)
  | tearingDown (row : Lease) (state : TeardownState) (rows : List Lease)
  | finished
  | raised (exc : PyError)

/-- `_LEASE_EXPIRY_LEASES_SQL`. -/
def Leases.expiring (t : Leases) (dbNow : Instant) : List Lease :=
  t.rows.filter (fun l => l.state = .active && l.autoTeardownOnExpiry &&
    decide (l.expiresAt ≤ dbNow + 60 * microsPerMinute))

def Leases.expiringIn (t : Leases) (dbNow : Instant) (planOrder : Lease → Lease → Bool) :
    List Lease :=
  (t.expiring dbNow).insertionSort (fun a b => planOrder a b = true)

def ExpiryJob.teardownCall (job : ExpiryJob) (row : Lease) : TeardownCall where
  leaseId := row.id
  terminalState := .expired
  reason := some "lease_expired"
  now := some job.now
  hasRedis := job.hasRedis

/-- Nothing catches an exception of `run_teardown`: it ends the job. -/
def afterTeardown (row : Lease) (l : TeardownState) (rows : List Lease) : ExpiryState :=
  match l with
  | .returned _ _ => .sweeping rows
  | .raised e => .raised e
  | l => .tearingDown row l rows

section Step
variable (text : PyText) (job : ExpiryJob)

def expiryStep (l : ExpiryState) (s : Fleet) (i : ExpiryInput) : Fleet × ExpiryState :=
  match l with
  | .selecting =>
      match i.fault with
      | some e => (s, .raised e)
      | none => (s, .sweeping (s.store.leases.expiringIn i.dbNow i.planOrder))
  | .sweeping [] => (s, .finished)
  | .sweeping (row :: rows) =>
      if row.expiresAt ≤ job.now then (s, .tearingDown row .reading rows)
      else (s, .sweeping rows)
  | .tearingDown row l rows =>
      ((teardownStep text (job.teardownCall row) l s i.teardown).1,
        afterTeardown row (teardownStep text (job.teardownCall row) l s i.teardown).2 rows)
  | .finished => (s, .finished)
  | .raised e => (s, .raised e)

/-- What the world holds ready for one whole run of the job: for each lease, the inputs
to the steps of its teardown. -/
structure ExpiryWorld where
  dbNow : Instant
  planOrder : Lease → Lease → Bool
  fault : Option PyError
  teardown : String → Nat → TeardownInput

def teardownAlone (c : TeardownCall) (x : Fleet × TeardownState) (i : TeardownInput) :
    Fleet × TeardownState := teardownStep text c x.2 x.1 i

def runTeardown (c : TeardownCall) (answers : Nat → TeardownInput) (s : Fleet) :
    Fleet × TeardownState :=
  run (teardownAlone text c) (s, .reading) ((List.range 6).map answers)

def sweepRows (answers : String → Nat → TeardownInput) :
    List Lease → Fleet → Fleet × Option PyError
  | [], s => (s, none)
  | row :: rows, s =>
      if row.expiresAt ≤ job.now then
        match runTeardown text (job.teardownCall row) (answers row.id) s with
        | (s', .raised e) => (s', some e)
        | (s', _) => sweepRows answers rows s'
      else sweepRows answers rows s

def leaseExpiryReconcile (world : ExpiryWorld) (s : Fleet) : Fleet × Option PyError :=
  match world.fault with
  | some e => (s, some e)
  | none =>
      sweepRows text job world.teardown (s.store.leases.expiringIn world.dbNow world.planOrder) s

end Step

section Alone
variable (text : PyText) (job : ExpiryJob)

def expiryAlone (text : PyText) (job : ExpiryJob) (x : Fleet × ExpiryState) (i : ExpiryInput) :
    Fleet × ExpiryState := expiryStep text job x.2 x.1 i

def TeardownState.done : TeardownState → Bool
  | .returned _ _ | .raised _ => true
  | _ => false

theorem teardownStep_done {text : PyText} {c : TeardownCall} {l : TeardownState}
    (h : l.done = true) (s : Fleet) (i : TeardownInput) : teardownStep text c l s i = (s, l) := by
  cases l <;> simp [TeardownState.done, teardownStep] at h ⊢

def TeardownState.left : TeardownState → Nat
  | .reading => 6
  | .marking _ => 5
  | .terminating _ => 4
  | .loadingProvider _ _ => 3
  | .closing _ _ _ => 2
  | .publishing _ => 1
  | .returned _ _ | .raised _ => 0

theorem done_iff_left {l : TeardownState} : l.done = true ↔ l.left = 0 := by
  cases l <;> simp [TeardownState.done, TeardownState.left]

theorem left_teardownStep (c : TeardownCall) (l : TeardownState) (s : Fleet)
    (i : TeardownInput) : (teardownStep text c l s i).2.left ≤ l.left - 1 := by
  cases l with
  | reading =>
    simp only [teardownStep]
    split
    · simp [TeardownState.left]
    · simp [TeardownState.left]
    · simp [TeardownState.left]
    · split
      · simp [TeardownState.left]
      · split <;> simp [TeardownState.left]
  | marking lease =>
    simp only [teardownStep]
    split <;> simp [TeardownState.left]
  | terminating lease =>
    simp only [teardownStep]
    split <;> simp [TeardownState.left]
  | loadingProvider lease terminatedAt =>
    simp only [teardownStep]
    split <;> simp [TeardownState.left]
  | closing lease cost terminatedAt =>
    simp only [teardownStep]
    split
    · simp [TeardownState.left]
    · split <;> simp [TeardownState.left]
  | publishing lease =>
    simp only [teardownStep]
    split
    · split <;> simp [TeardownState.left]
    · simp [TeardownState.left]
  | returned lease event => simp [teardownStep, TeardownState.left]
  | raised e => simp [teardownStep, TeardownState.left]

theorem left_run_teardown (c : TeardownCall) (x : Fleet × TeardownState)
    (inputs : List TeardownInput) :
    (run (teardownAlone text c) x inputs).2.left ≤
      x.2.left - inputs.length := by
  induction inputs generalizing x with
  | nil => simp
  | cons i inputs ih =>
    have hstep := left_teardownStep text c x.2 x.1 i
    have hrest := ih (teardownStep text c x.2 x.1 i)
    simp only [run_cons, List.length_cons, teardownAlone] at hrest ⊢
    omega

theorem done_runTeardown (c : TeardownCall) (answers : Nat → TeardownInput) (s : Fleet) :
    (runTeardown text c answers s).2.done = true := by
  have hleft := left_run_teardown text c (s, .reading) ((List.range 6).map answers)
  rw [List.length_map, List.length_range] at hleft
  exact done_iff_left.mpr (Nat.le_zero.mp hleft)

theorem run_teardown_of_done {text : PyText} {c : TeardownCall} {l : TeardownState}
    (h : l.done = true) (s : Fleet) (inputs : List TeardownInput) :
    run (teardownAlone text c) (s, l) inputs = (s, l) := by
  induction inputs with
  | nil => rfl
  | cons i inputs ih => rw [run_cons, teardownAlone, teardownStep_done h, ih]

theorem afterTeardown_of_not_done {row : Lease} {l : TeardownState} {rows : List Lease}
    (h : l.done = false) : afterTeardown row l rows = .tearingDown row l rows := by
  cases l <;> simp [TeardownState.done, afterTeardown] at h ⊢

theorem run_tearingDown (row : Lease) (rows : List Lease) {s : Fleet} {l : TeardownState}
    (inputs : List TeardownInput) (hl : l.done = false)
    (hend : (run (teardownAlone text (job.teardownCall row)) (s, l)
      inputs).2.done = true) :
    ∃ steps, run (expiryAlone text job) (s, .tearingDown row l rows) steps =
      ((run (teardownAlone text (job.teardownCall row)) (s, l) inputs).1,
        afterTeardown row (run (teardownAlone text (job.teardownCall row))
          (s, l) inputs).2 rows) := by
  induction inputs generalizing s l with
  | nil => simp [hl] at hend
  | cons i inputs ih =>
    let input : ExpiryInput := ⟨0, fun _ _ => true, none, i⟩
    cases hstep : teardownStep text (job.teardownCall row) l s i with
    | mk s' l' =>
      have hfirst : expiryAlone text job (s, .tearingDown row l rows) input =
          (s', afterTeardown row l' rows) := by
        simp [expiryAlone, expiryStep, input, hstep]
      simp only [run_cons, teardownAlone, hstep] at hend ⊢
      cases hdone : l'.done with
      | true =>
        rw [run_teardown_of_done hdone]
        exact ⟨[input], by rw [run_cons, hfirst, run_nil]⟩
      | false =>
        obtain ⟨steps, hsteps⟩ := ih hdone hend
        refine ⟨input :: steps, ?_⟩
        rw [run_cons, hfirst, afterTeardown_of_not_done hdone]
        exact hsteps

def ExpiryState.ending : Option PyError → ExpiryState
  | none => .finished
  | some e => .raised e

theorem run_sweepRows (answers : String → Nat → TeardownInput) (rows : List Lease) (s : Fleet) :
    ∃ steps, run (expiryAlone text job) (s, .sweeping rows) steps =
      ((sweepRows text job answers rows s).1,
        .ending (sweepRows text job answers rows s).2) := by
  let input : ExpiryInput := ⟨0, fun _ _ => true, none, answers "" 0⟩
  induction rows generalizing s with
  | nil => exact ⟨[input], rfl⟩
  | cons row rows ih =>
    by_cases hdue : row.expiresAt ≤ job.now
    · have hfirst : expiryAlone text job (s, .sweeping (row :: rows)) input =
          (s, .tearingDown row .reading rows) := by simp [expiryAlone, expiryStep, hdue]
      obtain ⟨steps, hsteps⟩ := run_tearingDown text job row rows _ rfl
        (done_runTeardown text (job.teardownCall row) (answers row.id) s)
      have hdone := done_runTeardown text (job.teardownCall row) (answers row.id) s
      change run (expiryAlone text job) _ _ = ((runTeardown text (job.teardownCall row)
        (answers row.id) s).1, afterTeardown row (runTeardown text (job.teardownCall row)
        (answers row.id) s).2 rows) at hsteps
      cases hrun : runTeardown text (job.teardownCall row) (answers row.id) s with
      | mk s' l' =>
        rw [hrun] at hsteps hdone
        cases l' with
        | raised e =>
          refine ⟨input :: steps, ?_⟩
          rw [run_cons, hfirst, hsteps]
          simp [sweepRows, hdue, hrun, afterTeardown, ExpiryState.ending]
        | returned lease event =>
          obtain ⟨more, hmore⟩ := ih s'
          refine ⟨input :: (steps ++ more), ?_⟩
          rw [run_cons, hfirst, run, List.foldl_append, ← run, ← run, hsteps]
          simp [sweepRows, hdue, hrun, afterTeardown, hmore]
        | _ => simp [TeardownState.done] at hdone
    · have hfirst : expiryAlone text job (s, .sweeping (row :: rows)) input =
          (s, .sweeping rows) := by simp [expiryAlone, expiryStep, hdue]
      obtain ⟨steps, hsteps⟩ := ih s
      refine ⟨input :: steps, ?_⟩
      rw [run_cons, hfirst, hsteps]
      simp [sweepRows, hdue]

theorem leaseExpiryReconcile_run (text : PyText) (job : ExpiryJob) (world : ExpiryWorld)
    (s : Fleet) :
    ∃ steps, run (expiryAlone text job) (s, .selecting) steps =
      ((leaseExpiryReconcile text job world s).1,
        .ending (leaseExpiryReconcile text job world s).2) := by
  let input : ExpiryInput := ⟨world.dbNow, world.planOrder, world.fault, world.teardown "" 0⟩
  cases hfault : world.fault with
  | some e =>
    refine ⟨[input], ?_⟩
    simp [expiryAlone, expiryStep, leaseExpiryReconcile, input, hfault, ExpiryState.ending]
  | none =>
    obtain ⟨steps, hsteps⟩ := run_sweepRows text job world.teardown
      (s.store.leases.expiringIn world.dbNow world.planOrder) s
    refine ⟨input :: steps, ?_⟩
    have hfirst : expiryAlone text job (s, .selecting) input =
        (s, .sweeping (s.store.leases.expiringIn world.dbNow world.planOrder)) := by
      simp [expiryAlone, expiryStep, input, hfault]
    rw [run_cons, hfirst, hsteps]
    simp [leaseExpiryReconcile, hfault]

end Alone

end Pitwall
