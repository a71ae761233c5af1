import Pitwall.Core.Inference
import Pitwall.Cost.BudgetCap
import Pitwall.Cost.MonthViews
import Pitwall.Retention.Purge
set_option autoImplicit false

/-!
Admissions beside archive runs. The gate adds up the workloads that are still in the
table; an archive run takes them out of it.
-/

namespace Pitwall
open Machine

structure RetentionSystem where
  world : ArchiveWorld
  runs : Nat → ArchiveState
  admitted : ℚ

def RetentionSystem.workloads (c : RetentionSystem) : Workloads := c.world.db.workloads

def RetentionSystem.opening (db : Retained) : RetentionSystem :=
  ⟨⟨db, [], [], .nothing, none⟩, fun _ => .starting, 0⟩

inductive RetentionEvent where
  | launch (req : LaunchRequest) (env : LaunchEnv)
  /-- A workload becomes terminal. -/
  | finish (id : String) (state : WorkloadState) (actualCost : Option ℚ) (completedAt : Instant)
  /-- Archive run `k` takes its next step. -/
  | archive (k : Nat) (i : ArchiveInput)

def BudgetGate.admittedEstimate (gate : BudgetGate) (req : LaunchRequest) (env : LaunchEnv)
    (t : Workloads) : ℚ :=
  match (gate.launch req env t).1, positiveEstimate req.estimateUsd with
  | .ok a, .ok estimate => if a.isNew then estimate else 0
  | _, _ => 0

def RetentionSystem.withWorkloads (c : RetentionSystem) (t : Workloads) : RetentionSystem :=
  { c with world := { c.world with db := { c.world.db with workloads := t } } }

@[simp] theorem RetentionSystem.withWorkloads_workloads (c : RetentionSystem) (t : Workloads) :
    (c.withWorkloads t).workloads = t := rfl

def retentionStep (gate : BudgetGate) (calls : Nat → ArchiveCall) (c : RetentionSystem) :
    RetentionEvent → RetentionSystem
  | .launch req env =>
      { c.withWorkloads (gate.launch req env c.workloads).2 with
        admitted := c.admitted + gate.admittedEstimate req env c.workloads }
  | .finish id state actualCost completedAt =>
      c.withWorkloads (c.workloads.applyTerminalState id state actualCost completedAt)
  | .archive k i =>
      { c with
        world := (archiveStep (calls k) (c.runs k) c.world i).1
        runs := Function.update c.runs k (archiveStep (calls k) (c.runs k) c.world i).2 }

/-- The request is made and submitted in the month that starts at `start`, with an
estimate that is a multiple of 0.000001. -/
structure MadeInMonth (start : Instant) (req : LaunchRequest) (env : LaunchEnv) : Prop where
  window : env.session.monthStart env.now = start
  submitted : start ≤ req.submittedAt.getD env.utcNow
  multiple : ∀ estimate, positiveEstimate req.estimateUsd = .ok estimate → IsMultiple 6 estimate

/-- All admissions fall into one month. A terminal transition does not lower what its
workload counts for: the room that a settlement makes is not made by a purge. -/
def WithinMonth (start : Instant) (c : RetentionSystem) : RetentionEvent → Prop
  | .launch req env => MadeInMonth start req env
  | .finish id _ actualCost _ => (∀ x ∈ actualCost, 0 ≤ x) ∧
      ∀ w ∈ c.workloads.rows, w.id = id → w.state.terminal = false →
        w.spend ≤ (actualCost <|> w.costEstimateUsd).getD 0
  | .archive _ _ => True

/-- A step of an archive run leaves the sum that admission reads as high as it was. -/
def SpendKept (gate : BudgetGate) (calls : Nat → ArchiveCall) (start : Instant)
    (c : RetentionSystem) (e : RetentionEvent) : Prop :=
  match e with
  | .archive _ _ =>
      c.workloads.spendSince start ≤ (retentionStep gate calls c e).workloads.spendSince start
  | _ => True

def RetentionSystem.deletes (c : RetentionSystem) : RetentionEvent → List String
  | .archive k i =>
      match c.runs k, i.fault with
      | .committing tx, none => tx.workloads
      | _, _ => []
  | _ => []

/-- A step deletes no workload of the month that counts for something. -/
def SparesMonth (start : Instant) (c : RetentionSystem) (e : RetentionEvent) : Prop :=
  ∀ w ∈ c.workloads.rows, w.id ∈ c.deletes e → start ≤ w.submittedAt → w.spend = 0

instance (start : Instant) (c : RetentionSystem) (e : RetentionEvent) :
    Decidable (SparesMonth start c e) :=
  inferInstanceAs (Decidable
    (∀ w ∈ c.workloads.rows, w.id ∈ c.deletes e → start ≤ w.submittedAt → w.spend = 0))

theorem archiveStep_db (call : ArchiveCall) (l : ArchiveState) (s : ArchiveWorld)
    (i : ArchiveInput) :
    (archiveStep call l s i).1.db =
      match l, i.fault with
      | .committing tx, none => s.db.commit tx
      | _, _ => s.db := by
  cases l with
  | committing tx => cases hfault : i.fault <;> simp [archiveStep, hfault]
  | deletingObjects tx =>
    simp only [archiveStep]
    split
    · rfl
    · split
      · rfl
      · split <;> rfl
  | returned workloads deleted committed => rfl
  | raised e => rfl
  | _ =>
    simp only [archiveStep]
    split <;> rfl

section Sums
variable (start : Instant)

theorem Workload.NonNegative.spendSince_nonneg {w : Workload} (h : w.NonNegative) :
    0 ≤ w.spendSince start := by
  unfold Workload.spendSince
  split
  · exact h.spend_nonneg
  · exact le_refl 0

theorem spendSince_delete (t : Workloads) (p : Workload → Bool) :
    Workloads.spendSince start (t.delete p) =
      (t.rows.map fun w => if p w then 0 else w.spendSince start).sum := by
  have hkept := sumWhere_eq_sum_map (fun w => !p w) (Workload.spendSince start) t.rows
  unfold Workloads.spendSince
  rw [Table.rows_delete]
  unfold sumWhere at hkept
  rw [hkept]
  congr 1
  refine List.map_congr_left (fun w _ => ?_)
  cases p w <;> simp

theorem spendSince_le_delete_iff {t : Workloads} (h : t.NonNegative) (p : Workload → Bool) :
    t.spendSince start ≤ Workloads.spendSince start (t.delete p) ↔
      ∀ w ∈ t.rows, p w = true → start ≤ w.submittedAt → w.spend = 0 := by
  have hterm : ∀ w ∈ t.rows,
      (if p w then 0 else w.spendSince start) ≤ w.spendSince start := by
    intro w hw
    split
    · exact (h w hw).spendSince_nonneg start
    · exact le_refl _
  have hle : Workloads.spendSince start (t.delete p) ≤ t.spendSince start := by
    rw [spendSince_delete]
    exact List.sum_le_sum hterm
  have heq : Workloads.spendSince start (t.delete p) = t.spendSince start ↔
      ∀ w ∈ t.rows, (if p w then 0 else w.spendSince start) = w.spendSince start := by
    rw [spendSince_delete]
    exact sum_eq_sum_iff_of_le hterm
  have hcount : t.spendSince start ≤ Workloads.spendSince start (t.delete p) ↔
      Workloads.spendSince start (t.delete p) = t.spendSince start :=
    ⟨fun h => le_antisymm hle h, fun h => le_of_eq h.symm⟩
  rw [hcount, heq]
  refine forall₂_congr (fun w _ => ?_)
  unfold Workload.spendSince
  cases p w with
  | false => simp
  | true => by_cases hs : start ≤ w.submittedAt <;> simp [hs, eq_comm]

theorem Workloads.NonNegative.delete {t : Workloads} (h : t.NonNegative)
    (p : Workload → Bool) : Workloads.NonNegative (t.delete p) := by
  intro w hw
  rw [Table.rows_delete] at hw
  exact h w (List.mem_filter.mp hw).1

theorem spendSince_purgeWorkloads {call : ArchiveCall} {startedAt : Instant}
    {locked : String → Bool} {t : Workloads} (h : t.NonNegative)
    (hcutoff : call.cutoff startedAt ≤ start) :
    t.spendSince start ≤ (call.purgeWorkloads startedAt locked t).spendSince start := by
  refine (spendSince_le_delete_iff start h _).mpr (fun w _ hpurged hstart => ?_)
  have hearly := (ArchiveCall.eligible_of_purges hpurged).1
  exact absurd (lt_of_lt_of_le hearly hcutoff) (not_lt.mpr hstart)

end Sums

section Steps
variable {gate : BudgetGate} {calls : Nat → ArchiveCall} {start : Instant} {c : RetentionSystem}

theorem archive_workloads (k : Nat) (i : ArchiveInput) :
    (retentionStep gate calls c (.archive k i)).workloads =
      c.workloads.delete fun w => (c.deletes (.archive k i)).contains w.id := by
  have hdb := archiveStep_db (calls k) (c.runs k) c.world i
  have hstep : (retentionStep gate calls c (.archive k i)).workloads =
      (archiveStep (calls k) (c.runs k) c.world i).1.db.workloads := rfl
  rw [hstep, hdb]
  simp only [RetentionSystem.deletes]
  cases c.runs k with
  | committing tx =>
    cases i.fault with
    | none => rfl
    | some e => exact (delete_false c.workloads).symm
  | _ => exact (delete_false c.workloads).symm

theorem spendKept_iff_sparesMonth (h : c.workloads.NonNegative) (e : RetentionEvent) :
    SpendKept gate calls start c e ↔ SparesMonth start c e := by
  cases e with
  | launch req env => simp [SpendKept, SparesMonth, RetentionSystem.deletes]
  | finish id state actualCost completedAt =>
    simp [SpendKept, SparesMonth, RetentionSystem.deletes]
  | archive k i =>
    simp only [SpendKept]
    rw [archive_workloads, spendSince_le_delete_iff start h]
    simp only [SparesMonth, List.contains_iff_mem]

theorem nonNegative_finish {id : String} {state : WorkloadState} {actualCost : Option ℚ}
    {completedAt : Instant} {t : Workloads} (h : t.NonNegative)
    (hcost : ∀ x ∈ actualCost, 0 ≤ x) :
    (t.applyTerminalState id state actualCost completedAt).NonNegative := by
  intro w hw
  unfold Workloads.applyTerminalState at hw
  rw [Workloads.rows_updateById] at hw
  obtain ⟨v, hv, rfl⟩ := List.mem_map.mp hw
  split
  · exact ⟨(h v hv).1, hcost⟩
  · exact h v hv

theorem spendSince_finish {id : String} {state : WorkloadState} {actualCost : Option ℚ}
    {completedAt : Instant} {t : Workloads}
    (hspend : ∀ w ∈ t.rows, w.id = id → w.state.terminal = false →
      w.spend ≤ (actualCost <|> w.costEstimateUsd).getD 0) :
    t.spendSince start ≤
      (t.applyTerminalState id state actualCost completedAt).spendSince start := by
  unfold Workloads.spendSince Workloads.applyTerminalState
  rw [Workloads.rows_updateById, List.map_map]
  refine List.sum_le_sum (fun w hw => ?_)
  by_cases hhit : w.id = id ∧ (!w.state.terminal) = true
  · have hw' := hspend w hw hhit.1 (by simpa using hhit.2)
    simp only [Function.comp_apply, hhit, and_self, if_true, Workload.spendSince]
    split
    · exact hw'
    · exact le_refl _
  · simp only [Function.comp_apply, if_neg hhit]
    exact le_refl _

theorem launch_admits (gate : BudgetGate) {req : LaunchRequest} {env : LaunchEnv} {t : Workloads}
    (hmonth : MadeInMonth start req env) (h : t.NonNegative) :
    (gate.launch req env t).2.NonNegative ∧
    (gate.launch req env t).2.spendSince start =
      t.spendSince start + gate.admittedEstimate req env t ∧
    (gate.admittedEstimate req env t = 0 ∨
      t.spendSince start + gate.admittedEstimate req env t ≤ gate.monthlyBudgetUsd) := by
  unfold BudgetGate.admittedEstimate
  rcases gate.launch_cases req env t with
    ⟨e, hl⟩ | ⟨a, key, hl, hnew, -⟩ | ⟨t', x, cost, hl, hadm⟩
  · rw [hl]
    simp [h]
  · rw [hl]
    cases positiveEstimate req.estimateUsd <;> simp [h, hnew]
  · rw [hl]
    have hcost : cost = x := eq_of_numeric (hmonth.multiple x hadm.estimate_eq) hadm.stored
    have hpos := positiveEstimate_pos hadm.estimate_eq
    have hcap := hadm.monthly_cap
    rw [currentMtdSpend, hmonth.window] at hcap
    have hrow : (queuedWorkload req env cost).spendSince start = x := by
      have hsubmitted : start ≤ (queuedWorkload req env cost).submittedAt := hmonth.submitted
      unfold Workload.spendSince
      rw [if_pos hsubmitted, ← hcost]
      rfl
    simp only [hadm.estimate_eq, if_true]
    refine ⟨?_, ?_, .inr hcap⟩
    · intro w hw
      rw [hadm.rows, List.mem_append, List.mem_singleton] at hw
      rcases hw with hw | rfl
      · exact h w hw
      · refine ⟨?_, by simp [queuedWorkload]⟩
        intro y hy
        obtain rfl : cost = y := by simpa [queuedWorkload] using hy
        rw [hcost]
        exact le_of_lt hpos
    · rw [Workloads.spendSince_append start hadm.rows, hrow]

theorem nonNegative_step (h : c.workloads.NonNegative) {e : RetentionEvent}
    (he : WithinMonth start c e) : (retentionStep gate calls c e).workloads.NonNegative := by
  cases e with
  | launch req env => exact (launch_admits gate he h).1
  | finish id state actualCost completedAt => exact nonNegative_finish h he.1
  | archive k i =>
    rw [archive_workloads]
    exact h.delete _

/-- What had been spent before and what has been admitted since is all in the sum, and was
within the budget when it was admitted. -/
structure Covered (gate : BudgetGate) (start : Instant) (spent : ℚ) (c : RetentionSystem) :
    Prop where
  nonNegative : c.workloads.NonNegative
  counted : spent + c.admitted ≤ c.workloads.spendSince start
  within : spent + c.admitted ≤ gate.monthlyBudgetUsd

theorem covered_step {spent : ℚ} (h : Covered gate start spent c) {e : RetentionEvent}
    (he : WithinMonth start c e) (hspares : SparesMonth start c e) :
    Covered gate start spent (retentionStep gate calls c e) := by
  have hnonneg : (retentionStep gate calls c e).workloads.NonNegative :=
    nonNegative_step h.nonNegative he
  cases e with
  | launch req env =>
    obtain ⟨-, hsum, hcap⟩ := launch_admits gate he h.nonNegative
    have hcounted := h.counted
    have hwithin := h.within
    refine ⟨hnonneg, ?_, ?_⟩
    · change spent + (c.admitted + gate.admittedEstimate req env c.workloads) ≤
        (gate.launch req env c.workloads).2.spendSince start
      rw [hsum]
      linarith
    · change spent + (c.admitted + gate.admittedEstimate req env c.workloads) ≤ _
      rcases hcap with hzero | hcap
      · rw [hzero]
        linarith
      · linarith
  | finish id state actualCost completedAt =>
    exact ⟨hnonneg, le_trans h.counted (spendSince_finish he.2), h.within⟩
  | archive k i =>
    have hkept : SpendKept gate calls start c (.archive k i) :=
      (spendKept_iff_sparesMonth h.nonNegative _).mpr hspares
    exact ⟨hnonneg, le_trans h.counted hkept, h.within⟩

end Steps

/-- Over every interleaving of admissions with archive runs in one month: no purge lowers
the sum that admission reads, and what is admitted stays within the budget, exactly when no
run commits the deletion of a workload of the month that counts for something. -/
theorem retention_keeps_budget (gate : BudgetGate) (calls : Nat → ArchiveCall) (start : Instant)
    (db : Retained) (events : List RetentionEvent)
    (hnonneg : db.workloads.NonNegative)
    (h₀ : db.workloads.spendSince start ≤ gate.monthlyBudgetUsd)
    (hmonth : Along (retentionStep gate calls) (WithinMonth start) (.opening db) events) :
    (Along (retentionStep gate calls) (SpendKept gate calls start) (.opening db) events ∧
      ∀ es, es <+: events →
        db.workloads.spendSince start +
          (run (retentionStep gate calls) (.opening db) es).admitted ≤ gate.monthlyBudgetUsd) ↔
    Along (retentionStep gate calls) (SparesMonth start) (.opening db) events := by
  constructor
  · rintro ⟨hkept, -⟩
    refine along_of_invariant (I := fun c : RetentionSystem => c.workloads.NonNegative)
      (fun c e h he => ?_) hnonneg (hmonth.and hkept)
    exact ⟨nonNegative_step h he.1, (spendKept_iff_sparesMonth h e).mp he.2⟩
  · intro hspares
    refine ⟨?_, fun es hes => ?_⟩
    · refine along_of_invariant (I := fun c : RetentionSystem => c.workloads.NonNegative)
        (fun c e h he => ?_) hnonneg (hmonth.and hspares)
      exact ⟨nonNegative_step h he.1, (spendKept_iff_sparesMonth h e).mpr he.2⟩
    · have hcovered : Covered gate start (db.workloads.spendSince start)
          (run (retentionStep gate calls) (.opening db) es) := by
        refine run_invariant (I := Covered gate start (db.workloads.spendSince start))
          (fun c e h he => covered_step h he.1 he.2) ?_ (Along.of_prefix hes (hmonth.and hspares))
        have hzero : (RetentionSystem.opening db).admitted = 0 := rfl
        exact ⟨hnonneg, by rw [hzero, add_zero]; rfl, by rw [hzero, add_zero]; exact h₀⟩
      exact hcovered.within

section Reopened

def nothingRetained : Retained := ⟨Table.empty, Table.empty, Table.empty, Table.empty⟩

def thirdDayEnv (id : String) : LaunchEnv := ⟨.utc, 2 * microsPerDay, 2 * microsPerDay, id⟩

def purgeAt (now : Instant) : List RetentionEvent :=
  List.replicate 12 (.archive 0 ⟨now, none, fun _ => false, 0⟩)

def spentOnFirstDay : List RetentionEvent :=
  [.launch tenDollarRequest (epochEnv "a"), .finish "a" .completed none 0]

theorem tenDollarRequest_madeInMonth {env : LaunchEnv}
    (hwindow : env.session.monthStart env.now = 0) (hsubmitted : 0 ≤ env.utcNow) :
    MadeInMonth 0 tenDollarRequest env :=
  ⟨hwindow, hsubmitted, (tenDollarRequest_inCurrentMonth "").multiple⟩

theorem spent_withinMonth {es : List RetentionEvent} (h : ∀ e ∈ es, ∀ c, WithinMonth 0 c e) :
    Along (retentionStep tenDollarGate fun _ => purgeCall) (WithinMonth 0)
      (.opening nothingRetained) (spentOnFirstDay ++ es) := by
  have hrest : ∀ c,
      Along (retentionStep tenDollarGate fun _ => purgeCall) (WithinMonth 0) c es := by
    intro c
    refine along_of_invariant (I := fun _ => True) (fun c e _ he => ?_) trivial
      (along_of_mem c h)
    exact ⟨trivial, he c⟩
  refine ⟨tenDollarRequest_madeInMonth (show monthStartUtc 0 = 0 by decide) (by decide),
    ⟨by simp, by decide +kernel⟩, hrest _⟩

theorem purgeAt_withinMonth (now : Instant) : ∀ e ∈ purgeAt now, ∀ c, WithinMonth 0 c e := by
  intro e he c
  rw [List.eq_of_mem_replicate he]
  trivial

theorem nothingRetained_nonNegative : nothingRetained.workloads.NonNegative := by
  intro w hw
  simp [nothingRetained, Table.empty] at hw

/-- An archive run on the first day purges nothing of the month. -/
theorem spent_and_archived :
    Along (retentionStep tenDollarGate fun _ => purgeCall)
      (SpendKept tenDollarGate (fun _ => purgeCall) 0) (.opening nothingRetained)
      (spentOnFirstDay ++ purgeAt 0) :=
  ((retention_keeps_budget tenDollarGate (fun _ => purgeCall) 0 nothingRetained _
    nothingRetained_nonNegative (by decide +kernel)
    (spent_withinMonth (purgeAt_withinMonth 0))).mpr (by decide +kernel)).1

/-- The budget is admitted twice in one month when what was admitted first is purged in
between. -/
theorem purge_reopens_budget :
    ¬ ∀ (gate : BudgetGate) (calls : Nat → ArchiveCall) (start : Instant) (db : Retained)
      (events : List RetentionEvent), db.workloads.NonNegative →
      db.workloads.spendSince start ≤ gate.monthlyBudgetUsd →
      Along (retentionStep gate calls) (WithinMonth start) (.opening db) events →
      Along (retentionStep gate calls) (SpendKept gate calls start) (.opening db) events ∧
      ∀ es, es <+: events → db.workloads.spendSince start +
        (run (retentionStep gate calls) (.opening db) es).admitted ≤ gate.monthlyBudgetUsd := by
  intro h
  have hmonth : ∀ e ∈ purgeAt (2 * microsPerDay) ++
      [.launch tenDollarRequest (thirdDayEnv "b")], ∀ c, WithinMonth 0 c e := by
    intro e he c
    rcases List.mem_append.mp he with he | he
    · exact purgeAt_withinMonth _ e he c
    · obtain rfl := List.mem_singleton.mp he
      exact tenDollarRequest_madeInMonth
        (show monthStartUtc (2 * microsPerDay) = 0 by decide) (by decide)
  have hcap := (h tenDollarGate (fun _ => purgeCall) 0 nothingRetained _
    nothingRetained_nonNegative (by decide +kernel) (spent_withinMonth hmonth)).2
    _ (List.prefix_refl _)
  exact absurd hcap (by decide +kernel)

end Reopened

end Pitwall
