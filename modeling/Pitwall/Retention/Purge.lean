import Pitwall.Retention.NothingLost
set_option autoImplicit false

/-!
What a whole archive run does to the workloads. Its rows are locked from the first
statement on and vanish at its commit, so for the other writers of the table the run is
one step.
-/

namespace Pitwall
open Machine

namespace ArchiveCall

def purges (call : ArchiveCall) (startedAt : Instant) (locked : String → Bool) (t : Workloads)
    (w : Workload) : Bool :=
  call.checkArguments.isOk && call.purge && !call.dryRun &&
    (((t.selectBatch call.collate (call.cutoff startedAt) call.batchSize.toNat locked).map
      Workload.id).contains w.id && w.eligible (call.cutoff startedAt))

def purgeWorkloads (call : ArchiveCall) (startedAt : Instant) (locked : String → Bool)
    (t : Workloads) : Workloads :=
  t.delete (call.purges startedAt locked t)

theorem eligible_of_purges {call : ArchiveCall} {startedAt : Instant} {locked : String → Bool}
    {t : Workloads} {w : Workload} (h : call.purges startedAt locked t w = true) :
    w.submittedAt < call.cutoff startedAt ∧ w.state.terminal = true := by
  unfold purges Workload.eligible at h
  simp only [Bool.and_eq_true, decide_eq_true_eq] at h
  exact h.2.2

end ArchiveCall

theorem delete_congr {ρ κ : Type} {uniq : ρ → List κ} (t : Table uniq) {p q : ρ → Bool}
    (h : ∀ r ∈ t.rows, p r = q r) : t.delete p = t.delete q := by
  unfold Table.delete
  congr 1
  exact List.filter_congr (fun r hr => by rw [h r hr])

theorem delete_false {ρ κ : Type} {uniq : ρ → List κ} (t : Table uniq) :
    (t.delete fun _ => false) = t := by
  obtain ⟨rows, nodup⟩ := t
  simp [Table.delete]

theorem delete_staged (t : Workloads) (p : Workload → Bool) :
    (t.delete fun w => ((t.rows.filter p).map Workload.id).contains w.id) = t.delete p := by
  refine delete_congr t (fun w hw => ?_)
  cases hp : p w with
  | true =>
    rw [List.contains_iff_mem]
    exact List.mem_map.mpr ⟨w, List.mem_filter.mpr ⟨hw, hp⟩, rfl⟩
  | false =>
    rw [← Bool.not_eq_true, List.contains_iff_mem]
    intro hmem
    obtain ⟨v, hv, hid⟩ := List.mem_map.mp hmem
    rw [List.mem_filter] at hv
    rw [t.eq_of_id hv.1 hw hid, hp] at hv
    simp at hv

section Undisturbed
variable {call : ArchiveCall} {i : ArchiveInput}

theorem run_returned (s : ArchiveWorld) (workloads deleted : Nat) (committed : Bool) (n : Nat) :
    run (archiveRunStep call) ⟨s, .returned workloads deleted committed⟩
      (List.replicate n (.archive i)) = ⟨s, .returned workloads deleted committed⟩ := by
  induction n with
  | zero => rfl
  | succ n ih => exact ih

variable (hfault : i.fault = none)
include hfault

theorem run_recordingRun (s : ArchiveWorld) (tx : ArchiveTx) (n : Nat) :
    (run (archiveRunStep call) ⟨s, .recordingRun tx⟩
      (List.replicate (n + 4) (.archive i))).world.db = s.db.commit tx := by
  simp only [List.replicate_succ, run_cons, archiveRunStep, archiveStep, hfault]
  rw [run_returned]

theorem run_deletingObjects (hadapter : call.objectDelete = true) (s : ArchiveWorld)
    (tx : ArchiveTx) :
    ∃ s' tx', run (archiveRunStep call) ⟨s, .deletingObjects tx⟩
        (List.replicate 5 (.archive i)) = ⟨s', .recordingRun tx'⟩ ∧
      s'.db = s.db ∧ tx'.workloads = (s.db.workloads.rows.filter fun w =>
        tx.workloadIds.contains w.id && w.eligible tx.cutoff).map Workload.id := by
  cases hkeys : call.externalKeys tx.records with
  | nil =>
    simp only [List.replicate_succ, List.replicate_zero, run_cons, run_nil, archiveRunStep,
      archiveStep, hfault, hkeys]
    exact ⟨_, _, rfl, rfl, rfl⟩
  | cons key keys =>
    simp only [List.replicate_succ, List.replicate_zero, run_cons, run_nil, archiveRunStep,
      archiveStep, hfault, hkeys, hadapter, Bool.not_true, Bool.false_eq_true, if_false]
    exact ⟨_, _, rfl, rfl, rfl⟩

theorem run_starting (db : Retained) (hargs : call.checkArguments = .ok ())
    (hdry : call.dryRun = false) :
    ∃ s tx, run (archiveRunStep call) (.start db) (List.replicate 3 (.archive i)) =
        ⟨s, if call.purge && !tx.records.isEmpty then .deletingObjects tx
          else .recordingRun tx⟩ ∧
      s.db = db ∧ tx.cutoff = call.cutoff i.utcNow ∧ tx.workloads = [] ∧
      tx.records = (db.workloads.selectBatch call.collate (call.cutoff i.utcNow)
        call.batchSize.toNat i.locked).map db.recordOf := by
  simp only [List.replicate_succ, List.replicate_zero, run_cons, run_nil, archiveRunStep,
    ArchiveRun.start, archiveStep, hargs, hfault, hdry, Bool.false_eq_true, if_false]
  exact ⟨_, ⟨call.cutoff i.utcNow, _, [], [], [], []⟩, rfl, rfl, rfl, rfl, rfl⟩

theorem archive_alone (db : Retained) (hargs : call.checkArguments = .ok ())
    (hdry : call.dryRun = false) (hadapter : call.objectDelete = true) :
    (run (archiveRunStep call) (.start db) (List.replicate 12 (.archive i))).world.db.workloads =
      call.purgeWorkloads i.utcNow i.locked db.workloads := by
  obtain ⟨s, tx, hhead, hdb, hcutoff, hnone, hrecords⟩ := run_starting hfault db hargs hdry
  have hsteps : List.replicate 12 (ArchiveEvent.archive i) =
      List.replicate 3 (.archive i) ++ List.replicate 9 (.archive i) := rfl
  have hids : tx.workloadIds = (db.workloads.selectBatch call.collate
      (call.cutoff i.utcNow) call.batchSize.toNat i.locked).map Workload.id := by
    simp [ArchiveTx.workloadIds, hrecords, Retained.recordOf, Function.comp_def]
  rw [hsteps, run_append, hhead]
  unfold ArchiveCall.purgeWorkloads
  cases hpurge : call.purge && !tx.records.isEmpty with
  | true =>
    have hrest : List.replicate 9 (ArchiveEvent.archive i) =
        List.replicate 5 (.archive i) ++ List.replicate 4 (.archive i) := rfl
    obtain ⟨s', tx', hmid, hdb', hstaged⟩ := run_deletingObjects hfault hadapter s tx
    rw [if_pos rfl, hrest, run_append, hmid, run_recordingRun hfault s' tx' 0, hdb', hdb]
    simp only [Retained.commit, hstaged, hdb]
    rw [delete_staged]
    rw [Bool.and_eq_true] at hpurge
    refine delete_congr _ (fun w _ => ?_)
    simp [ArchiveCall.purges, hargs, hdry, hpurge.1, hids, hcutoff, Except.isOk, Except.toBool]
  | false =>
    rw [if_neg (by simp), run_recordingRun hfault s tx 5, hdb]
    simp only [Retained.commit, hnone]
    refine delete_congr _ (fun w _ => ?_)
    rw [Bool.and_eq_false_iff] at hpurge
    rcases hpurge with hpurge | hempty
    · simp [ArchiveCall.purges, hpurge]
    · have hbatch : (db.workloads.selectBatch call.collate (call.cutoff i.utcNow)
          call.batchSize.toNat i.locked) = [] := by
        simpa [hrecords] using hempty
      simp [ArchiveCall.purges, hbatch]

end Undisturbed

end Pitwall
