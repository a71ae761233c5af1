import Pitwall.Library.Machine
import Pitwall.Retention.Archive
set_option autoImplicit false

/-!
A purging archive run beside inserts into the tables it purges. What the archive holds of
the rows the run deletes, and when objects are deleted.
-/

namespace Pitwall
open Machine

inductive ArchiveEvent where
  /-- The run takes its next step. -/
  | archive (i : ArchiveInput)
  | insertWorkload (w : Workload)
  | insertKey (r : KeyReservation)
  | insertDelivery (d : WebhookDelivery)
  | insertFailure (f : WebhookFailure)

def Retained.insert (db : Retained) : ArchiveEvent → Retained
  | .archive _ => db
  | .insertWorkload w => { db with workloads := (db.workloads.insert w).getD db.workloads }
  | .insertKey r =>
      { db with idempotencyKeys := (db.idempotencyKeys.insert r).getD db.idempotencyKeys }
  | .insertDelivery d => { db with deliveries := (db.deliveries.insert d).getD db.deliveries }
  | .insertFailure f => { db with failures := (db.failures.insert f).getD db.failures }

structure ArchiveRun where
  world : ArchiveWorld
  state : ArchiveState

def ArchiveRun.start (db : Retained) : ArchiveRun :=
  ⟨⟨db, [], [], .nothing, none⟩, .starting⟩

def archiveRunStep (call : ArchiveCall) (c : ArchiveRun) (e : ArchiveEvent) : ArchiveRun :=
  match e with
  | .archive i =>
      ⟨(archiveStep call c.state c.world i).1, (archiveStep call c.state c.world i).2⟩
  | insertion => ⟨{ c.world with db := c.world.db.insert insertion }, c.state⟩

section Rows
variable {ρ : Type} {κ : Type}

/-- The ids name rows of the table that a `DELETE` of the transaction has matched. -/
def Staged (rows : List ρ) (key : ρ → κ) (matched : ρ → Prop) (ids : List κ) : Prop :=
  ∀ id ∈ ids, ∃ r ∈ rows, key r = id ∧ matched r

theorem Staged.mono {rows rows' : List ρ} {key : ρ → κ} {matched : ρ → Prop} {ids : List κ}
    (h : Staged rows key matched ids) (hsub : rows ⊆ rows') :
    Staged rows' key matched ids := by
  intro id hid
  obtain ⟨r, hr, hkey, hmatched⟩ := h id hid
  exact ⟨r, hsub hr, hkey, hmatched⟩

theorem staged_nil (rows : List ρ) (key : ρ → κ) (matched : ρ → Prop) :
    Staged rows key matched [] := by
  intro id hid
  simp at hid

theorem staged_filter {rows : List ρ} {key : ρ → κ} {p : ρ → Bool} {matched : ρ → Prop}
    (h : ∀ r, p r = true → matched r) :
    Staged rows key matched ((rows.filter p).map key) := by
  intro id hid
  obtain ⟨r, hr, rfl⟩ := List.mem_map.mp hid
  rw [List.mem_filter] at hr
  exact ⟨r, hr.1, rfl, h r hr.2⟩

theorem rows_subset_insert {uniq : ρ → List κ} [DecidableEq κ] (t : Table uniq) (r : ρ) :
    t.rows ⊆ ((t.insert r).getD t).rows := by
  cases h : t.insert r with
  | none => exact List.Subset.refl _
  | some t' =>
    rw [Option.getD_some, Table.rows_of_insert h]
    exact List.subset_append_left _ _

end Rows

/-- No row of `db` is missing in `db'`. -/
structure Retained.Grown (db db' : Retained) : Prop where
  workloads : db.workloads.rows ⊆ db'.workloads.rows
  idempotencyKeys : db.idempotencyKeys.rows ⊆ db'.idempotencyKeys.rows
  deliveries : db.deliveries.rows ⊆ db'.deliveries.rows
  failures : db.failures.rows ⊆ db'.failures.rows

theorem Retained.Grown.refl (db : Retained) : db.Grown db :=
  ⟨List.Subset.refl _, List.Subset.refl _, List.Subset.refl _, List.Subset.refl _⟩

theorem Retained.Grown.trans {db db' db'' : Retained} (h : db.Grown db')
    (h' : db'.Grown db'') : db.Grown db'' :=
  ⟨List.Subset.trans h.workloads h'.workloads,
    List.Subset.trans h.idempotencyKeys h'.idempotencyKeys,
    List.Subset.trans h.deliveries h'.deliveries, List.Subset.trans h.failures h'.failures⟩

theorem Retained.grown_insert (db : Retained) (e : ArchiveEvent) : db.Grown (db.insert e) := by
  have hrefl := Retained.Grown.refl db
  cases e with
  | archive i => exact hrefl
  | insertWorkload w => exact { hrefl with workloads := rows_subset_insert _ _ }
  | insertKey r => exact { hrefl with idempotencyKeys := rows_subset_insert _ _ }
  | insertDelivery d => exact { hrefl with deliveries := rows_subset_insert _ _ }
  | insertFailure f => exact { hrefl with failures := rows_subset_insert _ _ }

def ArchiveWorld.Archived (s : ArchiveWorld) (holds : ArchiveRecord → Prop) : Prop :=
  ∃ a ∈ s.archives, ∃ r ∈ a, holds r

structure ArchiveWorld.NothingLost (s : ArchiveWorld) : Prop where
  workloads : ∀ w ∈ s.purged.workloads, s.Archived fun r => r.workload = w
  idempotencyKeys : ∀ i ∈ s.purged.idempotencyKeys,
    s.Archived fun r => i ∈ r.relatedIdempotencyKeys
  deliveries : ∀ d ∈ s.purged.deliveries, s.Archived fun r => d ∈ r.relatedInboundWebhooks
  failures : ∀ f ∈ s.purged.failures,
    s.Archived fun r => f ∈ r.relatedOutboundWebhookFailures

/-- An object is deleted only once the rows that name it are purged. -/
def ArchiveWorld.ObjectsAfterCommit (s : ArchiveWorld) : Prop :=
  ∀ key ∈ s.deletedObjects, ∀ a ∈ s.archives, ∀ r ∈ a, key ∈ r.objectKeys →
    ∃ w ∈ s.purged.workloads, w.id = r.workload.id

/-- What the run keeps to whatever others insert: every workload it deletes is archived, so
is every related row that was there when the batch was selected, and an object is deleted
after a record that names it was archived. -/
structure ArchiveWorld.Kept (s : ArchiveWorld) : Prop where
  workloads : ∀ w ∈ s.purged.workloads, s.Archived fun r => r.workload = w
  idempotencyKeys : ∀ db ∈ s.snapshot, ∀ i ∈ s.purged.idempotencyKeys,
    i ∈ db.idempotencyKeys.rows → s.Archived fun r => i ∈ r.relatedIdempotencyKeys
  deliveries : ∀ db ∈ s.snapshot, ∀ d ∈ s.purged.deliveries,
    d ∈ db.deliveries.rows → s.Archived fun r => d ∈ r.relatedInboundWebhooks
  failures : ∀ db ∈ s.snapshot, ∀ f ∈ s.purged.failures,
    f ∈ db.failures.rows → s.Archived fun r => f ∈ r.relatedOutboundWebhookFailures
  objects : ∀ key ∈ s.deletedObjects, s.Archived fun r => key ∈ r.objectKeys

structure ArchiveWorld.Underway (s : ArchiveWorld) (tx : ArchiveTx) : Prop where
  unpurged : s.purged = .nothing
  selected : ∃ db, s.snapshot = some db ∧ db.Grown s.db ∧
    ∀ r ∈ tx.records, r.workload ∈ db.workloads.rows ∧ r = db.recordOf r.workload
  idempotencyKeys : Staged s.db.idempotencyKeys.rows KeyReservation.idempotencyKey
    (fun i => i.workloadId ∈ tx.workloadIds) tx.idempotencyKeys
  deliveries : Staged s.db.deliveries.rows WebhookDelivery.id
    (fun d => d.runpodJobId ∈ tx.runpodJobIds) tx.deliveries
  failures : Staged s.db.failures.rows WebhookFailure.id
    (fun f => f.workloadId ∈ tx.workloadIds) tx.failures
  workloads : Staged s.db.workloads.rows Workload.id
    (fun w => w.id ∈ tx.workloadIds) tx.workloads

def ArchiveWorld.Progress (s : ArchiveWorld) : ArchiveState → Prop
  | .starting | .selecting _ => s.purged = .nothing
  | .writing tx => s.Underway tx
  | .deletingObjects tx | .deletingKeys tx | .deletingDeliveries tx | .deletingFailures tx
  | .deletingWorkloads tx | .recordingRun tx | .auditing tx | .committing tx =>
      s.Underway tx ∧ tx.records ∈ s.archives
  | .writingEvidence _ | .returned _ _ _ | .raised _ => True

theorem ArchiveWorld.Kept.of_unpurged {s : ArchiveWorld} (hpurged : s.purged = .nothing)
    (hobjects : ∀ key ∈ s.deletedObjects, s.Archived fun r => key ∈ r.objectKeys) :
    s.Kept where
  workloads := by simp [hpurged, Purged.nothing]
  idempotencyKeys := by simp [hpurged, Purged.nothing]
  deliveries := by simp [hpurged, Purged.nothing]
  failures := by simp [hpurged, Purged.nothing]
  objects := hobjects

theorem mem_objectKeys_of_externalKeys {call : ArchiveCall} {records : List ArchiveRecord}
    {key : String} (h : key ∈ call.externalKeys records) :
    ∃ r ∈ records, key ∈ r.objectKeys := by
  unfold ArchiveCall.externalKeys at h
  split at h
  · rw [List.mem_insertionSort, List.mem_dedup] at h
    exact List.mem_flatMap.mp h
  · simp at h

section Commit
variable {s : ArchiveWorld} {tx : ArchiveTx}

theorem ArchiveWorld.Underway.archived_workload (h : s.Underway tx)
    (hwritten : tx.records ∈ s.archives) {w : Workload} (hw : w ∈ s.db.workloads.rows)
    (hid : w.id ∈ tx.workloads) : s.Archived fun r => r.workload = w := by
  obtain ⟨v, hv, hvid, hmatched⟩ := h.workloads w.id hid
  obtain ⟨db, -, hgrown, hrecords⟩ := h.selected
  obtain ⟨r, hr, hrid⟩ := List.mem_map.mp hmatched
  have hrw : r.workload = w := by
    refine s.db.workloads.eq_of_id (hgrown.workloads (hrecords r hr).1) hw ?_
    exact hrid.trans hvid
  exact ⟨tx.records, hwritten, r, hr, hrw⟩

theorem ArchiveWorld.Underway.record {db : Retained} (h : s.Underway tx)
    (hdb : s.snapshot = some db) {r : ArchiveRecord} (hr : r ∈ tx.records) :
    r = db.recordOf r.workload := by
  obtain ⟨db', hdb', -, hrecords⟩ := h.selected
  rw [hdb] at hdb'
  cases hdb'
  exact (hrecords r hr).2

theorem ArchiveWorld.Underway.archived_key {db : Retained} (h : s.Underway tx)
    (hwritten : tx.records ∈ s.archives) (hdb : s.snapshot = some db) {i : KeyReservation}
    (hi : i ∈ s.db.idempotencyKeys.rows) (hid : i.idempotencyKey ∈ tx.idempotencyKeys)
    (hold : i ∈ db.idempotencyKeys.rows) :
    s.Archived fun r => i ∈ r.relatedIdempotencyKeys := by
  obtain ⟨j, hj, hjid, hmatched⟩ := h.idempotencyKeys i.idempotencyKey hid
  have hji : j = i := s.db.idempotencyKeys.eq_of_uniq hj hi (k := i.idempotencyKey)
    (by simp [hjid]) (by simp)
  subst hji
  obtain ⟨r, hr, hrid⟩ := List.mem_map.mp hmatched
  refine ⟨tx.records, hwritten, r, hr, ?_⟩
  rw [h.record hdb hr]
  simp [Retained.recordOf, hold, hrid]

theorem ArchiveWorld.Underway.archived_delivery {db : Retained} (h : s.Underway tx)
    (hwritten : tx.records ∈ s.archives) (hdb : s.snapshot = some db) {d : WebhookDelivery}
    (hd : d ∈ s.db.deliveries.rows) (hid : d.id ∈ tx.deliveries)
    (hold : d ∈ db.deliveries.rows) :
    s.Archived fun r => d ∈ r.relatedInboundWebhooks := by
  obtain ⟨e, he, heid, hmatched⟩ := h.deliveries d.id hid
  have hed : e = d := s.db.deliveries.eq_of_uniq he hd (k := .id d.id)
    (by simp [WebhookDelivery.uniq, heid]) (by simp [WebhookDelivery.uniq])
  subst hed
  obtain ⟨r, hr, hjob⟩ := List.mem_filterMap.mp hmatched
  refine ⟨tx.records, hwritten, r, hr, ?_⟩
  rw [h.record hdb hr]
  simp [Retained.recordOf, hold, eq_some_of_nonEmpty hjob]

theorem ArchiveWorld.Underway.archived_failure {db : Retained} (h : s.Underway tx)
    (hwritten : tx.records ∈ s.archives) (hdb : s.snapshot = some db) {f : WebhookFailure}
    (hf : f ∈ s.db.failures.rows) (hid : f.id ∈ tx.failures)
    (hold : f ∈ db.failures.rows) :
    s.Archived fun r => f ∈ r.relatedOutboundWebhookFailures := by
  obtain ⟨g, hg, hgid, hmatched⟩ := h.failures f.id hid
  have hgf : g = f := s.db.failures.eq_of_uniq hg hf (k := .id f.id)
    (by simp [WebhookFailure.uniq, hgid]) (by simp [WebhookFailure.uniq])
  subst hgf
  obtain ⟨r, hr, hrid⟩ := List.mem_map.mp hmatched
  refine ⟨tx.records, hwritten, r, hr, ?_⟩
  rw [h.record hdb hr]
  simp [Retained.recordOf, hold, hrid]

theorem ArchiveWorld.Underway.commit_kept (h : s.Underway tx) (hwritten : tx.records ∈ s.archives)
    (hkept : s.Kept) :
    ({ s with db := s.db.commit tx, purged := s.db.purgedBy tx } : ArchiveWorld).Kept where
  workloads := by
    intro w hw
    simp only [Retained.purgedBy, List.mem_filter, List.contains_iff_mem] at hw
    exact h.archived_workload hwritten hw.1 hw.2
  idempotencyKeys := by
    intro db hdb i hi hold
    simp only [Retained.purgedBy, List.mem_filter, List.contains_iff_mem] at hi
    exact h.archived_key hwritten hdb hi.1 hi.2 hold
  deliveries := by
    intro db hdb d hd hold
    simp only [Retained.purgedBy, List.mem_filter, List.contains_iff_mem] at hd
    exact h.archived_delivery hwritten hdb hd.1 hd.2 hold
  failures := by
    intro db hdb f hf hold
    simp only [Retained.purgedBy, List.mem_filter, List.contains_iff_mem] at hf
    exact h.archived_failure hwritten hdb hf.1 hf.2 hold
  objects := hkept.objects

end Commit

theorem underway_selected {call : ArchiveCall} {s : ArchiveWorld} {cutoff : Instant}
    {locked : String → Bool} (hpurged : s.purged = .nothing) :
    ({ s with snapshot := some s.db } : ArchiveWorld).Underway
      ⟨cutoff, (s.db.workloads.selectBatch call.collate cutoff call.batchSize.toNat locked).map
        s.db.recordOf, [], [], [], []⟩ where
  unpurged := hpurged
  selected := by
    refine ⟨s.db, rfl, .refl _, ?_⟩
    intro r hr
    obtain ⟨w, hw, rfl⟩ := List.mem_map.mp hr
    exact ⟨(Workloads.mem_selectBatch hw).1, rfl⟩
  idempotencyKeys := staged_nil _ _ _
  deliveries := staged_nil _ _ _
  failures := staged_nil _ _ _
  workloads := staged_nil _ _ _

theorem ArchiveWorld.Underway.congr {s s' : ArchiveWorld} {tx : ArchiveTx} (h : s.Underway tx)
    (hpurged : s'.purged = s.purged) (hsnapshot : s'.snapshot = s.snapshot) (hdb : s'.db = s.db) :
    s'.Underway tx where
  unpurged := hpurged.trans h.unpurged
  selected := by
    rw [hsnapshot, hdb]
    exact h.selected
  idempotencyKeys := by
    rw [hdb]
    exact h.idempotencyKeys
  deliveries := by
    rw [hdb]
    exact h.deliveries
  failures := by
    rw [hdb]
    exact h.failures
  workloads := by
    rw [hdb]
    exact h.workloads

theorem archiveStep_selecting {call : ArchiveCall} {s : ArchiveWorld} {i : ArchiveInput}
    {cutoff : Instant} (hkept : s.Kept) (hprogress : s.Progress (.selecting cutoff)) :
    (archiveStep call (.selecting cutoff) s i).1.Kept ∧
      (archiveStep call (.selecting cutoff) s i).1.Progress
        (archiveStep call (.selecting cutoff) s i).2 := by
  simp only [archiveStep]
  split
  · exact ⟨hkept, trivial⟩
  · refine ⟨.of_unpurged hprogress hkept.objects, ?_⟩
    split
    · trivial
    · exact underway_selected hprogress

theorem archiveStep_writing {call : ArchiveCall} {s : ArchiveWorld} {i : ArchiveInput}
    {tx : ArchiveTx} (hkept : s.Kept) (hprogress : s.Progress (.writing tx)) :
    (archiveStep call (.writing tx) s i).1.Kept ∧
      (archiveStep call (.writing tx) s i).1.Progress (archiveStep call (.writing tx) s i).2 := by
  simp only [archiveStep]
  split
  · exact ⟨hkept, trivial⟩
  · have hobjects : ∀ key ∈ s.deletedObjects,
        ({ s with archives := s.archives ++ [tx.records] } : ArchiveWorld).Archived
          fun r => key ∈ r.objectKeys := by
      intro key hkey
      obtain ⟨a, ha, r, hr, hnames⟩ := hkept.objects key hkey
      exact ⟨a, List.mem_append_left _ ha, r, hr, hnames⟩
    have hunderway : ({ s with archives := s.archives ++ [tx.records] } :
        ArchiveWorld).Underway tx := ArchiveWorld.Underway.congr hprogress rfl rfl rfl
    refine ⟨.of_unpurged hunderway.unpurged hobjects, ?_⟩
    split
    · exact ⟨hunderway, by simp⟩
    · exact ⟨hunderway, by simp⟩

theorem archiveStep_deletingObjects {call : ArchiveCall} {s : ArchiveWorld} {i : ArchiveInput}
    {tx : ArchiveTx} (hkept : s.Kept) (hprogress : s.Progress (.deletingObjects tx)) :
    (archiveStep call (.deletingObjects tx) s i).1.Kept ∧
      (archiveStep call (.deletingObjects tx) s i).1.Progress
        (archiveStep call (.deletingObjects tx) s i).2 := by
  obtain ⟨hunderway, hwritten⟩ := hprogress
  simp only [archiveStep]
  split
  · exact ⟨hkept, hunderway, hwritten⟩
  · rename_i key keys hkeys
    have hnamed : ∀ k ∈ key :: keys, s.Archived fun r => k ∈ r.objectKeys := by
      intro k hk
      rw [← hkeys] at hk
      obtain ⟨r, hr, hnames⟩ := mem_objectKeys_of_externalKeys hk
      exact ⟨tx.records, hwritten, r, hr, hnames⟩
    have hdeleted : ∀ gone : List String, (∀ k ∈ gone, k ∈ key :: keys) →
        ∀ k ∈ s.deletedObjects ++ gone, s.Archived fun r => k ∈ r.objectKeys := by
      intro gone hgone k hk
      rcases List.mem_append.mp hk with hk | hk
      · exact hkept.objects k hk
      · exact hnamed k (hgone k hk)
    split
    · exact ⟨hkept, trivial⟩
    · split
      · exact ⟨.of_unpurged hunderway.unpurged (hdeleted _ fun _ => List.mem_of_mem_take),
          trivial⟩
      · exact ⟨.of_unpurged hunderway.unpurged (hdeleted _ fun _ hk => hk),
          hunderway.congr rfl rfl rfl, hwritten⟩

theorem archiveStep_kept (call : ArchiveCall) (l : ArchiveState) (s : ArchiveWorld)
    (i : ArchiveInput) (hkept : s.Kept) (hprogress : s.Progress l) :
    (archiveStep call l s i).1.Kept ∧
      (archiveStep call l s i).1.Progress (archiveStep call l s i).2 := by
  cases l with
  | starting =>
    simp only [archiveStep]
    split
    · exact ⟨hkept, trivial⟩
    · exact ⟨hkept, hprogress⟩
  | selecting cutoff => exact archiveStep_selecting hkept hprogress
  | writing tx => exact archiveStep_writing hkept hprogress
  | deletingObjects tx => exact archiveStep_deletingObjects hkept hprogress
  | deletingKeys tx =>
    simp only [archiveStep]
    split
    · exact ⟨hkept, trivial⟩
    · refine ⟨hkept, { hprogress.1 with idempotencyKeys := ?_ }, hprogress.2⟩
      exact staged_filter (fun r hr => List.contains_iff_mem.mp hr)
  | deletingDeliveries tx =>
    simp only [archiveStep]
    split
    · exact ⟨hkept, trivial⟩
    · refine ⟨hkept, { hprogress.1 with deliveries := ?_ }, hprogress.2⟩
      exact staged_filter (fun d hd => List.contains_iff_mem.mp hd)
  | deletingFailures tx =>
    simp only [archiveStep]
    split
    · exact ⟨hkept, trivial⟩
    · refine ⟨hkept, { hprogress.1 with failures := ?_ }, hprogress.2⟩
      exact staged_filter (fun f hf => List.contains_iff_mem.mp hf)
  | deletingWorkloads tx =>
    simp only [archiveStep]
    split
    · exact ⟨hkept, trivial⟩
    · refine ⟨hkept, { hprogress.1 with workloads := ?_ }, hprogress.2⟩
      refine staged_filter (fun w hw => ?_)
      rw [Bool.and_eq_true] at hw
      exact List.contains_iff_mem.mp hw.1
  | recordingRun tx =>
    simp only [archiveStep]
    split
    · exact ⟨hkept, trivial⟩
    · exact ⟨hkept, hprogress⟩
  | auditing tx =>
    simp only [archiveStep]
    split
    · exact ⟨hkept, trivial⟩
    · exact ⟨hkept, hprogress⟩
  | committing tx =>
    simp only [archiveStep]
    split
    · exact ⟨hkept, trivial⟩
    · exact ⟨hprogress.1.commit_kept hprogress.2 hkept, trivial⟩
  | writingEvidence tx =>
    simp only [archiveStep]
    split
    · exact ⟨hkept, trivial⟩
    · exact ⟨hkept, trivial⟩
  | returned workloads deleted committed => exact ⟨hkept, trivial⟩
  | raised e => exact ⟨hkept, trivial⟩

theorem ArchiveWorld.Underway.insert {s : ArchiveWorld} {tx : ArchiveTx} (h : s.Underway tx)
    (e : ArchiveEvent) : ({ s with db := s.db.insert e } : ArchiveWorld).Underway tx := by
  have hgrown := s.db.grown_insert e
  refine ⟨h.unpurged, ?_, h.idempotencyKeys.mono hgrown.idempotencyKeys,
    h.deliveries.mono hgrown.deliveries, h.failures.mono hgrown.failures,
    h.workloads.mono hgrown.workloads⟩
  obtain ⟨db, hdb, hold, hrecords⟩ := h.selected
  exact ⟨db, hdb, hold.trans hgrown, hrecords⟩

theorem insertion_kept {s : ArchiveWorld} {l : ArchiveState} (e : ArchiveEvent) (hkept : s.Kept)
    (hprogress : s.Progress l) :
    ({ s with db := s.db.insert e } : ArchiveWorld).Kept ∧
      ({ s with db := s.db.insert e } : ArchiveWorld).Progress l := by
  refine ⟨⟨hkept.workloads, hkept.idempotencyKeys, hkept.deliveries, hkept.failures,
    hkept.objects⟩, ?_⟩
  cases l with
  | starting => exact hprogress
  | selecting cutoff => exact hprogress
  | writing tx => exact ArchiveWorld.Underway.insert hprogress e
  | deletingObjects tx => exact ⟨hprogress.1.insert e, hprogress.2⟩
  | deletingKeys tx => exact ⟨hprogress.1.insert e, hprogress.2⟩
  | deletingDeliveries tx => exact ⟨hprogress.1.insert e, hprogress.2⟩
  | deletingFailures tx => exact ⟨hprogress.1.insert e, hprogress.2⟩
  | deletingWorkloads tx => exact ⟨hprogress.1.insert e, hprogress.2⟩
  | recordingRun tx => exact ⟨hprogress.1.insert e, hprogress.2⟩
  | auditing tx => exact ⟨hprogress.1.insert e, hprogress.2⟩
  | committing tx => exact ⟨hprogress.1.insert e, hprogress.2⟩
  | writingEvidence tx => trivial
  | returned workloads deleted committed => trivial
  | raised exc => trivial

/-- No row leaves the database other than into the purged ones. -/
structure ArchiveWorld.Accounted (s s' : ArchiveWorld) : Prop where
  workloads : ∀ w, w ∈ s.db.workloads.rows ∨ w ∈ s.purged.workloads →
    w ∈ s'.db.workloads.rows ∨ w ∈ s'.purged.workloads
  idempotencyKeys : ∀ i, i ∈ s.db.idempotencyKeys.rows ∨ i ∈ s.purged.idempotencyKeys →
    i ∈ s'.db.idempotencyKeys.rows ∨ i ∈ s'.purged.idempotencyKeys
  deliveries : ∀ d, d ∈ s.db.deliveries.rows ∨ d ∈ s.purged.deliveries →
    d ∈ s'.db.deliveries.rows ∨ d ∈ s'.purged.deliveries
  failures : ∀ f, f ∈ s.db.failures.rows ∨ f ∈ s.purged.failures →
    f ∈ s'.db.failures.rows ∨ f ∈ s'.purged.failures

theorem ArchiveWorld.Accounted.trans {s s' s'' : ArchiveWorld} (h : s.Accounted s')
    (h' : s'.Accounted s'') : s.Accounted s'' :=
  ⟨fun w hw => h'.workloads w (h.workloads w hw),
    fun i hi => h'.idempotencyKeys i (h.idempotencyKeys i hi),
    fun d hd => h'.deliveries d (h.deliveries d hd),
    fun f hf => h'.failures f (h.failures f hf)⟩

theorem ArchiveWorld.Accounted.of_grown {s s' : ArchiveWorld} (hdb : s.db.Grown s'.db)
    (hpurged : s'.purged = s.purged) : s.Accounted s' where
  workloads := by
    rw [hpurged]
    exact fun w hw => hw.imp_left (fun h => hdb.workloads h)
  idempotencyKeys := by
    rw [hpurged]
    exact fun i hi => hi.imp_left (fun h => hdb.idempotencyKeys h)
  deliveries := by
    rw [hpurged]
    exact fun d hd => hd.imp_left (fun h => hdb.deliveries h)
  failures := by
    rw [hpurged]
    exact fun f hf => hf.imp_left (fun h => hdb.failures h)

theorem mem_delete_or_filter {ρ κ : Type} {uniq : ρ → List κ} {t : Table uniq} {p : ρ → Bool}
    {r : ρ} (h : r ∈ t.rows) : r ∈ (t.delete p).rows ∨ r ∈ t.rows.filter p := by
  rw [Table.rows_delete]
  cases hp : p r with
  | true => exact .inr (List.mem_filter.mpr ⟨h, hp⟩)
  | false => exact .inl (List.mem_filter.mpr ⟨h, by simp [hp]⟩)

theorem accounted_commit {s : ArchiveWorld} {tx : ArchiveTx} (hpurged : s.purged = .nothing) :
    s.Accounted { s with db := s.db.commit tx, purged := s.db.purgedBy tx } where
  workloads := by
    intro w hw
    exact mem_delete_or_filter (by simpa [hpurged, Purged.nothing] using hw)
  idempotencyKeys := by
    intro i hi
    exact mem_delete_or_filter (by simpa [hpurged, Purged.nothing] using hi)
  deliveries := by
    intro d hd
    exact mem_delete_or_filter (by simpa [hpurged, Purged.nothing] using hd)
  failures := by
    intro f hf
    exact mem_delete_or_filter (by simpa [hpurged, Purged.nothing] using hf)

theorem archiveStep_accounted (call : ArchiveCall) (l : ArchiveState) (s : ArchiveWorld)
    (i : ArchiveInput) (hprogress : s.Progress l) :
    s.Accounted (archiveStep call l s i).1 := by
  have hsame : ∀ s' : ArchiveWorld, s'.db = s.db → s'.purged = s.purged → s.Accounted s' :=
    fun s' hdb hpurged => .of_grown (hdb ▸ .refl _) hpurged
  cases l with
  | committing tx =>
    simp only [archiveStep]
    split
    · exact hsame s rfl rfl
    · exact accounted_commit hprogress.1.unpurged
  | deletingObjects tx =>
    simp only [archiveStep]
    split
    · exact hsame _ rfl rfl
    · split
      · exact hsame _ rfl rfl
      · split <;> exact hsame _ rfl rfl
  | returned workloads deleted committed => exact hsame s rfl rfl
  | raised e => exact hsame s rfl rfl
  | _ =>
    simp only [archiveStep]
    split <;> exact hsame _ rfl rfl

section Runs
variable (call : ArchiveCall)

theorem archiveRunStep_kept (c : ArchiveRun) (e : ArchiveEvent)
    (h : c.world.Kept ∧ c.world.Progress c.state) :
    (archiveRunStep call c e).world.Kept ∧
      (archiveRunStep call c e).world.Progress (archiveRunStep call c e).state := by
  cases e with
  | archive i => exact archiveStep_kept call c.state c.world i h.1 h.2
  | _ => exact insertion_kept _ h.1 h.2

theorem archiveRunStep_accounted (c : ArchiveRun) (e : ArchiveEvent)
    (h : c.world.Progress c.state) : c.world.Accounted (archiveRunStep call c e).world := by
  cases e with
  | archive i => exact archiveStep_accounted call c.state c.world i h
  | insertWorkload w => exact .of_grown (c.world.db.grown_insert (.insertWorkload w)) rfl
  | insertKey r => exact .of_grown (c.world.db.grown_insert (.insertKey r)) rfl
  | insertDelivery d => exact .of_grown (c.world.db.grown_insert (.insertDelivery d)) rfl
  | insertFailure f => exact .of_grown (c.world.db.grown_insert (.insertFailure f)) rfl

theorem start_kept (db : Retained) :
    (ArchiveRun.start db).world.Kept ∧
      (ArchiveRun.start db).world.Progress (ArchiveRun.start db).state :=
  ⟨.of_unpurged rfl (by simp [ArchiveRun.start]), rfl⟩

theorem archive_keeps (db : Retained) (events : List ArchiveEvent) :
    (run (archiveRunStep call) (.start db) events).world.Kept :=
  (run_preserves (archiveRunStep_kept call) (start_kept db) events).1

/-- Over every interleaving, a row that is gone was purged; what the run purges of the rows
it had selected, and of those related to them at that time, is in its archive; and it
deletes no object that no archived row names. -/
theorem archive_keeps_selected (db : Retained) (events : List ArchiveEvent) :
    (run (archiveRunStep call) (.start db) events).world.Kept ∧
    ∀ es fs, es ++ fs <+: events →
      (run (archiveRunStep call) (.start db) es).world.Accounted
        (run (archiveRunStep call) (.start db) (es ++ fs)).world := by
  refine ⟨archive_keeps call db events, ?_⟩
  have halong : Along (archiveRunStep call)
      (fun c e => c.world.Accounted (archiveRunStep call c e).world) (.start db) events := by
    refine along_of_invariant (P := fun _ _ => True)
      (I := fun c => c.world.Kept ∧ c.world.Progress c.state) (fun c e h _ => ?_)
      (start_kept db) (along_of_forall (fun _ _ => trivial) _ _)
    exact ⟨archiveRunStep_kept call c e h, archiveRunStep_accounted call c e h.2⟩
  exact (along_iff_forall_run (R := fun c c' : ArchiveRun => c.world.Accounted c'.world)
    (fun c => .of_grown (.refl _) rfl) (fun h h' => h.trans h')).mp halong

end Runs

section Lost

def purgeCall : ArchiveCall :=
  ⟨1, 1000, true, false, some "key", some "1", true, true, fun _ _ => true⟩

def stagedWorkload : Workload :=
  { Workload.bare "wkl_1" "cap" "prov" "async_job" .completed 0 with
    runpodJobId := some "job_1"
    input := some (.obj [("r2_key", .str "staging/1")]) }

def stagedDb : Retained :=
  ⟨⟨[stagedWorkload], by simp [Workload.uniq, stagedWorkload, Workload.bare]⟩,
    Table.empty, Table.empty, Table.empty⟩

def onThirdDay (fault : Option PyError) : ArchiveEvent :=
  .archive ⟨2 * microsPerDay, fault, fun _ => false, 0⟩

def lateDelivery : WebhookDelivery := ⟨1, "job_1", 1, 0, none⟩

/-- The batch is selected and archived and its object is deleted; then RunPod delivers
once more, and the run goes on to its commit. -/
def deliveredMeanwhile : List ArchiveEvent :=
  List.replicate 4 (onThirdDay none) ++ [.insertDelivery lateDelivery] ++
    List.replicate 7 (onThirdDay none)

/-- The `INSERT INTO retention_runs` fails. -/
def rolledBack : List ArchiveEvent :=
  List.replicate 8 (onThirdDay none) ++ [onThirdDay (some ⟨"PostgresError", ""⟩)]

theorem late_delivery_lost :
    ¬ (run (archiveRunStep purgeCall) (.start stagedDb) deliveredMeanwhile).world.NothingLost := by
  intro h
  have hpurged : lateDelivery ∈ (run (archiveRunStep purgeCall) (.start stagedDb)
      deliveredMeanwhile).world.purged.deliveries := List.mem_singleton.mpr rfl
  obtain ⟨a, ha, r, hr, hd⟩ := h.deliveries _ hpurged
  have hnone : ((run (archiveRunStep purgeCall) (.start stagedDb)
      deliveredMeanwhile).world.archives.flatten.flatMap
        ArchiveRecord.relatedInboundWebhooks).length = 0 := by decide
  have hmem := List.mem_flatMap.mpr ⟨r, List.mem_flatten.mpr ⟨a, ha, hr⟩, hd⟩
  rw [List.length_eq_zero_iff] at hnone
  rw [hnone] at hmem
  simp at hmem

theorem object_of_kept_row_deleted :
    ¬ (run (archiveRunStep purgeCall) (.start stagedDb) rolledBack).world.ObjectsAfterCommit := by
  intro h
  have hdeleted : (run (archiveRunStep purgeCall) (.start stagedDb)
      rolledBack).world.deletedObjects = ["staging/1"] := by decide
  have hkept : (run (archiveRunStep purgeCall) (.start stagedDb)
      rolledBack).world.purged.workloads = [] := rfl
  obtain ⟨a, ha, r, hr, hnames⟩ :=
    (archive_keeps purgeCall stagedDb rolledBack).objects "staging/1" (by simp [hdeleted])
  obtain ⟨w, hw, -⟩ := h "staging/1" (by simp [hdeleted]) a ha r hr hnames
  simp [hkept] at hw

/-- A delivery that comes in between is deleted without being archived, and a transaction
that fails late has deleted the objects of rows that stay. -/
theorem purge_loses_delivery_and_object :
    (¬ ∀ (call : ArchiveCall) (db : Retained) (events : List ArchiveEvent), call.purge = true →
      (run (archiveRunStep call) (.start db) events).world.NothingLost) ∧
    ¬ ∀ (call : ArchiveCall) (db : Retained) (events : List ArchiveEvent), call.purge = true →
      (run (archiveRunStep call) (.start db) events).world.ObjectsAfterCommit :=
  ⟨fun h => late_delivery_lost (h purgeCall stagedDb deliveredMeanwhile rfl),
    fun h => object_of_kept_row_deleted (h purgeCall stagedDb rolledBack rfl)⟩

end Lost

end Pitwall
