import Mathlib.Data.List.Dedup
import Mathlib.Data.List.Sort
import Pitwall.Core.Ledger
import Pitwall.Core.Webhooks
set_option autoImplicit false

/-!
`archive_workloads_to_jsonl`, statement by statement. It runs in one transaction at
`READ COMMITTED`: each statement sees what others have committed before it, and what the
transaction deletes is gone for others at its commit only. The files are modelled by the
records they hold; an archive counts as written together with its manifest.
-/

namespace Pitwall

/-- `w.submitted_at < $1 AND w.state = ANY(TERMINAL_STATES)`. -/
def Workload.eligible (cutoff : Instant) (w : Workload) : Bool :=
  decide (w.submittedAt < cutoff) && w.state.terminal

/-- `ORDER BY w.submitted_at, w.id`, the ids in the collation of the database. -/
def Workload.archivedBefore (collate : String → String → Bool) (v w : Workload) : Prop :=
  v.submittedAt < w.submittedAt ∨ (v.submittedAt = w.submittedAt ∧ collate v.id w.id = true)

instance (collate : String → String → Bool) : DecidableRel (Workload.archivedBefore collate) :=
  fun v w => inferInstanceAs (Decidable
    (v.submittedAt < w.submittedAt ∨ (v.submittedAt = w.submittedAt ∧ collate v.id w.id = true)))

namespace Workloads

/-- The workloads of `_SELECT_BATCH`; rows that others have locked are skipped. -/
def selectBatch (t : Workloads) (collate : String → String → Bool) (cutoff : Instant)
    (batchSize : Nat) (locked : String → Bool) : List Workload :=
  ((t.rows.filter fun w => w.eligible cutoff && !locked w.id).insertionSort
    (Workload.archivedBefore collate)).take batchSize

theorem mem_selectBatch {t : Workloads} {collate : String → String → Bool} {cutoff : Instant}
    {batchSize : Nat} {locked : String → Bool} {w : Workload}
    (h : w ∈ t.selectBatch collate cutoff batchSize locked) :
    w ∈ t.rows ∧ w.eligible cutoff = true := by
  have hw := List.mem_of_mem_take h
  rw [List.mem_insertionSort, List.mem_filter, Bool.and_eq_true] at hw
  exact ⟨hw.1, hw.2.1⟩

end Workloads

structure Retained where
  workloads : Workloads
  idempotencyKeys : KeyReservations
  deliveries : WebhookDeliveries
  failures : WebhookFailures

structure ArchiveRecord where
  workload : Workload
  relatedIdempotencyKeys : List KeyReservation
  relatedInboundWebhooks : List WebhookDelivery
  relatedOutboundWebhookFailures : List WebhookFailure

def Retained.recordOf (db : Retained) (w : Workload) : ArchiveRecord where
  workload := w
  relatedIdempotencyKeys := db.idempotencyKeys.rows.filter fun i => i.workloadId = w.id
  relatedInboundWebhooks := db.deliveries.rows.filter fun d => some d.runpodJobId = w.runpodJobId
  relatedOutboundWebhookFailures := db.failures.rows.filter fun f => f.workloadId = w.id

mutual

/-- `_object_keys`: the object-storage keys named anywhere in a JSON value. -/
def objectKeys : Json → List String
  | .obj fields => objectKeysOfFields fields
  | .arr items => objectKeysOfItems items
  | _ => []

def objectKeysOfFields : List (String × Json) → List String
  | [] => []
  | (name, child) :: fields =>
      (if ["r2_key", "object_key", "staging_key"].contains name then
        match child with
        | .str key => [key]
        | _ => []
      else []) ++ objectKeys child ++ objectKeysOfFields fields

def objectKeysOfItems : List Json → List String
  | [] => []
  | child :: items => objectKeys child ++ objectKeysOfItems items

end

/-- The object keys in the `jsonb` columns of a record. No column bears one of the names
that `_object_keys` looks for. -/
def ArchiveRecord.objectKeys (r : ArchiveRecord) : List String :=
  let w := r.workload
  (w.input.toList ++ w.result.toList ++ w.error.toList ++
    r.relatedInboundWebhooks.filterMap (fun d => d.payload) ++
    r.relatedOutboundWebhookFailures.map (fun f => f.payload)).flatMap Pitwall.objectKeys

structure ArchiveCall where
  olderThanDays : Int
  batchSize : Int
  purge : Bool
  dryRun : Bool
  /-- `encryption_key` or the environment's, and the key version likewise. -/
  keyText : Option String
  version : Option String
  /-- Whether an `object_delete` adapter is given. -/
  objectDelete : Bool
  /-- Whether the pool decodes `jsonb`, as the broker's own does; else it is text. -/
  decodesJsonb : Bool
  /-- Text order of the database. -/
  collate : String → String → Bool

def maxBatchSize : Int := 10000

def ArchiveCall.checkArguments (call : ArchiveCall) : Except PyError Unit :=
  if call.olderThanDays < 1 then
    .error ⟨"ValueError", "older_than_days must be at least 1"⟩
  else if call.batchSize < 1 ∨ maxBatchSize < call.batchSize then
    .error ⟨"ValueError", "batch_size must be between 1 and 10000"⟩
  else if !call.dryRun && ((nonEmpty call.keyText).isNone || (nonEmpty call.version).isNone) then
    .error ⟨"ValueError", "archive encryption key and key version are required"⟩
  else .ok ()

/-- `started_at - timedelta(days=older_than_days)`. -/
def ArchiveCall.cutoff (call : ArchiveCall) (startedAt : Instant) : Instant :=
  startedAt - call.olderThanDays * microsPerDay

/-- `sorted(_object_keys(rows))`. -/
def ArchiveCall.externalKeys (call : ArchiveCall) (records : List ArchiveRecord) : List String :=
  if call.decodesJsonb then
    ((records.flatMap ArchiveRecord.objectKeys).dedup).insertionSort (· ≤ ·)
  else []

/-- The transaction so far: the batch it selected and the rows it has deleted, by id. -/
structure ArchiveTx where
  cutoff : Instant
  records : List ArchiveRecord
  idempotencyKeys : List String
  deliveries : List Int
  failures : List Int
  workloads : List String

def ArchiveTx.workloadIds (tx : ArchiveTx) : List String :=
  tx.records.map fun r => r.workload.id

def ArchiveTx.runpodJobIds (tx : ArchiveTx) : List String :=
  tx.records.filterMap fun r => nonEmpty r.workload.runpodJobId

inductive ArchiveState where
  | starting
  | selecting (cutoff : Instant)
  | writing (tx : ArchiveTx)
  | deletingObjects (tx : ArchiveTx)
  | deletingKeys (tx : ArchiveTx)
  | deletingDeliveries (tx : ArchiveTx)
  | deletingFailures (tx : ArchiveTx)
  | deletingWorkloads (tx : ArchiveTx)
  | recordingRun (tx : ArchiveTx)
  | auditing (tx : ArchiveTx)
  | committing (tx : ArchiveTx)
  | writingEvidence (tx : ArchiveTx)
  | returned (workloadCount deletedCount : Nat) (databaseCommitted : Bool)
  | raised (exc : PyError)

/-- What the world supplies to one step: the clock, the failure of the statement, the file
write or the adapter, the rows that are locked, and how many objects the adapter had
deleted when it failed. -/
structure ArchiveInput where
  utcNow : Instant
  fault : Option PyError
  locked : String → Bool
  deletedBeforeFault : Nat

structure Purged where
  workloads : List Workload
  idempotencyKeys : List KeyReservation
  deliveries : List WebhookDelivery
  failures : List WebhookFailure

def Purged.nothing : Purged := ⟨[], [], [], []⟩

/-- What the run works on, and what has become of it: the archives written, the objects
deleted, the rows purged, and the database as `_SELECT_BATCH` saw it. -/
structure ArchiveWorld where
  db : Retained
  archives : List (List ArchiveRecord)
  deletedObjects : List String
  purged : Purged
  snapshot : Option Retained

def Retained.commit (db : Retained) (tx : ArchiveTx) : Retained where
  workloads := db.workloads.delete fun w => tx.workloads.contains w.id
  idempotencyKeys :=
    db.idempotencyKeys.delete fun i => tx.idempotencyKeys.contains i.idempotencyKey
  deliveries := db.deliveries.delete fun d => tx.deliveries.contains d.id
  failures := db.failures.delete fun f => tx.failures.contains f.id

def Retained.purgedBy (db : Retained) (tx : ArchiveTx) : Purged where
  workloads := db.workloads.rows.filter fun w => tx.workloads.contains w.id
  idempotencyKeys :=
    db.idempotencyKeys.rows.filter fun i => tx.idempotencyKeys.contains i.idempotencyKey
  deliveries := db.deliveries.rows.filter fun d => tx.deliveries.contains d.id
  failures := db.failures.rows.filter fun f => tx.failures.contains f.id

def noDeletionAdapter : PyError :=
  ⟨"RuntimeError", "archive contains object-storage keys but no deletion adapter"⟩

def archiveStep (call : ArchiveCall) (l : ArchiveState) (s : ArchiveWorld) (i : ArchiveInput) :
    ArchiveWorld × ArchiveState :=
  match l with
  | .starting =>
      match call.checkArguments with
      | .error e => (s, .raised e)
      | .ok _ => (s, .selecting (call.cutoff i.utcNow))
  | .selecting cutoff =>
      match i.fault with
      | some e => (s, .raised e)
      | none =>
          let batch := s.db.workloads.selectBatch call.collate cutoff call.batchSize.toNat i.locked
          let tx : ArchiveTx := ⟨cutoff, batch.map s.db.recordOf, [], [], [], []⟩
          ({ s with snapshot := some s.db },
            if call.dryRun then .returned tx.records.length 0 false else .writing tx)
  | .writing tx =>
      match i.fault with
      | some e => (s, .raised e)
      | none =>
          ({ s with archives := s.archives ++ [tx.records] },
            if call.purge && !tx.records.isEmpty then .deletingObjects tx else .recordingRun tx)
  | .deletingObjects tx =>
      match call.externalKeys tx.records with
      | [] => (s, .deletingKeys tx)
      | key :: keys =>
        if !call.objectDelete then (s, .raised noDeletionAdapter)
        else
          match i.fault with
          | some e =>
              ({ s with
                deletedObjects := s.deletedObjects ++ (key :: keys).take i.deletedBeforeFault },
                .raised e)
          | none =>
              ({ s with deletedObjects := s.deletedObjects ++ key :: keys }, .deletingKeys tx)
  | .deletingKeys tx =>
      match i.fault with
      | some e => (s, .raised e)
      | none =>
          (s, .deletingDeliveries { tx with
            idempotencyKeys := (s.db.idempotencyKeys.rows.filter fun r =>
              tx.workloadIds.contains r.workloadId).map fun r => r.idempotencyKey })
  | .deletingDeliveries tx =>
      match i.fault with
      | some e => (s, .raised e)
      | none =>
          (s, .deletingFailures { tx with
            deliveries := (s.db.deliveries.rows.filter fun d =>
              tx.runpodJobIds.contains d.runpodJobId).map fun d => d.id })
  | .deletingFailures tx =>
      match i.fault with
      | some e => (s, .raised e)
      | none =>
          (s, .deletingWorkloads { tx with
            failures := (s.db.failures.rows.filter fun f =>
              tx.workloadIds.contains f.workloadId).map fun f => f.id })
  | .deletingWorkloads tx =>
      match i.fault with
      | some e => (s, .raised e)
      | none =>
          (s, .recordingRun { tx with
            workloads := (s.db.workloads.rows.filter fun w =>
              tx.workloadIds.contains w.id && w.eligible tx.cutoff).map fun w => w.id })
  | .recordingRun tx =>
      match i.fault with
      | some e => (s, .raised e)
      | none => (s, .auditing tx)
  | .auditing tx =>
      match i.fault with
      | some e => (s, .raised e)
      | none => (s, .committing tx)
  | .committing tx =>
      match i.fault with
      | some e => (s, .raised e)
      | none =>
          ({ s with db := s.db.commit tx, purged := s.db.purgedBy tx }, .writingEvidence tx)
  | .writingEvidence tx =>
      match i.fault with
      | some e => (s, .raised e)
      | none => (s, .returned tx.records.length tx.workloads.length true)
  | .returned workloads deleted committed => (s, .returned workloads deleted committed)
  | .raised e => (s, .raised e)

end Pitwall
