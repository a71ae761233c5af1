import Mathlib.Data.Rat.Defs
import Pitwall.Core.Clock
import Pitwall.Core.Json
import Pitwall.Library.Table
set_option autoImplicit false

namespace Pitwall

inductive WorkloadState where
  | queued | running | completed | failed | cancelled | timedOut
  deriving DecidableEq, Repr

def WorkloadState.terminal : WorkloadState → Bool
  | .queued | .running => false
  | .completed | .failed | .cancelled | .timedOut => true

structure Workload where
  id : String
  capabilityId : String
  providerId : String
  type : String
  state : WorkloadState
  runpodJobId : Option String
  idempotencyKey : Option String
  input : Option Json
  result : Option Json
  fallbackChain : Option (List String)
  error : Option Json
  submittedAt : Instant
  startedAt : Option Instant
  completedAt : Option Instant
  executionMs : Option Int
  queueMs : Option Int
  coldStartMs : Option Int
  inputBytes : Option Int
  outputBytes : Option Int
  costEstimateUsd : Option ℚ
  costActualUsd : Option ℚ
  langfuseTraceId : Option String

def Workload.bare (id capabilityId providerId type : String) (state : WorkloadState)
    (submittedAt : Instant) : Workload where
  id := id
  capabilityId := capabilityId
  providerId := providerId
  type := type
  state := state
  runpodJobId := none
  idempotencyKey := none
  input := none
  result := none
  fallbackChain := none
  error := none
  submittedAt := submittedAt
  startedAt := none
  completedAt := none
  executionMs := none
  queueMs := none
  coldStartMs := none
  inputBytes := none
  outputBytes := none
  costEstimateUsd := none
  costActualUsd := none
  langfuseTraceId := none

/-- Entries in the unique indexes: the primary key, and `idx_workloads_idempotency`,
which covers only the rows with a key. -/
inductive WorkloadIndex where
  | id : String → WorkloadIndex
  | key : String → WorkloadIndex
  deriving DecidableEq

def Workload.uniq (w : Workload) : List WorkloadIndex :=
  .id w.id :: w.idempotencyKey.toList.map .key

abbrev Workloads := Table Workload.uniq

namespace Workloads

def byId (t : Workloads) (id : String) : Option Workload := t.find (fun w => w.id = id)

def byKey (t : Workloads) (key : String) : Option Workload :=
  t.find (fun w => w.idempotencyKey = some key)

/-- `UPDATE ... SET f WHERE id = $1 AND guard`. No statement of the broker assigns
`id` or `idempotency_key`. -/
def updateById (t : Workloads) (id : String) (guard : Workload → Bool)
    (f : Table.Assignment Workload.uniq) : Workloads :=
  t.update (fun w => w.id = id && guard w) f

theorem rows_updateById (t : Workloads) (id : String) (guard : Workload → Bool)
    (f : Table.Assignment Workload.uniq) :
    (t.updateById id guard f).rows =
      t.rows.map fun w => if w.id = id ∧ guard w = true then f.set w else w := by
  simp only [updateById, Table.rows_update, Bool.and_eq_true, decide_eq_true_eq]

def Carries (t : Workloads) (key id : String) : Prop :=
  ∃ w ∈ t.rows, w.idempotencyKey = some key ∧ w.id = id

theorem mem_uniq_id (w : Workload) : WorkloadIndex.id w.id ∈ w.uniq := by
  simp [Workload.uniq]

theorem mem_uniq_key {w : Workload} {key : String} (h : w.idempotencyKey = some key) :
    WorkloadIndex.key key ∈ w.uniq := by
  simp [Workload.uniq, h]

theorem eq_of_id (t : Workloads) {v w : Workload} (hv : v ∈ t.rows) (hw : w ∈ t.rows)
    (h : v.id = w.id) : v = w :=
  t.eq_of_uniq hv hw (mem_uniq_id v) (by rw [h]; exact mem_uniq_id w)

theorem eq_of_key (t : Workloads) {v w : Workload} {key : String} (hv : v ∈ t.rows)
    (hw : w ∈ t.rows) (hkv : v.idempotencyKey = some key)
    (hkw : w.idempotencyKey = some key) : v = w :=
  t.eq_of_uniq hv hw (mem_uniq_key hkv) (mem_uniq_key hkw)

theorem Carries.unique {t : Workloads} {key a b : String} (ha : t.Carries key a)
    (hb : t.Carries key b) : a = b := by
  obtain ⟨v, hv, hkv, rfl⟩ := ha
  obtain ⟨w, hw, hkw, rfl⟩ := hb
  rw [t.eq_of_key hv hw hkv hkw]

theorem uniq_fields {v w : Workload} (h : v.uniq = w.uniq) :
    v.id = w.id ∧ v.idempotencyKey = w.idempotencyKey := by
  unfold Workload.uniq at h
  injection h with hid hkey
  injection hid with hid
  refine ⟨hid, ?_⟩
  cases hv : v.idempotencyKey <;> cases hw : w.idempotencyKey <;> simp_all

theorem Carries.updateById {t : Workloads} {key id target : String}
    {guard : Workload → Bool} {f : Table.Assignment Workload.uniq}
    (h : t.Carries key id) : (t.updateById target guard f).Carries key id := by
  obtain ⟨w, hw, hkey, hid⟩ := h
  refine ⟨_, (by rw [rows_updateById]; exact List.mem_map_of_mem hw), ?_⟩
  split
  · obtain ⟨hid', hkey'⟩ := uniq_fields (f.keeps w)
    rw [hid', hkey']
    exact ⟨hkey, hid⟩
  · exact ⟨hkey, hid⟩

theorem byId_some {t : Workloads} {id : String} {w : Workload} (h : t.byId id = some w) :
    w ∈ t.rows ∧ w.id = id := by
  obtain ⟨hw, hid⟩ := Table.find_some h
  exact ⟨hw, by simpa using hid⟩

theorem byKey_eq_some {t : Workloads} {w : Workload} {key : String} (hw : w ∈ t.rows)
    (hkey : w.idempotencyKey = some key) : t.byKey key = some w := by
  refine Table.find_eq_some hw (by simp [hkey]) (fun v _ h => ⟨.key key, mem_uniq_key hkey, ?_⟩)
  exact mem_uniq_key (by simpa using h)

theorem byKey_some {t : Workloads} {key : String} {w : Workload} (h : t.byKey key = some w) :
    t.Carries key w.id := by
  obtain ⟨hw, hkey⟩ := Table.find_some h
  exact ⟨w, hw, by simpa using hkey, rfl⟩

theorem byKey_none {t : Workloads} {key id : String} (h : t.byKey key = none) :
    ¬ t.Carries key id := by
  rintro ⟨w, hw, hkey, -⟩
  have := Table.find_none h hw
  simp [hkey] at this

end Workloads

end Pitwall
