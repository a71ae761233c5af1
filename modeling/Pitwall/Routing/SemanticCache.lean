import Mathlib.Algebra.Order.Ring.Rat
import Mathlib.Data.Prod.Lex
import Mathlib.Data.String.Basic
import Pitwall.Core.Clock
import Pitwall.Core.Text
import Pitwall.Library.Eviction
import Pitwall.Routing.Coalescing
set_option autoImplicit false

/-!
`BudgetAwareSemanticCache`. Its lock is never held over a suspension, so that a lookup or a store
is part of one step of the event loop.
-/

namespace Pitwall.Routing
open Machine

/-- `_non_negative_decimal`. -/
def nonNegativeDecimal (raw : RawAmount) (name : String) : Except PyError ℚ :=
  match raw with
  | .boolean | .unparsable => .error ⟨"ValueError", name ++ " must be a decimal value"⟩
  | .nonFinite => .error ⟨"ValueError", name ++ " must be finite"⟩
  | .finite value =>
      if value < 0 then .error ⟨"ValueError", name ++ " must be non-negative"⟩ else .ok value

def minInstant : Instant := -62135596800000000
def maxInstant : Instant := 253402300799999999

/-- A `datetime` that an operation gives. -/
def datetimeAt (t : Int) : Except PyError Instant :=
  if minInstant ≤ t ∧ t ≤ maxInstant then .ok t
  else .error ⟨"OverflowError", "date value out of range"⟩

/-- `delta * factor`, of a `timedelta` in microseconds. -/
def timedeltaTimes (delta factor : Int) : Except PyError Int :=
  let days := delta * factor / microsPerDay
  if -999999999 ≤ days ∧ days ≤ 999999999 then .ok (delta * factor)
  else if -2147483648 ≤ days ∧ days ≤ 2147483647 then
    .error ⟨"OverflowError", "days=" ++ toString days ++ "; must have magnitude <= 999999999"⟩
  else .error ⟨"OverflowError", "Python int too large to convert to C int"⟩

inductive ClockReading where
  | raised (exc : PyError)
  | naive
  | aware (wall offset : Int)

/-- `_ensure_utc(self._now(), "now")`. -/
def ClockReading.ensureUtc : ClockReading → Except PyError Instant
  | .raised exc => .error exc
  | .naive => .error ⟨"ValueError", "now must be timezone-aware"⟩
  | .aware wall offset => datetimeAt (wall - offset)

structure SemanticCachePolicy where
  defaultTtl : Int
  maxEntries : Nat
  minCacheEstimateUsd : ℚ
  highValueEstimateUsd : ℚ
  highValueTtlMultiplier : Int
  defaultTtl_pos : 0 < defaultTtl
  maxEntries_pos : 1 ≤ maxEntries
  minCacheEstimateUsd_nonneg : 0 ≤ minCacheEstimateUsd
  highValueEstimateUsd_nonneg : 0 ≤ highValueEstimateUsd
  highValueTtlMultiplier_pos : 1 ≤ highValueTtlMultiplier

theorem nonneg_of_nonNegativeDecimal {raw : RawAmount} {name : String} {value : ℚ}
    (h : nonNegativeDecimal raw name = .ok value) : 0 ≤ value := by
  cases raw with
  | finite q =>
    simp only [nonNegativeDecimal] at h
    split at h
    · cases h
    · rename_i hneg
      cases h
      exact not_lt.mp hneg
  | _ => cases h

namespace SemanticCachePolicy

/-- `SemanticCachePolicy.__init__`. -/
def init (defaultTtl maxEntries : Int) (minCacheEstimateUsd highValueEstimateUsd : RawAmount)
    (highValueTtlMultiplier : Int) : Except PyError SemanticCachePolicy :=
  if httl : defaultTtl ≤ 0 then .error ⟨"ValueError", "default_ttl must be positive"⟩
  else if hentries : maxEntries < 1 then
    .error ⟨"ValueError", "max_entries must be at least 1"⟩
  else if hmultiplier : highValueTtlMultiplier < 1 then
    .error ⟨"ValueError", "high_value_ttl_multiplier must be at least 1"⟩
  else
    match hmin : nonNegativeDecimal minCacheEstimateUsd "min_cache_estimate_usd" with
    | .error exc => .error exc
    | .ok minEstimate =>
        match hhigh : nonNegativeDecimal highValueEstimateUsd "high_value_estimate_usd" with
        | .error exc => .error exc
        | .ok highValueEstimate => .ok
            { defaultTtl
              maxEntries := maxEntries.toNat
              minCacheEstimateUsd := minEstimate
              highValueEstimateUsd := highValueEstimate
              highValueTtlMultiplier
              defaultTtl_pos := not_le.mp httl
              maxEntries_pos := by omega
              minCacheEstimateUsd_nonneg := nonneg_of_nonNegativeDecimal hmin
              highValueEstimateUsd_nonneg := nonneg_of_nonNegativeDecimal hhigh
              highValueTtlMultiplier_pos := not_lt.mp hmultiplier }

def shouldCache (policy : SemanticCachePolicy) (raw : RawAmount) : Except PyError Bool := do
  let estimate ← nonNegativeDecimal raw "estimated_cost_usd"
  return decide (policy.minCacheEstimateUsd ≤ estimate)

def ttlFor (policy : SemanticCachePolicy) (raw : RawAmount) : Except PyError Int := do
  let estimate ← nonNegativeDecimal raw "estimated_cost_usd"
  if policy.highValueEstimateUsd ≤ estimate then
    timedeltaTimes policy.defaultTtl policy.highValueTtlMultiplier
  else return policy.defaultTtl

end SemanticCachePolicy

/-- `_CacheEntry`, with its key. -/
structure CacheEntry (T : Type) where
  key : String
  value : T
  estimatedCostUsd : ℚ
  expiresAt : Instant
  createdAt : Instant
  lastAccessedAt : Instant
  sequence : Nat

/-- What the eviction compares. -/
def CacheEntry.rank {T : Type} (entry : CacheEntry T) :
    ℚ ×ₗ Instant ×ₗ Instant ×ₗ Nat ×ₗ String :=
  toLex (entry.estimatedCostUsd, toLex (entry.lastAccessedAt, toLex (entry.createdAt,
    toLex (entry.sequence, entry.key))))

structure SemanticCache (T : Type) where
  entries : Keyed (CacheEntry.key (T := T))
  sequence : Nat

structure Admission where
  estimate : ℚ
  now : Instant
  expiresAt : Instant

/-- `store` up to its critical section; `none` is an estimate that the policy does not admit. -/
def SemanticCachePolicy.admission (policy : SemanticCachePolicy) (key : String) (raw : RawAmount)
    (reading : ClockReading) : Except PyError (Option Admission) := do
  if key = "" then throw ⟨"ValueError", "semantic cache key must be non-empty"⟩
  let estimate ← nonNegativeDecimal raw "estimated_cost_usd"
  if !(← policy.shouldCache (.finite estimate)) then return none
  let now ← reading.ensureUtc
  let ttl ← policy.ttlFor (.finite estimate)
  let expiresAt ← datetimeAt (now + ttl)
  return some ⟨estimate, now, expiresAt⟩

namespace SemanticCache
variable {T : Type}

def new : SemanticCache T := ⟨Table.empty, 0⟩

def purgeExpired (c : SemanticCache T) (now : Instant) : SemanticCache T :=
  { c with entries := c.entries.delete fun entry => entry.expiresAt ≤ now }

/-- The entry that `store` makes. -/
def entryOf (c : SemanticCache T) (key : String) (value : T) (a : Admission) : CacheEntry T :=
  { key, value, estimatedCostUsd := a.estimate, expiresAt := a.expiresAt, createdAt := a.now,
    lastAccessedAt := a.now, sequence := c.sequence + 1 }

/-- The critical section of `store`. -/
def storeLocked (policy : SemanticCachePolicy) (c : SemanticCache T) (key : String) (value : T)
    (a : Admission) : SemanticCache T :=
  { entries := ((c.purgeExpired a.now).entries.upsert (c.entryOf key value a)).evictTo
      CacheEntry.rank policy.maxEntries
    sequence := c.sequence + 1 }

def store (policy : SemanticCachePolicy) (c : SemanticCache T) (key : String) (value : T)
    (raw : RawAmount) (reading : ClockReading) : Except PyError (SemanticCache T) := do
  match ← policy.admission key raw reading with
  | none => return c
  | some a => return c.storeLocked policy key value a

/-- `_lookup`. -/
def lookup (c : SemanticCache T) (key : String) (reading : ClockReading) :
    Except PyError (Option T × SemanticCache T) := do
  let now ← reading.ensureUtc
  let purged := c.purgeExpired now
  match purged.entries.get key with
  | none => return (none, purged)
  | some entry =>
      return (some entry.value,
        { purged with entries := purged.entries.put { entry with lastAccessedAt := now } })

end SemanticCache

/-- `build_semantic_cache_key`, from the signature that the hasher gives. -/
def buildSemanticCacheKey (sha256Json : Json → String) (sha256Text : String → String)
    (capabilityId providerId : String) (signature : Except PyError String) :
    Except PyError String := do
  if strip capabilityId = "" then throw ⟨"ValueError", "capability_id must be non-empty"⟩
  if strip providerId = "" then throw ⟨"ValueError", "provider_id must be non-empty"⟩
  let signature ← signature
  if strip signature = "" then throw ⟨"ValueError", "semantic signature must be non-empty"⟩
  let namespaceDigest := sha256Json
    (.obj [("capability_id", .str capabilityId), ("provider_id", .str providerId)])
  return "semantic:v1:" ++ namespaceDigest ++ ":" ++ sha256Text signature

/-- `SemanticCacheRunResult`. -/
structure CacheRunResult (T : Type) where
  value : T
  hit : Bool
  key : String

/-- A call of `run`: the key that is built for it, and its estimate. -/
structure CacheCall where
  key : Except PyError String
  estimate : RawAmount

inductive MissStage where
  | created
  | executing
  | done

/-- The task of an execution of `_execute_and_store`, with the estimate of its first caller. -/
structure MissTask where
  estimate : RawAmount
  stage : MissStage

/-- The cache, its coalescer, the task of each execution, and the calls that were answered
without one. -/
structure CacheRuns (ι T : Type) where
  cache : SemanticCache T
  misses : Coalescer ι (CacheRunResult T)
  tasks : List MissTask
  answers : ι → Option (Except PyError (CacheRunResult T))

inductive CacheEvent (ι T : Type) where
  /-- The first step of a call of `run`. -/
  | start (i : ι) (reading : ClockReading)
  | cancel (i : ι)
  /-- The first step of the task of an execution. -/
  | begin (e : Nat) (reading : ClockReading)
  /-- What the caller's `execute` ends with. -/
  | executed (e : Nat) (outcome : TaskOutcome T) (reading : ClockReading)
  | wake (i : ι)
  /-- A call of `store` from outside. -/
  | store (key : String) (value : T) (raw : RawAmount) (reading : ClockReading)

namespace CacheRuns
variable {ι T : Type} [DecidableEq ι] (policy : SemanticCachePolicy) (calls : ι → CacheCall)

omit [DecidableEq ι] in
def keyOf (i : ι) : String := (calls i).key.toOption.getD ""

omit [DecidableEq ι] in
def new : CacheRuns ι T := ⟨SemanticCache.new, Coalescer.new, [], fun _ => none⟩

def answer (s : CacheRuns ι T) (i : ι) (result : Except PyError (CacheRunResult T)) :
    CacheRuns ι T :=
  { s with answers := Function.update s.answers i (some result) }

def coalesce (s : CacheRuns ι T) (ev : CoalescerEvent ι (CacheRunResult T)) : CacheRuns ι T :=
  { s with misses := s.misses.step (keyOf calls) ev }

/-- `self._misses.run(...)`, which starts a task when the key has none in flight. -/
def miss (s : CacheRuns ι T) (i : ι) : CacheRuns ι T :=
  let tasks := match s.misses.inflight (keyOf calls i) with
    | none => s.tasks ++ [⟨(calls i).estimate, .created⟩]
    | some _ => s.tasks
  { s with tasks, misses := s.misses.step (keyOf calls) (.start i) }

def advance (s : CacheRuns ι T) (e : Nat) (stage : MissStage) : CacheRuns ι T :=
  { s with tasks := s.tasks.modify e fun task => { task with stage } }

def finish (s : CacheRuns ι T) (e : Nat) (outcome : TaskOutcome (CacheRunResult T)) :
    CacheRuns ι T :=
  (s.advance e .done).coalesce calls (.finish e outcome)

/-- The first step of `run`. -/
def start (s : CacheRuns ι T) (i : ι) (reading : ClockReading) : CacheRuns ι T :=
  match (calls i).key with
  | .error exc => s.answer i (.error exc)
  | .ok key =>
      match s.cache.lookup key reading with
      | .error exc => s.answer i (.error exc)
      | .ok (some value, cache) => { s with cache }.answer i (.ok ⟨value, true, key⟩)
      | .ok (none, cache) => { s with cache }.miss calls i

/-- The first step of `_execute_and_store`; a task that was cancelled before ends with it. -/
def begin (s : CacheRuns ι T) (e : Nat) (x : InflightExecution (CacheRunResult T))
    (reading : ClockReading) : CacheRuns ι T :=
  if x.cancelled then s.finish calls e .cancelled
  else
    match s.cache.lookup x.key reading with
    | .error exc => s.finish calls e (.exception exc)
    | .ok (some value, cache) => { s with cache }.finish calls e (.value ⟨value, true, x.key⟩)
    | .ok (none, cache) => { s with cache }.advance e .executing

/-- `_execute_and_store` after its `execute`. -/
def executed (s : CacheRuns ι T) (e : Nat) (x : InflightExecution (CacheRunResult T))
    (task : MissTask) (reading : ClockReading) : TaskOutcome T → CacheRuns ι T
  | .value value =>
      match s.cache.store policy x.key value task.estimate reading with
      | .error exc => s.finish calls e (.exception exc)
      | .ok cache => { s with cache }.finish calls e (.value ⟨value, false, x.key⟩)
  | .exception exc => s.finish calls e (.exception exc)
  | .cancelled => s.finish calls e .cancelled

def step (s : CacheRuns ι T) : CacheEvent ι T → CacheRuns ι T
  | .start i reading =>
      match s.answers i, s.misses.calls i with
      | none, .created false => s.start calls i reading
      | none, _ => s.coalesce calls (.start i)
      | some _, _ => s
  | .cancel i => s.coalesce calls (.cancel i)
  | .begin e reading =>
      match s.misses.execution e, s.tasks[e]? with
      | some x, some ⟨_, .created⟩ => s.begin calls e x reading
      | _, _ => s
  | .executed e outcome reading =>
      match s.misses.execution e, s.tasks[e]? with
      | some x, some ⟨estimate, .executing⟩ =>
          s.executed policy calls e x ⟨estimate, .executing⟩ reading outcome
      | _, _ => s
  | .wake i => s.coalesce calls (.wake i)
  | .store key value raw reading =>
      match s.cache.store policy key value raw reading with
      | .ok cache => { s with cache }
      | .error _ => s

end CacheRuns

end Pitwall.Routing
