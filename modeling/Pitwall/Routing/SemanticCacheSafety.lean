import Mathlib.Data.List.Induction
import Pitwall.Library.Traversal
import Pitwall.Routing.CoalescingProtocol
import Pitwall.Routing.SemanticCache
set_option autoImplicit false

/-!
What the cache keeps, and what it answers, after every sequence of lookups and stores; and that
the calls of `run` make such a sequence, whatever the order of their steps.
-/

namespace Pitwall.Routing
open Machine

inductive CacheOp (T : Type) where
  | lookup (key : String) (reading : ClockReading)
  | store (key : String) (value : T) (raw : RawAmount) (reading : ClockReading)

def CacheOp.storedFor {T : Type} (policy : SemanticCachePolicy) (key : String) :
    CacheOp T → Option T
  | .lookup _ _ => none
  | .store key' value raw reading =>
      if key' = key then
        match policy.admission key' raw reading with
        | .ok (some _) => some value
        | _ => none
      else none

namespace SemanticCache
variable {T : Type}

def perform (policy : SemanticCachePolicy) (c : SemanticCache T) : CacheOp T → SemanticCache T
  | .lookup key reading =>
      match c.lookup key reading with
      | .ok (_, c') => c'
      | .error _ => c
  | .store key value raw reading =>
      match c.store policy key value raw reading with
      | .ok c' => c'
      | .error _ => c

def after (policy : SemanticCachePolicy) (ops : List (CacheOp T)) : SemanticCache T :=
  run (perform policy) new ops

def lastStored (policy : SemanticCachePolicy) (key : String) (ops : List (CacheOp T)) : Option T :=
  ops.foldl (fun last op => (op.storedFor policy key).or last) none

/-- What a store chooses from: its own entry, and those of the other keys that have not
expired. -/
def candidates (c : SemanticCache T) (key : String) (value : T) (a : Admission) :
    List (CacheEntry T) :=
  c.entryOf key value a ::
    c.entries.rows.filter fun entry => decide (a.now < entry.expiresAt) && decide (entry.key ≠ key)

section Operations
variable {policy : SemanticCachePolicy} {c : SemanticCache T}

theorem rank_injective {a b : CacheEntry T} (h : a.rank = b.rank) : a.key = b.key := by
  simp only [CacheEntry.rank, toLex_inj, Prod.mk.injEq] at h
  exact h.2.2.2.2

theorem mem_purgeExpired {now : Instant} {entry : CacheEntry T} :
    entry ∈ (c.purgeExpired now).entries.rows ↔ entry ∈ c.entries.rows ∧ now < entry.expiresAt := by
  simp [purgeExpired, Table.rows_delete]

theorem admit_greatest (policy : SemanticCachePolicy) (c : SemanticCache T) (key : String)
    (value : T) (a : Admission) :
    Greatest CacheEntry.rank policy.maxEntries (c.storeLocked policy key value a).entries.rows
      (c.candidates key value a) := by
  have hupsert := Keyed.upsert_perm (c.purgeExpired a.now).entries (c.entryOf key value a)
  have hrows : ((c.purgeExpired a.now).entries.rows.filter
      fun entry => entry.key ≠ (c.entryOf key value a).key) =
      c.entries.rows.filter
        fun entry => decide (a.now < entry.expiresAt) && decide (entry.key ≠ key) := by
    simp only [purgeExpired, Table.rows_delete, List.filter_filter]
    refine List.filter_congr (fun entry _ => ?_)
    rw [Bool.and_comm]
    congr 1
    rw [← decide_not, decide_eq_decide, not_le]
  rw [hrows] at hupsert
  refine Greatest.perm (Keyed.greatest_evictTo (fun x hx y hy hrank => ?_)) hupsert
  exact Table.eq_of_uniq _ hx hy (k := x.key) (by simp) (by simp [rank_injective hrank])

theorem mem_of_lookup {key : String} {reading : ClockReading} {answer : Option T}
    {c' : SemanticCache T} (h : c.lookup key reading = .ok (answer, c')) {entry : CacheEntry T}
    (hentry : entry ∈ c'.entries.rows) : ∃ old ∈ c.entries.rows,
      old.key = entry.key ∧ old.value = entry.value := by
  unfold lookup at h
  obtain ⟨now, -, h⟩ := Except.bind_eq_ok_iff.mp h
  dsimp only at h
  cases hget : (c.purgeExpired now).entries.get key with
  | none =>
    rw [hget] at h
    cases h
    exact ⟨entry, (mem_purgeExpired.mp hentry).1, rfl, rfl⟩
  | some found =>
    rw [hget] at h
    cases h
    rcases Keyed.mem_put.mp hentry with ⟨hmem, -⟩ | ⟨rfl, -⟩
    · exact ⟨entry, (mem_purgeExpired.mp hmem).1, rfl, rfl⟩
    · exact ⟨found, (mem_purgeExpired.mp (Keyed.get_eq_some_iff.mp hget).1).1, rfl, rfl⟩

theorem length_of_lookup {key : String} {reading : ClockReading} {answer : Option T}
    {c' : SemanticCache T} (h : c.lookup key reading = .ok (answer, c')) :
    c'.entries.rows.length ≤ c.entries.rows.length := by
  unfold lookup at h
  obtain ⟨now, -, h⟩ := Except.bind_eq_ok_iff.mp h
  dsimp only at h
  have hpurged : (c.purgeExpired now).entries.rows.length ≤ c.entries.rows.length := by
    simp only [purgeExpired, Table.rows_delete]
    exact List.length_filter_le _ _
  cases hget : (c.purgeExpired now).entries.get key with
  | none =>
    rw [hget] at h
    cases h
    exact hpurged
  | some found =>
    rw [hget] at h
    cases h
    rw [Keyed.length_put]
    exact hpurged

theorem hit_of_lookup {key : String} {reading : ClockReading} {value : T}
    {c' : SemanticCache T} (h : c.lookup key reading = .ok (some value, c')) :
    ∃ now entry, reading.ensureUtc = .ok now ∧ entry ∈ c.entries.rows ∧ entry.key = key ∧
      entry.value = value ∧ now < entry.expiresAt := by
  unfold lookup at h
  obtain ⟨now, hnow, h⟩ := Except.bind_eq_ok_iff.mp h
  dsimp only at h
  cases hget : (c.purgeExpired now).entries.get key with
  | none =>
    rw [hget] at h
    cases h
  | some found =>
    rw [hget] at h
    cases h
    obtain ⟨hmem, hkey⟩ := Keyed.get_eq_some_iff.mp hget
    obtain ⟨hmem, hlater⟩ := mem_purgeExpired.mp hmem
    exact ⟨now, found, hnow, hmem, hkey, rfl, hlater⟩

inductive PerformCase (policy : SemanticCachePolicy) (c : SemanticCache T) :
    CacheOp T → SemanticCache T → Prop
  | unchanged {op : CacheOp T} (h : ∀ key, op.storedFor policy key = none) :
      PerformCase policy c op c
  | lookedUp {key : String} {reading : ClockReading} {answer : Option T} {c' : SemanticCache T}
      (h : c.lookup key reading = .ok (answer, c')) :
      PerformCase policy c (.lookup key reading) c'
  | admitted {key : String} {value : T} {raw : RawAmount} {reading : ClockReading} {a : Admission}
      (h : policy.admission key raw reading = .ok (some a)) :
      PerformCase policy c (.store key value raw reading) (c.storeLocked policy key value a)

theorem store_of_admission {key : String} {value : T} {raw : RawAmount} {reading : ClockReading}
    {a : Admission} (h : policy.admission key raw reading = .ok (some a)) :
    c.perform policy (.store key value raw reading) = c.storeLocked policy key value a := by
  simp only [perform, store, h]
  rfl

theorem store_of_refusal {key : String} {value : T} {raw : RawAmount} {reading : ClockReading}
    (h : ∀ a, policy.admission key raw reading ≠ .ok (some a)) :
    c.perform policy (.store key value raw reading) = c := by
  simp only [perform, store]
  cases hadmission : policy.admission key raw reading with
  | error exc => rfl
  | ok admitted =>
    cases admitted with
    | none => rfl
    | some a => exact absurd hadmission (h a)

theorem perform_cases (policy : SemanticCachePolicy) (c : SemanticCache T) (op : CacheOp T) :
    PerformCase policy c op (c.perform policy op) := by
  cases op with
  | lookup key reading =>
    cases h : c.lookup key reading with
    | error exc =>
      simp only [perform, h]
      exact .unchanged (fun _ => rfl)
    | ok result =>
      simp only [perform, h]
      exact .lookedUp h
  | store key value raw reading =>
    by_cases h : ∃ a, policy.admission key raw reading = .ok (some a)
    · obtain ⟨a, ha⟩ := h
      rw [store_of_admission ha]
      exact .admitted ha
    · rw [store_of_refusal (fun a ha => h ⟨a, ha⟩)]
      refine .unchanged (fun key' => ?_)
      simp only [CacheOp.storedFor]
      split
      · split
        · rename_i a ha
          exact absurd ⟨a, ha⟩ h
        · rfl
      · rfl

end Operations

section Histories
variable (policy : SemanticCachePolicy) (ops : List (CacheOp T))

theorem after_concat (op : CacheOp T) :
    after policy (ops ++ [op]) = (after policy ops).perform policy op :=
  run_append (perform policy) new ops [op]

theorem lastStored_concat (key : String) (op : CacheOp T) :
    lastStored policy key (ops ++ [op]) =
      (op.storedFor policy key).or (lastStored policy key ops) := by
  simp [lastStored]

structure Faithful (c : SemanticCache T) : Prop where
  bounded : c.entries.rows.length ≤ policy.maxEntries
  last : ∀ entry ∈ c.entries.rows, lastStored policy entry.key ops = some entry.value

theorem faithful_new : Faithful policy [] (new : SemanticCache T) where
  bounded := Nat.zero_le _
  last := by simp [new, Table.empty]

variable {policy ops}

theorem faithful_perform {c : SemanticCache T} (h : Faithful policy ops c) (op : CacheOp T) :
    Faithful policy (ops ++ [op]) (c.perform policy op) := by
  have hcases := perform_cases policy c op
  generalize c.perform policy op = c' at hcases ⊢
  cases hcases with
  | unchanged hnone =>
    refine ⟨h.bounded, fun entry hentry => ?_⟩
    rw [lastStored_concat, hnone, Option.none_or]
    exact h.last entry hentry
  | lookedUp hlookup =>
    refine ⟨(length_of_lookup hlookup).trans h.bounded, fun entry hentry => ?_⟩
    obtain ⟨old, hold, hkey, hvalue⟩ := mem_of_lookup hlookup hentry
    rw [lastStored_concat, ← hkey, ← hvalue]
    exact h.last old hold
  | @admitted key value raw reading a hadmission =>
    have hgreatest := admit_greatest policy c key value a
    refine ⟨?_, fun entry hentry => ?_⟩
    · rw [hgreatest.length]
      exact min_le_left _ _
    · rw [lastStored_concat]
      rcases List.mem_cons.mp (hgreatest.sub hentry) with rfl | hold
      · simp [CacheOp.storedFor, entryOf, hadmission]
      · obtain ⟨hmem, hne⟩ : entry ∈ c.entries.rows ∧ entry.key ≠ key := by
          simp only [List.mem_filter, Bool.and_eq_true, decide_eq_true_eq] at hold
          exact ⟨hold.1, hold.2.2⟩
        simp [CacheOp.storedFor, Ne.symm hne, h.last entry hmem]

theorem faithful_after (policy : SemanticCachePolicy) (ops : List (CacheOp T)) :
    Faithful policy ops (after policy ops) := by
  induction ops using List.reverseRecOn with
  | nil => exact faithful_new policy
  | append_singleton ops op ih =>
    rw [after_concat]
    exact faithful_perform ih op

end Histories

structure Safe (policy : SemanticCachePolicy) (ops : List (CacheOp T)) : Prop where
  bounded : (after policy ops).entries.rows.length ≤ policy.maxEntries
  /-- An admitted store keeps the greatest of its candidates. -/
  kept : ∀ key value raw reading a, policy.admission key raw reading = .ok (some a) →
    Greatest CacheEntry.rank policy.maxEntries
      (after policy (ops ++ [.store key value raw reading])).entries.rows
      ((after policy ops).candidates key value a)
  /-- A store that is refused, or raises, leaves the cache as it is. -/
  refused : ∀ key value raw reading, (∀ a, policy.admission key raw reading ≠ .ok (some a)) →
    after policy (ops ++ [.store key value raw reading]) = after policy ops
  /-- A hit is the last value stored, from an entry that has not expired. -/
  hit : ∀ key reading value c, (after policy ops).lookup key reading = .ok (some value, c) →
    lastStored policy key ops = some value ∧
    ∃ now entry, reading.ensureUtc = .ok now ∧ entry ∈ (after policy ops).entries.rows ∧
      entry.key = key ∧ entry.value = value ∧ now < entry.expiresAt

theorem safe (policy : SemanticCachePolicy) (ops : List (CacheOp T)) : Safe policy ops where
  bounded := (faithful_after policy ops).bounded
  kept := by
    intro key value raw reading a ha
    rw [after_concat, store_of_admission ha]
    exact admit_greatest policy _ key value a
  refused := by
    intro key value raw reading h
    rw [after_concat, store_of_refusal h]
  hit := by
    intro key reading value c h
    obtain ⟨now, entry, hnow, hmem, hkey, hvalue, hlater⟩ := hit_of_lookup h
    have hlast := (faithful_after policy ops).last entry hmem
    rw [hkey, hvalue] at hlast
    exact ⟨hlast, now, entry, hnow, hmem, hkey, hvalue, hlater⟩

/-- A store that the policy does not admit reads no clock, and leaves what has expired. -/
theorem expired_entry_kept :
    ¬ ∀ (policy : SemanticCachePolicy) (ops : List (CacheOp Nat)) (key : String) (value : Nat)
        (raw : RawAmount) (reading : ClockReading) (now : Instant) (c : SemanticCache Nat),
        reading.ensureUtc = .ok now →
        (after policy ops).store policy key value raw reading = .ok c →
        ∀ entry ∈ c.entries.rows, now < entry.expiresAt := by
  intro h
  let policy : SemanticCachePolicy :=
    { defaultTtl := 1, maxEntries := 1, minCacheEstimateUsd := 1, highValueEstimateUsd := 2
      highValueTtlMultiplier := 1
      defaultTtl_pos := by decide
      maxEntries_pos := by decide
      minCacheEstimateUsd_nonneg := by decide
      highValueEstimateUsd_nonneg := by decide
      highValueTtlMultiplier_pos := by decide }
  have hexpired := h policy [.store "a" 1 (.finite 1) (.aware 0 0)] "b" 2 (.finite 0) (.aware 1 0)
    1 _ rfl rfl ⟨"a", 1, 1, 1, 0, 0, 1⟩ (List.mem_singleton.mpr rfl)
  exact absurd hexpired (by decide)

end SemanticCache

namespace CacheRuns
variable {ι T : Type} [DecidableEq ι] (policy : SemanticCachePolicy) (calls : ι → CacheCall)

section Traces
omit [DecidableEq ι]

def opsOf (s : CacheRuns ι T) : CacheEvent ι T → List (CacheOp T)
  | .start i reading =>
      match s.answers i, s.misses.calls i, (calls i).key with
      | none, .created false, .ok key => [.lookup key reading]
      | _, _, _ => []
  | .begin e reading =>
      match s.misses.execution e, s.tasks[e]? with
      | some x, some ⟨_, .created⟩ => if x.cancelled then [] else [.lookup x.key reading]
      | _, _ => []
  | .executed e outcome reading =>
      match s.misses.execution e, s.tasks[e]?, outcome with
      | some x, some ⟨estimate, .executing⟩, .value value => [.store x.key value estimate reading]
      | _, _, _ => []
  | .store key value raw reading => [.store key value raw reading]
  | .cancel _ | .wake _ => []

/-- A result that says it is a hit was found by a lookup of its key. -/
def Found (ops : List (CacheOp T)) (r : CacheRunResult T) : Prop :=
  r.hit = true → ∃ before reading c, before ++ [.lookup r.key reading] <+: ops ∧
    (SemanticCache.after policy before).lookup r.key reading = .ok (some r.value, c)

variable {policy}

theorem Found.append {ops ops' : List (CacheOp T)} {r : CacheRunResult T}
    (h : Found policy ops r) : Found policy (ops ++ ops') r := by
  intro hhit
  obtain ⟨before, reading, c, hprefix, hlookup⟩ := h hhit
  exact ⟨before, reading, c, hprefix.trans (List.prefix_append ops ops'), hlookup⟩

theorem found_of_lookup {ops : List (CacheOp T)} {key : String} {reading : ClockReading}
    {value : T} {c : SemanticCache T}
    (h : (SemanticCache.after policy ops).lookup key reading = .ok (some value, c)) :
    Found policy (ops ++ [.lookup key reading]) ⟨value, true, key⟩ :=
  fun _ => ⟨ops, reading, c, List.prefix_rfl, h⟩

theorem found_of_miss {ops : List (CacheOp T)} {key : String} {value : T} :
    Found policy ops ⟨value, false, key⟩ := by
  intro hhit
  cases hhit

end Traces

/-- What holds between the steps, after the operations `ops`. -/
structure Traced (ops : List (CacheOp T)) (s : CacheRuns ι T) : Prop where
  cache : s.cache = SemanticCache.after policy ops
  misses : s.misses.Sound (keyOf calls)
  answers : ∀ i r, s.answers i = some (.ok r) → r.key = keyOf calls i ∧ Found policy ops r
  ended : ∀ e k r, s.misses.Ended e k (.value r) → r.key = k ∧ Found policy ops r

section Steps
variable {policy calls} {ops : List (CacheOp T)} {s : CacheRuns ι T}

omit [DecidableEq ι] in
theorem traced_new : Traced policy calls [] (new : CacheRuns ι T) where
  cache := rfl
  misses := Coalescer.sound_new _
  answers := by
    intro i r h
    cases h
  ended := by
    intro e k r h
    obtain ⟨x, hx, -⟩ := h
    cases hx

omit [DecidableEq ι] in
theorem Traced.perform (h : Traced policy calls ops s) (op : CacheOp T) (cache : SemanticCache T)
    (hop : s.cache.perform policy op = cache) :
    Traced policy calls (ops ++ [op]) { s with cache } where
  cache := by rw [SemanticCache.after_concat, ← h.cache, hop]
  misses := h.misses
  answers := fun i r hi => ⟨(h.answers i r hi).1, (h.answers i r hi).2.append⟩
  ended := fun e k r he => ⟨(h.ended e k r he).1, (h.ended e k r he).2.append⟩

theorem Traced.answer (h : Traced policy calls ops s) {i : ι}
    {result : Except PyError (CacheRunResult T)}
    (hresult : ∀ r, result = .ok r → r.key = keyOf calls i ∧ Found policy ops r) :
    Traced policy calls ops (s.answer i result) where
  cache := h.cache
  misses := h.misses
  answers := by
    intro j r hj
    simp only [CacheRuns.answer, Function.update_apply] at hj
    split at hj
    · rename_i hji
      rw [hji]
      exact hresult r (Option.some.inj hj)
    · exact h.answers j r hj
  ended := h.ended

theorem Traced.coalesce (h : Traced policy calls ops s)
    {ev : CoalescerEvent ι (CacheRunResult T)}
    (hfinish : ∀ e r x, ev = .finish e (.value r) → s.misses.execution e = some x →
      r.key = x.key ∧ Found policy ops r) : Traced policy calls ops (s.coalesce calls ev) where
  cache := h.cache
  misses := Coalescer.sound_step _ ev h.misses
  answers := h.answers
  ended := by
    intro e k r hended
    rcases Coalescer.ended_of_step h.misses ev hended with hbefore | ⟨hev, x, hx, hkey⟩
    · exact h.ended e k r hbefore
    · rw [← hkey]
      exact hfinish e r x hev hx

theorem Traced.miss (h : Traced policy calls ops s) (i : ι) :
    Traced policy calls ops (s.miss calls i) := by
  have hcoalesce : Traced policy calls ops (s.coalesce calls (.start i)) := h.coalesce (by simp)
  exact ⟨hcoalesce.cache, hcoalesce.misses, hcoalesce.answers, hcoalesce.ended⟩

omit [DecidableEq ι] in
theorem Traced.advance (h : Traced policy calls ops s) (e : Nat) (stage : MissStage) :
    Traced policy calls ops (s.advance e stage) :=
  ⟨h.cache, h.misses, h.answers, h.ended⟩

theorem Traced.finish (h : Traced policy calls ops s) {e : Nat}
    {outcome : TaskOutcome (CacheRunResult T)}
    (hvalue : ∀ r x, outcome = .value r → s.misses.execution e = some x →
      r.key = x.key ∧ Found policy ops r) : Traced policy calls ops (s.finish calls e outcome) := by
  refine (h.advance e .done).coalesce (fun e' r x hev hx => ?_)
  cases hev
  exact hvalue r x rfl hx

theorem traced_start (h : Traced policy calls ops s) (i : ι) (reading : ClockReading)
    {key : String} (hkey : (calls i).key = .ok key) :
    Traced policy calls (ops ++ [.lookup key reading]) (s.start calls i reading) := by
  have hkeyOf : keyOf calls i = key := by simp [keyOf, hkey, Except.toOption]
  cases hlookup : s.cache.lookup key reading with
  | error exc =>
    have hsame := h.perform (.lookup key reading) s.cache
      (by simp only [SemanticCache.perform, hlookup])
    simp only [start, hkey, hlookup]
    exact hsame.answer (by simp)
  | ok result =>
    obtain ⟨answer, cache⟩ := result
    have hlooked := h.perform (.lookup key reading) cache
      (by simp only [SemanticCache.perform, hlookup])
    cases answer with
    | none =>
      simp only [start, hkey, hlookup]
      exact hlooked.miss i
    | some value =>
      simp only [start, hkey, hlookup]
      refine hlooked.answer (fun r hr => ?_)
      cases hr
      rw [h.cache] at hlookup
      exact ⟨hkeyOf.symm, found_of_lookup hlookup⟩

theorem traced_begin (h : Traced policy calls ops s) {e : Nat}
    {x : InflightExecution (CacheRunResult T)} (hx : s.misses.execution e = some x)
    (reading : ClockReading) (hrunning : ¬ x.cancelled = true) :
    Traced policy calls (ops ++ [.lookup x.key reading]) (s.begin calls e x reading) := by
  cases hlookup : s.cache.lookup x.key reading with
  | error exc =>
    have hsame := h.perform (.lookup x.key reading) s.cache
      (by simp only [SemanticCache.perform, hlookup])
    simp only [begin, hrunning, hlookup]
    exact hsame.finish (by simp)
  | ok result =>
    obtain ⟨answer, cache⟩ := result
    have hlooked := h.perform (.lookup x.key reading) cache
      (by simp only [SemanticCache.perform, hlookup])
    cases answer with
    | none =>
      simp only [begin, hrunning, hlookup]
      exact hlooked.advance e .executing
    | some value =>
      simp only [begin, hrunning, hlookup]
      refine hlooked.finish (fun r y hr hy => ?_)
      cases hr
      obtain rfl := Option.some.inj (hx.symm.trans hy)
      rw [h.cache] at hlookup
      exact ⟨rfl, found_of_lookup hlookup⟩

theorem traced_executed (h : Traced policy calls ops s) {e : Nat}
    {x : InflightExecution (CacheRunResult T)} (hx : s.misses.execution e = some x)
    (task : MissTask) (value : T) (reading : ClockReading) :
    Traced policy calls (ops ++ [.store x.key value task.estimate reading])
      (s.executed policy calls e x task reading (.value value)) := by
  cases hstore : s.cache.store policy x.key value task.estimate reading with
  | error exc =>
    have hsame := h.perform (.store x.key value task.estimate reading) s.cache
      (by simp only [SemanticCache.perform, hstore])
    simp only [executed, hstore]
    exact hsame.finish (by simp)
  | ok cache =>
    have hstored := h.perform (.store x.key value task.estimate reading) cache
      (by simp only [SemanticCache.perform, hstore])
    simp only [executed, hstore]
    refine hstored.finish (fun r y hr hy => ?_)
    cases hr
    obtain rfl := Option.some.inj (hx.symm.trans hy)
    exact ⟨rfl, found_of_miss⟩

theorem traced_step (h : Traced policy calls ops s) (ev : CacheEvent ι T) :
    Traced policy calls (ops ++ opsOf calls s ev) (s.step policy calls ev) := by
  cases ev with
  | start i reading =>
    cases hanswer : s.answers i with
    | some answer =>
      simp only [step, opsOf, hanswer, List.append_nil]
      exact h
    | none =>
      by_cases hcall : s.misses.calls i = .created false
      · cases hkey : (calls i).key with
        | error exc =>
          simp only [step, opsOf, hanswer, hcall, hkey, start, List.append_nil]
          exact h.answer (by simp)
        | ok key =>
          simp only [step, opsOf, hanswer, hcall, hkey]
          exact traced_start h i reading hkey
      · have hops : opsOf calls s (.start i reading) = [] := by
          simp only [opsOf, hanswer]
          split
          · rename_i hcreated _
            exact absurd hcreated hcall
          · rfl
        have hstep : s.step policy calls (.start i reading) = s.coalesce calls (.start i) := by
          simp only [step, hanswer]
        rw [hops, hstep, List.append_nil]
        exact h.coalesce (by simp)
  | cancel i =>
    simp only [step, opsOf, List.append_nil]
    exact h.coalesce (by simp)
  | begin e reading =>
    cases hx : s.misses.execution e with
    | none =>
      simp only [step, opsOf, hx, List.append_nil]
      exact h
    | some x =>
      cases htask : s.tasks[e]? with
      | none =>
        simp only [step, opsOf, hx, htask, List.append_nil]
        exact h
      | some task =>
        obtain ⟨estimate, stage⟩ := task
        cases stage with
        | created =>
          simp only [step, opsOf, hx, htask]
          by_cases hcancelled : x.cancelled = true
          · simp only [begin, hcancelled, if_true, List.append_nil]
            exact h.finish (by simp)
          · rw [if_neg hcancelled]
            exact traced_begin h hx reading hcancelled
        | executing =>
          simp only [step, opsOf, hx, htask, List.append_nil]
          exact h
        | done =>
          simp only [step, opsOf, hx, htask, List.append_nil]
          exact h
  | executed e outcome reading =>
    cases hx : s.misses.execution e with
    | none =>
      simp only [step, opsOf, hx, List.append_nil]
      exact h
    | some x =>
      cases htask : s.tasks[e]? with
      | none =>
        simp only [step, opsOf, hx, htask, List.append_nil]
        exact h
      | some task =>
        obtain ⟨estimate, stage⟩ := task
        cases stage with
        | created =>
          simp only [step, opsOf, hx, htask, List.append_nil]
          exact h
        | executing =>
          simp only [step, opsOf, hx, htask]
          cases outcome with
          | value value => exact traced_executed h hx ⟨estimate, .executing⟩ value reading
          | exception exc =>
            simp only [executed, List.append_nil]
            exact h.finish (by simp)
          | cancelled =>
            simp only [executed, List.append_nil]
            exact h.finish (by simp)
        | done =>
          simp only [step, opsOf, hx, htask, List.append_nil]
          exact h
  | wake i =>
    simp only [step, opsOf, List.append_nil]
    exact h.coalesce (by simp)
  | store key value raw reading =>
    simp only [step, opsOf]
    cases hstore : s.cache.store policy key value raw reading with
    | error exc => exact h.perform _ _ (by simp only [SemanticCache.perform, hstore])
    | ok cache => exact h.perform _ _ (by simp only [SemanticCache.perform, hstore])

end Steps

section Runs

def trace (s : CacheRuns ι T) : List (CacheEvent ι T) → List (CacheOp T)
  | [] => []
  | ev :: es => opsOf calls s ev ++ trace (s.step policy calls ev) es

def after (es : List (CacheEvent ι T)) : CacheRuns ι T := run (step policy calls) new es

def operations (es : List (CacheEvent ι T)) : List (CacheOp T) := trace policy calls new es

variable {policy calls}

theorem trace_concat (s : CacheRuns ι T) (es : List (CacheEvent ι T)) (ev : CacheEvent ι T) :
    trace policy calls s (es ++ [ev]) =
      trace policy calls s es ++ opsOf calls (run (step policy calls) s es) ev := by
  induction es generalizing s with
  | nil => simp [trace]
  | cons e es ih => simp [trace, ih]

theorem traced_after (es : List (CacheEvent ι T)) :
    Traced policy calls (operations policy calls es) (after policy calls es) := by
  induction es using List.reverseRecOn with
  | nil => exact traced_new
  | append_singleton es ev ih =>
    unfold operations after
    rw [trace_concat, run_append]
    exact traced_step ih ev

def resultOf (s : CacheRuns ι T) (i : ι) : Option (CacheRunResult T) :=
  match s.answers i with
  | some (.ok r) => some r
  | some (.error _) => none
  | none =>
      match s.misses.calls i with
      | .returned _ (.value r) => some r
      | _ => none

omit [DecidableEq ι] in
theorem Traced.result {ops : List (CacheOp T)} {s : CacheRuns ι T}
    (h : Traced policy calls ops s) {i : ι} {r : CacheRunResult T} (hr : s.resultOf i = some r) :
    r.key = keyOf calls i ∧ Found policy ops r := by
  unfold resultOf at hr
  cases hanswer : s.answers i with
  | some answer =>
    cases answer with
    | error exc =>
      rw [hanswer] at hr
      cases hr
    | ok r' =>
      rw [hanswer] at hr
      cases hr
      exact h.answers i r hanswer
  | none =>
    rw [hanswer] at hr
    dsimp only at hr
    split at hr
    · rename_i e r' hcall
      cases hr
      obtain ⟨x, hx, hkey, houtcome⟩ := h.misses.answered i e _ hcall
      exact h.ended e _ r ⟨x, hx, hkey, houtcome⟩
    · cases hr

variable (policy calls)

/-- In every order of the steps of calls of `run`, of their executions and of stores: the cache
is the one its operations leave, each of these keeps to its promise, and a call that is answered
with a hit has the value of the last store for its key when it was looked up. -/
theorem semantic_cache_safe (es : List (CacheEvent ι T)) :
    (after policy calls es).cache = SemanticCache.after policy (operations policy calls es) ∧
    (∀ ops, SemanticCache.Safe policy (T := T) ops) ∧
    ∀ i r, (after policy calls es).resultOf i = some r → r.key = keyOf calls i ∧
      (r.hit = true → ∃ before reading c,
        before ++ [.lookup r.key reading] <+: operations policy calls es ∧
        (SemanticCache.after policy before).lookup r.key reading = .ok (some r.value, c) ∧
        SemanticCache.lastStored policy r.key before = some r.value) := by
  refine ⟨(traced_after es).cache, SemanticCache.safe policy, fun i r hr => ?_⟩
  obtain ⟨hkey, hfound⟩ := (traced_after es).result hr
  refine ⟨hkey, fun hhit => ?_⟩
  obtain ⟨before, reading, c, hprefix, hlookup⟩ := hfound hhit
  have hlast := ((SemanticCache.safe policy before).hit _ _ _ _ hlookup).1
  exact ⟨before, reading, c, hprefix, hlookup, hlast⟩

end Runs

end CacheRuns

end Pitwall.Routing
