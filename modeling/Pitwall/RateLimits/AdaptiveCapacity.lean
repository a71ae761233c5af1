import Pitwall.Library.Traversal
import Pitwall.RateLimits.Limiter
set_option autoImplicit false

/-!
The capacity of a bucket under 429s: what `capacity_after_429` gives back over time, and the
stored capacity over calls of `acquire` and `record_429` under any readings of the clocks.
-/

namespace Pitwall.RateLimits
open Machine

section Recovery
variable {target capacity capacity' : Int} {recent now now' : ℚ} {window : Binary64}

theorem floatOfInt_eq_ok {n : Int} {x : Binary64} (h : floatOfInt n = .ok x) :
    ∃ v, x = .finite v ∧ v.1 = Binary64.nearest n := by
  unfold floatOfInt at h
  cases hn : Binary64.ofRat n with
  | finite v =>
    rw [hn] at h
    exact ⟨v, (Except.ok.inj h).symm, (Binary64.ofRat_eq_finite_iff.mp hn).2.symm⟩
  | infinite negative =>
    rw [hn] at h
    cases h
  | nan =>
    rw [hn] at h
    cases h

theorem floor_recovered {b r : { q : ℚ // Representable q }} {ratio : Binary64} {n : Int}
    (h : floorOfFloat ((Binary64.finite b).add ((Binary64.finite r).mul ratio)) = .ok n) :
    ∃ q, ratio = .finite q ∧
      n = ⌊Binary64.nearest (b.1 + Binary64.nearest (r.1 * q.1))⌋ := by
  cases ratio with
  | finite q =>
    refine ⟨q, rfl, ?_⟩
    cases hproduct : (Binary64.finite r).mul (.finite q) with
    | finite p =>
      have hp := (Binary64.ofRat_eq_finite_iff.mp hproduct).2
      cases hsum : (Binary64.finite b).add (.finite p) with
      | finite v =>
        have hv := (Binary64.ofRat_eq_finite_iff.mp hsum).2
        rw [hproduct, hsum] at h
        rw [hp, hv]
        exact (Except.ok.inj h).symm
      | infinite negative =>
        rw [hproduct, hsum] at h
        cases h
      | nan =>
        rw [hproduct, hsum] at h
        cases h
    | infinite negative =>
      rw [hproduct] at h
      cases h
    | nan =>
      rw [hproduct] at h
      cases h
  | infinite negative =>
    by_cases hzero : r.1 = 0
    · have hproduct : (Binary64.finite r).mul (.infinite negative) = .nan := if_pos hzero
      rw [hproduct] at h
      cases h
    · have hproduct : (Binary64.finite r).mul (.infinite negative) =
          .infinite (decide (r.1 < 0) ^^ negative) := if_neg hzero
      rw [hproduct] at h
      cases h
  | nan => cases h

/-- How `capacity_after_429` comes to what it returns after a 429. -/
inductive RecoveryCase (target : Int) (elapsed window : Binary64) : Int → Prop
  | passed (h : window.le elapsed = true) : RecoveryCase target elapsed window target
  | early (pending : window.le elapsed = false) (h : elapsed.le (.ofRat 0) = true) :
      RecoveryCase target elapsed window (halvedCapacity target)
  | recovering (pending : window.le elapsed = false) (later : elapsed.le (.ofRat 0) = false)
      {q : { q : ℚ // Representable q }} (ratio : elapsed.div window = .finite q) :
      RecoveryCase target elapsed window (min target (max (halvedCapacity target)
        ⌊Binary64.nearest (Binary64.nearest (halvedCapacity target : Int) +
          Binary64.nearest (Binary64.nearest (target - halvedCapacity target : Int) * q.1))⌋))

theorem capacityAfter429_cases (htarget : 0 < target)
    (h : capacityAfter429 target (some recent) now window = .ok capacity) :
    RecoveryCase target (.ofRat (now - recent)) window capacity := by
  have helapsed : WallClock.secondsBetween recent now = now - recent := rfl
  unfold capacityAfter429 at h
  rw [if_neg (not_le.mpr htarget)] at h
  split at h
  · cases h
  · dsimp only at h
    rw [helapsed] at h
    split at h
    · next hpassed =>
      obtain rfl := Except.ok.inj h
      exact .passed hpassed
    · next hpending =>
      have hpending := Bool.eq_false_iff.mpr hpending
      split at h
      · next hearly =>
        obtain rfl := Except.ok.inj h
        exact .early hpending hearly
      · next hlater =>
        simp only [Except.bind_eq_ok_iff] at h
        obtain ⟨rest, hrest, base, hbase, floor, hfloor, hcapacity⟩ := h
        obtain ⟨r, rfl, hr⟩ := floatOfInt_eq_ok hrest
        obtain ⟨b, rfl, hb⟩ := floatOfInt_eq_ok hbase
        obtain ⟨q, hq, rfl⟩ := floor_recovered hfloor
        obtain rfl := Except.ok.inj hcapacity
        rw [hb, hr]
        exact .recovering hpending (Bool.eq_false_iff.mpr hlater) hq

theorem capacityAfter429_bounds (htarget : 0 < target)
    (h : capacityAfter429 target (some recent) now window = .ok capacity) :
    halvedCapacity target ≤ capacity ∧ capacity ≤ target := by
  have hle := halvedCapacity_le htarget
  cases capacityAfter429_cases htarget h with
  | passed hpassed => exact ⟨hle, le_rfl⟩
  | early hpending hearly => exact ⟨le_rfl, hle⟩
  | recovering hpending hlater hq =>
    exact ⟨le_min hle (le_max_left _ _), min_le_left _ _⟩

theorem elapsed_mono (recent : ℚ) (h : now ≤ now') :
    (Binary64.ofRat (now - recent)).level ≤ (Binary64.ofRat (now' - recent)).level :=
  Binary64.level_ofRat_mono (sub_le_sub_right h recent)

theorem ratio_mono (hwindow : window.le (.ofRat 0) = false) {x y : Binary64}
    (h : x.level ≤ y.level) {q q' : { q : ℚ // Representable q }}
    (hq : x.div window = .finite q) (hq' : y.div window = .finite q') : q.1 ≤ q'.1 := by
  cases window with
  | finite w =>
    have hpos : 0 < w.1 := by
      rw [Binary64.ofRat_zero_eq, Bool.eq_false_iff, Ne, Binary64.le_iff (by simp) (by simp),
        Binary64.level_finite_le, not_le] at hwindow
      exact hwindow
    have hmono := Binary64.level_divBy_mono hpos.le h
    rw [← Binary64.div_finite_pos hpos, ← Binary64.div_finite_pos hpos, hq, hq'] at hmono
    exact Binary64.level_finite_le.mp hmono
  | infinite negative =>
    cases x with
    | finite x =>
      cases y with
      | finite y =>
        have heq : Binary64.finite q = .finite q' := hq.symm.trans hq'
        obtain rfl := Binary64.finite.inj heq
        exact le_rfl
      | infinite _ => cases hq'
      | nan => cases hq'
    | infinite _ => cases hq
    | nan => cases hq
  | nan => cases x <;> cases hq

theorem capacityAfter429_mono (htarget : 0 < target) (hwindow : window.le (.ofRat 0) = false)
    (hnow : now ≤ now')
    (h : capacityAfter429 target (some recent) now window = .ok capacity)
    (h' : capacityAfter429 target (some recent) now' window = .ok capacity') :
    capacity ≤ capacity' := by
  have hbounds := capacityAfter429_bounds htarget h
  have hbounds' := capacityAfter429_bounds htarget h'
  have helapsed := elapsed_mono recent hnow
  cases capacityAfter429_cases htarget h' with
  | passed hpassed' => exact hbounds.2
  | early hpending' hearly' =>
    cases capacityAfter429_cases htarget h with
    | passed hpassed =>
      rw [Binary64.le_of_le_of_level_le hpassed helapsed (Binary64.ofRat_ne_nan _)] at hpending'
      cases hpending'
    | early hpending hearly => exact le_rfl
    | recovering hpending hlater hq =>
      rw [Binary64.le_of_level_le_of_le helapsed hearly'] at hlater
      cases hlater
  | recovering hpending' hlater' hq' =>
    cases capacityAfter429_cases htarget h with
    | passed hpassed =>
      rw [Binary64.le_of_le_of_level_le hpassed helapsed (Binary64.ofRat_ne_nan _)] at hpending'
      cases hpending'
    | early hpending hearly => exact hbounds'.1
    | recovering hpending hlater hq =>
      have hratio := ratio_mono hwindow helapsed hq hq'
      have hrest : (0 : ℚ) ≤ ((target - halvedCapacity target : Int) : ℚ) := by
        exact_mod_cast sub_nonneg.mpr (halvedCapacity_le htarget)
      refine min_le_min_left _ (max_le_max_left _ (Int.floor_le_floor (Binary64.nearest_mono ?_)))
      refine add_le_add_right (Binary64.nearest_mono ?_) _
      exact mul_le_mul_of_nonneg_left hratio (Binary64.nearest_nonneg hrest)

theorem capacityAfter429_passed (htarget : 0 < target) (hwindow : window.le (.ofRat 0) = false)
    {w : { q : ℚ // Representable q }} (hw : window = .finite w)
    (hpassed : w.1 ≤ now - recent) :
    capacityAfter429 target (some recent) now window = .ok target := by
  have hlevel : window.level ≤ (Binary64.ofRat (now - recent)).level := by
    rw [hw, ← Binary64.ofRat_of_representable w.2]
    exact Binary64.level_ofRat_mono hpassed
  have hle : window.le (.ofRat (now - recent)) = true :=
    (Binary64.le_iff (by simp [hw]) (Binary64.ofRat_ne_nan _)).mpr hlevel
  unfold capacityAfter429
  rw [if_neg (not_le.mpr htarget), if_neg (Bool.eq_false_iff.mp hwindow)]
  exact if_pos hle

theorem floatOfInt_of_between {n : Int} {k : ℕ} (hk : k < 1024) (hn : 0 ≤ n)
    (h : (n : ℚ) ≤ 2 ^ k) :
    ∃ v, floatOfInt n = .ok (.finite v) ∧ 0 ≤ v.1 ∧ v.1 ≤ 2 ^ k := by
  have hnonneg : (0 : ℚ) ≤ n := by exact_mod_cast hn
  obtain ⟨v, hv, hbounds⟩ := Binary64.exists_finite_of_between Binary64.representable_zero
    (Binary64.representable_two_pow hk) hnonneg h
  exact ⟨v, by rw [floatOfInt, hv], hbounds⟩

theorem ratio_between (hwindow : window.le (.ofRat 0) = false) (hnan : window ≠ .nan)
    {elapsed : Binary64} (helapsed : elapsed ≠ .nan) (hpending : window.le elapsed = false)
    (hlater : elapsed.le (.ofRat 0) = false) :
    ∃ q, elapsed.div window = .finite q ∧ 0 ≤ q.1 ∧ q.1 ≤ 1 := by
  have hpending' : elapsed.level < window.level := by
    rw [Bool.eq_false_iff, Ne, Binary64.le_iff hnan helapsed, not_le] at hpending
    exact hpending
  have hlater' : (Binary64.ofRat 0).level < elapsed.level := by
    rw [Bool.eq_false_iff, Ne, Binary64.le_iff helapsed (Binary64.ofRat_ne_nan 0), not_le] at hlater
    exact hlater
  rw [Binary64.ofRat_zero_eq] at hlater'
  rcases elapsed with x | (_ | _) | _
  · have hx : 0 < x.1 := not_le.mp fun hle =>
      absurd hlater' (not_lt.mpr (Binary64.level_finite_le.mpr hle))
    rcases window with w | negative | _
    · have hxw : x.1 < w.1 := not_le.mp fun hle =>
        absurd hpending' (not_lt.mpr (Binary64.level_finite_le.mpr hle))
      have hw : 0 < w.1 := hx.trans hxw
      exact Binary64.exists_finite_of_between Binary64.representable_zero
        Binary64.representable_one (div_pos hx hw).le ((div_le_one hw).mpr hxw.le)
    · exact ⟨_, Binary64.ofRat_zero_eq, le_rfl, zero_le_one⟩
    · exact absurd rfl hnan
  · exact absurd hpending' (not_lt.mpr (Binary64.level_le_infinite hnan))
  · exact absurd hlater' (not_lt.mpr (Binary64.infinite_le_level _))
  · exact absurd rfl helapsed

theorem halvedCapacity_le_half {m : Int} (hm : 1 ≤ m) (h : target ≤ 2 * m) :
    halvedCapacity target ≤ m ∧ target - halvedCapacity target ≤ m := by
  unfold halvedCapacity
  omega

theorem capacityAfter429_returns {k : ℕ} (hk : k + 1 < 1024) (htarget : 0 < target)
    (hrange : target ≤ 2 ^ (k + 1)) (hwindow : window.le (.ofRat 0) = false)
    (hnan : window ≠ .nan) :
    ∃ capacity, capacityAfter429 target (some recent) now window = .ok capacity := by
  have hk' : k < 1024 := Nat.lt_of_succ_lt hk
  rw [pow_succ'] at hrange
  obtain ⟨hreduced, hrest⟩ := halvedCapacity_le_half (one_le_pow₀ (by norm_num)) hrange
  obtain ⟨r, hr, hrlow, hrhigh⟩ := floatOfInt_of_between hk'
    (sub_nonneg.mpr (halvedCapacity_le htarget)) (by exact_mod_cast hrest)
  obtain ⟨b, hb, hblow, hbhigh⟩ := floatOfInt_of_between hk'
    (halvedCapacity_pos target).le (by exact_mod_cast hreduced)
  unfold capacityAfter429
  rw [if_neg (not_le.mpr htarget), if_neg (Bool.eq_false_iff.mp hwindow)]
  dsimp only
  split
  · exact ⟨_, rfl⟩
  · next hpending =>
    split
    · exact ⟨_, rfl⟩
    · next hlater =>
      obtain ⟨q, hq, hqlow, hqhigh⟩ := ratio_between hwindow hnan (Binary64.ofRat_ne_nan _)
        (Bool.eq_false_iff.mpr hpending) (Bool.eq_false_iff.mpr hlater)
      obtain ⟨p, hp, hplow, hphigh⟩ := Binary64.exists_finite_of_between
        Binary64.representable_zero (Binary64.representable_two_pow hk')
        (mul_nonneg hrlow hqlow) ((mul_le_of_le_one_right hrlow hqhigh).trans hrhigh)
      have hsum : b.1 + p.1 ≤ 2 ^ (k + 1) := by
        rw [pow_succ', two_mul]
        exact add_le_add hbhigh hphigh
      obtain ⟨v, hv, -, -⟩ := Binary64.exists_finite_of_between Binary64.representable_zero
        (Binary64.representable_two_pow hk)
        (add_nonneg hblow hplow) hsum
      have hproduct : (Binary64.finite r).mul (.finite q) = .finite p := hp
      have hrecovered : (Binary64.finite b).add (.finite p) = .finite v := hv
      rw [hr, hb, hq]
      refine ⟨min target (max (halvedCapacity target) ⌊v.1⌋), ?_⟩
      simp only [bind, Except.bind, hproduct, hrecovered, floorOfFloat]
      rfl

end Recovery

/-- A call of the limiter on one bucket, with its readings of the clocks: those of the store, and
the one that the age of a 429 is taken from. An `acquire` consumes until it is served or gives
up. -/
inductive LimiterCall where
  | acquire (config : RateLimitConfig) (workerCount : Int) (tokens : ℚ)
      (loadedAt readAt resizedAt : ℚ) (consumedAt : List ℚ)
  | record429 (config : RateLimitConfig) (workerCount : Int)
      (loadedAt readAt resizedAt recordedAt : ℚ)

def LimiterCall.target : LimiterCall → Except AcquireError Int
  | .acquire config workerCount .. | .record429 config workerCount .. =>
      config.capacityForWorkers workerCount

section Calls
variable (key : BucketKey)

/-- `_ensure_bucket_capacity` as calls of the store, and whether its caller goes on. -/
def ensureCalls (config : RateLimitConfig) (capacity : Int) (loadedAt readAt resizedAt : ℚ)
    (b : Option (RateBucket ℚ)) : List (BucketCall ℚ) × Bool :=
  let load : BucketCall ℚ := ⟨.loadOrCreate capacity, loadedAt⟩
  match load.apply .floating key b with
  | .error _ => ([load], false)
  | .ok (bucket, _) =>
      match capacityAfter429 capacity bucket.recent429At readAt config.capacityRebuildWindowS with
      | .error _ => ([load], false)
      | .ok effectiveCapacity =>
          if bucket.capacity = effectiveCapacity then ([load], true)
          else
            let resize : BucketCall ℚ := ⟨.updateCapacity effectiveCapacity, resizedAt⟩
            match resize.apply .floating key (some bucket) with
            | .error _ => ([load, resize], false)
            | .ok _ => ([load, resize], true)

/-- `_ensure_bucket_capacity`, and `rest` where it does not raise. -/
def ensureThen (config : RateLimitConfig) (capacity : Int) (loadedAt readAt resizedAt : ℚ)
    (b : Option (RateBucket ℚ)) (rest : List (BucketCall ℚ)) : List (BucketCall ℚ) :=
  match ensureCalls key config capacity loadedAt readAt resizedAt b with
  | (calls, false) => calls
  | (calls, true) => calls ++ rest

def LimiterCall.storeCalls (b : Option (RateBucket ℚ)) : LimiterCall → List (BucketCall ℚ)
  | .acquire config workerCount tokens loadedAt readAt resizedAt consumedAt =>
      if tokens ≤ 0 then []
      else
        match config.capacityForWorkers workerCount with
        | .error _ => []
        | .ok capacity =>
            ensureThen key config capacity loadedAt readAt resizedAt b
              (consumedAt.map fun now => ⟨.atomicRefillConsume tokens, now⟩)
  | .record429 config workerCount loadedAt readAt resizedAt recordedAt =>
      match config.capacityForWorkers workerCount with
      | .error _ => []
      | .ok capacity =>
          ensureThen key config capacity loadedAt readAt resizedAt b
            [⟨.record429 (some (halvedCapacity capacity)), recordedAt⟩]

/-- The calls of the store that calls of the limiter make, one after the other. -/
def limiterRun : Option (RateBucket ℚ) → List LimiterCall → List (BucketCall ℚ)
  | _, [] => []
  | b, call :: calls =>
      let storeCalls := call.storeCalls key b
      storeCalls ++ limiterRun (run (bucketStep .floating key) b storeCalls) calls

end Calls

section Bounded
variable {key : BucketKey} {b : Option (RateBucket ℚ)} {limit : Int}

def BucketCall.Within (limit : Int) (call : BucketCall ℚ) : Prop :=
  match call.op with
  | .create capacity .. | .loadOrCreate capacity | .updateCapacity capacity => capacity ≤ limit
  | .atomicRefillConsume _ | .record429 _ => True

theorem record429_capacity {row updated : RateBucket ℚ} {newCapacity : Option Int} {now : ℚ}
    (h : row.record429 .floating newCapacity now = .ok updated) :
    updated.capacity ≤ max 1 (row.capacity / 2) := by
  rw [(checkedRow_ok h).1]
  cases newCapacity with
  | none => exact le_rfl
  | some given => exact min_le_left _ _

theorem consume_capacity {row updated : RateBucket ℚ} {tokens now : ℚ} {allowed : Bool}
    (h : row.consume .floating tokens now = .ok (updated, allowed)) :
    updated.capacity = row.capacity := by
  simp only [RateBucket.consume, Except.map_eq_ok_iff] at h
  obtain ⟨written, hwritten, heq⟩ := h
  obtain ⟨rfl, -⟩ := Prod.mk.inj heq
  exact (checkedRow_ok hwritten).1

theorem apply_within {call : BucketCall ℚ} {written : RateBucket ℚ} {allowed : Bool}
    (hb : ∀ row ∈ b, row.capacity ≤ limit) (hcall : call.Within limit)
    (h : call.apply .floating key b = .ok (written, allowed)) : written.capacity ≤ limit := by
  obtain ⟨op, now⟩ := call
  cases op with
  | create capacity tokens lastRefilledAt recent429At =>
    simp only [BucketCall.apply] at h
    split at h
    · cases h
    · cases h
    · next row hrow =>
      cases h
      rw [(checkedRow_ok hrow).1]
      exact hcall
  | loadOrCreate capacity =>
    simp only [BucketCall.apply, Except.map_eq_ok_iff, Prod.mk.injEq] at h
    obtain ⟨row, hrow, rfl, -⟩ := h
    cases b with
    | none =>
      rw [Option.getD_none, (checkedRow_ok hrow).1]
      exact hcall
    | some found => exact hb found rfl
  | atomicRefillConsume tokens =>
    cases b with
    | none => cases h
    | some row =>
      rw [consume_capacity h]
      exact hb row rfl
  | record429 newCapacity =>
    simp only [BucketCall.apply] at h
    split at h
    · cases h
    · cases b with
      | none => cases h
      | some row =>
        simp only [Except.map_eq_ok_iff, Prod.mk.injEq] at h
        obtain ⟨updated, hupdated, rfl, -⟩ := h
        exact (record429_capacity hupdated).trans
          ((halvedCapacity_le row.capacity_pos).trans (hb row rfl))
  | updateCapacity newCapacity =>
    simp only [BucketCall.apply] at h
    split at h
    · cases h
    · cases b with
      | none => cases h
      | some row =>
        simp only [Except.map_eq_ok_iff, Prod.mk.injEq] at h
        obtain ⟨updated, hupdated, rfl, -⟩ := h
        rw [(checkedRow_ok hupdated).1]
        exact hcall

theorem bucketStep_within {call : BucketCall ℚ} (hb : ∀ row ∈ b, row.capacity ≤ limit)
    (hcall : call.Within limit) :
    ∀ row ∈ bucketStep .floating key b call, row.capacity ≤ limit := by
  intro row hrow
  unfold bucketStep at hrow
  cases happly : call.apply .floating key b with
  | error e =>
    rw [happly] at hrow
    exact hb row hrow
  | ok result =>
    obtain ⟨written, allowed⟩ := result
    rw [happly] at hrow
    obtain rfl := Option.some.inj hrow
    exact apply_within hb hcall happly

theorem capacityForWorkers_pos {config : RateLimitConfig} {workerCount capacity : Int}
    (h : config.capacityForWorkers workerCount = .ok capacity) : 0 < capacity := by
  unfold RateLimitConfig.capacityForWorkers dynamicCapacity at h
  split at h
  · cases h
  · next hbase =>
    split at h
    · cases h
    · split at h
      · cases h
      · rw [← Except.ok.inj h]
        exact lt_of_lt_of_le (not_le.mp hbase) (le_max_left _ _)

theorem capacityAfter429_le {target capacity : Int} {recent429At : Option ℚ} {now : ℚ}
    {window : Binary64} (htarget : 0 < target)
    (h : capacityAfter429 target recent429At now window = .ok capacity) : capacity ≤ target := by
  cases recent429At with
  | some recent => exact (capacityAfter429_bounds htarget h).2
  | none =>
    unfold capacityAfter429 at h
    split at h
    · cases h
    · split at h
      · cases h
      · exact (Except.ok.inj h).ge

theorem ensureCalls_within {config : RateLimitConfig} {capacity : Int}
    {loadedAt readAt resizedAt : ℚ} (hpos : 0 < capacity) (hle : capacity ≤ limit) :
    ∀ call ∈ (ensureCalls key config capacity loadedAt readAt resizedAt b).1,
      call.Within limit := by
  have hload : (⟨.loadOrCreate capacity, loadedAt⟩ : BucketCall ℚ).Within limit := hle
  unfold ensureCalls
  dsimp only
  split
  · simpa using hload
  · split
    · simpa using hload
    · next effectiveCapacity heffective =>
      have hresize : (⟨.updateCapacity effectiveCapacity, resizedAt⟩ : BucketCall ℚ).Within limit :=
        (capacityAfter429_le hpos heffective).trans hle
      split
      · simpa using hload
      · split
        · simpa using ⟨hload, hresize⟩
        · simpa using ⟨hload, hresize⟩

theorem ensureThen_within {config : RateLimitConfig} {capacity : Int}
    {loadedAt readAt resizedAt : ℚ} {rest : List (BucketCall ℚ)} (hpos : 0 < capacity)
    (hle : capacity ≤ limit) (hrest : ∀ call ∈ rest, call.Within limit) :
    ∀ call ∈ ensureThen key config capacity loadedAt readAt resizedAt b rest,
      call.Within limit := by
  have hensure : ∀ call ∈ (ensureCalls key config capacity loadedAt readAt resizedAt b).1,
      call.Within limit := ensureCalls_within hpos hle
  unfold ensureThen
  cases h : ensureCalls key config capacity loadedAt readAt resizedAt b with
  | mk calls goesOn =>
    rw [h] at hensure
    cases goesOn with
    | false => exact hensure
    | true =>
      intro call hcall
      rcases List.mem_append.mp hcall with hcall | hcall
      · exact hensure call hcall
      · exact hrest call hcall

theorem storeCalls_within {call : LimiterCall}
    (htarget : ∀ target, call.target = .ok target → target ≤ limit) :
    ∀ storeCall ∈ call.storeCalls key b, storeCall.Within limit := by
  cases call with
  | acquire config workerCount tokens loadedAt readAt resizedAt consumedAt =>
    simp only [LimiterCall.storeCalls]
    split
    · simp
    · cases hcapacity : config.capacityForWorkers workerCount with
      | error e => simp
      | ok capacity =>
        refine ensureThen_within (capacityForWorkers_pos hcapacity) (htarget capacity hcapacity) ?_
        intro call hcall
        obtain ⟨now, -, rfl⟩ := List.mem_map.mp hcall
        trivial
  | record429 config workerCount loadedAt readAt resizedAt recordedAt =>
    simp only [LimiterCall.storeCalls]
    cases hcapacity : config.capacityForWorkers workerCount with
    | error e => simp
    | ok capacity =>
      refine ensureThen_within (capacityForWorkers_pos hcapacity) (htarget capacity hcapacity) ?_
      intro call hcall
      obtain rfl := List.mem_singleton.mp hcall
      trivial

theorem limiterRun_within {calls : List LimiterCall}
    (htargets : ∀ call ∈ calls, ∀ target, call.target = .ok target → target ≤ limit) :
    ∀ storeCall ∈ limiterRun key b calls, storeCall.Within limit := by
  induction calls generalizing b with
  | nil => simp [limiterRun]
  | cons call calls ih =>
    intro storeCall hmem
    rcases List.mem_append.mp hmem with hmem | hmem
    · exact storeCalls_within (htargets call (by simp)) storeCall hmem
    · exact ih (fun c hc => htargets c (by simp [hc])) storeCall hmem

theorem limiterRun_capacity (key : BucketKey) {calls : List LimiterCall} {limit : Int}
    (htargets : ∀ call ∈ calls, ∀ target, call.target = .ok target → target ≤ limit) :
    Along (bucketStep .floating key)
      (fun b call => ∀ row ∈ bucketStep .floating key b call, 1 ≤ row.capacity ∧ row.capacity ≤ limit)
      none (limiterRun key none calls) :=
  along_of_invariant (I := fun b => ∀ row ∈ b, row.capacity ≤ limit)
    (fun b call hb hcall =>
      have hkeep : ∀ row ∈ bucketStep .floating key b call, row.capacity ≤ limit :=
        bucketStep_within hb hcall
      ⟨hkeep, fun row hrow => ⟨row.capacity_pos, hkeep row hrow⟩⟩)
    (by simp) (along_of_mem none (limiterRun_within htargets))

end Bounded

/-- The adaptive capacity: what `capacity_after_429` returns, and up to which target it does, the
stored capacity through every call of the limiter, and what `record_429` of the store leaves. -/
theorem adaptive_capacity :
    (∀ (target : Int) (recent : ℚ) (window : Binary64), 0 < target →
        window.le (.ofRat 0) = false →
          (∀ now capacity, capacityAfter429 target (some recent) now window = .ok capacity →
            halvedCapacity target ≤ capacity ∧ capacity ≤ target) ∧
          (∀ now w, window = .finite w → w.1 ≤ now - recent →
            capacityAfter429 target (some recent) now window = .ok target) ∧
          (∀ now now' capacity capacity', now ≤ now' →
            capacityAfter429 target (some recent) now window = .ok capacity →
              capacityAfter429 target (some recent) now' window = .ok capacity' →
                capacity ≤ capacity') ∧
          (target ≤ 2 ^ 1023 → window ≠ .nan → ∀ now, ∃ capacity,
            capacityAfter429 target (some recent) now window = .ok capacity)) ∧
      (∀ (key : BucketKey) (calls : List LimiterCall) (limit : Int),
        (∀ call ∈ calls, ∀ target, call.target = .ok target → target ≤ limit) →
          Along (bucketStep .floating key)
            (fun b call => ∀ row ∈ bucketStep .floating key b call,
              1 ≤ row.capacity ∧ row.capacity ≤ limit)
            none (limiterRun key none calls)) ∧
      ∀ (row updated : RateBucket ℚ) (newCapacity : Option Int) (now : ℚ),
        row.record429 .floating newCapacity now = .ok updated →
          updated.capacity ≤ max 1 (row.capacity / 2) := by
  refine ⟨fun target recent window htarget hwindow => ⟨?_, ?_, ?_, ?_⟩, ?_, ?_⟩
  · exact fun now capacity => capacityAfter429_bounds htarget
  · exact fun now w hw => capacityAfter429_passed htarget hwindow hw
  · exact fun now now' capacity capacity' hnow => capacityAfter429_mono htarget hwindow hnow
  · exact fun hrange hnan now => capacityAfter429_returns (show 1022 + 1 < 1024 by norm_num) htarget
      hrange hwindow hnan
  · exact fun key calls limit => limiterRun_capacity key
  · exact fun row updated newCapacity now => record429_capacity

/-- Half a minute after a 429, of a window of a minute. -/
theorem adaptive_capacity_midway :
    ∃ capacity, capacityAfter429 10 (some 0) 30 (.ofRat 60) = .ok capacity ∧
      halvedCapacity 10 ≤ capacity ∧ capacity ≤ 10 := by
  obtain ⟨hbounds, -, -, hreturns⟩ := adaptive_capacity.1 10 0 (.ofRat 60) (by norm_num)
    (by decide +kernel)
  have hrange : (10 : Int) ≤ 2 ^ 1023 :=
    (show (10 : Int) ≤ 2 ^ 4 by norm_num).trans (pow_le_pow_right₀ (by norm_num) (by norm_num))
  obtain ⟨capacity, hcapacity⟩ :=
    hreturns hrange (Binary64.ofRat_ne_nan 60) 30
  exact ⟨capacity, hcapacity, hbounds 30 capacity hcapacity⟩

/-- A target beyond the floats has no capacity during its recovery. -/
theorem capacity_out_of_range : ¬ ∀ (target : Int) (recent now : ℚ), 0 < target → recent ≤ now →
    ∃ capacity, capacityAfter429 target (some recent) now (.ofRat 60) = .ok capacity ∧
      halvedCapacity target ≤ capacity ∧ capacity ≤ target := by
  intro h
  obtain ⟨capacity, hcapacity, -⟩ := h (2 ^ 1025) 0 30 (by positivity) (by norm_num)
  have hraises : capacityAfter429 (2 ^ 1025) (some 0) 30 (.ofRat 60) =
      .error (.overflow "int too large to convert to float") := by decide +kernel
  rw [hraises] at hcapacity
  cases hcapacity

section Refinement
variable {config : RateLimitConfig} {request : AcquireRequest}

theorem bucketStep_of_error {key : BucketKey} {b : Option (RateBucket ℚ)} {call : BucketCall ℚ}
    {e : StoreError} (h : call.apply .floating key b = .error e) :
    bucketStep .floating key b call = b := by
  rw [bucketStep, h]

theorem bucketStep_of_ok {key : BucketKey} {b : Option (RateBucket ℚ)} {call : BucketCall ℚ}
    {row : RateBucket ℚ} {allowed : Bool} (h : call.apply .floating key b = .ok (row, allowed)) :
    bucketStep .floating key b call = some row := by
  rw [bucketStep, h]

/-- `ensureBucketCapacity` makes the calls of `ensureCalls`. -/
theorem ensureBucketCapacity_eq (config : RateLimitConfig) (request : AcquireRequest)
    (capacity : Int) (w : World) :
    (ensureBucketCapacity config request capacity w).1 =
        run (bucketStep .floating request.key) w.bucket
          (ensureCalls request.key config capacity w.wall w.wall w.wall w.bucket).1 ∧
      ((ensureBucketCapacity config request capacity w).2 = .ok () ↔
        (ensureCalls request.key config capacity w.wall w.wall w.wall w.bucket).2 = true) := by
  unfold ensureBucketCapacity ensureCalls
  dsimp only
  cases hload : BucketCall.apply .floating request.key ⟨.loadOrCreate capacity, w.wall⟩
      w.bucket with
  | error e => exact ⟨(bucketStep_of_error hload).symm, by simp⟩
  | ok result =>
    obtain ⟨bucket, allowed⟩ := result
    have hloaded := bucketStep_of_ok hload
    dsimp only
    cases capacityAfter429 capacity bucket.recent429At w.wall config.capacityRebuildWindowS with
    | error e => exact ⟨hloaded.symm, by simp⟩
    | ok effectiveCapacity =>
      dsimp only
      split
      · exact ⟨hloaded.symm, by simp⟩
      · cases hresize : BucketCall.apply .floating request.key
            ⟨.updateCapacity effectiveCapacity, w.wall⟩ (some bucket) with
        | error e =>
          refine ⟨?_, by simp⟩
          rw [run_cons, hloaded, run_cons, run_nil, bucketStep_of_error hresize]
        | ok result =>
          obtain ⟨resized, allowed'⟩ := result
          refine ⟨?_, by simp⟩
          rw [run_cons, hloaded, run_cons, run_nil, bucketStep_of_ok hresize]

theorem acquireTurn_bucket (config : RateLimitConfig) (request : AcquireRequest)
    (deadline : Binary64) (w : World) :
    (acquireTurn config request deadline w).1.bucket =
      bucketStep .floating request.key w.bucket ⟨.atomicRefillConsume request.tokens, w.wall⟩ := by
  unfold acquireTurn
  cases hconsume : BucketCall.apply .floating request.key
      ⟨.atomicRefillConsume request.tokens, w.wall⟩ w.bucket with
  | error e => exact (bucketStep_of_error hconsume).symm
  | ok result =>
    obtain ⟨bucket, allowed⟩ := result
    rw [bucketStep_of_ok hconsume]
    cases allowed with
    | true => rfl
    | false =>
      dsimp only
      split
      · rfl
      · split <;> rfl
      · rfl

theorem acquireLoop_consumes {deadline : Binary64} {fuel : ℕ} {w : World} {slept : List ℚ}
    {e : AcquireEnd} (h : acquireLoop config request deadline fuel w slept = some e) :
    ∃ consumedAt : List ℚ, e.world.bucket = run (bucketStep .floating request.key) w.bucket
      (consumedAt.map fun now => ⟨.atomicRefillConsume request.tokens, now⟩) := by
  induction fuel generalizing w slept with
  | zero => cases h
  | succ fuel ih =>
    have hturn := acquireTurn_bucket config request deadline w
    simp only [acquireLoop] at h
    cases hresult : acquireTurn config request deadline w with
    | mk w' outcome =>
      rw [hresult] at h hturn
      cases outcome with
      | inl outcome =>
        obtain rfl := Option.some.inj h
        exact ⟨[w.wall], hturn⟩
      | inr seconds =>
        obtain ⟨consumedAt, hrest⟩ := ih h
        refine ⟨w.wall :: consumedAt, ?_⟩
        rw [hrest, List.map_cons, run_cons, ← hturn]
        rfl

theorem acquire_storeCalls {fuel : ℕ} {w : World} {e : AcquireEnd}
    (h : acquire config request fuel w = some e) :
    ∃ consumedAt, e.world.bucket = run (bucketStep .floating request.key) w.bucket
      (LimiterCall.storeCalls request.key w.bucket
        (.acquire config request.workerCount request.tokens w.wall w.wall w.wall consumedAt)) := by
  unfold acquire at h
  simp only [LimiterCall.storeCalls]
  split at h
  · next htokens =>
    obtain rfl := Option.some.inj h
    exact ⟨[], by rw [if_pos htokens]; rfl⟩
  · next htokens =>
    simp only [if_neg htokens]
    cases hcapacity : config.capacityForWorkers request.workerCount with
    | error exc =>
      rw [hcapacity] at h
      obtain rfl := Option.some.inj h
      exact ⟨[], rfl⟩
    | ok capacity =>
      rw [hcapacity] at h
      dsimp only at h ⊢
      obtain ⟨hbucket, hgoes⟩ := ensureBucketCapacity_eq config request capacity w
      unfold ensureThen
      cases hensure : ensureBucketCapacity config request capacity w with
      | mk bucket outcome =>
        rw [hensure] at h hbucket hgoes
        cases hcalls : ensureCalls request.key config capacity w.wall w.wall w.wall w.bucket with
        | mk calls goesOn =>
          rw [hcalls] at hbucket hgoes
          cases outcome with
          | error exc =>
            obtain rfl : goesOn = false := by
              cases goesOn with
              | false => rfl
              | true => exact nomatch hgoes.mpr rfl
            obtain rfl := Option.some.inj h
            exact ⟨[], hbucket⟩
          | ok done =>
            obtain rfl : goesOn = true := hgoes.mp rfl
            obtain ⟨consumedAt, hend⟩ := acquireLoop_consumes h
            refine ⟨consumedAt, ?_⟩
            rw [hend, run_append, ← hbucket]

end Refinement

end Pitwall.RateLimits
