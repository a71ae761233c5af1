import Pitwall.RateLimits.Store
set_option autoImplicit false

/-!
The invariant of a bucket over runs of the store with exact arithmetic, and what each operation
needs for it.
-/

namespace Pitwall.RateLimits
open Machine

variable {τ : Type} [WallClock τ]

/-- `0 <= tokens <= capacity` and `capacity >= 1`. -/
def RateBucket.Sound {τ : Type} (row : RateBucket τ) : Prop :=
  1 ≤ row.capacity ∧ 0 ≤ row.tokens ∧ row.tokens ≤ row.capacity

/-- The call runs into a `CHECK` constraint of the table. -/
def BucketCall.Violates (call : BucketCall τ) (key : BucketKey) (b : Option (RateBucket τ)) :
    Prop :=
  call.apply .exact key b = .error .checkViolation

/-- The row that the call leaves is sound, and no constraint stood in its way. -/
def BucketCall.Safe (call : BucketCall τ) (key : BucketKey) (b : Option (RateBucket τ)) : Prop :=
  (∀ row ∈ bucketStep .exact key b call, row.Sound) ∧ ¬ call.Violates key b

/-- What the call needs: a new row with no more tokens than its capacity, and a clock that has
not gone back by more than the tokens of the row are worth. -/
def BucketCall.Guarded (call : BucketCall τ) (b : Option (RateBucket τ)) : Prop :=
  match call.op, b with
  | .create capacity tokens _ _, none =>
      1 ≤ capacity ∧ 0 ≤ tokens.getD capacity ∧ tokens.getD capacity ≤ capacity
  | .create capacity tokens _ _, some _ => 1 ≤ capacity ∧ 0 ≤ tokens.getD capacity
  | .loadOrCreate capacity, _ => 1 ≤ capacity
  | .atomicRefillConsume _, some row =>
      0 ≤ row.tokens + row.elapsed .exact call.now * (row.capacity / refillRateDivisor)
  | .updateCapacity newCapacity, some row =>
      newCapacity ≤ 0 ∨
        0 ≤ row.tokens + row.elapsed .exact call.now * (row.capacity / refillRateDivisor)
  | _, _ => True

instance (call : BucketCall τ) (b : Option (RateBucket τ)) : Decidable (call.Guarded b) := by
  unfold BucketCall.Guarded
  split <;> infer_instance

instance (call : BucketCall τ) (key : BucketKey) (b : Option (RateBucket τ)) :
    Decidable (call.Violates key b) :=
  match h : call.apply .exact key b with
  | .error e => decidable_of_iff (e = .checkViolation) (by simp [BucketCall.Violates, h])
  | .ok _ => isFalse (by simp [BucketCall.Violates, h])

def BucketCall.Positive (call : BucketCall τ) : Prop :=
  ∀ amount, call.op = .atomicRefillConsume amount → 0 < amount

omit [WallClock τ] in
theorem RateBucket.sound_iff (row : RateBucket τ) : row.Sound ↔ row.tokens ≤ row.capacity :=
  ⟨fun h => h.2.2, fun h => ⟨row.capacity_pos, row.tokens_nonneg, h⟩⟩

section Calls
variable {key : BucketKey} {row : RateBucket τ} {call : BucketCall τ} {b : Option (RateBucket τ)}

theorem safe_of_error {e : StoreError} (happly : call.apply .exact key b = .error e)
    (he : e ≠ .checkViolation) (hb : ∀ row ∈ b, row.Sound) : call.Safe key b := by
  refine ⟨?_, ?_⟩
  · unfold bucketStep
    rw [happly]
    exact hb
  · unfold BucketCall.Violates
    rw [happly]
    exact fun h => he (Except.error.inj h)

theorem safe_of_ok {allowed : Bool} (happly : call.apply .exact key b = .ok (row, allowed)) :
    call.Safe key b ↔ row.tokens ≤ row.capacity := by
  unfold BucketCall.Safe BucketCall.Violates bucketStep
  rw [happly]
  simp [row.sound_iff]

theorem not_safe_of_violation (happly : call.apply .exact key b = .error .checkViolation) :
    ¬ call.Safe key b := fun h => h.2 happly

theorem consume_cases (row : RateBucket τ) (amount : ℚ) (hamount : 0 < amount) (now : τ) :
    (0 ≤ row.refilled .exact (row.elapsed .exact now) ∧ ∃ updated allowed,
      row.consume .exact amount now = .ok (updated, allowed) ∧ updated.tokens ≤ updated.capacity) ∨
    (row.refilled .exact (row.elapsed .exact now) < 0 ∧
      row.consume .exact amount now = .error .checkViolation) := by
  have hle := row.refilled_le (row.elapsed .exact now)
  unfold RateBucket.consume
  dsimp only [TokenArithmetic.exact_double]
  by_cases hnonneg : 0 ≤ row.refilled .exact (row.elapsed .exact now)
  · refine .inl ⟨hnonneg, ?_⟩
    by_cases hallowed : amount ≤ row.refilled .exact (row.elapsed .exact now)
    · simp only [hallowed, decide_true, if_true]
      rw [checkedRow_exact _ _ row.capacity_pos (sub_nonneg.mpr hallowed)]
      exact ⟨_, true, rfl, by dsimp only; linarith⟩
    · simp only [hallowed, decide_false, Bool.false_eq_true, if_false]
      rw [checkedRow_exact _ _ row.capacity_pos hnonneg]
      exact ⟨_, false, rfl, hle⟩
  · have hneg := not_le.mp hnonneg
    have hrefused : ¬ amount ≤ row.refilled .exact (row.elapsed .exact now) := by linarith
    refine .inr ⟨hneg, ?_⟩
    simp only [hrefused, decide_false, Bool.false_eq_true, if_false]
    rw [checkedRow_eq_error_iff.mpr (fun h => hnonneg h.2)]
    rfl

theorem record429_ok (row : RateBucket τ) (newCapacity : Option Int)
    (h : ∀ given ∈ newCapacity, 0 < given) (now : τ) :
    ∃ updated, row.record429 .exact newCapacity now = .ok updated ∧
      updated.tokens ≤ updated.capacity := by
  have hrefilled := row.refilled_nonneg (le_max_left 0 (row.elapsed .exact now))
  have hreduced := row.reducedCapacity_pos h
  have hreducedNonneg : (0 : ℚ) ≤ row.reducedCapacity newCapacity := by
    exact_mod_cast hreduced.le
  unfold RateBucket.record429
  dsimp only [TokenArithmetic.exact_double]
  rw [checkedRow_exact _ _ hreduced (le_min hreducedNonneg hrefilled)]
  exact ⟨_, rfl, min_le_left _ _⟩

theorem updateCapacity_cases (row : RateBucket τ) {newCapacity : Int} (hnew : 0 < newCapacity)
    (now : τ) :
    (0 ≤ row.refilled .exact (row.elapsed .exact now) ∧ ∃ updated,
      row.updateCapacity .exact newCapacity now = .ok updated ∧ updated.tokens ≤ updated.capacity) ∨
    (row.refilled .exact (row.elapsed .exact now) < 0 ∧
      row.updateCapacity .exact newCapacity now = .error .checkViolation) := by
  have hnewNonneg : (0 : ℚ) ≤ newCapacity := by exact_mod_cast hnew.le
  unfold RateBucket.updateCapacity
  dsimp only [TokenArithmetic.exact_double]
  by_cases hnonneg : 0 ≤ row.refilled .exact (row.elapsed .exact now)
  · refine .inl ⟨hnonneg, ?_⟩
    rw [checkedRow_exact _ _ hnew (le_min hnewNonneg hnonneg)]
    exact ⟨_, rfl, min_le_left _ _⟩
  · refine .inr ⟨not_le.mp hnonneg, ?_⟩
    rw [checkedRow_eq_error_iff]
    exact fun h => hnonneg (le_min_iff.mp h.2).2

end Calls

/-! A call on a sound bucket is safe exactly when it has what it needs, method by method. -/

section Methods
variable {key : BucketKey} {b : Option (RateBucket τ)} {now : τ}

theorem create_safe_iff (hb : ∀ row ∈ b, row.Sound) (capacity : Int) (tokens : Option ℚ)
    (last recent : Option τ) :
    BucketCall.Safe ⟨.create capacity tokens last recent, now⟩ key b ↔
      BucketCall.Guarded ⟨.create capacity tokens last recent, now⟩ b := by
  by_cases hrow : 0 < capacity ∧ 0 ≤ tokens.getD (capacity : ℚ)
  · have hchecked : checkedRow .exact capacity (tokens.getD (TokenArithmetic.exact.double capacity))
        (last.getD now) recent = .ok ⟨capacity, tokens.getD capacity, last.getD now, recent, hrow.1,
          hrow.2⟩ := checkedRow_exact _ _ hrow.1 hrow.2
    cases b with
    | none =>
      have happly : BucketCall.apply .exact key ⟨.create capacity tokens last recent, now⟩ none =
          .ok (⟨capacity, tokens.getD capacity, last.getD now, recent, hrow.1, hrow.2⟩, false) := by
        simp only [BucketCall.apply, hchecked]
      rw [safe_of_ok happly]
      exact ⟨fun h => ⟨hrow.1, hrow.2, h⟩, fun h => h.2.2⟩
    | some row =>
      have happly : BucketCall.apply .exact key ⟨.create capacity tokens last recent, now⟩
          (some row) = .error (.uniqueViolation
            s!"Bucket already exists: {key.endpointId}/{key.operation}") := by
        simp only [BucketCall.apply, hchecked]
      exact ⟨fun _ => hrow, fun _ => safe_of_error happly (by simp) hb⟩
  · have hrefused : checkedRow .exact capacity (tokens.getD (TokenArithmetic.exact.double capacity))
        (last.getD now) recent = .error .checkViolation := checkedRow_eq_error_iff.mpr hrow
    have happly : BucketCall.apply .exact key ⟨.create capacity tokens last recent, now⟩ b =
        .error .checkViolation := by
      simp only [BucketCall.apply, hrefused]
    refine ⟨fun h => absurd h (not_safe_of_violation happly), fun h => ?_⟩
    cases b with
    | none => exact absurd ⟨h.1, h.2.1⟩ hrow
    | some row => exact absurd h hrow

theorem loadOrCreate_safe_iff (hb : ∀ row ∈ b, row.Sound) (capacity : Int) :
    BucketCall.Safe ⟨.loadOrCreate capacity, now⟩ key b ↔
      BucketCall.Guarded ⟨.loadOrCreate capacity, now⟩ b := by
  by_cases hcapacity : 0 < capacity
  · have hnonneg : (0 : ℚ) ≤ capacity := by exact_mod_cast hcapacity.le
    have hchecked : checkedRow .exact capacity (TokenArithmetic.exact.double capacity) now none =
        .ok ⟨capacity, capacity, now, none, hcapacity, hnonneg⟩ :=
      checkedRow_exact _ _ hcapacity hnonneg
    have happly : BucketCall.apply .exact key ⟨.loadOrCreate capacity, now⟩ b =
        .ok (b.getD ⟨capacity, capacity, now, none, hcapacity, hnonneg⟩, false) := by
      simp only [BucketCall.apply, hchecked]
      rfl
    rw [safe_of_ok happly]
    refine ⟨fun _ => hcapacity, fun _ => ?_⟩
    cases b with
    | none => exact le_rfl
    | some row => exact (hb row rfl).2.2
  · have hrefused : checkedRow .exact capacity (TokenArithmetic.exact.double capacity) now none =
        .error .checkViolation := checkedRow_eq_error_iff.mpr fun h => hcapacity h.1
    have happly : BucketCall.apply .exact key ⟨.loadOrCreate capacity, now⟩ b =
        .error .checkViolation := by
      simp only [BucketCall.apply, hrefused]
      rfl
    exact ⟨fun h => absurd h (not_safe_of_violation happly), fun h => absurd h hcapacity⟩

theorem consume_safe_iff (hb : ∀ row ∈ b, row.Sound) {amount : ℚ} (hamount : 0 < amount) :
    BucketCall.Safe ⟨.atomicRefillConsume amount, now⟩ key b ↔
      BucketCall.Guarded ⟨.atomicRefillConsume amount, now⟩ b := by
  cases b with
  | none =>
    have happly : BucketCall.apply .exact key ⟨.atomicRefillConsume amount, now⟩ none =
        .error key.notFound := rfl
    exact ⟨fun _ => trivial, fun _ => safe_of_error happly (by simp [BucketKey.notFound]) hb⟩
  | some row =>
    have happly : BucketCall.apply .exact key ⟨.atomicRefillConsume amount, now⟩ (some row) =
        row.consume .exact amount now := rfl
    change _ ↔ 0 ≤ row.tokens + row.elapsed .exact now * (row.capacity / refillRateDivisor)
    rw [← row.refilled_nonneg_iff]
    rcases consume_cases row amount hamount now with
      ⟨hnonneg, updated, allowed, hconsume, hle⟩ | ⟨hneg, hconsume⟩
    · rw [hconsume] at happly
      exact ⟨fun _ => hnonneg, fun _ => (safe_of_ok happly).mpr hle⟩
    · rw [hconsume] at happly
      exact ⟨fun h => absurd h (not_safe_of_violation happly), fun h => absurd h (not_le.mpr hneg)⟩

theorem record429_safe (hb : ∀ row ∈ b, row.Sound) (newCapacity : Option Int) :
    BucketCall.Safe ⟨.record429 newCapacity, now⟩ key b := by
  by_cases hgiven : ∃ given ∈ newCapacity, given ≤ 0
  · have happly : BucketCall.apply .exact key ⟨.record429 newCapacity, now⟩ b =
        .error (.valueError "new_capacity must be > 0") := by
      simp only [BucketCall.apply, if_pos hgiven]
    exact safe_of_error happly (by simp) hb
  · cases b with
    | none =>
      have happly : BucketCall.apply .exact key ⟨.record429 newCapacity, now⟩ none =
          .error key.notFound := by
        simp only [BucketCall.apply, if_neg hgiven]
      exact safe_of_error happly (by simp [BucketKey.notFound]) hb
    | some row =>
      obtain ⟨updated, hupdated, hle⟩ := record429_ok row newCapacity
        (fun given h => not_le.mp fun hle => hgiven ⟨given, h, hle⟩) now
      have happly : BucketCall.apply .exact key ⟨.record429 newCapacity, now⟩ (some row) =
          .ok (updated, false) := by
        simp only [BucketCall.apply, if_neg hgiven, hupdated]
        rfl
      exact (safe_of_ok happly).mpr hle

theorem updateCapacity_safe_iff (hb : ∀ row ∈ b, row.Sound) (newCapacity : Int) :
    BucketCall.Safe ⟨.updateCapacity newCapacity, now⟩ key b ↔
      BucketCall.Guarded ⟨.updateCapacity newCapacity, now⟩ b := by
  by_cases hnew : newCapacity ≤ 0
  · have happly : BucketCall.apply .exact key ⟨.updateCapacity newCapacity, now⟩ b =
        .error (.valueError "new_capacity must be > 0") := by
      simp only [BucketCall.apply, if_pos hnew]
    refine ⟨fun _ => ?_, fun _ => safe_of_error happly (by simp) hb⟩
    cases b with
    | none => trivial
    | some row => exact .inl hnew
  cases b with
  | none =>
    have happly : BucketCall.apply .exact key ⟨.updateCapacity newCapacity, now⟩ none =
        .error key.notFound := by
      simp only [BucketCall.apply, if_neg hnew]
    exact ⟨fun _ => trivial, fun _ => safe_of_error happly (by simp [BucketKey.notFound]) hb⟩
  | some row =>
    change _ ↔ newCapacity ≤ 0 ∨
      0 ≤ row.tokens + row.elapsed .exact now * (row.capacity / refillRateDivisor)
    rw [← row.refilled_nonneg_iff]
    rcases updateCapacity_cases row (not_le.mp hnew) now with
      ⟨hnonneg, updated, hupdated, hle⟩ | ⟨hneg, hupdated⟩
    · have happly : BucketCall.apply .exact key ⟨.updateCapacity newCapacity, now⟩ (some row) =
          .ok (updated, false) := by
        simp only [BucketCall.apply, if_neg hnew, hupdated]
        rfl
      exact ⟨fun _ => .inr hnonneg, fun _ => (safe_of_ok happly).mpr hle⟩
    · have happly : BucketCall.apply .exact key ⟨.updateCapacity newCapacity, now⟩ (some row) =
          .error .checkViolation := by
        simp only [BucketCall.apply, if_neg hnew, hupdated]
        rfl
      refine ⟨fun h => absurd h (not_safe_of_violation happly), fun h => ?_⟩
      exact absurd (h.resolve_left hnew) (not_le.mpr hneg)

end Methods

theorem safe_iff_guarded (key : BucketKey) {b : Option (RateBucket τ)} {call : BucketCall τ}
    (hb : ∀ row ∈ b, row.Sound) (hpositive : call.Positive) :
    call.Safe key b ↔ call.Guarded b := by
  obtain ⟨op, now⟩ := call
  cases op with
  | create capacity tokens last recent => exact create_safe_iff hb capacity tokens last recent
  | loadOrCreate capacity => exact loadOrCreate_safe_iff hb capacity
  | atomicRefillConsume amount => exact consume_safe_iff hb (hpositive amount rfl)
  | record429 newCapacity =>
    exact ⟨fun _ => by cases b <;> trivial, fun _ => record429_safe hb newCapacity⟩
  | updateCapacity newCapacity => exact updateCapacity_safe_iff hb newCapacity

/-- A run of calls on a bucket that is not there yet stays sound, and meets no constraint,
exactly when each call has what it needs. -/
theorem bucket_sound_iff (key : BucketKey) (calls : List (BucketCall τ))
    (hpositive : ∀ call ∈ calls, call.Positive) :
    Along (bucketStep .exact key) (fun b call => call.Safe key b) none calls ↔
      Along (bucketStep .exact key) (fun b call => call.Guarded b) none calls :=
  along_congr_of (I := fun b => ∀ row ∈ b, RateBucket.Sound row)
    (fun _ call hcall hb => safe_iff_guarded key hb (hpositive call hcall))
    (fun _ _ _ h => h.1) (by simp)

def sampleKey : BucketKey := ⟨"endpoint", "run"⟩

def steadyCalls : List (BucketCall Instant) :=
  [⟨.loadOrCreate 10, 0⟩, ⟨.atomicRefillConsume 7, 1000000⟩, ⟨.atomicRefillConsume 7, 2000000⟩]

theorem bucket_sound_steady :
    Along (bucketStep .exact sampleKey) (fun b call => call.Safe sampleKey b) none steadyCalls := by
  have hpositive : ∀ call ∈ steadyCalls, call.Positive := by
    intro call hcall amount hop
    simp only [steadyCalls, List.mem_cons, List.not_mem_nil, or_false] at hcall
    rcases hcall with rfl | rfl | rfl
    · cases hop
    · cases hop; norm_num
    · cases hop; norm_num
  exact (bucket_sound_iff sampleKey steadyCalls hpositive).mpr (by decide +kernel)

/-- A consume whose clock reading lies a second before that of the empty bucket, and a bucket
that is created with more tokens than its capacity. -/
theorem bucket_unsound :
    (run (bucketStep .exact sampleKey) none [⟨.create 10 (some 0) none none, (0 : Instant)⟩]).isSome ∧
      BucketCall.Violates ⟨.atomicRefillConsume 1, -1000000⟩ sampleKey
        (run (bucketStep .exact sampleKey) none [⟨.create 10 (some 0) none none, (0 : Instant)⟩]) ∧
      (run (bucketStep .exact sampleKey) none [⟨.create 10 (some 20) none none, (0 : Instant)⟩]).map
        (fun row => (row.capacity, row.tokens)) = some (10, 20) :=
  by decide +kernel

end Pitwall.RateLimits
