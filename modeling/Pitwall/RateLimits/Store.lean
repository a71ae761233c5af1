import Mathlib.Algebra.Order.Field.Rat
import Mathlib.Tactic.Linarith
import Pitwall.Core.Clock
import Pitwall.Library.Binary64Order
import Pitwall.Library.Machine
set_option autoImplicit false

/-!
`RateBucketStore` on one bucket. Each operation is one transaction on the row, with token
arithmetic that rounds as floats and the `REAL` column do, or that is exact.
-/

namespace Pitwall.RateLimits
open Machine

/-- What arithmetic on tokens keeps of a result: in a double, and in the `REAL` column. A capacity
is an `INTEGER`, so that no result leaves the range of doubles. -/
structure TokenArithmetic where
  double : ℚ → ℚ
  real : ℚ → ℚ

namespace TokenArithmetic

def exact : TokenArithmetic := ⟨fun q => q, fun q => q⟩

def floating : TokenArithmetic := ⟨Binary64.nearest, FloatingRounding.roundTo 2 (-149) 23⟩

@[simp] theorem exact_double (q : ℚ) : exact.double q = q := rfl

@[simp] theorem exact_real (q : ℚ) : exact.real q = q := rfl

theorem double_mono {x y : ℚ} (h : x ≤ y) : floating.double x ≤ floating.double y :=
  Binary64.nearest_mono h

theorem double_nonneg {x : ℚ} (h : 0 ≤ x) : 0 ≤ floating.double x := Binary64.nearest_nonneg h

theorem real_nonneg {x : ℚ} (h : 0 ≤ x) : 0 ≤ floating.real x :=
  FloatingRounding.roundTo_nonneg (by norm_num) h

end TokenArithmetic

class WallClock (τ : Type) where
  secondsBetween : τ → τ → ℚ

/-- Timestamps of a datetime. -/
instance : WallClock Instant := ⟨fun earlier later => ((later - earlier : Int) : ℚ) / 1000000⟩

/-- An ideal clock that counts seconds. -/
instance : WallClock ℚ := ⟨fun earlier later => later - earlier⟩

/-- A row of `pitwall.rate_buckets`, whose constraints are those of the table. -/
structure RateBucket (τ : Type) where
  capacity : Int
  tokens : ℚ
  lastRefilledAt : τ
  recent429At : Option τ
  capacity_pos : 0 < capacity
  tokens_nonneg : 0 ≤ tokens
  deriving DecidableEq

structure BucketKey where
  endpointId : String
  operation : String

inductive StoreError where
  | checkViolation
  | uniqueViolation (message : String)
  | valueError (message : String)
  deriving DecidableEq

/-- `_REFILL_RATE_DIVISOR`. -/
def refillRateDivisor : ℚ := 10

/-- `halved_capacity`, of a positive capacity. -/
def halvedCapacity (capacity : Int) : Int := max 1 (capacity / 2)

section Rows
variable {τ : Type} (arith : TokenArithmetic)

/-- Writing a row, which the `CHECK` constraints may refuse. -/
def checkedRow (capacity : Int) (tokens : ℚ) (lastRefilledAt : τ) (recent429At : Option τ) :
    Except StoreError (RateBucket τ) :=
  if h : 0 < capacity ∧ 0 ≤ arith.real tokens then
    .ok ⟨capacity, arith.real tokens, lastRefilledAt, recent429At, h.1, h.2⟩
  else .error .checkViolation

def BucketKey.notFound (key : BucketKey) : StoreError :=
  .valueError s!"No bucket found for {key.endpointId}/{key.operation}"

variable [WallClock τ]

/-- `capacity / _REFILL_RATE_DIVISOR`. -/
def RateBucket.refillRate (row : RateBucket τ) : ℚ :=
  arith.double (arith.double row.capacity / refillRateDivisor)

/-- The refill of `elapsed` seconds. -/
def RateBucket.refilled (row : RateBucket τ) (elapsed : ℚ) : ℚ :=
  min (arith.double row.capacity)
    (arith.double (row.tokens + arith.double (elapsed * row.refillRate arith)))

def RateBucket.elapsed (row : RateBucket τ) (now : τ) : ℚ :=
  arith.double (WallClock.secondsBetween row.lastRefilledAt now)

/-- `atomic_refill_consume`, on the row that it has locked. -/
def RateBucket.consume (row : RateBucket τ) (tokensToConsume : ℚ) (now : τ) :
    Except StoreError (RateBucket τ × Bool) :=
  let newTokens := row.refilled arith (row.elapsed arith now)
  let allowed := decide (tokensToConsume ≤ newTokens)
  let finalTokens := if allowed then arith.double (newTokens - tokensToConsume) else newTokens
  (fun updated => (updated, allowed)) <$>
    checkedRow arith row.capacity finalTokens now row.recent429At

def RateBucket.reducedCapacity (row : RateBucket τ) : Option Int → Int
  | none => halvedCapacity row.capacity
  | some newCapacity => min (halvedCapacity row.capacity) newCapacity

/-- `record_429`, on the row that it has locked; a given capacity is positive. -/
def RateBucket.record429 (row : RateBucket τ) (newCapacity : Option Int) (now : τ) :
    Except StoreError (RateBucket τ) :=
  let reducedCapacity := row.reducedCapacity newCapacity
  let refilledTokens := row.refilled arith (max 0 (row.elapsed arith now))
  checkedRow arith reducedCapacity (min (arith.double reducedCapacity) refilledTokens) now (some now)

/-- `update_capacity`, on the row that it has locked. -/
def RateBucket.updateCapacity (row : RateBucket τ) (newCapacity : Int) (now : τ) :
    Except StoreError (RateBucket τ) :=
  let refilledTokens := row.refilled arith (row.elapsed arith now)
  checkedRow arith newCapacity (min (arith.double newCapacity) refilledTokens) now row.recent429At

end Rows

inductive BucketOp (τ : Type) where
  | create (capacity : Int) (tokens : Option ℚ) (lastRefilledAt recent429At : Option τ)
  | loadOrCreate (capacity : Int)
  | atomicRefillConsume (tokensToConsume : ℚ)
  | record429 (newCapacity : Option Int)
  | updateCapacity (newCapacity : Int)

/-- A call with its reading of the clock. -/
structure BucketCall (τ : Type) where
  op : BucketOp τ
  now : τ

section Store
variable {τ : Type} [WallClock τ] (arith : TokenArithmetic) (key : BucketKey)

/-- A call on the row, if there is one: what it leaves there, and for a consume whether it was
allowed. Constraints are checked before a conflict is. -/
def BucketCall.apply (call : BucketCall τ) (b : Option (RateBucket τ)) :
    Except StoreError (RateBucket τ × Bool) :=
  match call.op, b with
  | .create capacity tokens lastRefilledAt recent429At, b =>
      match checkedRow arith capacity (tokens.getD (arith.double capacity))
          (lastRefilledAt.getD call.now) recent429At, b with
      | .error e, _ => .error e
      | .ok _, some _ => .error (.uniqueViolation
          s!"Bucket already exists: {key.endpointId}/{key.operation}")
      | .ok row, none => .ok (row, false)
  | .loadOrCreate capacity, b =>
      (fun row => (b.getD row, false)) <$>
        checkedRow arith capacity (arith.double capacity) call.now none
  | .atomicRefillConsume _, none => .error key.notFound
  | .atomicRefillConsume tokensToConsume, some row => row.consume arith tokensToConsume call.now
  | .record429 newCapacity, b =>
      if ∃ given ∈ newCapacity, given ≤ 0 then .error (.valueError "new_capacity must be > 0")
      else
        match b with
        | none => .error key.notFound
        | some row => (fun updated => (updated, false)) <$>
            row.record429 arith newCapacity call.now
  | .updateCapacity newCapacity, b =>
      if newCapacity ≤ 0 then .error (.valueError "new_capacity must be > 0")
      else
        match b with
        | none => .error key.notFound
        | some row =>
            (fun updated => (updated, false)) <$>
              row.updateCapacity arith newCapacity call.now

/-- A transaction that raises is rolled back. -/
def bucketStep (b : Option (RateBucket τ)) (call : BucketCall τ) : Option (RateBucket τ) :=
  match call.apply arith key b with
  | .ok (row, _) => some row
  | .error _ => b

end Store

/-! What a written row holds. -/

section Spec
variable {τ : Type} {arith : TokenArithmetic}

theorem checkedRow_ok {capacity : Int} {tokens : ℚ} {last : τ} {recent : Option τ}
    {row : RateBucket τ} (h : checkedRow arith capacity tokens last recent = .ok row) :
    row.capacity = capacity ∧ row.tokens = arith.real tokens ∧ row.lastRefilledAt = last ∧
      row.recent429At = recent := by
  unfold checkedRow at h
  split at h
  · cases h
    exact ⟨rfl, rfl, rfl, rfl⟩
  · contradiction

theorem checkedRow_eq_ok {capacity : Int} {tokens : ℚ} (last : τ) (recent : Option τ)
    (hcapacity : 0 < capacity) (htokens : 0 ≤ arith.real tokens) :
    checkedRow arith capacity tokens last recent =
      .ok ⟨capacity, arith.real tokens, last, recent, hcapacity, htokens⟩ :=
  dif_pos ⟨hcapacity, htokens⟩

theorem checkedRow_exact {capacity : Int} {tokens : ℚ} (last : τ) (recent : Option τ)
    (hcapacity : 0 < capacity) (htokens : 0 ≤ tokens) :
    checkedRow .exact capacity tokens last recent =
      .ok ⟨capacity, tokens, last, recent, hcapacity, htokens⟩ :=
  checkedRow_eq_ok last recent hcapacity htokens

theorem checkedRow_eq_error_iff {capacity : Int} {tokens : ℚ} {last : τ} {recent : Option τ} :
    checkedRow arith capacity tokens last recent = .error .checkViolation ↔
      ¬(0 < capacity ∧ 0 ≤ arith.real tokens) := by
  unfold checkedRow
  split
  · rename_i h
    simp [h]
  · rename_i h
    simp [h]

theorem halvedCapacity_pos (capacity : Int) : 0 < halvedCapacity capacity :=
  lt_of_lt_of_le one_pos (le_max_left 1 _)

theorem halvedCapacity_le {capacity : Int} (h : 0 < capacity) :
    halvedCapacity capacity ≤ capacity := by
  unfold halvedCapacity
  omega

theorem RateBucket.reducedCapacity_pos (row : RateBucket τ) {newCapacity : Option Int}
    (h : ∀ given ∈ newCapacity, 0 < given) : 0 < row.reducedCapacity newCapacity := by
  cases newCapacity with
  | none => exact halvedCapacity_pos _
  | some given => exact lt_min (halvedCapacity_pos _) (h given rfl)

theorem RateBucket.refilled_exact (row : RateBucket τ) (elapsed : ℚ) :
    row.refilled .exact elapsed =
      min (row.capacity : ℚ) (row.tokens + elapsed * (row.capacity / refillRateDivisor)) := rfl

theorem RateBucket.refilled_le (row : RateBucket τ) (elapsed : ℚ) :
    row.refilled .exact elapsed ≤ row.capacity := min_le_left _ _

theorem RateBucket.rate_pos (row : RateBucket τ) :
    0 < (row.capacity : ℚ) / refillRateDivisor := by
  have hcapacity : (0 : ℚ) < row.capacity := by exact_mod_cast row.capacity_pos
  exact div_pos hcapacity (by norm_num [refillRateDivisor])

theorem RateBucket.refilled_nonneg_iff (row : RateBucket τ) (elapsed : ℚ) :
    0 ≤ row.refilled .exact elapsed ↔
      0 ≤ row.tokens + elapsed * (row.capacity / refillRateDivisor) := by
  have hcapacity : (0 : ℚ) ≤ row.capacity := by exact_mod_cast row.capacity_pos.le
  simp [refilled_exact, hcapacity]

theorem RateBucket.refilled_nonneg (row : RateBucket τ) {elapsed : ℚ} (h : 0 ≤ elapsed) :
    0 ≤ row.refilled .exact elapsed :=
  (row.refilled_nonneg_iff elapsed).mpr
    (add_nonneg row.tokens_nonneg (mul_nonneg h row.rate_pos.le))

theorem RateBucket.refillRate_nonneg (row : RateBucket τ) : 0 ≤ row.refillRate .floating := by
  have hcapacity : (0 : ℚ) ≤ row.capacity := by exact_mod_cast row.capacity_pos.le
  have hdivisor : (0 : ℚ) ≤ refillRateDivisor := by norm_num [refillRateDivisor]
  exact TokenArithmetic.double_nonneg (div_nonneg (TokenArithmetic.double_nonneg hcapacity) hdivisor)

theorem RateBucket.refilled_mono (row : RateBucket τ) {elapsed elapsed' : ℚ}
    (h : elapsed ≤ elapsed') :
    row.refilled .floating elapsed ≤ row.refilled .floating elapsed' := by
  unfold RateBucket.refilled
  refine min_le_min_left _ (TokenArithmetic.double_mono ?_)
  refine add_le_add_right (TokenArithmetic.double_mono ?_) _
  exact mul_le_mul_of_nonneg_right h row.refillRate_nonneg

end Spec

end Pitwall.RateLimits
