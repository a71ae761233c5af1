import Mathlib.Data.Rat.Floor
import Pitwall.RateLimits.Store
set_option autoImplicit false

/-!
`TokenBucketRateLimiter.acquire`, alone on its bucket, with clocks that a sleep moves on by just
the requested time, and in the arithmetic of floats.
-/

namespace Pitwall.RateLimits

/-- `RateLimitConfig`, with what its constructor checks. -/
structure RateLimitConfig where
  baseLimit : Int
  perWorkerLimit : Int
  refillWindowS : Binary64 := .ofRat 10
  maxLocalWaitS : Binary64 := .ofRat 30
  capacityRebuildWindowS : Binary64 := .ofRat 60
  baseLimit_pos : ¬ baseLimit ≤ 0
  perWorkerLimit_nonneg : ¬ perWorkerLimit < 0
  refillWindow_pos : refillWindowS.le (.ofRat 0) = false
  maxLocalWait_nonneg : maxLocalWaitS.lt (.ofRat 0) = false
  capacityRebuildWindow_pos : capacityRebuildWindowS.le (.ofRat 0) = false

inductive AcquireError where
  | valueError (message : String)
  | overflow (message : String)
  | zeroDivision
  | store (e : StoreError)
deriving DecidableEq

def dynamicCapacity (baseLimit workerCount perWorkerLimit : Int) : Except AcquireError Int :=
  if baseLimit ≤ 0 then .error (.valueError "base_limit must be > 0")
  else if workerCount < 0 then .error (.valueError "worker_count must be >= 0")
  else if perWorkerLimit < 0 then .error (.valueError "per_worker_limit must be >= 0")
  else .ok (max baseLimit (workerCount * perWorkerLimit))

def RateLimitConfig.capacityForWorkers (config : RateLimitConfig) (workerCount : Int) :
    Except AcquireError Int :=
  dynamicCapacity config.baseLimit workerCount config.perWorkerLimit

/-- `float(n)`, which arithmetic of an `int` with a float begins with. -/
def floatOfInt (n : Int) : Except AcquireError Binary64 :=
  match Binary64.ofRat n with
  | .finite q => .ok (.finite q)
  | _ => .error (.overflow "int too large to convert to float")

/-- `math.floor`. -/
def floorOfFloat : Binary64 → Except AcquireError Int
  | .finite q => .ok ⌊q.1⌋
  | .infinite _ => .error (.overflow "cannot convert float infinity to integer")
  | .nan => .error (.valueError "cannot convert float NaN to integer")

/-- `capacity_after_429`. -/
def capacityAfter429 (targetCapacity : Int) (recent429At : Option ℚ) (now : ℚ)
    (rebuildWindowS : Binary64) : Except AcquireError Int :=
  if targetCapacity ≤ 0 then .error (.valueError "target_capacity must be > 0")
  else if rebuildWindowS.le (.ofRat 0) then
    .error (.valueError "rebuild_window_s must be > 0")
  else
    match recent429At with
    | none => .ok targetCapacity
    | some recent =>
        let elapsed := Binary64.ofRat (WallClock.secondsBetween recent now)
        let reduced := halvedCapacity targetCapacity
        if rebuildWindowS.le elapsed then .ok targetCapacity
        else if elapsed.le (.ofRat 0) then .ok reduced
        else do
          let rest ← floatOfInt (targetCapacity - reduced)
          let base ← floatOfInt reduced
          let recovered := base.add (rest.mul (elapsed.div rebuildWindowS))
          return min targetCapacity (max reduced (← floorOfFloat recovered))

/-- `seconds_until_available`. -/
def secondsUntilAvailable (tokens : ℚ) (capacity : Int) (tokensNeeded : ℚ)
    (refillWindowS : Binary64) : Except AcquireError Binary64 :=
  if capacity ≤ 0 then .error (.valueError "capacity must be > 0")
  else if tokens < 0 then .error (.valueError "tokens must be >= 0")
  else if tokensNeeded ≤ 0 then .error (.valueError "tokens_needed must be > 0")
  else if refillWindowS.le (.ofRat 0) then
    .error (.valueError "refill_window_s must be > 0")
  else if tokensNeeded ≤ tokens then .ok (.ofRat 0)
  else if (capacity : ℚ) < tokensNeeded then .ok (.infinite false)
  else
    let refillRate := (Binary64.ofRat capacity).div refillWindowS
    if refillRate.eq (.ofRat 0) then .error .zeroDivision
    else .ok ((Binary64.ofRat (tokensNeeded - tokens)).div refillRate)

structure AcquireRequest where
  key : BucketKey
  workerCount : Int
  tokens : ℚ

structure World where
  bucket : Option (RateBucket ℚ)
  wall : ℚ
  monotonic : ℚ

def World.sleep (w : World) (seconds : ℚ) : World :=
  { w with
    wall := w.wall + seconds
    monotonic := w.monotonic + seconds }

@[simp] theorem World.sleep_wall (w : World) (seconds : ℚ) :
    (w.sleep seconds).wall = w.wall + seconds := rfl

@[simp] theorem World.sleep_bucket (w : World) (seconds : ℚ) :
    (w.sleep seconds).bucket = w.bucket := rfl

inductive AcquireOutcome where
  | granted (bucket : RateBucket ℚ)
  | rateLimited (retryAfterS : Binary64)
  | raised (e : AcquireError)

/-- How `acquire` ends, and the sleeps it took. -/
structure AcquireEnd where
  world : World
  slept : List ℚ
  outcome : AcquireOutcome

section Acquire
variable (config : RateLimitConfig) (request : AcquireRequest)

/-- `_ensure_bucket_capacity`: the row it leaves, if it leaves one. -/
def ensureBucketCapacity (capacity : Int) (w : World) :
    Option (RateBucket ℚ) × Except AcquireError Unit :=
  match BucketCall.apply .floating request.key ⟨.loadOrCreate capacity, w.wall⟩ w.bucket with
  | .error e => (w.bucket, .error (.store e))
  | .ok (bucket, _) =>
      match capacityAfter429 capacity bucket.recent429At w.wall config.capacityRebuildWindowS with
      | .error e => (some bucket, .error e)
      | .ok effectiveCapacity =>
          if bucket.capacity = effectiveCapacity then (some bucket, .ok ())
          else
            match BucketCall.apply .floating request.key ⟨.updateCapacity effectiveCapacity, w.wall⟩
                (some bucket) with
            | .error e => (some bucket, .error (.store e))
            | .ok (resized, _) => (some resized, .ok ())

def acquireTurn (deadline : Binary64) (w : World) : World × (AcquireOutcome ⊕ ℚ) :=
  match BucketCall.apply .floating request.key ⟨.atomicRefillConsume request.tokens, w.wall⟩
      w.bucket with
  | .error e => (w, .inl (.raised (.store e)))
  | .ok (bucket, true) => ({ w with bucket := some bucket }, .inl (.granted bucket))
  | .ok (bucket, false) =>
      let w' := { w with bucket := some bucket }
      match secondsUntilAvailable bucket.tokens bucket.capacity request.tokens
          config.refillWindowS with
      | .error e => (w', .inl (.raised e))
      | .ok (.finite seconds) =>
          let remainingWaitS := deadline.sub (.ofRat w.monotonic)
          if remainingWaitS.lt (.finite seconds) then
            (w', .inl (.rateLimited (.finite seconds)))
          else (w', .inr (max 0 seconds.1))
      | .ok retryAfterS => (w', .inl (.rateLimited retryAfterS))

def acquireLoop (deadline : Binary64) : ℕ → World → List ℚ → Option AcquireEnd
  | 0, _, _ => none
  | fuel + 1, w, slept =>
      match acquireTurn config request deadline w with
      | (w', .inl outcome) => some ⟨w', slept, outcome⟩
      | (w', .inr seconds) =>
          acquireLoop deadline fuel (w'.sleep seconds) (slept ++ [seconds])

def acquire (fuel : ℕ) (w : World) : Option AcquireEnd :=
  if request.tokens ≤ 0 then some ⟨w, [], .raised (.valueError "tokens must be > 0")⟩
  else
    match config.capacityForWorkers request.workerCount with
    | .error e => some ⟨w, [], .raised e⟩
    | .ok capacity =>
        match ensureBucketCapacity config request capacity w with
        | (bucket, .error e) => some ⟨{ w with bucket := bucket }, [], .raised e⟩
        | (bucket, .ok ()) =>
            let deadline := (Binary64.ofRat w.monotonic).add config.maxLocalWaitS
            acquireLoop config request deadline fuel { w with bucket := bucket } []

end Acquire

end Pitwall.RateLimits
