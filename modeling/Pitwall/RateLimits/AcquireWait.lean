import Mathlib.Tactic.FieldSimp
import Mathlib.Tactic.Ring
import Pitwall.RateLimits.Limiter
set_option autoImplicit false

/-!
When the wait of `acquire`, computed from the window of its configuration, is one that the
store makes good, which refills in ten seconds; both in the arithmetic of floats.
-/

namespace Pitwall.RateLimits
open TokenArithmetic

def Exceeds (seconds : ℚ) : Binary64 → Prop
  | .finite limit => limit.1 < seconds
  | .infinite negative => negative = true
  | .nan => False

def FitsIn (seconds : ℚ) : Binary64 → Prop
  | .finite limit => seconds ≤ limit.1
  | .infinite negative => negative = false
  | .nan => False

instance (seconds : ℚ) : (limit : Binary64) → Decidable (Exceeds seconds limit)
  | .finite limit => inferInstanceAs (Decidable (limit.1 < seconds))
  | .infinite negative => inferInstanceAs (Decidable (negative = true))
  | .nan => inferInstanceAs (Decidable False)

def AcquireRequest.Valid (request : AcquireRequest) : Prop :=
  0 < request.tokens ∧ 0 ≤ request.workerCount

/-- The row that `acquire` goes on to consume from. -/
def ensuredRow (config : RateLimitConfig) (request : AcquireRequest) (w : World) :
    Option (RateBucket ℚ) :=
  match config.capacityForWorkers request.workerCount with
  | .error _ => none
  | .ok capacity =>
      match ensureBucketCapacity config request capacity w with
      | (_, .error _) => none
      | (bucket, .ok ()) => bucket

section Tokens
variable (row : RateBucket ℚ) (now : ℚ)

def RateBucket.tokensAt : ℚ := row.refilled floating (row.elapsed floating now)

/-- What the `REAL` column keeps of them. -/
def RateBucket.keptAt : ℚ := floating.real (row.tokensAt now)

def RateBucket.deniedAt (h : 0 ≤ row.keptAt now) : RateBucket ℚ :=
  ⟨row.capacity, row.keptAt now, now, row.recent429At, row.capacity_pos, h⟩

end Tokens

section Spec
variable (config : RateLimitConfig) (request : AcquireRequest)

/-- After some wait within `max_local_wait_s` the store would grant the tokens of the row. -/
def Grantable (row : RateBucket ℚ) (now : ℚ) : Prop :=
  ∃ wait : ℚ, 0 ≤ wait ∧ FitsIn wait config.maxLocalWaitS ∧
    ∃ updated, row.consume floating request.tokens (now + wait) = .ok (updated, true)

/-- At most one sleep, which is enough, no more sleep than allowed, and no `RateLimited` where
the tokens could be had in time. -/
structure AcquireEnd.Exact (w : World) (e : AcquireEnd) : Prop where
  returned : ∀ err, e.outcome ≠ .raised err
  once : e.slept.length ≤ 1
  enough : e.slept ≠ [] → ∃ bucket, e.outcome = .granted bucket
  bounded : ¬ Exceeds e.slept.sum config.maxLocalWaitS
  limited : ∀ retryAfterS row, e.outcome = .rateLimited retryAfterS →
    ensuredRow config request w = some row → ¬ Grantable config request row w.wall

def WaitExact (w : World) : Prop :=
  ∃ fuel e, acquire config request fuel w = some e ∧ e.Exact config request w

/-- The refill of `max_local_wait_s` reaches the request. -/
def RateBucket.ServedInTime (row : RateBucket ℚ) (now : ℚ) : Prop :=
  match config.maxLocalWaitS with
  | .finite limit => request.tokens ≤ row.tokensAt (now + limit.1)
  | .infinite _ => request.tokens ≤ floating.double row.capacity
  | .nan => False

instance (row : RateBucket ℚ) (now : ℚ) : Decidable (row.ServedInTime config request now) := by
  unfold RateBucket.ServedInTime
  cases config.maxLocalWaitS <;> infer_instance

/-- What is left of `max_local_wait_s` at its beginning, as two float operations give it. -/
def remainingWait (monotonic : ℚ) : Binary64 :=
  ((Binary64.ofRat monotonic).add config.maxLocalWaitS).sub (.ofRat monotonic)

/-- A wait that is left makes up for the missing tokens and is no longer than allowed, and one
that is not left is not one that the refill of the store needs no longer for. -/
def RateBucket.WaitServes (row : RateBucket ℚ) (now monotonic : ℚ) (h : 0 ≤ row.keptAt now) :
    Except AcquireError Binary64 → Prop
  | .error _ => False
  | .ok (.finite seconds) =>
      if (remainingWait config monotonic).lt (.finite seconds) then
        ¬ row.ServedInTime config request now
      else
        ¬ Exceeds (max 0 seconds.1) config.maxLocalWaitS ∧
          request.tokens ≤ (row.deniedAt now h).tokensAt (now + max 0 seconds.1)
  | .ok _ => ¬ row.ServedInTime config request now

/-- What the row keeps is not negative, and the tokens are there, or the wait that
`seconds_until_available` finds for what the row keeps serves. -/
def RateBucket.Paced (row : RateBucket ℚ) (now monotonic : ℚ) : Prop :=
  ∃ h : 0 ≤ row.keptAt now, request.tokens ≤ row.tokensAt now ∨
    row.WaitServes config request now monotonic h
      (secondsUntilAvailable (row.keptAt now) row.capacity request.tokens config.refillWindowS)

instance (row : RateBucket ℚ) (now monotonic : ℚ) (h : 0 ≤ row.keptAt now) :
    (wait : Except AcquireError Binary64) →
      Decidable (row.WaitServes config request now monotonic h wait)
  | .error _ => inferInstanceAs (Decidable False)
  | .ok (.finite seconds) => inferInstanceAs (Decidable
      (if (remainingWait config monotonic).lt (.finite seconds) then
        ¬ row.ServedInTime config request now
      else
        ¬ Exceeds (max 0 seconds.1) config.maxLocalWaitS ∧
          request.tokens ≤ (row.deniedAt now h).tokensAt (now + max 0 seconds.1)))
  | .ok (.infinite _) | .ok .nan =>
      inferInstanceAs (Decidable (¬ row.ServedInTime config request now))

instance (row : RateBucket ℚ) (now monotonic : ℚ) :
    Decidable (row.Paced config request now monotonic) :=
  inferInstanceAs (Decidable (∃ h : 0 ≤ row.keptAt now, request.tokens ≤ row.tokensAt now ∨
    row.WaitServes config request now monotonic h
      (secondsUntilAvailable (row.keptAt now) row.capacity request.tokens config.refillWindowS)))

/-- The bucket can be given its capacity, and its row is paced. -/
def Paced (w : World) : Prop :=
  ∃ row, ensuredRow config request w = some row ∧
    row.Paced config request w.wall w.monotonic

end Spec

section Rows
variable {config : RateLimitConfig} {request : AcquireRequest} {row : RateBucket ℚ} {now : ℚ}

theorem elapsed_add (wait : ℚ) : WallClock.secondsBetween row.lastRefilledAt (now + wait) =
    WallClock.secondsBetween row.lastRefilledAt now + wait := by
  simp only [WallClock.secondsBetween]
  ring

theorem tokensAt_mono (row : RateBucket ℚ) {now now' : ℚ} (h : now ≤ now') :
    row.tokensAt now ≤ row.tokensAt now' := by
  refine row.refilled_mono (double_mono ?_)
  exact sub_le_sub_right h row.lastRefilledAt

theorem keptAt_nonneg (h : 0 ≤ row.tokensAt now) : 0 ≤ row.keptAt now := real_nonneg h

theorem consume_eq (row : RateBucket ℚ) (amount now : ℚ) :
    row.consume floating amount now =
      (fun updated => (updated, decide (amount ≤ row.tokensAt now))) <$>
        checkedRow floating row.capacity
          (if decide (amount ≤ row.tokensAt now) then floating.double (row.tokensAt now - amount)
            else row.tokensAt now) now row.recent429At := rfl

theorem consume_granted (h : request.tokens ≤ row.tokensAt now) :
    ∃ updated, row.consume floating request.tokens now = .ok (updated, true) := by
  rw [consume_eq]
  simp only [h, decide_true, if_true]
  rw [checkedRow_eq_ok _ _ row.capacity_pos (real_nonneg (double_nonneg (sub_nonneg.mpr h)))]
  exact ⟨_, rfl⟩

theorem consume_denied (hkept : 0 ≤ row.keptAt now) (h : row.tokensAt now < request.tokens) :
    row.consume floating request.tokens now = .ok (row.deniedAt now hkept, false) := by
  rw [consume_eq]
  simp only [not_le.mpr h, decide_false, Bool.false_eq_true, if_false]
  rw [checkedRow_eq_ok _ _ row.capacity_pos hkept]
  rfl

theorem consume_refused (hpos : 0 < request.tokens) (h : row.keptAt now < 0) :
    row.consume floating request.tokens now = .error .checkViolation := by
  have hlack : ¬ request.tokens ≤ row.tokensAt now :=
    fun hle => absurd (keptAt_nonneg (hpos.le.trans hle)) (not_le.mpr h)
  rw [consume_eq]
  simp only [hlack, decide_false, Bool.false_eq_true, if_false]
  rw [checkedRow_eq_error_iff.mpr (fun hrow => absurd hrow.2 (not_le.mpr h))]
  rfl

theorem consume_granted_iff (hpos : 0 < request.tokens) :
    (∃ updated, row.consume floating request.tokens now = .ok (updated, true)) ↔
      request.tokens ≤ row.tokensAt now := by
  refine ⟨?_, consume_granted⟩
  rintro ⟨updated, hconsume⟩
  by_contra hlacking
  rcases le_or_gt 0 (row.keptAt now) with hkept | hkept
  · rw [consume_denied hkept (not_le.mp hlacking)] at hconsume
    cases hconsume
  · rw [consume_refused hpos hkept] at hconsume
    cases hconsume

theorem le_refillRate (row : RateBucket ℚ) : (2 : ℚ) ^ (-4 : ℤ) ≤ row.refillRate floating := by
  have hcapacity : (2 : ℚ) ^ (0 : ℤ) ≤ row.capacity := by
    exact_mod_cast row.capacity_pos
  have hone := double_mono hcapacity
  have hstart : floating.double (2 ^ (0 : ℤ)) = 2 ^ (0 : ℤ) := Binary64.nearest_zpow (by norm_num)
  have hend : floating.double (2 ^ (-4 : ℤ)) = 2 ^ (-4 : ℤ) := Binary64.nearest_zpow (by norm_num)
  rw [hstart, zpow_zero] at hone
  rw [← hend]
  refine double_mono ?_
  rw [le_div_iff₀ (by norm_num [refillRateDivisor])]
  exact le_trans (by norm_num [refillRateDivisor]) hone

theorem exists_full (row : RateBucket ℚ) (now : ℚ) :
    ∃ wait, 0 ≤ wait ∧ row.tokensAt (now + wait) = floating.double row.capacity := by
  obtain ⟨n, hn⟩ : ∃ n : ℕ, (row.capacity : ℚ) ≤ 2 ^ (n : ℤ) := by
    obtain ⟨n, hn⟩ := Int.eq_ofNat_of_zero_le row.capacity_pos.le
    refine ⟨n, ?_⟩
    rw [hn]
    exact_mod_cast Nat.lt_two_pow_self.le
  have hwait : floating.double (2 ^ ((n : ℤ) + 4)) = 2 ^ ((n : ℤ) + 4) :=
    Binary64.nearest_zpow (by omega)
  have hfull : floating.double (2 ^ (n : ℤ)) = 2 ^ (n : ℤ) := Binary64.nearest_zpow (by omega)
  refine ⟨max 0 (2 ^ ((n : ℤ) + 4) - WallClock.secondsBetween row.lastRefilledAt now),
    le_max_left _ _, min_eq_left (double_mono ?_)⟩
  have helapsed : (2 : ℚ) ^ ((n : ℤ) + 4) ≤ row.elapsed floating
      (now + max 0 (2 ^ ((n : ℤ) + 4) - WallClock.secondsBetween row.lastRefilledAt now)) := by
    rw [← hwait, RateBucket.elapsed, elapsed_add]
    refine double_mono ?_
    rw [hwait]
    linarith [le_max_right 0 (2 ^ ((n : ℤ) + 4) - WallClock.secondsBetween row.lastRefilledAt now)]
  have hgained : (2 : ℚ) ^ (n : ℤ) ≤ row.elapsed floating
      (now + max 0 (2 ^ ((n : ℤ) + 4) - WallClock.secondsBetween row.lastRefilledAt now)) *
        row.refillRate floating := by
    calc (2 : ℚ) ^ (n : ℤ) = 2 ^ ((n : ℤ) + 4) * 2 ^ (-4 : ℤ) := by
          rw [← zpow_add₀ (by norm_num)]
          congr 1
          omega
      _ ≤ _ := mul_le_mul helapsed (le_refillRate row) (Binary64.two_zpow_pos _).le
          ((Binary64.two_zpow_pos _).le.trans helapsed)
  have hdouble := double_mono hgained
  rw [hfull] at hdouble
  linarith [row.tokens_nonneg]

theorem grantable_iff (hpos : 0 < request.tokens) :
    Grantable config request row now ↔ row.ServedInTime config request now := by
  have hlimit := config.maxLocalWait_nonneg
  unfold Grantable RateBucket.ServedInTime
  simp only [consume_granted_iff hpos]
  cases hmax : config.maxLocalWaitS with
  | finite limit =>
    rw [hmax, Binary64.ofRat_zero_eq, Bool.eq_false_iff, Ne, Binary64.lt_finite, not_lt] at hlimit
    constructor
    · rintro ⟨wait, -, hfits, hserved⟩
      have hle : wait ≤ limit.1 := hfits
      exact hserved.trans (tokensAt_mono row (by linarith))
    · exact fun hserved => ⟨limit.1, hlimit, le_rfl, hserved⟩
  | infinite negative =>
    constructor
    · rintro ⟨wait, -, -, hserved⟩
      exact hserved.trans (min_le_left _ _)
    · intro hserved
      obtain ⟨wait, hwait, hfull⟩ := exists_full row now
      have hpositive : negative = false := by
        cases negative with
        | false => rfl
        | true =>
          rw [hmax, Binary64.ofRat_zero_eq] at hlimit
          exact absurd hlimit (by decide +kernel)
      exact ⟨wait, hwait, hpositive, hfull ▸ hserved⟩
  | nan =>
    exact ⟨fun h => by obtain ⟨wait, -, hfits, -⟩ := h; exact hfits, False.elim⟩

end Rows

section Turns
variable {config : RateLimitConfig} {request : AcquireRequest} {deadline : Binary64} {w : World}
  {row : RateBucket ℚ}

theorem apply_consume (request : AcquireRequest) (hbucket : w.bucket = some row) :
    BucketCall.apply floating request.key ⟨.atomicRefillConsume request.tokens, w.wall⟩ w.bucket =
      row.consume floating request.tokens w.wall := by
  rw [hbucket]
  rfl

theorem turn_granted_iff (config : RateLimitConfig) (deadline : Binary64)
    (hpos : 0 < request.tokens) (hbucket : w.bucket = some row) :
    (∃ bucket, (acquireTurn config request deadline w).2 = .inl (.granted bucket)) ↔
      request.tokens ≤ row.tokensAt w.wall := by
  rw [← consume_granted_iff hpos]
  unfold acquireTurn
  rw [apply_consume request hbucket]
  constructor
  · rintro ⟨bucket, h⟩
    cases hconsume : row.consume floating request.tokens w.wall with
    | error e =>
      rw [hconsume] at h
      cases h
    | ok result =>
      obtain ⟨updated, allowed⟩ := result
      rw [hconsume] at h
      cases allowed with
      | true => exact ⟨updated, rfl⟩
      | false =>
        dsimp only at h
        split at h
        · cases h
        · split at h <;> cases h
        · cases h
  · rintro ⟨updated, hconsume⟩
    rw [hconsume]
    exact ⟨updated, rfl⟩

theorem turn_refused (hpos : 0 < request.tokens) (hbucket : w.bucket = some row)
    (h : row.keptAt w.wall < 0) :
    acquireTurn config request deadline w = (w, .inl (.raised (.store .checkViolation))) := by
  unfold acquireTurn
  rw [apply_consume request hbucket, consume_refused hpos h]

def afterDenial (remaining : Binary64) : Except AcquireError Binary64 → AcquireOutcome ⊕ ℚ
  | .error e => .inl (.raised e)
  | .ok (.finite seconds) =>
      if remaining.lt (.finite seconds) then .inl (.rateLimited (.finite seconds))
      else .inr (max 0 seconds.1)
  | .ok retryAfterS => .inl (.rateLimited retryAfterS)

theorem turn_denied {retry : Except AcquireError Binary64} (hbucket : w.bucket = some row)
    (hkept : 0 ≤ row.keptAt w.wall) (hlack : row.tokensAt w.wall < request.tokens)
    (hretry : secondsUntilAvailable (row.keptAt w.wall) row.capacity request.tokens
      config.refillWindowS = retry) :
    acquireTurn config request deadline w =
      ({ w with bucket := some (row.deniedAt w.wall hkept) },
        afterDenial (deadline.sub (.ofRat w.monotonic)) retry) := by
  unfold acquireTurn
  rw [apply_consume request hbucket, consume_denied hkept hlack]
  dsimp only [RateBucket.deniedAt]
  rw [hretry]
  match retry with
  | .error e => rfl
  | .ok (.finite seconds) =>
    dsimp only [afterDenial]
    split <;> rfl
  | .ok (.infinite negative) => rfl
  | .ok .nan => rfl

theorem loop_slept {fuel : ℕ} {slept : List ℚ} {e : AcquireEnd}
    (h : acquireLoop config request deadline fuel w slept = some e) :
    slept.length ≤ e.slept.length := by
  induction fuel generalizing w slept with
  | zero => contradiction
  | succ fuel ih =>
    unfold acquireLoop at h
    split at h
    · obtain rfl := Option.some.inj h
      exact le_rfl
    · have hrest := ih h
      rw [List.length_append] at hrest
      omega

theorem loop_exact_iff (start : World) :
    (∃ fuel e, acquireLoop config request deadline fuel w [] = some e ∧
        e.Exact config request start) ↔
      match acquireTurn config request deadline w with
      | (w', .inl outcome) => AcquireEnd.Exact config request start ⟨w', [], outcome⟩
      | (w', .inr seconds) =>
          ¬ Exceeds seconds config.maxLocalWaitS ∧ ∃ bucket,
            (acquireTurn config request deadline (w'.sleep seconds)).2 =
              .inl (.granted bucket) := by
  cases hturn : acquireTurn config request deadline w with
  | mk w' result =>
  cases result with
  | inl outcome =>
    constructor
    · rintro ⟨fuel, e, hloop, hexact⟩
      cases fuel with
      | zero => contradiction
      | succ fuel =>
        simp only [acquireLoop, hturn] at hloop
        obtain rfl := Option.some.inj hloop
        exact hexact
    · intro hexact
      exact ⟨1, ⟨w', [], outcome⟩, by simp only [acquireLoop, hturn], hexact⟩
  | inr seconds =>
    cases hnext : acquireTurn config request deadline (w'.sleep seconds) with
    | mk w'' next =>
    constructor
    · rintro ⟨fuel, e, hloop, hexact⟩
      match fuel, hloop with
      | 0, hloop => contradiction
      | 1, hloop => simp [acquireLoop, hturn] at hloop
      | fuel + 2, hloop =>
        simp only [acquireLoop, hturn, hnext, List.nil_append] at hloop
        cases next with
        | inl outcome =>
          obtain rfl := Option.some.inj hloop
          obtain ⟨bucket, hgranted⟩ := hexact.enough (by simp)
          refine ⟨by simpa using hexact.bounded, bucket, ?_⟩
          rw [hnext]
          exact congrArg Sum.inl hgranted
        | inr more =>
          have hslept := (loop_slept hloop).trans hexact.once
          simp at hslept
    · rintro ⟨hbounded, bucket, hgranted⟩
      rw [hnext] at hgranted
      obtain rfl : next = .inl (.granted bucket) := hgranted
      refine ⟨2, ⟨w'', [seconds], .granted bucket⟩, ?_, ?_⟩
      · simp only [acquireLoop, hturn, hnext, List.nil_append]
      · exact ⟨fun _ h => (by cases h), le_rfl, fun _ => ⟨bucket, rfl⟩, by simpa using hbounded,
          fun _ _ h => (by cases h)⟩

theorem not_exceeds_zero (config : RateLimitConfig) : ¬ Exceeds 0 config.maxLocalWaitS := by
  have hlimit := config.maxLocalWait_nonneg
  cases hmax : config.maxLocalWaitS with
  | finite limit =>
    rw [hmax, Binary64.ofRat_zero_eq, Bool.eq_false_iff, Ne, Binary64.lt_finite] at hlimit
    exact hlimit
  | infinite negative =>
    rintro rfl
    rw [hmax, Binary64.ofRat_zero_eq] at hlimit
    exact absurd hlimit (by decide +kernel)
  | nan => exact id

theorem exact_of_granted (start : World) (bucket : RateBucket ℚ) :
    AcquireEnd.Exact config request start ⟨w, [], .granted bucket⟩ :=
  ⟨fun _ h => (by cases h), Nat.zero_le _, fun h => absurd rfl h, not_exceeds_zero config,
    fun _ _ h => (by cases h)⟩

theorem not_exact_of_raised (start : World) (err : AcquireError) :
    ¬ AcquireEnd.Exact config request start ⟨w, [], .raised err⟩ :=
  fun h => h.returned err rfl

theorem exact_of_limited_iff {start : World} (hpos : 0 < request.tokens)
    (hrow : ensuredRow config request start = some row) (retryAfterS : Binary64) :
    AcquireEnd.Exact config request start ⟨w, [], .rateLimited retryAfterS⟩ ↔
      ¬ row.ServedInTime config request start.wall := by
  rw [← grantable_iff hpos]
  constructor
  · exact fun h => h.limited retryAfterS row rfl hrow
  · intro h
    refine ⟨fun _ herr => (by cases herr), Nat.zero_le _, fun hslept => absurd rfl hslept,
      not_exceeds_zero config, fun _ row' _ hrow' => ?_⟩
    obtain rfl := Option.some.inj (hrow.symm.trans hrow')
    exact h

theorem row_exact_iff {start : World} (hpos : 0 < request.tokens)
    (hrow : ensuredRow config request start = some row) :
    (∃ fuel e, acquireLoop config request
        ((Binary64.ofRat start.monotonic).add config.maxLocalWaitS) fuel
        { start with bucket := some row } [] = some e ∧ e.Exact config request start) ↔
      row.Paced config request start.wall start.monotonic := by
  rw [loop_exact_iff]
  rcases lt_or_ge (row.keptAt start.wall) 0 with hneg | hkept
  · rw [turn_refused (w := { start with bucket := some row }) hpos rfl hneg]
    refine iff_of_false (not_exact_of_raised start _) ?_
    rintro ⟨hkept, -⟩
    exact absurd hkept (not_le.mpr hneg)
  rcases le_or_gt request.tokens (row.tokensAt start.wall) with hready | hlack
  · obtain ⟨bucket, hgranted⟩ := (turn_granted_iff config
      ((Binary64.ofRat start.monotonic).add config.maxLocalWaitS)
      (w := { start with bucket := some row }) hpos rfl).mpr hready
    cases hturn : acquireTurn config request
        ((Binary64.ofRat start.monotonic).add config.maxLocalWaitS)
        { start with bucket := some row } with
    | mk w' result =>
      rw [hturn] at hgranted
      obtain rfl : result = .inl (.granted bucket) := hgranted
      exact iff_of_true (exact_of_granted start bucket) ⟨hkept, .inl hready⟩
  have hpaced : row.Paced config request start.wall start.monotonic ↔
      row.WaitServes config request start.wall start.monotonic hkept
        (secondsUntilAvailable (row.keptAt start.wall) row.capacity request.tokens
          config.refillWindowS) :=
    ⟨fun h => h.elim fun _ hserves => hserves.resolve_left (not_le.mpr hlack),
      fun h => ⟨hkept, .inr h⟩⟩
  rw [hpaced]
  generalize hretry : secondsUntilAvailable (row.keptAt start.wall) row.capacity request.tokens
    config.refillWindowS = retry
  have hturn : acquireTurn config request
      ((Binary64.ofRat start.monotonic).add config.maxLocalWaitS)
      { start with bucket := some row } =
        ({ start with bucket := some (row.deniedAt start.wall hkept) },
          afterDenial (remainingWait config start.monotonic) retry) :=
    turn_denied (w := { start with bucket := some row }) rfl hkept hlack hretry
  rw [hturn]
  match retry with
  | .error e => exact iff_of_false (not_exact_of_raised start e) id
  | .ok (.infinite negative) => exact exact_of_limited_iff hpos hrow _
  | .ok .nan => exact exact_of_limited_iff hpos hrow _
  | .ok (.finite seconds) =>
    by_cases hlate : (remainingWait config start.monotonic).lt (.finite seconds) = true
    · have hafter : afterDenial (remainingWait config start.monotonic) (.ok (.finite seconds)) =
          .inl (.rateLimited (.finite seconds)) := if_pos hlate
      have hserves : row.WaitServes config request start.wall start.monotonic hkept
          (.ok (.finite seconds)) = ¬ row.ServedInTime config request start.wall := if_pos hlate
      rw [hafter, hserves]
      exact exact_of_limited_iff hpos hrow _
    · have hafter : afterDenial (remainingWait config start.monotonic) (.ok (.finite seconds)) =
          .inr (max 0 seconds.1) := if_neg hlate
      have hserves : row.WaitServes config request start.wall start.monotonic hkept
          (.ok (.finite seconds)) = (¬ Exceeds (max 0 seconds.1) config.maxLocalWaitS ∧
            request.tokens ≤ (row.deniedAt start.wall hkept).tokensAt
              (start.wall + max 0 seconds.1)) := if_neg hlate
      rw [hafter, hserves]
      refine and_congr_right fun _ => ?_
      exact turn_granted_iff config _ hpos (World.sleep_bucket _ _)

end Turns

theorem ensureBucketCapacity_some {config : RateLimitConfig} {request : AcquireRequest}
    {capacity : Int} {w : World} {bucket : Option (RateBucket ℚ)}
    (h : ensureBucketCapacity config request capacity w = (bucket, .ok ())) :
    ∃ row, bucket = some row := by
  unfold ensureBucketCapacity at h
  split at h
  · cases h
  · split at h
    · cases h
    · split at h
      · exact ⟨_, (Prod.mk.inj h).1.symm⟩
      · split at h
        · cases h
        · exact ⟨_, (Prod.mk.inj h).1.symm⟩

/-- With valid arguments `acquire` raises at once, or goes on to its loop with a row. -/
theorem acquire_cases (config : RateLimitConfig) {request : AcquireRequest} (h : request.Valid)
    (w : World) :
    (ensuredRow config request w = none ∧ ∃ w' err, ∀ fuel,
      acquire config request fuel w = some ⟨w', [], .raised err⟩) ∨
    ∃ row, ensuredRow config request w = some row ∧ ∀ fuel, acquire config request fuel w =
      acquireLoop config request ((Binary64.ofRat w.monotonic).add config.maxLocalWaitS) fuel
        { w with bucket := some row } [] := by
  unfold acquire ensuredRow
  simp only [if_neg (not_le.mpr h.1)]
  cases hcapacity : config.capacityForWorkers request.workerCount with
  | error e => exact .inl ⟨rfl, w, e, fun _ => rfl⟩
  | ok capacity =>
    dsimp only
    cases hensure : ensureBucketCapacity config request capacity w with
    | mk bucket result =>
    cases result with
    | error e => exact .inl ⟨rfl, { w with bucket := bucket }, e, fun _ => rfl⟩
    | ok =>
      obtain ⟨row, rfl⟩ := ensureBucketCapacity_some hensure
      exact .inr ⟨row, rfl, fun _ => rfl⟩

theorem wait_exact_of_row {config : RateLimitConfig} {request : AcquireRequest} {w : World}
    {row : RateBucket ℚ} (h : request.Valid) (hrow : ensuredRow config request w = some row) :
    WaitExact config request w ↔ row.Paced config request w.wall w.monotonic := by
  rcases acquire_cases config h w with ⟨hnone, -⟩ | ⟨row', hrow', hloop⟩
  · cases hnone.symm.trans hrow
  · obtain rfl := Option.some.inj (hrow.symm.trans hrow')
    unfold WaitExact
    simp only [hloop]
    exact row_exact_iff h.1 hrow

section Unrounded
open Binary64
variable {config : RateLimitConfig} {request : AcquireRequest} {row : RateBucket ℚ} {now : ℚ}

def RateBucket.exactWait (request : AcquireRequest) (row : RateBucket ℚ) (now window : ℚ) : ℚ :=
  (request.tokens - row.keptAt now) / (row.capacity / window)

/-- No result on the way to the wait is rounded, nor the rate of the store. -/
structure RateBucket.Unrounded (request : AcquireRequest) (row : RateBucket ℚ) (now window : ℚ) :
    Prop where
  needed : Representable request.tokens
  capacity : Representable row.capacity
  missing : Representable (request.tokens - row.keptAt now)
  rate : Representable (row.capacity / window)
  storeRate : Representable (row.capacity / refillRateDivisor)
  wait : Representable (row.exactWait request now window)

theorem secondsUntilAvailable_of_unrounded {window : { q : ℚ // Representable q }}
    (hwindow : config.refillWindowS = .finite window) (h : row.Unrounded request now window.1)
    (hpos : 0 < request.tokens) (hkept : 0 ≤ row.keptAt now)
    (hlack : row.keptAt now < request.tokens) (hle : request.tokens ≤ row.capacity) :
    secondsUntilAvailable (row.keptAt now) row.capacity request.tokens config.refillWindowS =
      .ok (.finite ⟨row.exactWait request now window.1, h.wait⟩) := by
  have hwindowPos : 0 < window.1 := by
    have hpositive := config.refillWindow_pos
    rw [hwindow, ofRat_zero_eq, Bool.eq_false_iff, Ne, le_iff (by simp) (by simp),
      level_finite_le, not_le] at hpositive
    exact hpositive
  have hcapacity : (0 : ℚ) < row.capacity := by exact_mod_cast row.capacity_pos
  have hrate : (ofRat row.capacity).div config.refillWindowS =
      .finite ⟨row.capacity / window.1, h.rate⟩ := by
    rw [hwindow, ofRat_of_representable h.capacity]
    exact ofRat_of_representable h.rate
  have hwait : (ofRat (request.tokens - row.keptAt now)).div
      (.finite ⟨row.capacity / window.1, h.rate⟩) =
        .finite ⟨row.exactWait request now window.1, h.wait⟩ := by
    rw [ofRat_of_representable h.missing]
    exact ofRat_of_representable h.wait
  have hnonzero : ((Binary64.finite ⟨row.capacity / window.1, h.rate⟩).eq (ofRat 0)) = false := by
    rw [ofRat_zero_eq, Bool.eq_false_iff, Ne, eq_iff (by simp), Binary64.finite.injEq,
      Subtype.mk.injEq]
    exact (div_pos hcapacity hwindowPos).ne'
  unfold secondsUntilAvailable
  rw [if_neg (not_le.mpr row.capacity_pos), if_neg (not_lt.mpr hkept), if_neg (not_le.mpr hpos),
    config.refillWindow_pos, if_neg Bool.false_ne_true, if_neg (not_le.mpr hlack),
    if_neg (not_lt.mpr hle)]
  dsimp only
  rw [hrate, hnonzero, if_neg Bool.false_ne_true, hwait]

theorem paced_of_unrounded {window : { q : ℚ // Representable q }} {monotonic : ℚ}
    (hwindow : config.refillWindowS = .finite window) (hten : refillRateDivisor ≤ window.1)
    (h : row.Unrounded request now window.1) (hpos : 0 < request.tokens)
    (hkept : 0 ≤ row.keptAt now) (hlack : row.keptAt now < request.tokens)
    (hle : request.tokens ≤ row.capacity)
    (hleft : (remainingWait config monotonic).lt
      (.finite ⟨row.exactWait request now window.1, h.wait⟩) = false)
    (hallowed : ¬ Exceeds (row.exactWait request now window.1) config.maxLocalWaitS) :
    row.Paced config request now monotonic := by
  have hdivisor : (0 : ℚ) < refillRateDivisor := by norm_num [refillRateDivisor]
  have hcapacity : (0 : ℚ) < row.capacity := by exact_mod_cast row.capacity_pos
  have hwindowPos : 0 < window.1 := hdivisor.trans_le hten
  have hmissing : 0 < request.tokens - row.keptAt now := sub_pos.mpr hlack
  have hwaitPos : 0 ≤ row.exactWait request now window.1 :=
    div_nonneg hmissing.le (div_pos hcapacity hwindowPos).le
  refine ⟨hkept, .inr ?_⟩
  rw [secondsUntilAvailable_of_unrounded hwindow h hpos hkept hlack hle, RateBucket.WaitServes,
    hleft, if_neg Bool.false_ne_true, max_eq_right hwaitPos]
  refine ⟨hallowed, ?_⟩
  have helapsed : (row.deniedAt now hkept).elapsed floating
      (now + row.exactWait request now window.1) = row.exactWait request now window.1 := by
    have hseconds : WallClock.secondsBetween (row.deniedAt now hkept).lastRefilledAt
        (now + row.exactWait request now window.1) = row.exactWait request now window.1 :=
      add_sub_cancel_left _ _
    rw [RateBucket.elapsed, hseconds]
    exact nearest_of_representable h.wait
  have hdouble : floating.double row.capacity = row.capacity :=
    nearest_of_representable h.capacity
  have hrate : (row.deniedAt now hkept).refillRate floating =
      row.capacity / refillRateDivisor := by
    have hstore : floating.double (row.capacity / refillRateDivisor) =
        row.capacity / refillRateDivisor := nearest_of_representable h.storeRate
    rw [← hstore]
    exact congrArg (fun c => floating.double (c / refillRateDivisor)) hdouble
  have hgained : request.tokens - row.keptAt now ≤ floating.double
      (row.exactWait request now window.1 * (row.capacity / refillRateDivisor)) := by
    have hmissing' : floating.double (request.tokens - row.keptAt now) =
        request.tokens - row.keptAt now := nearest_of_representable h.missing
    rw [← hmissing']
    refine double_mono ?_
    have hproduct : row.exactWait request now window.1 * (row.capacity / refillRateDivisor) =
        (request.tokens - row.keptAt now) * (window.1 / refillRateDivisor) := by
      unfold RateBucket.exactWait
      field_simp
    rw [hproduct]
    exact le_mul_of_one_le_right hmissing.le ((one_le_div hdivisor).mpr hten)
  unfold RateBucket.tokensAt RateBucket.refilled
  rw [helapsed, hrate]
  refine le_min ?_ ?_
  · exact hle.trans hdouble.ge
  · have hrequest : floating.double request.tokens = request.tokens :=
      nearest_of_representable h.needed
    rw [← hrequest]
    refine double_mono ?_
    have hsum := add_le_add_right hgained (row.keptAt now)
    rwa [add_sub_cancel] at hsum

end Unrounded

def sampleConfig (refillWindowS : Binary64) (h : refillWindowS.le (.ofRat 0) = false) :
    RateLimitConfig where
  baseLimit := 10
  perWorkerLimit := 0
  refillWindowS := refillWindowS
  baseLimit_pos := by decide
  perWorkerLimit_nonneg := by decide
  refillWindow_pos := h
  maxLocalWait_nonneg := by decide +kernel
  capacityRebuildWindow_pos := by decide +kernel

def sampleRequest : AcquireRequest := ⟨⟨"endpoint", "run"⟩, 0, 10⟩
def roundedConfig : RateLimitConfig :=
  { sampleConfig (.ofRat 10) (by decide +kernel) with
    baseLimit := 14
    baseLimit_pos := by decide }

def roundedRequest : AcquireRequest := ⟨⟨"endpoint", "run"⟩, 0, 8⟩
def roundedRow : RateBucket ℚ := ⟨14, 1 / 8, 0, none, by decide, by decide +kernel⟩

theorem acquire_rounded_short :
    ¬ WaitExact roundedConfig roundedRequest ⟨some roundedRow, 0, 0⟩ := by
  have hrow : ensuredRow roundedConfig roundedRequest ⟨some roundedRow, 0, 0⟩ =
      some roundedRow := by decide +kernel
  have hvalid : roundedRequest.Valid := by
    unfold AcquireRequest.Valid
    decide
  rw [wait_exact_of_row hvalid hrow]
  decide +kernel

end Pitwall.RateLimits
