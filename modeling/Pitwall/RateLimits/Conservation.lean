import Pitwall.Library.Traversal
import Pitwall.RateLimits.Versions
set_option autoImplicit false

/-!
Transactions on one bucket, one after the other behind the row lock, with a clock reading each,
whose arithmetic is that of floats.
-/

namespace Pitwall.RateLimits
open Machine

/-- The writers that read the clock under the row lock. `record_429` reads it first. -/
def BucketOp.readsUnderLock {τ : Type} : BucketOp τ → Bool
  | .atomicRefillConsume _ | .updateCapacity _ => true
  | _ => false

/-- A transaction: its call with the reading of the clock, and when it begins, has the row and
commits. -/
structure BucketTx where
  call : BucketCall Instant
  start : Instant
  lock : Instant
  commit : Instant
  start_le_now : start ≤ call.now
  start_le_lock : start ≤ lock
  lock_le_commit : lock ≤ commit
  now_le_commit : call.now ≤ commit
  reading : if call.op.readsUnderLock then lock ≤ call.now else call.now ≤ lock

def Serial : Instant → List BucketTx → Prop
  | _, [] => True
  | released, tx :: txs => released ≤ tx.lock ∧ Serial tx.commit txs

instance decidableSerial : (released : Instant) → (txs : List BucketTx) →
    Decidable (Serial released txs)
  | _, [] => isTrue trivial
  | released, tx :: txs =>
      have := decidableSerial tx.commit txs
      inferInstanceAs (Decidable (released ≤ tx.lock ∧ Serial tx.commit txs))

def BucketOp.amount {τ : Type} : BucketOp τ → ℚ
  | .atomicRefillConsume tokensToConsume => tokensToConsume
  | _ => 0

/-- The row that a transaction leaves, and the tokens it grants. -/
def BucketTx.outcome (key : BucketKey) (row : RateBucket Instant) (tx : BucketTx) :
    RateBucket Instant × ℚ :=
  match tx.call.apply .floating key (some row) with
  | .ok (updated, allowed) => (updated, if allowed then tx.call.op.amount else 0)
  | .error _ => (row, 0)

def versions (key : BucketKey) (row : RateBucket Instant) (granted : ℚ) :
    List BucketTx → List Version
  | [] => [⟨row, granted, none⟩]
  | tx :: txs =>
      ⟨row, granted, some tx.commit⟩ ::
        versions key (tx.outcome key row).1 (tx.outcome key row).2 txs

/-- A `record_429` does not store a clock reading from before the one it finds. -/
def BucketTx.Timely (row : RateBucket Instant) (tx : BucketTx) : Prop :=
  match tx.call.op with
  | .record429 _ => row.lastRefilledAt ≤ tx.call.now
  | _ => True

def RoundsDown (round : ℚ → ℚ) (q : ℚ) : Prop := round q ≤ q

section Rounding
open TokenArithmetic

/-- No result on the way to the refilled tokens is rounded up: the seconds, the capacity, the
rate, their product and its sum with the tokens of the row. -/
def RateBucket.RefillsDown (row : RateBucket Instant) (now : Instant) : Prop :=
  let elapsed := row.elapsed floating now
  let rate := row.refillRate floating
  RoundsDown floating.double (WallClock.secondsBetween row.lastRefilledAt now) ∧
    RoundsDown floating.double row.capacity ∧
    RoundsDown floating.double (floating.double row.capacity / refillRateDivisor) ∧
    RoundsDown floating.double (elapsed * rate) ∧
    RoundsDown floating.double (row.tokens + floating.double (elapsed * rate))

/-- Nor are what is left of them after a grant, and what the `REAL` column keeps. -/
def BucketTx.RoundsDown (row : RateBucket Instant) (tx : BucketTx) : Prop :=
  let newTokens := row.refilled floating (row.elapsed floating tx.call.now)
  match tx.call.op with
  | .atomicRefillConsume amount =>
      row.RefillsDown tx.call.now ∧
        if amount ≤ newTokens then
          RateLimits.RoundsDown floating.double (newTokens - amount) ∧
            RateLimits.RoundsDown floating.real (floating.double (newTokens - amount))
        else RateLimits.RoundsDown floating.real newTokens
  | .record429 newCapacity =>
      row.RefillsDown tx.call.now ∧ RateLimits.RoundsDown floating.real
        (min (floating.double (row.reducedCapacity newCapacity)) newTokens)
  | .updateCapacity newCapacity =>
      row.RefillsDown tx.call.now ∧
        RateLimits.RoundsDown floating.real (min (floating.double newCapacity) newTokens)
  | _ => True

end Rounding

/-- The transaction neither turns the clock of the row back nor rounds up. -/
def BucketTx.Careful (row : RateBucket Instant) (tx : BucketTx) : Prop :=
  tx.Timely row ∧ tx.RoundsDown row

instance (row : RateBucket Instant) (tx : BucketTx) : Decidable (tx.Careful row) := by
  unfold BucketTx.Careful BucketTx.Timely BucketTx.RoundsDown RateBucket.RefillsDown RoundsDown
  cases tx.call.op <;> infer_instance

/-- A run of the store on a bucket, whose row was stamped before the first transaction. -/
structure BucketRun where
  key : BucketKey
  bucket : RateBucket Instant
  opened : Instant
  transactions : List BucketTx
  stamped : bucket.lastRefilledAt ≤ opened
  serial : Serial opened transactions

def BucketRun.versions (run : BucketRun) : List Version :=
  RateLimits.versions run.key run.bucket 0 run.transactions

def BucketRun.Careful (run : BucketRun) : Prop :=
  Along (fun row tx => (tx.outcome run.key row).1) (fun row tx => tx.Careful row) run.bucket
    run.transactions

section Outcomes
variable {key : BucketKey} {row : RateBucket Instant} {tx : BucketTx} {released : Instant}

theorem refilled_self_le (v : Version) : v.held v.stamp ≤ v.row.tokens := by
  have hself : v.row.elapsed .exact v.stamp = 0 := by
    simp [RateBucket.elapsed, Version.stamp, WallClock.secondsBetween]
  unfold Version.held
  rw [hself, RateBucket.refilled_exact, zero_mul, add_zero]
  exact min_le_right _ _

theorem elapsed_nonneg {now : Instant} (h : row.lastRefilledAt ≤ now) :
    0 ≤ row.elapsed .exact now := by
  have hcast : (0 : ℚ) ≤ ((now - row.lastRefilledAt : Int) : ℚ) := by
    exact_mod_cast sub_nonneg.mpr h
  exact div_nonneg hcast (by norm_num)

theorem refilled_le_exact {now : Instant} (hdown : row.RefillsDown now)
    (h : row.lastRefilledAt ≤ now) :
    row.refilled .floating (row.elapsed .floating now) ≤
      row.refilled .exact (row.elapsed .exact now) := by
  obtain ⟨helapsed, hcapacity, hrate, hgained, hsum⟩ := hdown
  have hdivisor : (0 : ℚ) < refillRateDivisor := by norm_num [refillRateDivisor]
  have hrate' : row.refillRate .floating ≤ row.capacity / refillRateDivisor :=
    hrate.trans (div_le_div_of_nonneg_right hcapacity hdivisor.le)
  have hproduct : row.elapsed .floating now * row.refillRate .floating ≤
      row.elapsed .exact now * (row.capacity / refillRateDivisor) :=
    mul_le_mul helapsed hrate' row.refillRate_nonneg (elapsed_nonneg h)
  rw [RateBucket.refilled_exact]
  refine min_le_min hcapacity (hsum.trans ?_)
  exact add_le_add_right (hgained.trans hproduct) _

/-- A transaction leaves the row alone, or stamps it with its reading, which is not earlier
than the stamp it finds, and spends what the row then holds. -/
inductive OutcomeCase (row : RateBucket Instant) (tx : BucketTx) :
    RateBucket Instant × ℚ → Prop
  | kept : OutcomeCase row tx (row, 0)
  | refilled {updated : RateBucket Instant} {granted : ℚ}
      (later : row.lastRefilledAt ≤ tx.call.now) (stamp : updated.lastRefilledAt = tx.call.now)
      (spent : granted + updated.tokens ≤ row.refilled .exact (row.elapsed .exact tx.call.now)) :
      OutcomeCase row tx (updated, granted)

section Spent
open TokenArithmetic
variable {now : Instant} {updated : RateBucket Instant}

theorem consume_spent {amount : ℚ} {allowed : Bool}
    (h : row.consume floating amount now = .ok (updated, allowed))
    (hdown : if amount ≤ row.refilled floating (row.elapsed floating now) then
        RoundsDown floating.double (row.refilled floating (row.elapsed floating now) - amount) ∧
          RoundsDown floating.real
            (floating.double (row.refilled floating (row.elapsed floating now) - amount))
      else RoundsDown floating.real (row.refilled floating (row.elapsed floating now))) :
    updated.lastRefilledAt = now ∧ (if allowed then amount else 0) + updated.tokens ≤
      row.refilled floating (row.elapsed floating now) := by
  unfold RateBucket.consume at h
  dsimp only at h
  generalize row.refilled floating (row.elapsed floating now) = newTokens at h hdown ⊢
  cases hrow : checkedRow floating row.capacity
      (if decide (amount ≤ newTokens) = true then floating.double (newTokens - amount)
        else newTokens) now row.recent429At with
  | error e =>
    rw [hrow] at h
    contradiction
  | ok written =>
    rw [hrow] at h
    obtain ⟨rfl, rfl⟩ : written = updated ∧ _ = allowed := by simpa using h
    obtain ⟨-, htokens, hlast, -⟩ := checkedRow_ok hrow
    refine ⟨hlast, ?_⟩
    rw [htokens]
    by_cases hallowed : amount ≤ newTokens
    · rw [if_pos hallowed] at hdown
      simp only [hallowed, decide_true, if_true]
      have hleft := hdown.2.trans hdown.1
      linarith
    · rw [if_neg hallowed] at hdown
      simp only [hallowed, decide_false, Bool.false_eq_true, if_false, zero_add]
      exact hdown

theorem record429_spent {newCapacity : Option Int}
    (h : row.record429 floating newCapacity now = .ok updated) (hlater : row.lastRefilledAt ≤ now)
    (hdown : RoundsDown floating.real (min (floating.double (row.reducedCapacity newCapacity))
      (row.refilled floating (row.elapsed floating now)))) :
    updated.lastRefilledAt = now ∧
      updated.tokens ≤ row.refilled floating (row.elapsed floating now) := by
  obtain ⟨-, htokens, hlast, -⟩ := checkedRow_ok h
  have helapsed : 0 ≤ row.elapsed floating now := double_nonneg (elapsed_nonneg hlater)
  rw [max_eq_right helapsed] at htokens
  exact ⟨hlast, htokens ▸ hdown.trans (min_le_right _ _)⟩

theorem updateCapacity_spent {newCapacity : Int}
    (h : row.updateCapacity floating newCapacity now = .ok updated)
    (hdown : RoundsDown floating.real (min (floating.double newCapacity)
      (row.refilled floating (row.elapsed floating now)))) :
    updated.lastRefilledAt = now ∧
      updated.tokens ≤ row.refilled floating (row.elapsed floating now) := by
  obtain ⟨-, htokens, hlast, -⟩ := checkedRow_ok h
  exact ⟨hlast, htokens ▸ hdown.trans (min_le_right _ _)⟩

end Spent

theorem later_of_reading (hstamped : row.lastRefilledAt ≤ released) (hlock : released ≤ tx.lock)
    (hreads : tx.call.op.readsUnderLock = true) : row.lastRefilledAt ≤ tx.call.now := by
  have hreading := tx.reading
  rw [if_pos hreads] at hreading
  exact (hstamped.trans hlock).trans hreading

theorem outcome_cases (hstamped : row.lastRefilledAt ≤ released) (hlock : released ≤ tx.lock)
    (hcareful : tx.Careful row) : OutcomeCase row tx (tx.outcome key row) := by
  obtain ⟨htimely, hdown⟩ := hcareful
  unfold BucketTx.outcome
  cases happly : tx.call.apply .floating key (some row) with
  | error e => exact .kept
  | ok result =>
    obtain ⟨updated, allowed⟩ := result
    have hreads := later_of_reading hstamped hlock
    unfold BucketTx.Timely at htimely
    unfold BucketTx.RoundsDown at hdown
    unfold BucketCall.apply at happly
    dsimp only
    cases hop : tx.call.op with
    | create capacity tokens lastRefilledAt recent429At =>
      rw [hop] at happly
      dsimp only at happly
      split at happly <;> contradiction
    | loadOrCreate capacity =>
      rw [hop] at happly
      dsimp only [Option.getD_some] at happly
      obtain ⟨-, -, hpair⟩ := Except.map_eq_ok_iff.mp happly
      obtain ⟨rfl, rfl⟩ := Prod.mk.inj hpair
      exact .kept
    | atomicRefillConsume amount =>
      rw [hop] at happly hdown hreads
      have hlater := hreads rfl
      obtain ⟨hlast, hspent⟩ := consume_spent happly hdown.2
      exact .refilled hlater hlast (hspent.trans (refilled_le_exact hdown.1 hlater))
    | record429 newCapacity =>
      rw [hop] at happly htimely hdown
      dsimp only at happly htimely
      split at happly
      · contradiction
      · obtain ⟨written, hrow, hpair⟩ := Except.map_eq_ok_iff.mp happly
        obtain ⟨rfl, rfl⟩ := Prod.mk.inj hpair
        obtain ⟨hlast, hspent⟩ := record429_spent hrow htimely hdown.2
        have hbound := hspent.trans (refilled_le_exact hdown.1 htimely)
        exact .refilled htimely hlast (by simpa using hbound)
    | updateCapacity newCapacity =>
      rw [hop] at happly hdown hreads
      dsimp only at happly
      split at happly
      · contradiction
      · obtain ⟨written, hrow, hpair⟩ := Except.map_eq_ok_iff.mp happly
        obtain ⟨rfl, rfl⟩ := Prod.mk.inj hpair
        have hlater := hreads rfl
        obtain ⟨hlast, hspent⟩ := updateCapacity_spent hrow hdown.2
        have hbound := hspent.trans (refilled_le_exact hdown.1 hlater)
        exact .refilled hlater hlast (by simpa using hbound)

theorem succeeds_of_case {outcome : RateBucket Instant × ℚ} (granted : ℚ)
    (superseded : Option Instant) (h : OutcomeCase row tx outcome)
    (hstamped : row.lastRefilledAt ≤ tx.commit) :
    outcome.1.lastRefilledAt ≤ tx.commit ∧
      Version.Succeeds ⟨row, granted, some tx.commit⟩ ⟨outcome.1, outcome.2, superseded⟩ := by
  cases h with
  | kept =>
    exact ⟨hstamped, le_rfl, (zero_add _).le, by simpa [Version.stamp] using hstamped⟩
  | @refilled updated spentTokens later stamp spent =>
    have hcommit : updated.lastRefilledAt ≤ tx.commit := stamp ▸ tx.now_le_commit
    refine ⟨hcommit, later.trans stamp.ge, ?_, by simpa [Version.stamp] using hcommit⟩
    have hself := refilled_self_le ⟨updated, spentTokens, superseded⟩
    have hspent : spentTokens + updated.tokens ≤
        row.refilled .exact (row.elapsed .exact updated.lastRefilledAt) := stamp ▸ spent
    exact (add_le_add_right hself _).trans hspent

theorem versions_chain (key : BucketKey) {txs : List BucketTx} (granted : ℚ)
    (hstamped : row.lastRefilledAt ≤ released) (hserial : Serial released txs)
    (hcareful : Along (fun row tx => (tx.outcome key row).1) (fun row tx => tx.Careful row) row
      txs) :
    (versions key row granted txs).IsChain Version.Succeeds := by
  induction txs generalizing row granted released with
  | nil => exact .singleton _
  | cons tx txs ih =>
    have hcase : OutcomeCase row tx (tx.outcome key row) :=
      outcome_cases hstamped hserial.1 hcareful.1
    have hcommit := (hstamped.trans hserial.1).trans tx.lock_le_commit
    cases txs with
    | nil =>
      exact List.isChain_cons_cons.mpr
        ⟨(succeeds_of_case granted none hcase hcommit).2, .singleton _⟩
    | cons next txs =>
      obtain ⟨hstamp, hsucceeds⟩ := succeeds_of_case granted (some next.commit) hcase hcommit
      exact List.isChain_cons_cons.mpr ⟨hsucceeds, ih _ hstamp hserial.2 hcareful.2⟩

end Outcomes

/-- A run in which no `record_429` turns the clock of the row back, and nothing is rounded up,
conserves tokens. -/
theorem rate_limit_conserved (run : BucketRun) (h : run.Careful) : Conserved run.versions := by
  have hchain := versions_chain run.key 0 run.stamped run.serial h
  unfold BucketRun.versions
  cases hversions : RateLimits.versions run.key run.bucket 0 run.transactions with
  | nil => exact ⟨fun _ _ _ _ => add_nonneg le_rfl (supplied_nonneg _ _ _), .nil⟩
  | cons v vs => exact conserved_of_chain (hversions ▸ hchain)

theorem sampleCapacity_pos : (0 : Int) < 10 := by decide

theorem roundedCapacity_pos : (0 : Int) < 6 := by decide

theorem noTokens_nonneg : (0 : ℚ) ≤ 0 := le_rfl

def emptyBucket : RateBucket Instant :=
  ⟨10, 0, 0, none, sampleCapacity_pos, noTokens_nonneg⟩

def promptTx (call : BucketCall Instant) : BucketTx :=
  ⟨call, call.now, call.now, call.now, le_rfl, le_rfl, le_rfl, le_rfl, by split <;> exact le_rfl⟩

/-- A `record_429` that reads the clock at once and gets the row ten seconds later. -/
def slow429 : BucketTx where
  call := ⟨.record429 none, 0⟩
  start := 0
  lock := 10000000
  commit := 10000000
  start_le_now := by decide
  start_le_lock := by decide
  lock_le_commit := by decide
  now_le_commit := by decide
  reading := by decide

def drainedRun : BucketRun where
  key := ⟨"endpoint", "run"⟩
  bucket := emptyBucket
  opened := 0
  transactions := [promptTx ⟨.atomicRefillConsume 10, 10000000⟩,
    promptTx ⟨.record429 none, 10000000⟩, promptTx ⟨.atomicRefillConsume 5, 20000000⟩]
  stamped := by decide
  serial := by decide

/-- The same with a `record_429` that has read the clock long ago. -/
def overdrawnRun : BucketRun where
  key := ⟨"endpoint", "run"⟩
  bucket := emptyBucket
  opened := 0
  transactions := [promptTx ⟨.atomicRefillConsume 10, 10000000⟩, slow429,
    promptTx ⟨.atomicRefillConsume 5, 10000000⟩]
  stamped := by decide
  serial := by decide

theorem rate_limit_conserved_when_drained :
    grantedBetween drainedRun.versions 0 20000000 = 15 ∧ Conserved drainedRun.versions :=
  ⟨by decide +kernel, rate_limit_conserved drainedRun
    (show Along _ _ _ _ from by decide +kernel)⟩

/-- Fifteen tokens are granted in ten seconds at a capacity of ten, and the ten seconds are
credited twice. -/
theorem rate_limit_overdrawn : ¬ Conserved overdrawnRun.versions := by
  intro h
  have hstart : ∀ v ∈ overdrawnRun.versions.head?, v.stamp ≤ 0 := by decide +kernel
  have hgranted : grantedBetween overdrawnRun.versions 0 10000000 = 15 := by decide +kernel
  have hheld : heldAt overdrawnRun.versions 0 = 0 := by decide +kernel
  have hcapacity : ∀ v ∈ overdrawnRun.versions, v.row.capacity ≤ 10 := by decide +kernel
  have hsupplied := supplied_le (by decide) hcapacity (show (0 : Int) ≤ 10000000 by decide)
  have hbound := h.1 0 10000000 hstart (by decide)
  rw [hgranted, hheld] at hbound
  norm_num [refillRateDivisor] at hsupplied
  linarith

/-- A bucket for six, empty at first. A consume is denied that finds a little less than the five
tokens it wants, and stores five of them. -/
def roundedUpRun : BucketRun where
  key := ⟨"endpoint", "run"⟩
  bucket := { emptyBucket with capacity := 6, capacity_pos := roundedCapacity_pos }
  opened := 0
  transactions := [promptTx ⟨.atomicRefillConsume 5, 8333333⟩,
    promptTx ⟨.atomicRefillConsume 5, 8333333⟩]
  stamped := by decide
  serial := by decide

theorem rounded_up_overdrawn :
    (∀ tx ∈ roundedUpRun.transactions, tx.call.op.readsUnderLock = true) ∧
      ¬ Conserved roundedUpRun.versions := by
  refine ⟨by decide, fun h => ?_⟩
  have hstart : ∀ v ∈ roundedUpRun.versions.head?, v.stamp ≤ 0 := by decide +kernel
  have hgranted : grantedBetween roundedUpRun.versions 0 8333333 = 5 := by decide +kernel
  have hheld : heldAt roundedUpRun.versions 0 = 0 := by decide +kernel
  have hcapacity : ∀ v ∈ roundedUpRun.versions, v.row.capacity ≤ 6 := by decide +kernel
  have hsupplied := supplied_le (by decide) hcapacity (show (0 : Int) ≤ 8333333 by decide)
  have hbound := h.1 0 8333333 hstart (by decide)
  rw [hgranted, hheld] at hbound
  norm_num [refillRateDivisor] at hsupplied
  linarith

end Pitwall.RateLimits
