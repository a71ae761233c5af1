import Mathlib.Algebra.BigOperators.Group.Finset.Basic
import Mathlib.Algebra.Order.BigOperators.Group.Finset
import Mathlib.Tactic.Ring
import Pitwall.RateLimits.Store
set_option autoImplicit false

/-!
The versions that a row goes through, what they grant, hold and credit, and the law of
conservation they obey where each one follows from the one before it.
-/

namespace Pitwall.RateLimits

/-- A version of the row: the tokens granted by the transaction that wrote it, and when the
transaction that wrote the next version committed. -/
structure Version where
  row : RateBucket Instant
  granted : ℚ
  supersededAt : Option Instant

def Version.stamp (v : Version) : Instant := v.row.lastRefilledAt

def Version.inForce (v : Version) (t : Instant) : Bool :=
  decide (v.stamp ≤ t) && v.supersededAt.all (fun commit => decide (t < commit))

def Version.held (v : Version) (t : Instant) : ℚ :=
  v.row.refilled .exact (v.row.elapsed .exact t)

section Ledger
variable (vs : List Version)

def grantedUntil (t₁ : Instant) : ℚ :=
  ((vs.filter (fun v => decide (v.stamp ≤ t₁))).map Version.granted).sum

/-- The tokens granted after `t₀` and up to `t₁`. -/
def grantedBetween (t₀ t₁ : Instant) : ℚ :=
  grantedUntil (vs.filter (fun v => decide (t₀ < v.stamp))) t₁

def heldAt (t : Instant) : ℚ :=
  (vs.takeWhile (fun v => decide (v.stamp ≤ t))).getLast?.elim 0 (fun v => v.held t)

def largestCapacity (t : Instant) : Int :=
  ((vs.filter (fun v => v.inForce t)).map (fun v => v.row.capacity)).foldr max 0

/-- The integral of the largest capacity in force over the refill window, in seconds. Every
timestamp is a whole number of microseconds. -/
def supplied (t₀ t₁ : Instant) : ℚ :=
  ∑ k ∈ Finset.range (t₁ - t₀).toNat,
    (largestCapacity vs (t₀ + k) : ℚ) / refillRateDivisor / 1000000

def credited : List Version → List (Set Instant)
  | v :: w :: rest => { t | v.stamp < t ∧ t ≤ w.stamp } :: credited (w :: rest)
  | _ => []

/-- Between two instants no more is granted than is held at the first one and comes in up to
the second one, and no time is credited twice. -/
def Conserved : Prop :=
  (∀ t₀ t₁, (∀ v ∈ vs.head?, v.stamp ≤ t₀) → t₀ ≤ t₁ →
    grantedBetween vs t₀ t₁ ≤ heldAt vs t₀ + supplied vs t₀ t₁) ∧
  (credited vs).Pairwise (fun s u => ∀ t ∈ s, t ∉ u)

end Ledger

/-- `w` is written over `v`: later, out of the tokens of `v`, and before it is committed. -/
structure Version.Succeeds (v w : Version) : Prop where
  stamp_le : v.stamp ≤ w.stamp
  spent : w.granted + w.held w.stamp ≤ v.held w.stamp
  stored : ∀ commit ∈ v.supersededAt, w.stamp ≤ commit

section Supply
variable {v w : Version} {vs : List Version} {a b t : Int}

theorem largestCapacity_nonneg (vs : List Version) (t : Instant) : 0 ≤ largestCapacity vs t := by
  unfold largestCapacity
  induction (vs.filter fun v => v.inForce t).map fun v => v.row.capacity with
  | nil => exact le_rfl
  | cons c cs ih => exact ih.trans (le_max_right _ _)

theorem largestCapacity_cons (v : Version) (vs : List Version) (t : Instant) :
    largestCapacity (v :: vs) t =
      if v.inForce t then max v.row.capacity (largestCapacity vs t) else largestCapacity vs t := by
  unfold largestCapacity
  cases hv : v.inForce t <;> simp [hv]

theorem largestCapacity_le_cons (v : Version) (vs : List Version) (t : Instant) :
    largestCapacity vs t ≤ largestCapacity (v :: vs) t := by
  rw [largestCapacity_cons]
  split
  · exact le_max_right _ _
  · exact le_rfl

theorem capacity_le_largest (h : v.inForce t = true) :
    v.row.capacity ≤ largestCapacity (v :: vs) t := by
  rw [largestCapacity_cons, if_pos h]
  exact le_max_left _ _

theorem largestCapacity_le {c : Int} (hc : 0 ≤ c) (h : ∀ v ∈ vs, v.row.capacity ≤ c) :
    largestCapacity vs t ≤ c := by
  induction vs with
  | nil => exact hc
  | cons v vs ih =>
    have hrest := ih (fun w hw => h w (by simp [hw]))
    rw [largestCapacity_cons]
    split
    · exact max_le (h v (by simp)) hrest
    · exact hrest

theorem supplyRate_le {c d : Int} (h : c ≤ d) :
    (c : ℚ) / refillRateDivisor / 1000000 ≤ d / refillRateDivisor / 1000000 := by
  have hcast : (c : ℚ) ≤ d := by exact_mod_cast h
  unfold refillRateDivisor
  linarith

theorem supplied_nonneg (vs : List Version) (a b : Instant) : 0 ≤ supplied vs a b := by
  refine Finset.sum_nonneg (fun k _ => ?_)
  have h := supplyRate_le (largestCapacity_nonneg vs (a + k))
  simpa using h

theorem supplied_le_cons (v : Version) (vs : List Version) (a b : Instant) :
    supplied vs a b ≤ supplied (v :: vs) a b :=
  Finset.sum_le_sum (fun k _ => supplyRate_le (largestCapacity_le_cons v vs (a + k)))

theorem supplied_split (vs : List Version) (hat : a ≤ t) (htb : t ≤ b) :
    supplied vs a b = supplied vs a t + supplied vs t b := by
  have hlength : (b - a).toNat = (t - a).toNat + (b - t).toNat := by omega
  have hshift : ∀ k : ℕ, a + (((t - a).toNat + k : ℕ) : Int) = t + k := by omega
  unfold supplied
  rw [hlength, Finset.sum_range_add]
  simp only [hshift]

theorem sum_constant (c : ℚ) (hab : a ≤ b) :
    ∑ _k ∈ Finset.range (b - a).toNat, c = ((b - a : Int) : ℚ) * c := by
  have hcard : ((b - a).toNat : ℚ) = ((b - a : Int) : ℚ) := by
    exact_mod_cast Int.toNat_of_nonneg (sub_nonneg.mpr hab)
  rw [Finset.sum_const, Finset.card_range, nsmul_eq_mul, hcard]

theorem supplied_le {c : Int} (hc : 0 ≤ c) (h : ∀ v ∈ vs, v.row.capacity ≤ c) (hab : a ≤ b) :
    supplied vs a b ≤ ((b - a : Int) : ℚ) * (c / refillRateDivisor / 1000000) := by
  rw [← sum_constant _ hab]
  exact Finset.sum_le_sum (fun k _ => supplyRate_le (largestCapacity_le hc h))

theorem held_le (hva : v.stamp ≤ a) (hab : a ≤ b) (hb : ∀ commit ∈ v.supersededAt, b ≤ commit) :
    v.held b ≤ v.held a + supplied (v :: vs) a b := by
  have hforce : ∀ k ∈ Finset.range (b - a).toNat, v.inForce (a + k) = true := by
    intro k hk
    have hlt : a + k < b := by
      have := Finset.mem_range.mp hk
      omega
    simp only [Version.inForce, Bool.and_eq_true, decide_eq_true_eq, Option.all_eq_true]
    exact ⟨hva.trans (le_add_of_nonneg_right (Int.natCast_nonneg k)),
      fun commit hcommit => hlt.trans_le (hb commit hcommit)⟩
  have hgain : ((b - a : Int) : ℚ) * (v.row.capacity / refillRateDivisor / 1000000) ≤
      supplied (v :: vs) a b := by
    rw [← sum_constant _ hab]
    exact Finset.sum_le_sum (fun k hk => supplyRate_le (capacity_le_largest (hforce k hk)))
  have hsupplied := supplied_nonneg (v :: vs) a b
  have hsplit : v.row.tokens + v.row.elapsed .exact b * (v.row.capacity / refillRateDivisor) =
      v.row.tokens + v.row.elapsed .exact a * (v.row.capacity / refillRateDivisor) +
        ((b - a : Int) : ℚ) * (v.row.capacity / refillRateDivisor / 1000000) := by
    simp only [RateBucket.elapsed, TokenArithmetic.exact_double, WallClock.secondsBetween]
    push_cast
    ring
  unfold Version.held
  rw [RateBucket.refilled_exact, RateBucket.refilled_exact, hsplit]
  rcases min_cases (v.row.capacity : ℚ)
    (v.row.tokens + v.row.elapsed .exact a * (v.row.capacity / refillRateDivisor)) with
    ⟨hmin, -⟩ | ⟨hmin, -⟩
  · rw [hmin]
    exact (min_le_left _ _).trans (le_add_of_nonneg_right hsupplied)
  · rw [hmin]
    exact (min_le_right _ _).trans (by linarith)

theorem held_nonneg (h : v.stamp ≤ t) : 0 ≤ v.held t := by
  refine v.row.refilled_nonneg ?_
  have hcast : (0 : ℚ) ≤ ((t - v.stamp : Int) : ℚ) := by exact_mod_cast sub_nonneg.mpr h
  exact div_nonneg hcast (by norm_num)

end Supply

section Chain
variable {v w : Version} {vs : List Version} {a t₀ t₁ : Instant}

theorem stamp_le_of_chain (h : (v :: vs).IsChain Version.Succeeds) :
    ∀ w ∈ vs, v.stamp ≤ w.stamp := by
  induction vs generalizing v with
  | nil => simp
  | cons w vs ih =>
    obtain ⟨hvw, hvs⟩ := List.isChain_cons_cons.mp h
    intro u hu
    rcases List.mem_cons.mp hu with rfl | hu
    · exact hvw.stamp_le
    · exact hvw.stamp_le.trans (ih hvs u hu)

theorem grantedUntil_cons (v : Version) (vs : List Version) (t₁ : Instant) :
    grantedUntil (v :: vs) t₁ = (if v.stamp ≤ t₁ then v.granted else 0) + grantedUntil vs t₁ := by
  unfold grantedUntil
  by_cases h : v.stamp ≤ t₁ <;> simp [h]

theorem grantedUntil_eq_zero (h : ∀ w ∈ vs, t₁ < w.stamp) : grantedUntil vs t₁ = 0 := by
  unfold grantedUntil
  rw [List.filter_eq_nil_iff.mpr (fun w hw => by simpa using h w hw)]
  rfl

/-- What the versions after `v` grant comes out of the tokens of `v` and what has come in
since. The induction moves `a` on to the stamp of the next version. -/
theorem grantedUntil_le (h : (v :: vs).IsChain Version.Succeeds) (hva : v.stamp ≤ a)
    (hnext : ∀ w ∈ vs.head?, a ≤ w.stamp) (hat : a ≤ t₁) :
    grantedUntil vs t₁ ≤ v.held a + supplied (v :: vs) a t₁ := by
  induction vs generalizing v a with
  | nil => exact add_nonneg (held_nonneg hva) (supplied_nonneg _ _ _)
  | cons w vs ih =>
    obtain ⟨hvw, hvs⟩ := List.isChain_cons_cons.mp h
    have haw : a ≤ w.stamp := hnext w rfl
    rw [grantedUntil_cons]
    by_cases hw : w.stamp ≤ t₁
    · rw [if_pos hw]
      have hfollow : ∀ u ∈ vs.head?, w.stamp ≤ u.stamp := fun u hu =>
        stamp_le_of_chain hvs u (List.mem_of_mem_head? hu)
      calc w.granted + grantedUntil vs t₁
          ≤ w.granted + (w.held w.stamp + supplied (w :: vs) w.stamp t₁) := by
            gcongr
            exact ih hvs le_rfl hfollow hw
        _ ≤ v.held w.stamp + supplied (w :: vs) w.stamp t₁ := by
            linarith [hvw.spent]
        _ ≤ v.held a + supplied (v :: w :: vs) a w.stamp +
              supplied (v :: w :: vs) w.stamp t₁ := by
            gcongr
            · exact held_le hva haw hvw.stored
            · exact supplied_le_cons v (w :: vs) w.stamp t₁
        _ = v.held a + supplied (v :: w :: vs) a t₁ := by
            rw [supplied_split _ haw hw, add_assoc]
    · have hlate : ∀ u ∈ vs, t₁ < u.stamp := fun u hu =>
        (not_le.mp hw).trans_le (stamp_le_of_chain hvs u hu)
      rw [if_neg hw, grantedUntil_eq_zero hlate, add_zero]
      exact add_nonneg (held_nonneg hva) (supplied_nonneg _ _ _)

theorem grantedBetween_cons (v : Version) (vs : List Version) (t₀ t₁ : Instant) :
    grantedBetween (v :: vs) t₀ t₁ =
      if t₀ < v.stamp then grantedUntil (v :: vs.filter (fun v => decide (t₀ < v.stamp))) t₁
      else grantedBetween vs t₀ t₁ := by
  unfold grantedBetween
  by_cases h : t₀ < v.stamp <;> simp [h]

theorem heldAt_cons_cons (h : v.stamp ≤ t₀) :
    heldAt (v :: w :: vs) t₀ = if w.stamp ≤ t₀ then heldAt (w :: vs) t₀ else v.held t₀ := by
  unfold heldAt
  by_cases hw : w.stamp ≤ t₀
  · simp [h, hw, List.getLast?_cons_cons]
  · simp [h, hw]

theorem grantedBetween_le (h : (v :: vs).IsChain Version.Succeeds) (hv : v.stamp ≤ t₀)
    (ht : t₀ ≤ t₁) :
    grantedBetween (v :: vs) t₀ t₁ ≤ heldAt (v :: vs) t₀ + supplied (v :: vs) t₀ t₁ := by
  induction vs generalizing v with
  | nil =>
    have hzero : grantedBetween [v] t₀ t₁ = 0 := by
      rw [grantedBetween_cons, if_neg (not_lt.mpr hv)]
      rfl
    have hheld : heldAt [v] t₀ = v.held t₀ := by simp [heldAt, hv]
    rw [hzero, hheld]
    exact add_nonneg (held_nonneg hv) (supplied_nonneg _ _ _)
  | cons w vs ih =>
    obtain ⟨hvw, hvs⟩ := List.isChain_cons_cons.mp h
    rw [grantedBetween_cons, if_neg (not_lt.mpr hv), heldAt_cons_cons hv]
    by_cases hw : w.stamp ≤ t₀
    · rw [if_pos hw]
      exact (ih hvs hw).trans (by gcongr; exact supplied_le_cons v (w :: vs) t₀ t₁)
    · have hlate : ∀ u ∈ w :: vs, t₀ < u.stamp := by
        intro u hu
        rcases List.mem_cons.mp hu with rfl | hu
        · exact not_le.mp hw
        · exact (not_le.mp hw).trans_le (stamp_le_of_chain hvs u hu)
      have hall : grantedBetween (w :: vs) t₀ t₁ = grantedUntil (w :: vs) t₁ := by
        unfold grantedBetween
        rw [List.filter_eq_self.mpr (fun u hu => by simpa using hlate u hu)]
      rw [if_neg hw, hall]
      exact grantedUntil_le h hv (fun u hu => (hlate u (List.mem_of_mem_head? hu)).le) ht

theorem credited_after (h : (v :: vs).IsChain Version.Succeeds) :
    ∀ s ∈ credited (v :: vs), ∀ t ∈ s, v.stamp < t := by
  induction vs generalizing v with
  | nil => simp [credited]
  | cons w vs ih =>
    obtain ⟨hvw, hvs⟩ := List.isChain_cons_cons.mp h
    intro s hs t ht
    rcases List.mem_cons.mp hs with rfl | hs
    · exact ht.1
    · exact hvw.stamp_le.trans_lt (ih hvs s hs t ht)

theorem credited_once (h : (v :: vs).IsChain Version.Succeeds) :
    (credited (v :: vs)).Pairwise (fun s u => ∀ t ∈ s, t ∉ u) := by
  induction vs generalizing v with
  | nil => exact .nil
  | cons w vs ih =>
    obtain ⟨-, hvs⟩ := List.isChain_cons_cons.mp h
    refine .cons (fun s hs t ht hts => ?_) (ih hvs)
    exact absurd ht.2 (not_le.mpr (credited_after hvs s hs t hts))

theorem conserved_of_chain (h : (v :: vs).IsChain Version.Succeeds) : Conserved (v :: vs) :=
  ⟨fun _ _ hv ht => grantedBetween_le h (hv v rfl) ht, credited_once h⟩

end Chain

end Pitwall.RateLimits
