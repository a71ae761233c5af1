import Pitwall.Library.Binary64
set_option autoImplicit false

/-!
Rounding half to even to a number of digits in a base, down to a least exponent, and how it
follows the order.
-/

theorem roundHalfEven_mono {x y : ℚ} (h : x ≤ y) : roundHalfEven x ≤ roundHalfEven y := by
  rcases (Int.floor_le_floor h).lt_or_eq with hlt | heq
  · have hx : roundHalfEven x ≤ ⌊y⌋ := by
      refine roundHalfEven_le ?_
      calc x ≤ ⌊x⌋ + 1 := (Int.lt_floor_add_one x).le
        _ ≤ ⌊y⌋ := by exact_mod_cast hlt
    exact hx.trans (le_roundHalfEven (Int.floor_le y))
  · have hfract : x - ⌊x⌋ ≤ y - ⌊y⌋ := by rw [heq]; linarith
    unfold roundHalfEven
    rw [heq] at hfract ⊢
    split_ifs <;> first | omega | linarith

theorem le_roundHalfEven_of_half {n : ℤ} (hodd : n % 2 = 0) {x : ℚ} (h : (n : ℚ) - 1 / 2 ≤ x) :
    n ≤ roundHalfEven x := by
  have hhalf : roundHalfEven ((n : ℚ) - 1 / 2) = n := by
    have hfloor : ⌊(n : ℚ) - 1 / 2⌋ = n - 1 := by
      rw [Int.floor_eq_iff]
      constructor <;> push_cast <;> linarith
    unfold roundHalfEven
    rw [hfloor]
    push_cast
    rw [if_neg (by linarith), if_neg (by linarith), if_neg (by omega)]
    omega
  rw [← hhalf]
  exact roundHalfEven_mono h

theorem roundHalfEven_lt {n : ℤ} {x : ℚ} (h : x < (n : ℚ) - 1 / 2) : roundHalfEven x < n := by
  rcases lt_or_ge x ((n : ℚ) - 1) with hlow | hhigh
  · have hle : roundHalfEven x ≤ n - 1 := roundHalfEven_le (by push_cast; exact hlow.le)
    omega
  · have hfloor : ⌊x⌋ = n - 1 := by
      rw [Int.floor_eq_iff]
      push_cast
      constructor <;> linarith
    unfold roundHalfEven
    rw [hfloor, if_pos (by push_cast; linarith)]
    omega

theorem roundHalfEven_neg (q : ℚ) : roundHalfEven (-q) = -roundHalfEven q := by
  by_cases hint : q = ⌊q⌋
  · rw [hint, ← Int.cast_neg, roundHalfEven_intCast, roundHalfEven_intCast]
  · have hlow : (⌊q⌋ : ℚ) < q := lt_of_le_of_ne (Int.floor_le q) (Ne.symm hint)
    have hhigh := Int.lt_floor_add_one q
    have hfloor : ⌊-q⌋ = -⌊q⌋ - 1 := by
      rw [Int.floor_eq_iff]
      push_cast
      constructor <;> linarith
    unfold roundHalfEven
    rw [hfloor]
    push_cast
    split_ifs <;> first | omega | linarith

theorem abs_roundHalfEven_sub_le (q : ℚ) : |(roundHalfEven q : ℚ) - q| ≤ 1 / 2 := by
  have hlow := Int.floor_le q
  have hhigh := Int.lt_floor_add_one q
  rw [abs_le]
  unfold roundHalfEven
  split_ifs with hless hmore <;> push_cast <;> constructor <;> linarith

namespace FloatingRounding
variable (base : ℕ) (least : ℤ) (digits : ℕ)

/-- The exponent of the last digit of the numbers about `q`. -/
def place (q : ℚ) : ℤ := max least (Int.log base |q| - digits)

/-- Rounding to a digit more than `digits`. -/
def roundTo (q : ℚ) : ℚ :=
  roundHalfEven (q / (base : ℚ) ^ place base least digits q) *
    (base : ℚ) ^ place base least digits q

section Order
variable {base : ℕ} {least : ℤ} {digits : ℕ} {x y : ℚ}

theorem roundTo_neg (q : ℚ) : roundTo base least digits (-q) = -roundTo base least digits q := by
  have hplace : place base least digits (-q) = place base least digits q := by
    unfold place
    rw [abs_neg]
  unfold roundTo
  rw [hplace, neg_div, roundHalfEven_neg]
  push_cast
  exact neg_mul _ _

theorem roundTo_zero : roundTo base least digits 0 = 0 := by
  have hzero : roundHalfEven 0 = 0 := by exact_mod_cast roundHalfEven_intCast 0
  unfold roundTo
  rw [zero_div, hzero, Int.cast_zero, zero_mul]

theorem zpow_pos' (hbase : 1 < base) (e : ℤ) : (0 : ℚ) < (base : ℚ) ^ e :=
  zpow_pos (by exact_mod_cast hbase.trans_le' zero_le_one) e

theorem roundTo_nonneg (hbase : 1 < base) (h : 0 ≤ x) : 0 ≤ roundTo base least digits x := by
  refine mul_nonneg ?_ (zpow_pos' hbase _).le
  have hscaled : ((0 : ℤ) : ℚ) ≤ x / (base : ℚ) ^ place base least digits x := by
    rw [Int.cast_zero]
    exact div_nonneg h (zpow_pos' hbase _).le
  exact_mod_cast le_roundHalfEven hscaled

theorem exists_units (hbase : 1 < base) {place e : ℤ} (h : place ≤ e) :
    ∃ n : ℤ, (base : ℚ) ^ e / (base : ℚ) ^ place = n := by
  obtain ⟨k, hk⟩ := Int.eq_ofNat_of_zero_le (show 0 ≤ e - place by omega)
  refine ⟨(base : ℤ) ^ k, ?_⟩
  rw [← zpow_sub₀ (by positivity), hk]
  norm_cast

theorem roundTo_le_zpow (hbase : 1 < base) {e : ℤ} (hplace : place base least digits x ≤ e)
    (h : x ≤ (base : ℚ) ^ e) : roundTo base least digits x ≤ (base : ℚ) ^ e := by
  obtain ⟨n, hn⟩ := exists_units hbase hplace
  have hle : roundHalfEven (x / (base : ℚ) ^ place base least digits x) ≤ n := by
    refine roundHalfEven_le ?_
    rw [← hn]
    exact div_le_div_of_nonneg_right h (zpow_pos' hbase _).le
  calc roundTo base least digits x ≤ n * (base : ℚ) ^ place base least digits x :=
        mul_le_mul_of_nonneg_right (by exact_mod_cast hle) (zpow_pos' hbase _).le
    _ = (base : ℚ) ^ e := by rw [← hn]; exact div_mul_cancel₀ _ (zpow_pos' hbase _).ne'

theorem zpow_le_roundTo (hbase : 1 < base) {e : ℤ} (hplace : place base least digits x ≤ e)
    (h : (base : ℚ) ^ e ≤ x) : (base : ℚ) ^ e ≤ roundTo base least digits x := by
  obtain ⟨n, hn⟩ := exists_units hbase hplace
  have hle : n ≤ roundHalfEven (x / (base : ℚ) ^ place base least digits x) := by
    refine le_roundHalfEven ?_
    rw [← hn]
    exact div_le_div_of_nonneg_right h (zpow_pos' hbase _).le
  calc (base : ℚ) ^ e = n * (base : ℚ) ^ place base least digits x := by
        rw [← hn]
        exact (div_mul_cancel₀ _ (zpow_pos' hbase _).ne').symm
    _ ≤ roundTo base least digits x :=
        mul_le_mul_of_nonneg_right (by exact_mod_cast hle) (zpow_pos' hbase _).le

theorem roundTo_mono_of_pos (hbase : 1 < base) (hx : 0 < x) (h : x ≤ y) :
    roundTo base least digits x ≤ roundTo base least digits y := by
  have hy : 0 < y := hx.trans_le h
  have hlog : Int.log base |x| ≤ Int.log base |y| := by
    rw [abs_of_pos hx, abs_of_pos hy]
    exact Int.log_mono_right hx h
  have hplace : place base least digits x ≤ place base least digits y := by
    unfold place
    omega
  rcases hplace.lt_or_eq with hlt | heq
  · have hstep : Int.log base |x| < Int.log base |y| ∧
        place base least digits y ≤ Int.log base |y| ∧
        place base least digits x ≤ Int.log base |y| := by
      unfold place at hlt ⊢
      omega
    obtain ⟨hstep, hplaceY, hplaceX⟩ := hstep
    have hlow : x ≤ (base : ℚ) ^ Int.log base |y| := by
      refine (le_of_lt ?_).trans
        (zpow_le_zpow_right₀ (by exact_mod_cast hbase.le) (Int.add_one_le_of_lt hstep))
      rw [abs_of_pos hx]
      exact Int.lt_zpow_succ_log_self hbase x
    have hhigh : (base : ℚ) ^ Int.log base |y| ≤ y := by
      rw [abs_of_pos hy]
      exact Int.zpow_log_le_self hbase hy
    exact (roundTo_le_zpow hbase hplaceX hlow).trans (zpow_le_roundTo hbase hplaceY hhigh)
  · unfold roundTo
    rw [heq]
    refine mul_le_mul_of_nonneg_right ?_ (zpow_pos' hbase _).le
    exact_mod_cast roundHalfEven_mono (div_le_div_of_nonneg_right h (zpow_pos' hbase _).le)

theorem roundTo_mono (hbase : 1 < base) (h : x ≤ y) :
    roundTo base least digits x ≤ roundTo base least digits y := by
  rcases lt_trichotomy x 0 with hx | rfl | hx
  · rcases lt_or_ge y 0 with hy | hy
    · have hneg : roundTo base least digits (-y) ≤ roundTo base least digits (-x) :=
        roundTo_mono_of_pos hbase (neg_pos.mpr hy) (neg_le_neg h)
      rw [roundTo_neg, roundTo_neg] at hneg
      exact neg_le_neg_iff.mp hneg
    · have hneg : 0 ≤ roundTo base least digits (-x) := roundTo_nonneg hbase (neg_pos.mpr hx).le
      rw [roundTo_neg] at hneg
      exact (neg_nonneg.mp hneg).trans (roundTo_nonneg hbase hy)
  · rw [roundTo_zero]
    exact roundTo_nonneg hbase h
  · exact roundTo_mono_of_pos hbase hx h

theorem roundTo_zpow (hbase : 1 < base) {e : ℤ} (hleast : least ≤ e) :
    roundTo base least digits ((base : ℚ) ^ e) = (base : ℚ) ^ e := by
  have hplace : place base least digits ((base : ℚ) ^ e) ≤ e := by
    unfold place
    rw [abs_of_pos (zpow_pos' hbase e), Int.log_zpow hbase]
    omega
  exact le_antisymm (roundTo_le_zpow hbase hplace le_rfl) (zpow_le_roundTo hbase hplace le_rfl)

theorem roundTo_of_units (hbase : 1 < base)
    (h : ∃ n : ℤ, x / (base : ℚ) ^ place base least digits x = n) :
    roundTo base least digits x = x := by
  obtain ⟨n, hn⟩ := h
  unfold roundTo
  rw [hn, roundHalfEven_intCast, ← hn]
  exact div_mul_cancel₀ x (zpow_pos' hbase _).ne'

theorem place_of_between (hbase : 1 < base) {e : ℤ} (hleast : least ≤ e - digits)
    (hlow : (base : ℚ) ^ e ≤ x) (hhigh : x < (base : ℚ) ^ (e + 1)) :
    place base least digits x = e - digits := by
  have hx : 0 < x := (zpow_pos' hbase e).trans_le hlow
  have hge : e ≤ Int.log base x := (Int.zpow_le_iff_le_log hbase hx).mp hlow
  have hlt : Int.log base x < e + 1 := (Int.lt_zpow_iff_log_lt hbase hx).mp hhigh
  unfold place
  rw [abs_of_pos hx]
  omega

theorem zpow_units (hbase : 1 < base) (e : ℤ) (n : ℕ) :
    (base : ℚ) ^ e = (base : ℚ) ^ n * (base : ℚ) ^ (e - n) := by
  rw [← zpow_natCast, ← zpow_add₀ (by positivity)]
  congr 1
  omega

theorem zpow_le_roundTo_iff (hbase : 1 < base) (heven : Even base) {e : ℤ}
    (hleast : least ≤ e - digits) :
    (base : ℚ) ^ (e + 1) ≤ roundTo base least digits x ↔
      ((base : ℚ) ^ (digits + 1) - 1 / 2) * (base : ℚ) ^ (e - digits) ≤ x := by
  have hpos := zpow_pos' hbase (e - digits)
  have hone : (1 : ℚ) ≤ base := by exact_mod_cast hbase.le
  have hunit : (base : ℚ) ^ (e + 1) = (base : ℚ) ^ (digits + 1) * (base : ℚ) ^ (e - digits) := by
    have := zpow_units hbase (e + 1) (digits + 1)
    rwa [show e + 1 - ((digits + 1 : ℕ) : ℤ) = e - digits by push_cast; omega] at this
  have hplace : ∀ _ : (base : ℚ) ^ e ≤ x, x < (base : ℚ) ^ (e + 1) →
      place base least digits x = e - digits := place_of_between hbase hleast
  have hpow : ∀ k, e ≤ k → roundTo base least digits ((base : ℚ) ^ k) = (base : ℚ) ^ k :=
    fun k hk => roundTo_zpow hbase (by omega)
  constructor
  · intro hround
    by_contra hbelow
    have hbelow := not_le.mp hbelow
    have hsmall : x < (base : ℚ) ^ (e + 1) := by
      rw [hunit]
      refine hbelow.trans ?_
      nlinarith
    rcases le_or_gt ((base : ℚ) ^ e) x with hlow | hlow
    · have hlt : roundHalfEven (x / (base : ℚ) ^ (e - digits)) < (base : ℤ) ^ (digits + 1) := by
        refine roundHalfEven_lt ?_
        rw [div_lt_iff₀ hpos]
        exact_mod_cast hbelow
      have hresult : roundTo base least digits x < (base : ℚ) ^ (e + 1) := by
        unfold roundTo
        rw [hplace hlow hsmall, hunit]
        exact mul_lt_mul_of_pos_right (by exact_mod_cast hlt) hpos
      exact absurd hround (not_le.mpr hresult)
    · have hle : roundTo base least digits x ≤ (base : ℚ) ^ e := by
        rw [← hpow e le_rfl]
        exact roundTo_mono hbase hlow.le
      have hstep : (base : ℚ) ^ e < (base : ℚ) ^ (e + 1) :=
        zpow_lt_zpow_right₀ (by exact_mod_cast hbase) (by omega)
      exact absurd hround (not_le.mpr (hle.trans_lt hstep))
  · intro habove
    rcases le_or_gt ((base : ℚ) ^ (e + 1)) x with hhigh | hhigh
    · rw [← hpow (e + 1) (by omega)]
      exact roundTo_mono hbase hhigh
    · have hlow : (base : ℚ) ^ e ≤ x := by
        refine le_trans ?_ habove
        rw [zpow_units hbase e digits]
        refine mul_le_mul_of_nonneg_right ?_ hpos.le
        have hdigits : (1 : ℚ) ≤ (base : ℚ) ^ digits := one_le_pow₀ hone
        have htwo : (2 : ℚ) ≤ base := by exact_mod_cast hbase
        rw [pow_succ]
        nlinarith
      have hge : (base : ℤ) ^ (digits + 1) ≤ roundHalfEven (x / (base : ℚ) ^ (e - digits)) := by
        refine le_roundHalfEven_of_half ?_ ?_
        · exact Int.even_iff.mp (((Int.even_coe_nat base).mpr heven).pow_of_ne_zero (by omega))
        · rw [le_div_iff₀ hpos]
          exact_mod_cast habove
      unfold roundTo
      rw [hplace hlow hhigh, hunit]
      exact mul_le_mul_of_nonneg_right (by exact_mod_cast hge) hpos.le

end Order

end FloatingRounding
