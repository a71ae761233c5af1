import Pitwall.Library.FloatingRounding
import Pitwall.Library.Numeric
set_option autoImplicit false

/-!
Decimal numbers with their special values, and arithmetic in a context of 28 significant
digits that rounds half to even and has exponents from -999999 to 999999.
-/

inductive DecimalNumber where
  | finite (value : ℚ)
  | infinite (negative : Bool)
  | nan (signaling : Bool)
  deriving DecidableEq

namespace DecimalNumber
open FloatingRounding

/-- A finite result in the context. Below `10 ^ -999999` it keeps the places down to the last one
of that number. -/
def rounded (q : ℚ) : ℚ := roundTo 10 (-1000026) 27 q

theorem ten_zpow_pos (e : ℤ) : (0 : ℚ) < 10 ^ e := zpow_pos (by norm_num) e

theorem rounded_nonneg {q : ℚ} (h : 0 ≤ q) : 0 ≤ rounded q := roundTo_nonneg (by norm_num) h

theorem rounded_zero : rounded 0 = 0 := roundTo_zero

theorem rounded_mono {x y : ℚ} (h : x ≤ y) : rounded x ≤ rounded y :=
  roundTo_mono (by norm_num) h

theorem rounded_zpow {e : ℤ} (h : -1000026 ≤ e) : rounded (10 ^ e) = 10 ^ e := by
  have hpow : roundTo 10 (-1000026) 27 (((10 : ℕ) : ℚ) ^ e) = ((10 : ℕ) : ℚ) ^ e :=
    roundTo_zpow (by norm_num) h
  rwa [Nat.cast_ofNat] at hpow

theorem rounded_of_isMultiple {scale digits : Nat} {q : ℚ} (h : IsMultiple scale q)
    (hlt : |q| < 10 ^ digits) (hdigits : digits + scale ≤ 28) : rounded q = q := by
  by_cases hq : q = 0
  · rw [hq, rounded_zero]
  refine roundTo_of_units (by norm_num) ?_
  obtain ⟨n, hn⟩ := h
  have hlog : Int.log 10 |q| < digits := by
    refine (Int.lt_zpow_iff_log_lt (by norm_num) (abs_pos.mpr hq)).mp ?_
    exact_mod_cast hlt
  obtain ⟨k, hk⟩ := Int.eq_ofNat_of_zero_le
    (show 0 ≤ -place 10 (-1000026) 27 q - scale by unfold place; omega)
  refine ⟨n * 10 ^ k, ?_⟩
  have hsplit : -place 10 (-1000026) 27 q = scale + k := by omega
  rw [div_eq_mul_inv, ← zpow_neg, hsplit, Nat.cast_ofNat, zpow_add₀ (by norm_num), ← mul_assoc]
  push_cast
  rw [← hn]
  norm_cast

theorem le_rounded {digits : Nat} {q : ℚ} (h : 10 ^ digits ≤ q) : 10 ^ digits ≤ rounded q := by
  have hpow : rounded (10 ^ digits) = 10 ^ digits := by
    exact_mod_cast rounded_zpow (show (-1000026 : ℤ) ≤ digits by omega)
  rw [← hpow]
  exact rounded_mono h

def overflows (q : ℚ) : Bool := decide (999999 < Int.log 10 |rounded q|)

/-- A result has a digit above the place `e` from half a unit of the last place below it. -/
theorem zpow_le_rounded_iff {q : ℚ} {e : ℤ} (he : -999999 ≤ e) :
    10 ^ (e + 1) ≤ rounded q ↔ (10 ^ 28 - 1 / 2) * 10 ^ (e - 27) ≤ q := by
  have hiff : ((10 : ℕ) : ℚ) ^ (e + 1) ≤ roundTo 10 (-1000026) 27 q ↔
      (((10 : ℕ) : ℚ) ^ (27 + 1) - 1 / 2) * ((10 : ℕ) : ℚ) ^ (e - (27 : ℕ)) ≤ q :=
    zpow_le_roundTo_iff (by norm_num) (by decide) (by push_cast; omega)
  rwa [Nat.cast_ofNat, Nat.cast_ofNat] at hiff

theorem lt_log_rounded_iff {q : ℚ} (h : 0 ≤ q) {e : ℤ} (he : 0 ≤ e) :
    e < Int.log 10 |rounded q| ↔ (10 ^ 28 - 1 / 2) * 10 ^ (e - 27) ≤ q := by
  rw [← zpow_le_rounded_iff (by omega), abs_of_nonneg (rounded_nonneg h)]
  rcases (rounded_nonneg h).eq_or_lt with hzero | hpos
  · rw [← hzero, Int.log_zero_right]
    exact iff_of_false (not_lt.mpr he) (not_le.mpr (ten_zpow_pos _))
  · rw [← Int.add_one_le_iff]
    exact (Int.zpow_le_iff_le_log (b := 10) (by norm_num) hpos).symm

def overflowThreshold : ℚ := (10 ^ 28 - 1 / 2) * 10 ^ ((999999 : ℤ) - 27)

theorem overflows_iff {q : ℚ} (h : 0 ≤ q) : overflows q = true ↔ overflowThreshold ≤ q :=
  decide_eq_true_iff.trans (lt_log_rounded_iff h (by norm_num))

def toBinary64 : DecimalNumber → Option Binary64
  | .finite q => some (Binary64.ofRat q)
  | .infinite negative => some (.infinite negative)
  | .nan signaling => if signaling then none else some .nan

end DecimalNumber
