import Pitwall.Core.Json
import Pitwall.Library.DecimalContext
set_option autoImplicit false

namespace Pitwall

def contextual (value : ℚ) : Except PyError ℚ :=
  if DecimalNumber.overflows value then .error ⟨"Overflow", "[<class 'decimal.Overflow'>]"⟩
  else .ok (DecimalNumber.rounded value)

theorem contextual_eq {value result : ℚ} (h : contextual value = .ok result) :
    result = DecimalNumber.rounded value := by
  unfold contextual at h
  split at h
  · cases h
  · exact (Except.ok.inj h).symm

theorem contextual_nonneg {value result : ℚ} (h : contextual value = .ok result)
    (hnonneg : 0 ≤ value) : 0 ≤ result := by
  rw [contextual_eq h]
  exact DecimalNumber.rounded_nonneg hnonneg

theorem contextual_mono {x y a b : ℚ} (h : x ≤ y) (ha : contextual x = .ok a)
    (hb : contextual y = .ok b) : a ≤ b := by
  rw [contextual_eq ha, contextual_eq hb]
  exact DecimalNumber.rounded_mono h

theorem contextual_of_lt {value : ℚ} (hnonneg : 0 ≤ value)
    (h : value < DecimalNumber.overflowThreshold) :
    contextual value = .ok (DecimalNumber.rounded value) := by
  have hfits : DecimalNumber.overflows value ≠ true := fun hover =>
    absurd ((DecimalNumber.overflows_iff hnonneg).mp hover) (not_le.mpr h)
  rw [contextual, if_neg hfits]

theorem contextual_of_ge {value : ℚ} (hnonneg : 0 ≤ value)
    (h : DecimalNumber.overflowThreshold ≤ value) :
    contextual value = .error ⟨"Overflow", "[<class 'decimal.Overflow'>]"⟩ := by
  rw [contextual, if_pos ((DecimalNumber.overflows_iff hnonneg).mpr h)]

theorem contextual_of_le {x y b : ℚ} (hx : 0 ≤ x) (h : x ≤ y) (hb : contextual y = .ok b) :
    ∃ a, contextual x = .ok a ∧ 0 ≤ a ∧ a ≤ b := by
  have hlt : x < DecimalNumber.overflowThreshold := by
    by_contra hge
    rw [contextual_of_ge (hx.trans h) ((not_lt.mp hge).trans h)] at hb
    cases hb
  refine ⟨_, contextual_of_lt hx hlt, DecimalNumber.rounded_nonneg hx, ?_⟩
  rw [contextual_eq hb]
  exact DecimalNumber.rounded_mono h

theorem contextual_exact {value result : ℚ} (h : contextual value = .ok result)
    (hquantized : IsMultiple 6 value) (hnonneg : 0 ≤ value) (hsmall : result < 10 ^ 22) :
    result = value := by
  unfold contextual at h
  split at h
  · cases h
  · obtain rfl := Except.ok.inj h
    have hlt : value < 10 ^ 22 := by
      by_contra hge
      exact absurd (DecimalNumber.le_rounded (not_lt.mp hge)) (not_le.mpr hsmall)
    have habs : |value| < 10 ^ 22 := by rwa [abs_of_nonneg hnonneg]
    exact DecimalNumber.rounded_of_isMultiple hquantized habs (by norm_num)

theorem contextual_of_isMultiple {value : ℚ} (hquantized : IsMultiple 6 value)
    (hsmall : |value| < 10 ^ 22) : contextual value = .ok value := by
  have hrounded : DecimalNumber.rounded value = value :=
    DecimalNumber.rounded_of_isMultiple hquantized hsmall (by norm_num)
  have hlog : Int.log 10 |value| < 22 := by
    by_cases hzero : value = 0
    · simp [hzero]
    · refine (Int.lt_zpow_iff_log_lt (by norm_num) (abs_pos.mpr hzero)).mp ?_
      exact_mod_cast hsmall
  have hfits : DecimalNumber.overflows value = false := by
    rw [DecimalNumber.overflows, hrounded, decide_eq_false_iff_not]
    omega
  rw [contextual, hfits, hrounded]
  rfl

end Pitwall
