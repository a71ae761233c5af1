import Mathlib.Data.Rat.Floor
import Mathlib.Tactic.FieldSimp
import Mathlib.Tactic.Linarith
set_option autoImplicit false

/-- A decimal with at most `scale` digits after the point. -/
def IsMultiple (scale : Nat) (x : ℚ) : Prop := ∃ n : ℤ, x * 10 ^ scale = n

/-- SQL `round(x, scale)` for `numeric`: half away from zero. -/
def roundHalfAway (scale : Nat) (x : ℚ) : ℚ :=
  if 0 ≤ x then ⌊x * 10 ^ scale + 1 / 2⌋ / 10 ^ scale
  else -(⌊-x * 10 ^ scale + 1 / 2⌋ / 10 ^ scale)

/-- Storing a value in a `NUMERIC(precision, scale)` column: the value is rounded,
and a result that needs more digits is a numeric field overflow. -/
def numeric (precision scale : Nat) (x : ℚ) : Option ℚ :=
  if |roundHalfAway scale x| < 10 ^ (precision - scale) then some (roundHalfAway scale x)
  else none

theorem floor_add_half (n : ℤ) : ⌊(n : ℚ) + 1 / 2⌋ = n := by
  rw [Int.floor_eq_iff]
  constructor <;> norm_num

theorem roundHalfAway_of_isMultiple {scale : Nat} {x : ℚ} (h : IsMultiple scale x) :
    roundHalfAway scale x = x := by
  obtain ⟨n, hn⟩ := h
  have hpos : (10 : ℚ) ^ scale ≠ 0 := by positivity
  unfold roundHalfAway
  split
  · rw [hn, floor_add_half, ← hn]
    field_simp
  · have hneg : -x * 10 ^ scale = ((-n : ℤ) : ℚ) := by push_cast; rw [neg_mul, hn]
    rw [hneg, floor_add_half, ← hneg]
    field_simp

theorem isMultiple_roundHalfAway (scale : Nat) (x : ℚ) :
    IsMultiple scale (roundHalfAway scale x) := by
  unfold roundHalfAway
  split
  · exact ⟨⌊x * 10 ^ scale + 1 / 2⌋, by field_simp⟩
  · refine ⟨-⌊-x * 10 ^ scale + 1 / 2⌋, ?_⟩
    push_cast
    field_simp

theorem roundHalfAway_nonneg {scale : Nat} {value : ℚ} (h : 0 ≤ value) :
    0 ≤ roundHalfAway scale value := by
  unfold roundHalfAway
  rw [if_pos h]
  have hfloor : 0 ≤ ⌊value * 10 ^ scale + 1 / 2⌋ := Int.floor_nonneg.mpr (by positivity)
  exact div_nonneg (by exact_mod_cast hfloor) (by positivity)

theorem roundHalfAway_mono {scale : Nat} {x y : ℚ} (hx : 0 ≤ x) (h : x ≤ y) :
    roundHalfAway scale x ≤ roundHalfAway scale y := by
  unfold roundHalfAway
  rw [if_pos hx, if_pos (hx.trans h)]
  have hfloor : ⌊x * 10 ^ scale + 1 / 2⌋ ≤ ⌊y * 10 ^ scale + 1 / 2⌋ := by
    refine Int.floor_le_floor ?_
    have := mul_le_mul_of_nonneg_right h (show (0 : ℚ) ≤ 10 ^ scale by positivity)
    linarith
  exact div_le_div_of_nonneg_right (by exact_mod_cast hfloor) (by positivity)

theorem roundHalfAway_neg (scale : Nat) (x : ℚ) :
    roundHalfAway scale (-x) = -roundHalfAway scale x := by
  rcases lt_trichotomy x 0 with hx | rfl | hx
  · unfold roundHalfAway
    rw [if_pos (neg_nonneg.mpr hx.le), if_neg (not_le.mpr hx), neg_neg]
  · have hzero : roundHalfAway scale 0 = 0 := roundHalfAway_of_isMultiple ⟨0, by simp⟩
    rw [neg_zero, hzero, neg_zero]
  · unfold roundHalfAway
    rw [if_neg (not_le.mpr (neg_neg_of_pos hx)), if_pos hx.le, neg_neg]

theorem roundHalfAway_monotone (scale : Nat) : Monotone (roundHalfAway scale) := by
  intro x y h
  rcases le_or_gt 0 x with hx | hx
  · exact roundHalfAway_mono hx h
  · rcases le_or_gt 0 y with hy | hy
    · have hneg : 0 ≤ roundHalfAway scale (-x) := roundHalfAway_nonneg (neg_nonneg.mpr hx.le)
      rw [roundHalfAway_neg] at hneg
      exact (neg_nonneg.mp hneg).trans (roundHalfAway_nonneg hy)
    · have hneg : roundHalfAway scale (-y) ≤ roundHalfAway scale (-x) :=
        roundHalfAway_mono (neg_nonneg.mpr hy.le) (neg_le_neg h)
      rw [roundHalfAway_neg, roundHalfAway_neg] at hneg
      exact neg_le_neg_iff.mp hneg

theorem le_roundHalfAway_iff {scale : Nat} {x : ℚ} (hx : 0 ≤ x) (n : ℤ) :
    n / 10 ^ scale ≤ roundHalfAway scale x ↔ ((n : ℚ) - 1 / 2) / 10 ^ scale ≤ x := by
  have hpos : (0 : ℚ) < 10 ^ scale := by positivity
  unfold roundHalfAway
  rw [if_pos hx, div_le_div_iff_of_pos_right hpos, Int.cast_le, Int.le_floor, div_le_iff₀ hpos]
  exact sub_le_iff_le_add.symm

theorem eq_of_numeric {precision scale : Nat} {x y : ℚ} (h : IsMultiple scale x)
    (hy : numeric precision scale x = some y) : y = x := by
  unfold numeric at hy
  split at hy
  · rw [← Option.some.inj hy, roundHalfAway_of_isMultiple h]
  · contradiction

theorem IsMultiple.zero (scale : Nat) : IsMultiple scale 0 := ⟨0, by simp⟩

theorem IsMultiple.add {scale : Nat} {x y : ℚ} (hx : IsMultiple scale x)
    (hy : IsMultiple scale y) : IsMultiple scale (x + y) := by
  obtain ⟨m, hm⟩ := hx
  obtain ⟨n, hn⟩ := hy
  refine ⟨m + n, ?_⟩
  rw [add_mul, hm, hn]
  push_cast
  rfl

theorem IsMultiple.sum {scale : Nat} {xs : List ℚ} (h : ∀ x ∈ xs, IsMultiple scale x) :
    IsMultiple scale xs.sum := by
  induction xs with
  | nil => exact .zero scale
  | cons x xs ih =>
    rw [List.sum_cons]
    refine (h x (by simp)).add (ih (fun y hy => h y ?_))
    simp [hy]

theorem IsMultiple.sub {scale : Nat} {x y : ℚ} (hx : IsMultiple scale x)
    (hy : IsMultiple scale y) : IsMultiple scale (x - y) := by
  obtain ⟨m, hm⟩ := hx
  obtain ⟨n, hn⟩ := hy
  refine ⟨m - n, ?_⟩
  rw [sub_mul, hm, hn]
  push_cast
  rfl
