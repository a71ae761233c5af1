import Mathlib.Data.Int.Log
import Mathlib.Data.Rat.Floor
import Mathlib.Data.Prod.Lex
import Mathlib.Tactic.FieldSimp
import Mathlib.Tactic.Linarith
set_option autoImplicit false

/-!
IEEE 754 binary64 over the rationals: rounding to nearest with ties to even, the
arithmetic that rounds once, and the comparison. The two zeros are one value.
-/

def Representable (q : ℚ) : Prop :=
  ∃ m e : ℤ, q = m * 2 ^ e ∧ |m| < 2 ^ 53 ∧ -1074 ≤ e ∧ e ≤ 971

inductive Binary64 where
  | finite (value : { q : ℚ // Representable q })
  | infinite (negative : Bool)
  | nan
  deriving DecidableEq

def roundHalfEven (q : ℚ) : ℤ :=
  if q - ⌊q⌋ < 1 / 2 then ⌊q⌋
  else if 1 / 2 < q - ⌊q⌋ then ⌊q⌋ + 1
  else if ⌊q⌋ % 2 = 0 then ⌊q⌋
  else ⌊q⌋ + 1

theorem roundHalfEven_intCast (n : ℤ) : roundHalfEven n = n := by
  simp [roundHalfEven]

theorem roundHalfEven_le {q : ℚ} {n : ℤ} (h : q ≤ n) : roundHalfEven q ≤ n := by
  have hfloor : (⌊q⌋ : ℚ) ≤ q := Int.floor_le q
  have hle : ⌊q⌋ ≤ n := by exact_mod_cast hfloor.trans h
  rcases hle.eq_or_lt with heq | hlt
  · have hq : q = n := le_antisymm h (by rw [← heq]; exact hfloor)
    rw [hq, roundHalfEven_intCast]
  · unfold roundHalfEven
    split_ifs <;> omega

theorem le_roundHalfEven {q : ℚ} {n : ℤ} (h : (n : ℚ) ≤ q) : n ≤ roundHalfEven q := by
  have hle : n ≤ ⌊q⌋ := Int.le_floor.mpr h
  unfold roundHalfEven
  split_ifs <;> omega

namespace Binary64

/-- The exponent of the last place of the numbers about `q`. -/
def lastPlace (q : ℚ) : ℤ := max (-1074) (Int.log 2 |q| - 52)

/-- `q` in units of its last place. -/
def scaled (q : ℚ) : ℚ := q / 2 ^ lastPlace q

def nearest (q : ℚ) : ℚ := roundHalfEven (scaled q) * 2 ^ lastPlace q

theorem two_zpow_pos (e : ℤ) : (0 : ℚ) < 2 ^ e := zpow_pos (by norm_num) e

theorem scaled_mul (q : ℚ) : scaled q * 2 ^ lastPlace q = q :=
  div_mul_cancel₀ q (two_zpow_pos _).ne'

theorem abs_scaled_lt (q : ℚ) : |scaled q| < 2 ^ (53 : ℤ) := by
  rw [scaled, abs_div, abs_of_pos (two_zpow_pos _), div_lt_iff₀ (two_zpow_pos _),
    ← zpow_add₀ (by norm_num)]
  calc |q| < 2 ^ (Int.log 2 |q| + 1) := Int.lt_zpow_succ_log_self (by norm_num) |q|
    _ ≤ 2 ^ (53 + lastPlace q) := by
        refine zpow_le_zpow_right₀ (by norm_num) ?_
        unfold lastPlace
        omega

theorem le_abs_scaled {q : ℚ} (hq : q ≠ 0) (h : -1074 < lastPlace q) :
    (2 : ℚ) ^ (52 : ℤ) ≤ |scaled q| := by
  have hlast : lastPlace q = Int.log 2 |q| - 52 := by
    unfold lastPlace at h ⊢
    omega
  have hlog : (2 : ℚ) ^ Int.log 2 |q| ≤ |q| :=
    Int.zpow_log_le_self (by norm_num) (abs_pos.mpr hq)
  rw [scaled, abs_div, abs_of_pos (two_zpow_pos _), le_div_iff₀ (two_zpow_pos _),
    ← zpow_add₀ (by norm_num), hlast]
  rwa [show (52 : ℤ) + (Int.log 2 |q| - 52) = Int.log 2 |q| by omega]

theorem abs_roundHalfEven_scaled_le (q : ℚ) : |roundHalfEven (scaled q)| ≤ 2 ^ 53 := by
  have hlt := abs_scaled_lt q
  have hle : |scaled q| ≤ ((2 ^ 53 : ℤ) : ℚ) := by exact_mod_cast hlt.le
  obtain ⟨hlow, hhigh⟩ := abs_le.mp hle
  exact abs_le.mpr ⟨le_roundHalfEven (by exact_mod_cast hlow), roundHalfEven_le hhigh⟩

theorem le_abs_roundHalfEven_scaled {q : ℚ} (hq : q ≠ 0) (h : -1074 < lastPlace q) :
    2 ^ 52 ≤ |roundHalfEven (scaled q)| := by
  have hle : ((2 ^ 52 : ℤ) : ℚ) ≤ |scaled q| := by exact_mod_cast le_abs_scaled hq h
  rcases le_abs.mp hle with hpos | hneg
  · exact (le_roundHalfEven hpos).trans (le_abs_self _)
  · have hle' : scaled q ≤ ((-2 ^ 52 : ℤ) : ℚ) := by push_cast at hneg ⊢; linarith
    have := roundHalfEven_le hle'
    exact le_abs.mpr (.inr (by omega))

theorem nearest_zero : nearest 0 = 0 := by
  have h : roundHalfEven (scaled 0) = 0 := by
    rw [scaled, zero_div]
    exact roundHalfEven_intCast 0
  rw [nearest, h]
  simp

theorem lastPlace_lt_of_nearest {q : ℚ} {k : ℕ}
    (hk : 2 ^ k ≤ |roundHalfEven (scaled q)|) (h : |nearest q| < 2 ^ (1024 : ℤ)) :
    k + lastPlace q < 1024 := by
  have hle : (2 : ℚ) ^ (k + lastPlace q : ℤ) ≤ |nearest q| := by
    rw [nearest, abs_mul, abs_of_pos (two_zpow_pos _), zpow_add₀ (by norm_num), zpow_natCast]
    refine mul_le_mul_of_nonneg_right ?_ (two_zpow_pos _).le
    exact_mod_cast hk
  exact (zpow_lt_zpow_iff_right₀ (by norm_num : (1 : ℚ) < 2)).mp (hle.trans_lt h)

theorem representable_nearest {q : ℚ} (h : |nearest q| < 2 ^ (1024 : ℤ)) :
    Representable (nearest q) := by
  by_cases hq : q = 0
  · rw [hq, nearest_zero]
    exact ⟨0, 0, by norm_num⟩
  have hplace : -1074 ≤ lastPlace q := le_max_left _ _
  have hbound := abs_roundHalfEven_scaled_le q
  rcases hbound.lt_or_eq with hlt | hfull
  · refine ⟨roundHalfEven (scaled q), lastPlace q, rfl, hlt, hplace, ?_⟩
    rcases hplace.eq_or_lt with heq | hlt'
    · omega
    · have := lastPlace_lt_of_nearest (le_abs_roundHalfEven_scaled hq hlt') h
      omega
  · -- The significand was rounded up to the next power of two.
    have hlast : 53 + lastPlace q < 1024 := lastPlace_lt_of_nearest hfull.ge h
    obtain ⟨m, hm, hhalf⟩ : ∃ m : ℤ, |m| < 2 ^ 53 ∧ roundHalfEven (scaled q) = m * 2 := by
      rcases abs_eq (by norm_num) |>.mp hfull with hpos | hneg
      · exact ⟨2 ^ 52, by norm_num, by rw [hpos]; norm_num⟩
      · exact ⟨-2 ^ 52, by norm_num, by rw [hneg]; norm_num⟩
    refine ⟨m, lastPlace q + 1, ?_, hm, by omega, by omega⟩
    rw [nearest, hhalf, zpow_add_one₀ (by norm_num)]
    push_cast
    ring

/-- Rounding to nearest; what rounds to `2 ^ 1024` or beyond overflows. -/
def ofRat (q : ℚ) : Binary64 :=
  if h : |nearest q| < 2 ^ (1024 : ℤ) then .finite ⟨nearest q, representable_nearest h⟩
  else .infinite (decide (q < 0))

theorem lastPlace_le {m e : ℤ} (hm : m ≠ 0) (hlt : |m| < 2 ^ 53) (he : -1074 ≤ e) :
    lastPlace (m * 2 ^ e) ≤ e := by
  have hpos : (0 : ℚ) < |(m : ℚ) * 2 ^ e| :=
    abs_pos.mpr (mul_ne_zero (by exact_mod_cast hm) (two_zpow_pos e).ne')
  have hlt' : |(m : ℚ) * 2 ^ e| < 2 ^ (53 + e) := by
    rw [abs_mul, abs_of_pos (two_zpow_pos e), zpow_add₀ (by norm_num)]
    refine mul_lt_mul_of_pos_right ?_ (two_zpow_pos e)
    exact_mod_cast hlt
  have hlog : Int.log 2 |(m : ℚ) * 2 ^ e| < 53 + e := by
    rw [← Int.lt_zpow_iff_log_lt (by norm_num) hpos]
    exact_mod_cast hlt'
  unfold lastPlace
  omega

theorem nearest_of_representable {q : ℚ} (h : Representable q) : nearest q = q := by
  obtain ⟨m, e, rfl, hm, he, -⟩ := h
  by_cases hzero : m = 0
  · simp [hzero, nearest_zero]
  have hplace := lastPlace_le hzero hm he
  have hscaled : scaled (m * 2 ^ e) =
      ((m * 2 ^ (e - lastPlace (m * 2 ^ e)).toNat : ℤ) : ℚ) := by
    rw [scaled, mul_div_assoc, ← zpow_sub₀ (by norm_num)]
    push_cast
    rw [← zpow_natCast, Int.toNat_of_nonneg (by omega)]
  rw [nearest, hscaled, roundHalfEven_intCast, ← hscaled, scaled_mul]

theorem abs_lt_of_representable {q : ℚ} (h : Representable q) : |q| < 2 ^ (1024 : ℤ) := by
  obtain ⟨m, e, rfl, hm, -, he⟩ := h
  calc |(m : ℚ) * 2 ^ e| = |(m : ℚ)| * 2 ^ e := by rw [abs_mul, abs_of_pos (two_zpow_pos e)]
    _ < 2 ^ (53 : ℤ) * 2 ^ e := by
        refine mul_lt_mul_of_pos_right ?_ (two_zpow_pos e)
        exact_mod_cast hm
    _ = 2 ^ (53 + e) := (zpow_add₀ (by norm_num) _ _).symm
    _ ≤ 2 ^ (1024 : ℤ) := zpow_le_zpow_right₀ (by norm_num) (by omega)

theorem ofRat_of_representable {q : ℚ} (h : Representable q) : ofRat q = .finite ⟨q, h⟩ := by
  have hnearest := nearest_of_representable h
  have hlt : |nearest q| < 2 ^ (1024 : ℤ) := by rw [hnearest]; exact abs_lt_of_representable h
  rw [ofRat, dif_pos hlt]
  congr 1
  exact Subtype.ext hnearest

theorem ofRat_ne_nan (q : ℚ) : ofRat q ≠ .nan := by
  unfold ofRat
  split <;> simp

def isFinite : Binary64 → Bool
  | .finite _ => true
  | _ => false

theorem representable_neg {q : ℚ} (h : Representable q) : Representable (-q) := by
  obtain ⟨m, e, rfl, hm, he⟩ := h
  exact ⟨-m, e, by push_cast; ring, by rwa [abs_neg], he⟩

def neg : Binary64 → Binary64
  | .finite q => .finite ⟨-q.1, representable_neg q.2⟩
  | .infinite negative => .infinite (!negative)
  | .nan => .nan

def add : Binary64 → Binary64 → Binary64
  | .nan, _ | _, .nan => .nan
  | .finite a, .finite b => ofRat (a.1 + b.1)
  | .infinite a, .infinite b => if a = b then .infinite a else .nan
  | .infinite a, .finite _ => .infinite a
  | .finite _, .infinite b => .infinite b

def sub (x y : Binary64) : Binary64 := x.add y.neg

def mul : Binary64 → Binary64 → Binary64
  | .nan, _ | _, .nan => .nan
  | .finite a, .finite b => ofRat (a.1 * b.1)
  | .infinite a, .infinite b => .infinite (a ^^ b)
  | .infinite a, .finite b => if b.1 = 0 then .nan else .infinite (a ^^ decide (b.1 < 0))
  | .finite a, .infinite b => if a.1 = 0 then .nan else .infinite (decide (a.1 < 0) ^^ b)

def divBy (x : Binary64) (d : ℚ) : Binary64 :=
  match x with
  | .finite a => ofRat (a.1 / d)
  | x => x

theorem neg_eq_nan_iff {x : Binary64} : x.neg = .nan ↔ x = .nan := by
  cases x <;> simp [neg]

theorem representable_one : Representable 1 := ⟨1, 0, by norm_num⟩

theorem representable_mul_two_pow {q : ℚ} (h : Representable q) (n : ℕ)
    (hlt : |q * 2 ^ n| < 2 ^ (1024 : ℤ)) : Representable (q * 2 ^ n) := by
  obtain ⟨m, e, rfl, hm, he, -⟩ := h
  have hexp : (m : ℚ) * 2 ^ e * 2 ^ n = m * 2 ^ (e + n) := by
    rw [zpow_add₀ (by norm_num), zpow_natCast, mul_assoc]
  rw [hexp] at hlt ⊢
  by_cases hsmall : e + n ≤ 971
  · exact ⟨m, e + n, rfl, hm, by omega, hsmall⟩
  · -- The excess of the exponent goes into the significand.
    obtain ⟨k, hk⟩ : ∃ k : ℕ, e + n = k + 971 := ⟨(e + n - 971).toNat, by omega⟩
    refine ⟨m * 2 ^ k, 971, ?_, ?_, by omega, le_rfl⟩
    · rw [hk, zpow_add₀ (by norm_num), zpow_natCast, Int.cast_mul, Int.cast_pow, Int.cast_ofNat,
        mul_assoc]
    · rw [hk, abs_mul, abs_of_pos (two_zpow_pos _), zpow_add₀ (by norm_num), zpow_natCast,
        ← mul_assoc] at hlt
      have hsplit : (2 : ℚ) ^ (1024 : ℤ) = 2 ^ 53 * 2 ^ (971 : ℤ) := by
        rw [← zpow_natCast, ← zpow_add₀ (by norm_num)]
        exact congrArg (fun e : ℤ => (2 : ℚ) ^ e) (by norm_num)
      rw [hsplit] at hlt
      have hlt' := lt_of_mul_lt_mul_right hlt (two_zpow_pos 971).le
      rw [abs_mul, abs_of_pos (by positivity : (0 : ℤ) < 2 ^ k)]
      exact_mod_cast hlt'

theorem representable_two_pow {n : ℕ} (h : n < 1024) : Representable (2 ^ n) := by
  rw [← one_mul ((2 : ℚ) ^ n)]
  refine representable_mul_two_pow representable_one n ?_
  rw [one_mul, abs_of_pos (by positivity), ← zpow_natCast]
  exact zpow_lt_zpow_right₀ (by norm_num) (by omega)

theorem mul_two_pow {q : { q : ℚ // Representable q }} {n : ℕ} (hn : n < 1024)
    (hlt : |q.1 * 2 ^ n| < 2 ^ (1024 : ℤ)) :
    mul (.finite q) (ofRat (2 ^ n)) =
      .finite ⟨q.1 * 2 ^ n, representable_mul_two_pow q.2 n hlt⟩ := by
  rw [ofRat_of_representable (representable_two_pow hn)]
  exact ofRat_of_representable _

def NonNeg : Binary64 → Prop
  | .finite q => 0 ≤ q.1
  | .infinite negative => negative = false
  | .nan => False

/-- A number that is negative infinity or at most `2 ^ k`. -/
def AtMost (k : ℕ) : Binary64 → Prop
  | .finite q => q.1 ≤ 2 ^ k
  | .infinite negative => negative = true
  | .nan => False

theorem AtMost.ne_nan {k : ℕ} {x : Binary64} (h : x.AtMost k) : x ≠ .nan := by
  rintro rfl
  exact h

theorem nearest_nonneg {q : ℚ} (h : 0 ≤ q) : 0 ≤ nearest q := by
  have hscaled : ((0 : ℤ) : ℚ) ≤ scaled q := by
    rw [Int.cast_zero]
    exact div_nonneg h (two_zpow_pos _).le
  exact mul_nonneg (by exact_mod_cast le_roundHalfEven hscaled) (two_zpow_pos _).le

theorem nearest_nonpos {q : ℚ} (h : q ≤ 0) : nearest q ≤ 0 := by
  have hscaled : scaled q ≤ ((0 : ℤ) : ℚ) := by
    rw [Int.cast_zero]
    exact div_nonpos_of_nonpos_of_nonneg h (two_zpow_pos _).le
  exact mul_nonpos_of_nonpos_of_nonneg (by exact_mod_cast roundHalfEven_le hscaled)
    (two_zpow_pos _).le

theorem nearest_le {q : ℚ} {k : ℕ} (hpos : 0 < q) (h : q ≤ 2 ^ k) : nearest q ≤ 2 ^ (k + 1) := by
  have hlog : Int.log 2 |q| < k + 1 := by
    rw [abs_of_pos hpos, ← Int.lt_zpow_iff_log_lt (by norm_num) hpos]
    calc q ≤ 2 ^ k := h
      _ < 2 ^ (k + 1) := by gcongr <;> norm_num
      _ = ((2 : ℕ) : ℚ) ^ (k + 1 : ℤ) := by norm_cast
  have hplace : 53 + lastPlace q ≤ k + 1 := by
    unfold lastPlace
    omega
  calc nearest q ≤ 2 ^ (53 : ℤ) * 2 ^ lastPlace q := by
        refine mul_le_mul_of_nonneg_right ?_ (two_zpow_pos _).le
        exact_mod_cast (le_abs_self _).trans (abs_roundHalfEven_scaled_le q)
    _ = 2 ^ (53 + lastPlace q) := (zpow_add₀ (by norm_num) _ _).symm
    _ ≤ 2 ^ ((k + 1 : ℕ) : ℤ) := zpow_le_zpow_right₀ (by norm_num) (by push_cast; exact hplace)
    _ = 2 ^ (k + 1) := zpow_natCast _ _

theorem nonNeg_ofRat {q : ℚ} (h : 0 ≤ q) : (ofRat q).NonNeg := by
  unfold ofRat
  split
  · exact nearest_nonneg h
  · exact decide_eq_false h.not_gt

theorem atMost_ofRat {q : ℚ} {k : ℕ} (hk : k < 1000) (h : q ≤ 2 ^ k) : (ofRat q).AtMost (k + 1) := by
  rcases le_or_gt q 0 with hneg | hpos
  · unfold ofRat
    split
    · exact (nearest_nonpos hneg).trans (by positivity)
    · next hover =>
      refine decide_eq_true (lt_of_le_of_ne hneg fun hzero => hover ?_)
      rw [hzero, nearest_zero, abs_zero]
      exact two_zpow_pos _
  · have hle := nearest_le hpos h
    have hlt : |nearest q| < 2 ^ (1024 : ℤ) := by
      rw [abs_of_nonneg (nearest_nonneg hpos.le)]
      refine hle.trans_lt ?_
      rw [← zpow_natCast]
      exact zpow_lt_zpow_right₀ (by norm_num) (by omega)
    rw [ofRat, dif_pos hlt]
    exact hle

theorem AtMost.sub {k : ℕ} {x y : Binary64} (hk : k < 1000) (hx : x.AtMost k) (hy : y.NonNeg) :
    (x.sub y).AtMost (k + 1) := by
  rcases x with a | a | _ <;> rcases y with b | b | _
  · refine atMost_ofRat hk ?_
    have hb : 0 ≤ b.1 := hy
    have ha : a.1 ≤ 2 ^ k := hx
    change a.1 + -b.1 ≤ 2 ^ k
    linarith
  · obtain rfl : b = false := hy
    exact (rfl : (!false) = true)
  · exact hy.elim
  · exact hx
  · obtain rfl : a = true := hx
    obtain rfl : b = false := hy
    exact (rfl : true = true)
  · exact hy.elim
  · exact hx.elim
  · exact hx.elim
  · exact hx.elim

theorem AtMost.add {k : ℕ} {x : Binary64} {b : { q : ℚ // Representable q }} (hk : k < 999)
    (hx : x.AtMost k) (hb : b.1 ≤ 2 ^ k) : (x.add (.finite b)).AtMost (k + 2) := by
  rcases x with a | a | _
  · refine atMost_ofRat (by omega) ?_
    have ha : a.1 ≤ 2 ^ k := hx
    rw [pow_succ]
    linarith
  · exact hx
  · exact hx.elim

def level : Binary64 → ℤ ×ₗ ℚ
  | .infinite true => toLex (-1, 0)
  | .finite q => toLex (0, q.1)
  | .infinite false => toLex (1, 0)
  | .nan => toLex (2, 0)

theorem level_injective : Function.Injective level := by
  intro x y h
  rcases x with x | (_ | _) | _ <;> rcases y with y | (_ | _) | _ <;>
    simp_all [level, Subtype.ext_iff]

/-- `x == y`. -/
def eq (x y : Binary64) : Bool := x ≠ .nan && x == y

/-- `x < y`, false when one of them is NaN. -/
def lt (x y : Binary64) : Bool := x ≠ .nan && y ≠ .nan && decide (x.level < y.level)

theorem lt_nan (x : Binary64) : x.lt .nan = false := by simp [lt]

theorem nan_lt (x : Binary64) : Binary64.nan.lt x = false := by simp [lt]

theorem nan_eq (x : Binary64) : Binary64.nan.eq x = false := by simp [eq]

theorem lt_iff {x y : Binary64} (hx : x ≠ .nan) (hy : y ≠ .nan) :
    x.lt y = true ↔ x.level < y.level := by
  simp [lt, hx, hy]

theorem eq_iff {x y : Binary64} (hx : x ≠ .nan) : x.eq y = true ↔ x = y := by
  simp [eq, hx]

theorem lt_finite {a b : { q : ℚ // Representable q }} :
    (finite a).lt (finite b) = true ↔ a.1 < b.1 := by
  rw [lt_iff (by simp) (by simp)]
  simp [level, Prod.Lex.lt_iff]

def value : Binary64 → ℚ
  | .finite q => q.1
  | _ => 0

/-- `x` is `q` itself. -/
def Exactly (x : Binary64) (q : ℚ) : Prop := ∃ h : Representable q, x = .finite ⟨q, h⟩

section Exactly
variable {x y : Binary64} {a b : ℚ}

theorem exactly_ofRat (h : Representable a) : (ofRat a).Exactly a := ⟨h, ofRat_of_representable h⟩

theorem Exactly.value (h : x.Exactly a) : x.value = a := by
  obtain ⟨_, rfl⟩ := h
  rfl

theorem exactly_value (h : ∃ q, x = .finite q ∧ 0 ≤ q.1) : x.Exactly x.value := by
  obtain ⟨q, rfl, -⟩ := h
  exact ⟨q.2, rfl⟩

theorem Exactly.add (hx : x.Exactly a) (hy : y.Exactly b) (h : Representable (a + b)) :
    (x.add y).Exactly (a + b) := by
  obtain ⟨_, rfl⟩ := hx
  obtain ⟨_, rfl⟩ := hy
  exact exactly_ofRat h

theorem Exactly.sub (hx : x.Exactly a) (hy : y.Exactly b) (h : Representable (a - b)) :
    (x.sub y).Exactly (a - b) := by
  obtain ⟨_, rfl⟩ := hx
  obtain ⟨_, rfl⟩ := hy
  rw [sub_eq_add_neg] at h ⊢
  exact exactly_ofRat h

theorem Exactly.mul (hx : x.Exactly a) (hy : y.Exactly b) (h : Representable (a * b)) :
    (x.mul y).Exactly (a * b) := by
  obtain ⟨_, rfl⟩ := hx
  obtain ⟨_, rfl⟩ := hy
  exact exactly_ofRat h

theorem Exactly.divBy (hx : x.Exactly a) (h : Representable (a / b)) :
    (x.divBy b).Exactly (a / b) := by
  obtain ⟨_, rfl⟩ := hx
  exact exactly_ofRat h

end Exactly

end Binary64
