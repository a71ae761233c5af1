import Pitwall.Library.FloatingRounding
set_option autoImplicit false

/-!
The order of the binary64 numbers with the infinities, and what rounding and arithmetic keep of it.
-/

namespace Binary64
open FloatingRounding

theorem nearest_eq_roundTo (q : ℚ) : nearest q = roundTo 2 (-1074) 52 q := by
  unfold nearest scaled roundTo lastPlace place
  norm_num

theorem nearest_mono {x y : ℚ} (h : x ≤ y) : nearest x ≤ nearest y := by
  rw [nearest_eq_roundTo, nearest_eq_roundTo]
  exact roundTo_mono (by norm_num) h

theorem nearest_zpow {e : ℤ} (h : -1074 ≤ e) : nearest (2 ^ e) = 2 ^ e := by
  have hpow : roundTo 2 (-1074) 52 (((2 : ℕ) : ℚ) ^ e) = ((2 : ℕ) : ℚ) ^ e :=
    roundTo_zpow (by norm_num) h
  rwa [Nat.cast_ofNat, ← nearest_eq_roundTo] at hpow

/-- `x <= y`, false when one of them is NaN. -/
def le (x y : Binary64) : Bool := x.lt y || x.eq y

theorem le_iff {x y : Binary64} (hx : x ≠ .nan) (hy : y ≠ .nan) :
    x.le y = true ↔ x.level ≤ y.level := by
  rw [le, Bool.or_eq_true, lt_iff hx hy, eq_iff hx, le_iff_lt_or_eq, level_injective.eq_iff]

theorem ofRat_of_lt {q : ℚ} (h : |nearest q| < 2 ^ (1024 : ℤ)) :
    (ofRat q).level = toLex (0, nearest q) := by
  rw [ofRat, dif_pos h]
  rfl

theorem ofRat_of_ge {q : ℚ} (h : ¬|nearest q| < 2 ^ (1024 : ℤ)) :
    (ofRat q).level = toLex (if q < 0 then -1 else 1, 0) := by
  rw [ofRat, dif_neg h]
  by_cases hneg : q < 0 <;> simp [hneg, level]

theorem ofRat_eq_finite_iff {q : ℚ} {v : { q : ℚ // Representable q }} :
    ofRat q = .finite v ↔ |nearest q| < 2 ^ (1024 : ℤ) ∧ nearest q = v.1 := by
  by_cases h : |nearest q| < 2 ^ (1024 : ℤ)
  · rw [ofRat, dif_pos h, finite.injEq, Subtype.ext_iff]
    exact (and_iff_right h).symm
  · rw [ofRat, dif_neg h]
    exact iff_of_false (by simp) fun hv => h hv.1

theorem level_ofRat_mono {x y : ℚ} (h : x ≤ y) : (ofRat x).level ≤ (ofRat y).level := by
  have hnearest := nearest_mono h
  by_cases hx : |nearest x| < 2 ^ (1024 : ℤ) <;> by_cases hy : |nearest y| < 2 ^ (1024 : ℤ)
  · rw [ofRat_of_lt hx, ofRat_of_lt hy, Prod.Lex.toLex_le_toLex]
    exact .inr ⟨rfl, hnearest⟩
  · -- A number that overflows below is below a finite one.
    have hpos : ¬y < 0 := by
      intro hneg
      rw [abs_of_nonpos (nearest_nonpos hneg.le), not_lt] at hy
      have := neg_abs_le (nearest x)
      linarith
    rw [ofRat_of_lt hx, ofRat_of_ge hy, if_neg hpos, Prod.Lex.toLex_le_toLex]
    exact .inl (by norm_num)
  · have hneg : x < 0 := by
      by_contra hpos
      rw [abs_of_nonneg (nearest_nonneg (not_lt.mp hpos)), not_lt] at hx
      have := le_abs_self (nearest y)
      linarith
    rw [ofRat_of_ge hx, ofRat_of_lt hy, if_pos hneg, Prod.Lex.toLex_le_toLex]
    exact .inl (by norm_num)
  · rw [ofRat_of_ge hx, ofRat_of_ge hy, Prod.Lex.toLex_le_toLex]
    by_cases hneg : y < 0
    · rw [if_pos hneg, if_pos (h.trans_lt hneg)]
      exact .inr ⟨rfl, le_rfl⟩
    · rw [if_neg hneg]
      by_cases hneg' : x < 0
      · rw [if_pos hneg']
        exact .inl (by norm_num)
      · rw [if_neg hneg']
        exact .inr ⟨rfl, le_rfl⟩

theorem level_lt_nan {x : Binary64} (h : x ≠ .nan) : x.level < Binary64.nan.level := by
  rcases x with x | (_ | _) | _
  · simp [level, Prod.Lex.toLex_lt_toLex]
  · simp [level, Prod.Lex.toLex_lt_toLex]
  · simp [level, Prod.Lex.toLex_lt_toLex]
  · exact absurd rfl h

theorem level_le_infinite {x : Binary64} (h : x ≠ .nan) :
    x.level ≤ (Binary64.infinite false).level := by
  rcases x with x | (_ | _) | _
  · simp [level, Prod.Lex.toLex_le_toLex]
  · exact le_rfl
  · simp [level, Prod.Lex.toLex_le_toLex]
  · exact absurd rfl h

theorem infinite_le_level (x : Binary64) : (Binary64.infinite true).level ≤ x.level := by
  rcases x with x | (_ | _) | _ <;> simp [level, Prod.Lex.toLex_le_toLex]

theorem level_divBy_mono {x y : Binary64} {d : ℚ} (hd : 0 ≤ d) (h : x.level ≤ y.level) :
    (x.divBy d).level ≤ (y.divBy d).level := by
  rcases x with a | (_ | _) | _
  · rcases y with b | (_ | _) | _
    · have hle : a.1 ≤ b.1 := by simpa [level, Prod.Lex.toLex_le_toLex] using h
      exact level_ofRat_mono (div_le_div_of_nonneg_right hle hd)
    · exact level_le_infinite (ofRat_ne_nan _)
    · simp [level, Prod.Lex.toLex_le_toLex] at h
    · exact (level_lt_nan (ofRat_ne_nan _)).le
  · rcases y with b | (_ | _) | _
    · simp [level, Prod.Lex.toLex_le_toLex] at h
    · exact h
    · exact h
    · exact h
  · exact infinite_le_level _
  · rcases y with b | (_ | _) | _
    · simp [level, Prod.Lex.toLex_le_toLex] at h
    · exact h
    · exact h
    · exact h

theorem level_finite_le {a b : { q : ℚ // Representable q }} :
    (finite a).level ≤ (finite b).level ↔ a.1 ≤ b.1 := by
  simp [level, Prod.Lex.toLex_le_toLex]

theorem level_le_nan (x : Binary64) : x.level ≤ Binary64.nan.level := by
  by_cases hx : x = .nan
  · rw [hx]
  · exact (level_lt_nan hx).le

theorem level_neg_anti {x y : Binary64} (hy : y ≠ .nan) (h : x.level ≤ y.level) :
    y.neg.level ≤ x.neg.level := by
  rcases y with b | (_ | _) | _
  · rcases x with a | (_ | _) | _
    · exact level_finite_le.mpr (neg_le_neg (level_finite_le.mp h))
    · simp [level, Prod.Lex.toLex_le_toLex] at h
    · exact level_le_infinite (by simp [neg])
    · simp [level, Prod.Lex.toLex_le_toLex] at h
  · exact infinite_le_level _
  · rcases x with a | (_ | _) | _
    · simp [level, Prod.Lex.toLex_le_toLex] at h
    · simp [level, Prod.Lex.toLex_le_toLex] at h
    · exact le_rfl
    · simp [level, Prod.Lex.toLex_le_toLex] at h
  · exact absurd rfl hy

theorem level_add_mono {x y z : Binary64} (hx : x.add z ≠ .nan) (h : x.level ≤ y.level) :
    (x.add z).level ≤ (y.add z).level := by
  rcases y with b | (_ | _) | _
  · rcases x with a | (_ | _) | _
    · rcases z with c | negative | _
      · exact level_ofRat_mono (add_le_add_left (level_finite_le.mp h) c.1)
      · exact le_rfl
      · exact le_rfl
    · simp [level, Prod.Lex.toLex_le_toLex] at h
    · rcases z with c | (_ | _) | _
      · exact infinite_le_level _
      · exact absurd rfl hx
      · exact le_rfl
      · exact absurd rfl hx
    · simp [level, Prod.Lex.toLex_le_toLex] at h
  · rcases z with c | (_ | _) | _
    · exact level_le_infinite hx
    · exact level_le_infinite hx
    · exact level_le_nan _
    · exact level_le_nan _
  · rcases x with a | (_ | _) | _
    · simp [level, Prod.Lex.toLex_le_toLex] at h
    · simp [level, Prod.Lex.toLex_le_toLex] at h
    · exact le_rfl
    · simp [level, Prod.Lex.toLex_le_toLex] at h
  · exact level_le_nan _

theorem add_swap (x y : Binary64) : x.add y = y.add x := by
  rcases x with a | s | _
  · rcases y with b | s | _
    · exact congrArg ofRat (add_comm a.1 b.1)
    · rfl
    · rfl
  · rcases y with b | t | _
    · rfl
    · by_cases hst : s = t
      · rw [hst]
      · simp [add, hst, Ne.symm hst]
    · rfl
  · rcases y with b | s | _
    · rfl
    · rfl
    · rfl

theorem level_sub_anti {x y z : Binary64} (hx : z.sub y ≠ .nan) (h : x.level ≤ y.level) :
    (z.sub y).level ≤ (z.sub x).level := by
  have hy : y ≠ .nan := by
    rintro rfl
    rcases z with c | s | _
    · exact hx rfl
    · exact hx rfl
    · exact hx rfl
  unfold sub at hx ⊢
  rw [add_swap] at hx
  rw [add_swap z y.neg, add_swap z x.neg]
  exact level_add_mono hx (level_neg_anti hy h)

section Transitive
variable {x y z : Binary64}

theorem ne_nan_of_level_le (h : x.level ≤ y.level) (hy : y ≠ .nan) : x ≠ .nan := by
  rintro rfl
  exact absurd (h.trans_lt (level_lt_nan hy)) (lt_irrefl _)

theorem ne_nan_of_lt (h : x.lt y = true) : x ≠ .nan ∧ y ≠ .nan := by
  simp only [lt, Bool.and_eq_true, decide_eq_true_eq] at h
  exact h.1

theorem lt_of_level_le_of_lt (h : x.level ≤ y.level) (hyz : y.lt z = true) : x.lt z = true := by
  obtain ⟨hy, hz⟩ := ne_nan_of_lt hyz
  rw [lt_iff (ne_nan_of_level_le h hy) hz]
  exact h.trans_lt ((lt_iff hy hz).mp hyz)

theorem lt_of_lt_of_level_le (hzx : z.lt x = true) (h : x.level ≤ y.level) (hy : y ≠ .nan) :
    z.lt y = true := by
  obtain ⟨hz, hx⟩ := ne_nan_of_lt hzx
  rw [lt_iff hz hy]
  exact ((lt_iff hz hx).mp hzx).trans_le h

theorem ne_nan_of_le (h : x.le y = true) : x ≠ .nan ∧ y ≠ .nan := by
  rw [le, Bool.or_eq_true] at h
  rcases h with h | h
  · exact ne_nan_of_lt h
  · simp only [eq, Bool.and_eq_true, decide_eq_true_eq, beq_iff_eq] at h
    exact ⟨h.1, h.2 ▸ h.1⟩

theorem le_of_level_le_of_le (h : x.level ≤ y.level) (hyz : y.le z = true) : x.le z = true := by
  obtain ⟨hy, hz⟩ := ne_nan_of_le hyz
  rw [le_iff (ne_nan_of_level_le h hy) hz]
  exact h.trans ((le_iff hy hz).mp hyz)

theorem not_lt_of_level_le (h : y.level ≤ x.level) : ¬x.lt y = true := by
  intro hlt
  obtain ⟨hx, hy⟩ := ne_nan_of_lt hlt
  exact absurd ((lt_iff hx hy).mp hlt) (not_lt.mpr h)

theorem le_of_le_of_level_le (hzx : z.le x = true) (h : x.level ≤ y.level) (hy : y ≠ .nan) :
    z.le y = true := by
  obtain ⟨hz, hx⟩ := ne_nan_of_le hzx
  rw [le_iff hz hy]
  exact ((le_iff hz hx).mp hzx).trans h

end Transitive

theorem ofRat_le_ofRat {a b : ℚ} (h : a ≤ b) : (ofRat a).le (ofRat b) = true :=
  (le_iff (ofRat_ne_nan a) (ofRat_ne_nan b)).mpr (level_ofRat_mono h)

theorem ofRat_lt_ofRat_eq_false {a b : ℚ} (h : b ≤ a) : (ofRat a).lt (ofRat b) = false :=
  Bool.eq_false_iff.mpr (not_lt_of_level_le (level_ofRat_mono h))

theorem mul_lt_mul_eq_false {x y : Binary64} {c : { q : ℚ // Representable q }} (hc : 0 ≤ c.1)
    (h : y.level ≤ x.level) : (x.mul (.finite c)).lt (y.mul (.finite c)) = false := by
  have hnegative : ¬ c.1 < 0 := not_lt.mpr hc
  have hlow : ∀ z : Binary64, z.lt ((Binary64.infinite true).mul (.finite c)) = false := by
    intro z
    by_cases hzero : c.1 = 0
    · simp [mul, hzero, lt_nan]
    · have hmul : (Binary64.infinite true).mul (.finite c) = .infinite true := by
        simp [mul, hzero, hnegative]
      rw [hmul, Bool.eq_false_iff]
      exact not_lt_of_level_le (infinite_le_level z)
  rcases x with a | (_ | _) | _
  · rcases y with b | (_ | _) | _
    · exact ofRat_lt_ofRat_eq_false (mul_le_mul_of_nonneg_right (level_finite_le.mp h) hc)
    · simp [level, Prod.Lex.toLex_le_toLex] at h
    · exact hlow _
    · simp [level, Prod.Lex.toLex_le_toLex] at h
  · by_cases hzero : c.1 = 0
    · simp [mul, hzero, nan_lt]
    · have hmul : (Binary64.infinite false).mul (.finite c) = .infinite false := by
        simp [mul, hzero, hnegative]
      rw [hmul, Bool.eq_false_iff]
      intro hlt
      exact not_lt_of_level_le (level_le_infinite (ne_nan_of_lt hlt).2) hlt
  · rcases y with b | (_ | _) | _
    · simp [level, Prod.Lex.toLex_le_toLex] at h
    · simp [level, Prod.Lex.toLex_le_toLex] at h
    · exact hlow _
    · simp [level, Prod.Lex.toLex_le_toLex] at h
  · exact nan_lt _

def div : Binary64 → Binary64 → Binary64
  | .nan, _ | _, .nan => .nan
  | .finite a, .finite b => ofRat (a.1 / b.1)
  | .infinite a, .finite b => .infinite (a ^^ decide (b.1 < 0))
  | .finite _, .infinite _ => ofRat 0
  | .infinite _, .infinite _ => .nan

theorem div_finite_pos {x : Binary64} {d : { q : ℚ // Representable q }} (hd : 0 < d.1) :
    x.div (.finite d) = x.divBy d.1 := by
  have hsign : decide (d.1 < 0) = false := decide_eq_false (not_lt.mpr hd.le)
  rcases x with a | s | _
  · rfl
  · simp [div, divBy, hsign]
  · rfl

theorem representable_zero : Representable 0 := ⟨0, 0, by norm_num⟩

theorem ofRat_zero_eq : ofRat 0 = .finite ⟨0, representable_zero⟩ :=
  ofRat_of_representable representable_zero

theorem ofRat_one_eq : ofRat 1 = .finite ⟨1, representable_one⟩ :=
  ofRat_of_representable representable_one

theorem exists_finite_of_between {a b q : ℚ} (ha : Representable a) (hb : Representable b)
    (hle : a ≤ q) (hge : q ≤ b) : ∃ v, ofRat q = .finite v ∧ a ≤ v.1 ∧ v.1 ≤ b := by
  have hlow : nearest a ≤ nearest q := nearest_mono hle
  have hhigh : nearest q ≤ nearest b := nearest_mono hge
  rw [nearest_of_representable ha] at hlow
  rw [nearest_of_representable hb] at hhigh
  have hsmall : |nearest q| < 2 ^ (1024 : ℤ) := by
    have ha' := abs_lt.mp (abs_lt_of_representable ha)
    have hb' := abs_lt.mp (abs_lt_of_representable hb)
    exact abs_lt.mpr ⟨ha'.1.trans_le hlow, hhigh.trans_lt hb'.2⟩
  exact ⟨⟨nearest q, representable_nearest hsmall⟩, dif_pos hsmall, hlow, hhigh⟩

theorem abs_nearest_sub_le {q : ℚ} {k : ℤ} (hq : |q| < 2 ^ k) (hk : -1021 ≤ k) :
    |nearest q - q| ≤ 2 ^ (k - 54) := by
  rcases eq_or_ne q 0 with rfl | hne
  · rw [nearest_zero, sub_zero, abs_zero]
    exact (two_zpow_pos _).le
  have hlog : Int.log 2 |q| < k := by
    rw [← Int.lt_zpow_iff_log_lt (by norm_num) (abs_pos.mpr hne)]
    exact_mod_cast hq
  have hplace : lastPlace q ≤ k - 53 := by
    unfold lastPlace
    omega
  have hdiff : nearest q - q = (roundHalfEven (scaled q) - scaled q) * 2 ^ lastPlace q := by
    rw [sub_mul, scaled_mul, nearest]
  calc |nearest q - q| = |(roundHalfEven (scaled q) : ℚ) - scaled q| * 2 ^ lastPlace q := by
        rw [hdiff, abs_mul, abs_of_pos (two_zpow_pos _)]
    _ ≤ 1 / 2 * 2 ^ (k - 53) := by
        refine mul_le_mul (abs_roundHalfEven_sub_le _) ?_ (two_zpow_pos _).le (by norm_num)
        exact zpow_le_zpow_right₀ (by norm_num) hplace
    _ = 2 ^ (k - 54) := by
        rw [show k - 53 = k - 54 + 1 by omega, zpow_add_one₀ (by norm_num)]
        ring

theorem exists_least_units {q : ℚ} (h : Representable q) : ∃ n : ℤ, q = n * 2 ^ (-1074 : ℤ) := by
  obtain ⟨m, e, rfl, -, he, -⟩ := h
  have hunits : ∃ n : ℤ, ((2 : ℕ) : ℚ) ^ e / ((2 : ℕ) : ℚ) ^ (-1074 : ℤ) = n :=
    exists_units (by norm_num) he
  rw [Nat.cast_ofNat] at hunits
  obtain ⟨n, hn⟩ := hunits
  refine ⟨m * n, ?_⟩
  rw [Int.cast_mul, ← hn, mul_assoc, div_mul_cancel₀ _ (two_zpow_pos _).ne']

theorem nearest_sub_pos_iff {a b : ℚ} (ha : Representable a) (hb : Representable b) :
    0 < nearest (a - b) ↔ b < a := by
  constructor
  · intro hpos
    by_contra hle
    exact absurd hpos (not_lt.mpr (nearest_nonpos (sub_nonpos.mpr (not_lt.mp hle))))
  · intro hlt
    obtain ⟨m, rfl⟩ := exists_least_units ha
    obtain ⟨n, rfl⟩ := exists_least_units hb
    have hunits : n + 1 ≤ m := by
      have hmul := lt_of_mul_lt_mul_right hlt (two_zpow_pos (-1074)).le
      have hcast : n < m := by exact_mod_cast hmul
      omega
    have hle : (2 : ℚ) ^ (-1074 : ℤ) ≤ m * 2 ^ (-1074 : ℤ) - n * 2 ^ (-1074 : ℤ) := by
      rw [← sub_mul]
      refine le_mul_of_one_le_left (two_zpow_pos _).le ?_
      have hcast : ((n : ℤ) : ℚ) + 1 ≤ m := by exact_mod_cast hunits
      linarith
    calc (0 : ℚ) < 2 ^ (-1074 : ℤ) := two_zpow_pos _
      _ = nearest (2 ^ (-1074 : ℤ)) := (nearest_zpow le_rfl).symm
      _ ≤ _ := nearest_mono hle

theorem zero_lt_ofRat_iff (q : ℚ) : (ofRat 0).lt (ofRat q) = true ↔ 0 < nearest q := by
  have hzero : (ofRat 0).level = toLex (0, 0) := by rw [ofRat_zero_eq]; rfl
  rw [lt_iff (ofRat_ne_nan _) (ofRat_ne_nan _), hzero]
  by_cases hq : |nearest q| < 2 ^ (1024 : ℤ)
  · rw [ofRat_of_lt hq]
    simp [Prod.Lex.toLex_lt_toLex]
  · rw [ofRat_of_ge hq, Prod.Lex.toLex_lt_toLex]
    by_cases hneg : q < 0
    · rw [if_pos hneg]
      exact iff_of_false (by norm_num) (not_lt.mpr (nearest_nonpos hneg.le))
    · rw [if_neg hneg]
      rw [abs_of_nonneg (nearest_nonneg (not_lt.mp hneg)), not_lt] at hq
      exact iff_of_true (by norm_num) ((two_zpow_pos 1024).trans_le hq)

theorem zero_lt_sub_iff {a b : { q : ℚ // Representable q }} :
    (ofRat 0).lt ((finite a).sub (finite b)) = true ↔ (finite b).lt (finite a) = true := by
  have hsub : (finite a).sub (finite b) = ofRat (a.1 - b.1) := by
    rw [sub_eq_add_neg]
    rfl
  rw [hsub, zero_lt_ofRat_iff, nearest_sub_pos_iff a.2 b.2, lt_finite]

end Binary64
