import Mathlib
import Pitwall.Library.Separated
set_option autoImplicit false

/-!
The texts that `int` and `float` read: digits with single underscores between them, a sign, blanks
around, and for a float a point, an exponent, or one of the names of what is not finite.
-/

namespace NumberText

/-- What a character outside of ASCII stands for in a number: a blank or a digit. -/
structure CharTable where
  isSpace : Char → Bool
  decimal : Char → Option (Fin 10)

section Ascii
variable (table : CharTable)

def translate : List Char → List Char
  | [] => []
  | c :: cs =>
      if c.toNat < 127 then c :: translate cs
      else if table.isSpace c then ' ' :: translate cs
      else
        match table.decimal c with
        | some d => Nat.digitChar d :: translate cs
        | none => ['?']

def isAscii (c : Char) : Bool := c.toNat < 128

def toAscii (s : List Char) : List Char := if s.all isAscii then s else translate table s

def isBlank (c : Char) : Bool := (9 ≤ c.toNat && c.toNat ≤ 13) || c.toNat = 32

def trim (s : List Char) : List Char := (s.dropWhile isBlank).rdropWhile isBlank

theorem toAscii_of_ascii {s : List Char} (h : ∀ c ∈ s, isAscii c = true) : toAscii table s = s :=
  if_pos (List.all_eq_true.mpr h)

theorem trim_of_ends {s : List Char} (hhead : ∀ c, s.head? = some c → isBlank c = false)
    (hlast : ∀ c, s.getLast? = some c → isBlank c = false) : trim s = s :=
  List.rdropWhile_dropWhile_of_ends hhead hlast

end Ascii

section Integers
variable (table : CharTable) (limit : Nat)

def digitsOf (s : List Char) : Option (List Char) :=
  if (s.splitOn '_').all fun group => !group.isEmpty && group.all Char.isDigit then
    some (s.filter (· ≠ '_'))
  else none

def natOf (s : List Char) : Option Nat :=
  (digitsOf s).bind fun digits =>
    if digits.length ≤ limit then some (Nat.ofDigitChars 10 digits 0) else none

/-- `int(text)`. -/
def intOf (s : List Char) : Option Int :=
  match trim (toAscii table s) with
  | '+' :: rest => (natOf limit rest).map Int.ofNat
  | '-' :: rest => (natOf limit rest).map fun n => -Int.ofNat n
  | s => (natOf limit s).map Int.ofNat

variable {table limit}

theorem isDigit_ascii {c : Char} (h : c.isDigit = true) : 48 ≤ c.toNat ∧ c.toNat ≤ 57 := by
  simp only [Char.isDigit, Bool.and_eq_true, decide_eq_true_eq, UInt32.le_iff_toNat_le] at h
  exact h

theorem isDigit_not_blank {c : Char} (h : c.isDigit = true) : isBlank c = false := by
  obtain ⟨hlow, hhigh⟩ := isDigit_ascii h
  simp only [isBlank, Bool.or_eq_false_iff, Bool.and_eq_false_iff, decide_eq_false_iff_not]
  omega

theorem ne_of_isDigit {c d : Char} (h : c.isDigit = true) (hd : d.isDigit = false) : c ≠ d := by
  rintro rfl
  rw [h] at hd
  cases hd

theorem natOf_digits {s : List Char} (hne : s ≠ []) (hdigits : ∀ c ∈ s, c.isDigit = true)
    (hlimit : s.length ≤ limit) : natOf limit s = some (Nat.ofDigitChars 10 s 0) := by
  have hmark : '_' ∉ s := fun hmem => by cases hdigits '_' hmem
  have hsplit : s.splitOn '_' = [s] := List.splitOn_eq_singleton hmark
  have hkeep : s.filter (· ≠ '_') = s := List.filter_eq_self.mpr fun c hc =>
    decide_eq_true (ne_of_isDigit (hdigits c hc) (by decide))
  rw [natOf, digitsOf, hsplit, hkeep, if_pos]
  · simp [hlimit]
  · simpa [hne] using hdigits

theorem toDigits_isDigit (n : Nat) : ∀ c ∈ Nat.toDigits 10 n, c.isDigit = true := fun _ hc =>
  Nat.isDigit_of_mem_toDigits (by decide) (by decide) hc

theorem natOf_toDigits {n : Nat} (hlimit : (Nat.toDigits 10 n).length ≤ limit) :
    natOf limit (Nat.toDigits 10 n) = some n := by
  rw [natOf_digits Nat.toDigits_ne_nil (toDigits_isDigit n) hlimit, Nat.ofDigitChars_ten_toDigits]

def intText : Int → List Char
  | .ofNat n => Nat.toDigits 10 n
  | .negSucc n => '-' :: Nat.toDigits 10 (n + 1)

def digitCount (n : Int) : Nat := (Nat.toDigits 10 n.natAbs).length

theorem isAscii_of_isDigit {c : Char} (h : c.isDigit = true) : isAscii c = true := by
  obtain ⟨-, hhigh⟩ := isDigit_ascii h
  exact decide_eq_true (by omega)

theorem intText_ascii (n : Int) : ∀ c ∈ intText n, isAscii c = true := by
  intro c hc
  cases n with
  | ofNat n => exact isAscii_of_isDigit (toDigits_isDigit n c hc)
  | negSucc n =>
    rcases List.mem_cons.mp hc with rfl | hc
    · decide
    · exact isAscii_of_isDigit (toDigits_isDigit (n + 1) c hc)

theorem intText_not_blank (n : Int) : ∀ c ∈ intText n, isBlank c = false := by
  intro c hc
  cases n with
  | ofNat n => exact isDigit_not_blank (toDigits_isDigit n c hc)
  | negSucc n =>
    rcases List.mem_cons.mp hc with rfl | hc
    · decide
    · exact isDigit_not_blank (toDigits_isDigit (n + 1) c hc)

theorem trim_intText (n : Int) : trim (toAscii table (intText n)) = intText n := by
  rw [toAscii_of_ascii table (intText_ascii n)]
  exact trim_of_ends (fun c hc => intText_not_blank n c (List.mem_of_mem_head? hc))
    fun c hc => intText_not_blank n c (List.mem_of_getLast? hc)

theorem intOf_intText {n : Int} (hlimit : digitCount n ≤ limit) :
    intOf table limit (intText n) = some n := by
  rw [intOf, trim_intText]
  cases n with
  | ofNat n =>
    have hread : natOf limit (Nat.toDigits 10 n) = some n := natOf_toDigits hlimit
    show (match Nat.toDigits 10 n with
      | '+' :: rest => (natOf limit rest).map Int.ofNat
      | '-' :: rest => (natOf limit rest).map fun n => -Int.ofNat n
      | s => (natOf limit s).map Int.ofNat) = some (Int.ofNat n)
    split
    · rename_i rest hrest
      have hplus := toDigits_isDigit n '+' (by rw [hrest]; simp)
      cases hplus
    · rename_i rest hrest
      have hminus := toDigits_isDigit n '-' (by rw [hrest]; simp)
      cases hminus
    · rw [hread]
      rfl
  | negSucc n =>
    have hread : natOf limit (Nat.toDigits 10 (n + 1)) = some (n + 1) := natOf_toDigits hlimit
    show (natOf limit (Nat.toDigits 10 (n + 1))).map (fun n => -Int.ofNat n) = _
    rw [hread]
    rfl

theorem intText_injective : Function.Injective intText := by
  intro m n h
  have hm := @intOf_intText ⟨fun _ => false, fun _ => none⟩ (max (digitCount m) (digitCount n)) m
    (le_max_left _ _)
  have hn := @intOf_intText ⟨fun _ => false, fun _ => none⟩ (max (digitCount m) (digitCount n)) n
    (le_max_right _ _)
  rw [h] at hm
  exact Option.some.inj (hm.symm.trans hn)

theorem natOf_digits_eq_none {s : List Char} (hdigits : ∀ c ∈ s, c.isDigit = true)
    (hlimit : limit < s.length) : natOf limit s = none := by
  have hkeep : s.filter (· ≠ '_') = s := List.filter_eq_self.mpr fun c hc =>
    decide_eq_true (ne_of_isDigit (hdigits c hc) (by decide))
  rw [natOf, digitsOf, hkeep]
  split
  · simp [hlimit]
  · rfl

theorem intOf_toDigits_eq_none {n : Nat} (hlimit : limit < digitCount n) :
    intOf table limit (intText n) = none := by
  have hread : natOf limit (Nat.toDigits 10 n) = none :=
    natOf_digits_eq_none (toDigits_isDigit n) hlimit
  rw [intOf, trim_intText]
  show (match Nat.toDigits 10 n with
    | '+' :: rest => (natOf limit rest).map Int.ofNat
    | '-' :: rest => (natOf limit rest).map fun n => -Int.ofNat n
    | s => (natOf limit s).map Int.ofNat) = none
  split
  · rename_i rest hrest
    have hplus := toDigits_isDigit n '+' (by rw [hrest]; simp)
    cases hplus
  · rename_i rest hrest
    have hminus := toDigits_isDigit n '-' (by rw [hrest]; simp)
    cases hminus
  · rw [hread]
    rfl

theorem digits_of_digitsOf {s digits : List Char} (h : digitsOf s = some digits) :
    ∀ c ∈ digits, c.isDigit = true := by
  intro c hc
  unfold digitsOf at h
  split at h
  · rename_i hgroups
    obtain rfl := Option.some.inj h
    obtain ⟨hmem, hmark⟩ := List.mem_filter.mp hc
    rcases @Separated.mem_splitOn_of_mem _ _ _ '_' _ _ hmem with rfl | ⟨group, hgroup, hc⟩
    · simp at hmark
    · have hall := List.all_eq_true.mp hgroups group hgroup
      rw [Bool.and_eq_true, List.all_eq_true] at hall
      exact hall.2 c hc
  · cases h

theorem ofDigitChars_lt {digits : List Char} (h : ∀ c ∈ digits, c.isDigit = true) :
    Nat.ofDigitChars 10 digits 0 < 10 ^ digits.length := by
  induction digits with
  | nil => decide
  | cons c digits ih =>
    obtain ⟨-, hhigh⟩ := isDigit_ascii (h c (by simp))
    have hrest := ih fun d hd => h d (List.mem_cons_of_mem _ hd)
    have hdigit : c.toNat - '0'.toNat ≤ 9 := by
      have hzero : '0'.toNat = 48 := rfl
      omega
    rw [Nat.ofDigitChars_cons, Nat.ofDigitChars_eq_ofDigitChars_zero, List.length_cons, pow_succ]
    calc 10 ^ digits.length * (10 * 0 + (c.toNat - '0'.toNat)) + Nat.ofDigitChars 10 digits 0
        < 10 ^ digits.length * (10 * 0 + (c.toNat - '0'.toNat)) + 10 ^ digits.length := by omega
      _ = 10 ^ digits.length * (c.toNat - '0'.toNat + 1) := by ring
      _ ≤ 10 ^ digits.length * 10 := Nat.mul_le_mul_left _ (by omega)

theorem natOf_lt {s : List Char} {n : Nat} (h : natOf limit s = some n) : n < 10 ^ limit := by
  obtain ⟨digits, hdigits, h⟩ := Option.bind_eq_some_iff.mp h
  split at h
  · rename_i hle
    obtain rfl := Option.some.inj h
    exact (ofDigitChars_lt (digits_of_digitsOf hdigits)).trans_le
      (Nat.pow_le_pow_right (by decide) hle)
  · cases h

theorem digitCount_of_intOf (hpos : 0 < limit) {s : List Char} {n : Int}
    (h : intOf table limit s = some n) : digitCount n ≤ limit := by
  have hall : ∀ {rest : List Char} {f : Nat → Int}, (∀ m, (f m).natAbs = m) →
      (natOf limit rest).map f = some n → digitCount n ≤ limit := by
    intro rest f hf hread
    obtain ⟨m, hm, rfl⟩ := Option.map_eq_some_iff.mp hread
    rw [digitCount, hf]
    exact (Nat.length_toDigits_le_iff (by decide) hpos).mpr (natOf_lt hm)
  unfold intOf at h
  split at h
  · exact hall (fun m => rfl) h
  · exact hall (fun m => Int.natAbs_neg m) h
  · exact hall (fun m => rfl) h

end Integers

section Floats
variable (table : CharTable)

inductive FloatText where
  | finite (value : ℚ)
  | infinite (negative : Bool)
  | nan
  deriving DecidableEq

/-- The text without its underscores, each of which stands between two digits. `prev` is the
character before. -/
def removeUnderscores (prev : Char) : List Char → Option (List Char)
  | [] => if prev = '_' then none else some []
  | c :: rest =>
      if c = '_' then if prev.isDigit then removeUnderscores c rest else none
      else if prev = '_' ∧ c.isDigit = false then none
      else (removeUnderscores c rest).map (c :: ·)

def splitSign : List Char → Bool × List Char
  | '+' :: rest => (false, rest)
  | '-' :: rest => (true, rest)
  | s => (false, s)

def exponentOf : List Char → Option Int
  | [] => some 0
  | c :: rest =>
      if c = 'e' ∨ c = 'E' then
        let (negative, digits) := splitSign rest
        if digits ≠ [] ∧ (digits.all Char.isDigit) = true then
          let value : Int := Nat.ofDigitChars 10 digits 0
          some (if negative then -value else value)
        else none
      else none

def decimalValueOf (whole fraction : List Char) : ℚ :=
  Nat.ofDigitChars 10 (whole ++ fraction) 0 / 10 ^ fraction.length

def splitFraction : List Char → List Char × List Char
  | '.' :: rest => rest.span Char.isDigit
  | s => ([], s)

def unsignedOf (s : List Char) : Option ℚ :=
  let (whole, rest) := s.span Char.isDigit
  let (fraction, rest) := splitFraction rest
  if whole ++ fraction = [] then none
  else (exponentOf rest).map fun e => decimalValueOf whole fraction * 10 ^ e

def lowerAscii (s : List Char) : List Char := s.map Char.toLower

/-- `float(text)`, before it is rounded. -/
def floatOf (s : List Char) : Option FloatText :=
  (removeUnderscores ' ' (trim (toAscii table s))).bind fun s =>
    let (negative, rest) := splitSign s
    if lowerAscii rest = "inf".toList ∨ lowerAscii rest = "infinity".toList then
      some (.infinite negative)
    else if lowerAscii rest = "nan".toList then some .nan
    else (unsignedOf rest).map fun value => .finite (if negative then -value else value)

theorem toLower_of_lt {c : Char} (h : c.toNat < 65) : c.toLower = c := by
  have hsmall : ¬ 65 ≤ c.val := by
    rw [UInt32.le_iff_toNat_le]
    exact not_le.mpr h
  simp [Char.toLower, hsmall]

theorem toLower_of_gt {c : Char} (h : 90 < c.toNat) : c.toLower = c := by
  have hlarge : ¬ c.val ≤ 90 := by
    rw [UInt32.le_iff_toNat_le]
    exact not_le.mpr h
  simp [Char.toLower, hlarge]

theorem toLower_cases (c : Char) :
    c.toLower = c ∨ 97 ≤ c.toLower.toNat ∧ c.toLower.toNat ≤ 122 := by
  unfold Char.toLower
  split
  · rename_i h
    right
    have hA : 'A'.val.toNat = 65 := rfl
    have hZ : 'Z'.val.toNat = 90 := rfl
    simp only [UInt32.le_iff_toNat_le] at h
    simp only [Char.toNat, UInt32.toNat_add]
    have h32 : ('a'.val - 'A'.val).toNat = 32 := by decide
    omega
  · exact .inl rfl

theorem toLower_toLower (c : Char) : c.toLower.toLower = c.toLower := by
  rcases toLower_cases c with h | h
  · rw [h, h]
  · exact toLower_of_gt (by omega)

structure DecimalLiteral where
  whole : List Char
  fraction : List Char
  point : Bool
  digits : ∀ c ∈ whole ++ fraction, c.isDigit = true
  nonempty : whole ++ fraction ≠ []
  noPoint : point = false → fraction = []

namespace DecimalLiteral
variable (literal : DecimalLiteral)

def text : List Char :=
  literal.whole ++ if literal.point then '.' :: literal.fraction else []

def value : ℚ := decimalValueOf literal.whole literal.fraction

theorem mem_text {c : Char} (h : c ∈ literal.text) : c.isDigit = true ∨ c = '.' := by
  rcases List.mem_append.mp h with hwhole | hrest
  · exact .inl (literal.digits c (by simp [hwhole]))
  · split at hrest
    · rcases List.mem_cons.mp hrest with hpoint | hfraction
      · exact .inr hpoint
      · exact .inl (literal.digits c (by simp [hfraction]))
    · cases hrest

theorem text_ne_nil : literal.text ≠ [] := by
  rcases hpoint : literal.point with _ | _
  · have hne := literal.nonempty
    rw [literal.noPoint hpoint, List.append_nil] at hne
    simp [text, hpoint, hne]
  · simp [text, hpoint]

variable {literal}

theorem span_digits {digits rest : List Char} (hdigits : ∀ c ∈ digits, c.isDigit = true)
    (hrest : ∀ c, rest.head? = some c → c.isDigit = false) :
    (digits ++ rest).span Char.isDigit = (digits, rest) := by
  rw [List.span_eq_takeWhile_dropWhile, List.takeWhile_append_of_pos hdigits,
    List.dropWhile_append_of_pos hdigits]
  cases rest with
  | nil => simp
  | cons c rest => simp [hrest c rfl]

theorem unsignedOf_append {rest : List Char}
    (hrest : ∀ c, rest.head? = some c → c.isDigit = false ∧ c ≠ '.') :
    unsignedOf (literal.text ++ rest) =
      (exponentOf rest).map fun e => literal.value * 10 ^ e := by
  have hwhole : ∀ c ∈ literal.whole, c.isDigit = true := fun c hc =>
    literal.digits c (by simp [hc])
  have hfraction : ∀ c ∈ literal.fraction, c.isDigit = true := fun c hc =>
    literal.digits c (by simp [hc])
  rcases hpoint : literal.point with _ | _
  · have hspan := span_digits hwhole fun c hc => (hrest c hc).1
    have hnone := literal.noPoint hpoint
    have hsplit : splitFraction rest = ([], rest) := by
      cases rest with
      | nil => rfl
      | cons c rest =>
        unfold splitFraction
        split
        · rename_i heq
          exact absurd (List.cons.inj heq).1 (hrest c rfl).2
        · rfl
    have hne := literal.nonempty
    have htext : literal.text ++ rest = literal.whole ++ rest := by simp [text, hpoint]
    rw [hnone] at hne
    rw [unsignedOf, htext, hspan]
    simp only [hsplit]
    rw [if_neg hne, value, hnone]
  · have hspan : (literal.whole ++ '.' :: (literal.fraction ++ rest)).span Char.isDigit =
        (literal.whole, '.' :: (literal.fraction ++ rest)) :=
      span_digits hwhole fun c hc => by
        obtain rfl := Option.some.inj hc
        rfl
    have hspan' := span_digits hfraction fun c hc => (hrest c hc).1
    have htext : literal.text ++ rest = literal.whole ++ '.' :: (literal.fraction ++ rest) := by
      simp [text, hpoint]
    rw [unsignedOf, htext, hspan]
    simp only [splitFraction, hspan']
    rw [if_neg literal.nonempty, value]

theorem removeUnderscores_of_not_mem {s : List Char} {prev : Char} (hprev : prev ≠ '_')
    (h : '_' ∉ s) : removeUnderscores prev s = some s := by
  induction s generalizing prev with
  | nil => simp [removeUnderscores, hprev]
  | cons c rest ih =>
    rw [List.mem_cons, not_or] at h
    obtain ⟨hc, hrest⟩ := h
    simp [removeUnderscores, hprev, Ne.symm hc, ih (Ne.symm hc) hrest]

theorem floatOf_append {rest : List Char} (hascii : ∀ c ∈ rest, isAscii c = true)
    (hmark : '_' ∉ rest) (hlast : ∀ c, rest.getLast? = some c → isBlank c = false)
    (hrest : ∀ c, rest.head? = some c → c.isDigit = false ∧ c ≠ '.') :
    floatOf table (literal.text ++ rest) =
      (exponentOf rest).map fun e => .finite (literal.value * 10 ^ e) := by
  have hascii' : ∀ c ∈ literal.text ++ rest, isAscii c = true := by
    intro c hc
    rcases List.mem_append.mp hc with htext | hrest
    · rcases literal.mem_text htext with hdigit | rfl
      · exact isAscii_of_isDigit hdigit
      · decide
    · exact hascii c hrest
  have hblank : ∀ c ∈ literal.text, isBlank c = false := by
    intro c hc
    rcases literal.mem_text hc with hdigit | rfl
    · exact isDigit_not_blank hdigit
    · decide
  have htrim : trim (toAscii table (literal.text ++ rest)) = literal.text ++ rest := by
    rw [toAscii_of_ascii table hascii']
    refine trim_of_ends (fun c hc => ?_) fun c hc => ?_
    · rw [List.head?_append_of_ne_nil _ literal.text_ne_nil] at hc
      exact hblank c (List.mem_of_mem_head? hc)
    · rcases List.eq_nil_or_concat rest with rfl | ⟨init, last, rfl⟩
      · rw [List.append_nil] at hc
        exact hblank c (List.mem_of_getLast? hc)
      · rw [List.getLast?_append_of_ne_nil _ (by simp)] at hc
        exact hlast c hc
  have hmark' : '_' ∉ literal.text ++ rest := by
    rw [List.mem_append, not_or]
    refine ⟨fun hmem => ?_, hmark⟩
    rcases literal.mem_text hmem with hdigit | heq
    · cases hdigit
    · cases heq
  obtain ⟨c, behind, hcons⟩ : ∃ c behind, literal.text ++ rest = c :: behind :=
    List.exists_cons_of_ne_nil (by simp [literal.text_ne_nil])
  have hc : c.isDigit = true ∨ c = '.' := by
    refine literal.mem_text (List.mem_of_mem_head? ?_)
    have hhead := @List.head?_append_of_ne_nil _ literal.text rest literal.text_ne_nil
    rw [← hhead, hcons]
    rfl
  have hsign : splitSign (literal.text ++ rest) = (false, literal.text ++ rest) := by
    rw [hcons]
    unfold splitSign
    split
    · rename_i heq
      obtain ⟨rfl, -⟩ := List.cons.inj heq
      simp at hc
    · rename_i heq
      obtain ⟨rfl, -⟩ := List.cons.inj heq
      simp at hc
    · rfl
  have hlow : c.toNat ≤ 57 := by
    rcases hc with hdigit | rfl
    · exact (isDigit_ascii hdigit).2
    · decide
  have hname : ∀ first name, 57 < first.toNat →
      lowerAscii (literal.text ++ rest) ≠ first :: name := by
    intro first name hfirst heq
    rw [hcons, lowerAscii, List.map_cons, toLower_of_lt (by omega)] at heq
    rw [← (List.cons.inj heq).1] at hfirst
    omega
  rw [floatOf, htrim, removeUnderscores_of_not_mem (by decide) hmark']
  simp only [Option.bind_some, hsign]
  rw [if_neg, if_neg, unsignedOf_append hrest]
  · simp [Function.comp_def]
  · exact hname 'n' _ (by decide)
  · rw [not_or]
    exact ⟨hname 'i' _ (by decide), hname 'i' _ (by decide)⟩

end DecimalLiteral

end Floats

end NumberText
