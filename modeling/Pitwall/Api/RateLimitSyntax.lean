import Mathlib
import Pitwall.Core.Text
import Pitwall.Library.Binary64Order
import Pitwall.Library.NumberText
import Pitwall.Library.Traversal
import Pitwall.Routing.Values
set_option autoImplicit false

/-!
The inbound rate limit `<requests>/<window>`, and which of its texts are read as they stand.
-/

namespace Pitwall.RateLimitSyntax
open NumberText Pitwall.Routing

/-- `str.lower`, the numbers outside of ASCII, and how many digits `int` takes. -/
structure PyText where
  table : CharTable
  maxDigits : Nat
  lower : List Char → List Char
  lower_ascii : ∀ s, (∀ c ∈ s, isAscii c = true) → lower s = lowerAscii s

def round : FloatText → Binary64
  | .finite q => .ofRat q
  | .infinite negative => .infinite negative
  | .nan => .nan

structure InboundRateLimitConfig where
  requests : Int
  windowS : Binary64
  requests_pos : 0 < requests
  window_above : windowS.le (.ofRat 0) = false

theorem requests_pos_of_not_le {requests : Int} (h : ¬ requests ≤ 0) : 0 < requests := not_le.mp h

theorem above_of_not_le {windowS : Binary64} (h : ¬ windowS.le (.ofRat 0) = true) :
    windowS.le (.ofRat 0) = false := Bool.eq_false_iff.mpr h

/-- `InboundRateLimitConfig(requests=, window_s=)`. -/
def inboundRateLimitConfig (requests : Int) (windowS : Binary64) :
    Except PyError InboundRateLimitConfig :=
  if hr : requests ≤ 0 then .error (valueError "requests must be > 0")
  else if hw : windowS.le (.ofRat 0) = true then .error (valueError "window_s must be > 0")
  else .ok ⟨requests, windowS, requests_pos_of_not_le hr, above_of_not_le hw⟩

def units : List (String × ℚ) :=
  [("seconds", 1), ("second", 1), ("secs", 1), ("sec", 1), ("s", 1),
    ("minutes", 60), ("minute", 60), ("mins", 60), ("min", 60), ("m", 60),
    ("hours", 3600), ("hour", 3600), ("hrs", 3600), ("hr", 3600), ("h", 3600)]

section Parsing
variable (text : PyText)

/-- `int(s)`. -/
def parseInt (s : List Char) : Except PyError Int :=
  match intOf text.table text.maxDigits s with
  | some n => .ok n
  | none => .error (valueError s!"invalid literal for int() with base 10: '{String.ofList s}'")

/-- `float(s)`. -/
def parseFloat (s : List Char) : Except PyError Binary64 :=
  match floatOf text.table s with
  | some x => .ok (round x)
  | none => .error (valueError s!"could not convert string to float: '{String.ofList s}'")

/-- The loop over the units: the text of the number, and the multiplier of the first unit that the
value ends with. One letter alone leaves the loop. -/
def splitWindow (value : List Char) : List Char × Option ℚ :=
  match units.find? fun unit => unit.1.toList.isSuffixOf value with
  | some (suffix, multiplier) =>
      let numeric := stripChars (value.take (value.length - suffix.length))
      if numeric = [] then
        if suffix ∈ ["s", "m", "h"] then (value, none) else (['1'], some multiplier)
      else (numeric, some multiplier)
  | none => (value, none)

/-- `_parse_window_s`. -/
def parseWindowS (rawWindow : List Char) : Except PyError Binary64 :=
  match splitWindow (text.lower (stripChars rawWindow)) with
  | (numeric, some multiplier) => do
      let number ← parseFloat text numeric
      pure (number.mul (.ofRat multiplier))
  | (numeric, none) => parseFloat text numeric

/-- `_parse_inbound_rate_limit`. -/
def parseInboundRateLimit (value : Option String) :
    Except PyError (Option InboundRateLimitConfig) :=
  match value with
  | none => .ok none
  | some value =>
      if stripChars value.toList = [] then .ok none
      else if '/' ∉ value.toList then
        .error (valueError "expected '<requests>/<window>', for example '60/60s'")
      else do
        let requests ← parseInt text (stripChars (value.toList.takeWhile (· ≠ '/')))
        let windowS ← parseWindowS text (value.toList.dropWhile (· ≠ '/')).tail
        let config ← inboundRateLimitConfig requests windowS
        pure (some config)

end Parsing

/-! A number of seconds, minutes or hours, as the table of units names them. -/

/-- `<r>/<n><u>`, with a blank in front of the unit or without one. -/
def rateText (requests : Int) (literal : DecimalLiteral) (spaced : Bool) (unit : String) : String :=
  String.ofList (intText requests ++
    '/' :: (literal.text ++ ((if spaced then [' '] else []) ++ unit.toList)))

/-- The number and its product with the multiplier round to positive finite floats. -/
def InRange (q multiplier : ℚ) : Prop :=
  0 < Binary64.nearest q ∧ Binary64.nearest q < 2 ^ (1024 : ℤ) ∧
    Binary64.nearest (Binary64.nearest q * multiplier) < 2 ^ (1024 : ℤ)

section Units
variable {text : PyText} {literal : DecimalLiteral} {unit : String × ℚ}

theorem unit_letters (hunit : unit ∈ units) : ∀ c ∈ unit.1.toList, c.isLower = true := by
  have hall : (units.all fun unit => unit.1.toList.all Char.isLower) = true := by decide
  exact List.all_eq_true.mp (List.all_eq_true.mp hall unit hunit)

theorem isLower_toNat {c : Char} (h : c.isLower = true) : 97 ≤ c.toNat ∧ c.toNat ≤ 122 := by
  simp only [Char.isLower, Bool.and_eq_true, decide_eq_true_eq, UInt32.le_iff_toNat_le] at h
  exact h

theorem isSpace_of_isLower {c : Char} (h : c.isLower = true) : isSpace c = false := by
  have hletter := isLower_toNat h
  refine Bool.eq_false_iff.mpr fun hblank => ?_
  simp [isSpace] at hblank
  omega

theorem isSpace_of_isDigit {c : Char} (h : c.isDigit = true) : isSpace c = false := by
  obtain ⟨hlow, hhigh⟩ := isDigit_ascii h
  simp [isSpace]
  omega

def front (literal : DecimalLiteral) (spaced : Bool) : List Char :=
  literal.text ++ if spaced then [' '] else []

theorem front_not_letter (spaced : Bool) : ∀ c ∈ front literal spaced, c.isLower = false := by
  intro c hc
  rcases List.mem_append.mp hc with htext | hspace
  · rcases literal.mem_text htext with hdigit | rfl
    · obtain ⟨-, hhigh⟩ := isDigit_ascii hdigit
      refine Bool.eq_false_iff.mpr fun hletter => ?_
      have := isLower_toNat hletter
      omega
    · decide
  · split at hspace
    · rw [List.mem_singleton.mp hspace]
      decide
    · cases hspace

theorem isSuffixOf_front (spaced : Bool) (behind : List Char) (hunit : unit ∈ units) :
    unit.1.toList.isSuffixOf (front literal spaced ++ behind) =
      unit.1.toList.isSuffixOf behind := by
  rw [Bool.eq_iff_iff, List.isSuffixOf_iff_suffix, List.isSuffixOf_iff_suffix]
  refine List.suffix_append_iff_of_marks (front_not_letter spaced) fun c hc => ?_
  simp [unit_letters hunit c hc]

theorem find?_front (spaced : Bool) (behind : List Char) :
    (units.find? fun unit => unit.1.toList.isSuffixOf (front literal spaced ++ behind)) =
      units.find? fun unit => unit.1.toList.isSuffixOf behind :=
  List.find?_congr fun _ hunit => isSuffixOf_front spaced behind hunit

/-- The units that end with the unit `s` of seconds, which is tried before them. -/
def shadowed : List String := ["minutes", "mins", "hours", "hrs"]

theorem find?_each : (∀ unit ∈ units, unit.1 ∉ shadowed →
      (units.find? fun other => other.1.toList.isSuffixOf unit.1.toList) = some unit) ∧
    ∀ name ∈ shadowed,
      (units.find? fun other => other.1.toList.isSuffixOf name.toList) = some ("s", 1) := by
  decide

theorem find?_unit (hunit : unit ∈ units) (h : unit.1 ∉ shadowed) :
    (units.find? fun other => other.1.toList.isSuffixOf unit.1.toList) = some unit :=
  find?_each.1 unit hunit h

theorem find?_shadowed (h : unit.1 ∈ shadowed) :
    (units.find? fun other => other.1.toList.isSuffixOf unit.1.toList) = some ("s", 1) :=
  find?_each.2 unit.1 h

theorem isSpace_of_mem_text {c : Char} (h : c ∈ literal.text) : isSpace c = false := by
  rcases literal.mem_text h with hdigit | rfl
  · exact isSpace_of_isDigit hdigit
  · decide

theorem front_head {spaced : Bool} {behind : List Char} {c : Char}
    (h : (front literal spaced ++ behind).head? = some c) : c ∈ literal.text := by
  rw [front, List.append_assoc, List.head?_append_of_ne_nil _ literal.text_ne_nil] at h
  exact List.mem_of_mem_head? h

theorem stripChars_front (spaced : Bool) : stripChars (front literal spaced) = literal.text := by
  have htext : (literal.text.dropWhile isSpace).rdropWhile isSpace = literal.text :=
    List.rdropWhile_dropWhile_of_ends
      (fun c hc => isSpace_of_mem_text (List.mem_of_mem_head? hc))
      fun c hc => isSpace_of_mem_text (List.mem_of_getLast? hc)
  cases spaced with
  | false => simpa [front, stripChars] using htext
  | true =>
    have hfront : front literal true = literal.text ++ [' '] := rfl
    obtain ⟨c, rest, hcons⟩ := List.exists_cons_of_ne_nil literal.text_ne_nil
    have hhead : isSpace c = false := isSpace_of_mem_text (by rw [hcons]; simp)
    have hkeep : ∀ rest', (c :: rest').dropWhile isSpace = c :: rest' := fun rest' =>
      List.dropWhile_cons_of_neg (by simp [hhead])
    rw [hcons, hkeep] at htext
    have hdrop : (c :: rest ++ [' ']).rdropWhile isSpace = (c :: rest).rdropWhile isSpace := by
      rw [List.rdropWhile_concat, if_pos (by decide)]
    rw [stripChars, hfront, hcons, List.cons_append, hkeep, ← List.cons_append, hdrop, htext]

theorem stripChars_of_letter {spaced : Bool} {behind : List Char} (hne : behind ≠ [])
    (h : ∀ c ∈ behind, c.isLower = true) :
    stripChars (front literal spaced ++ behind) = front literal spaced ++ behind := by
  refine List.rdropWhile_dropWhile_of_ends
    (fun c hc => isSpace_of_mem_text (front_head hc)) fun c hc => ?_
  rw [List.getLast?_append_of_ne_nil _ hne] at hc
  exact isSpace_of_isLower (h c (List.mem_of_getLast? hc))

theorem splitWindow_unit (spaced : Bool) (hunit : unit ∈ units) (h : unit.1 ∉ shadowed) :
    splitWindow (front literal spaced ++ unit.1.toList) = (literal.text, some unit.2) := by
  have htake : (front literal spaced ++ unit.1.toList).take
      ((front literal spaced ++ unit.1.toList).length - unit.1.length) = front literal spaced := by
    rw [List.length_append, String.length_toList, Nat.add_sub_cancel, List.take_left]
  rw [splitWindow, find?_front, find?_unit hunit h]
  simp only [htake, stripChars_front]
  rw [if_neg literal.text_ne_nil]

def cut (name : String) : List Char := name.toList.dropLast

structure IsCut (name : String) : Prop where
  split : name.toList = cut name ++ ['s']
  nonempty : cut name ≠ []
  letters : ∀ c ∈ cut name, c.isLower = true
  head : ∀ c, (cut name).head? = some c → c = 'm' ∨ c = 'h'

theorem isCut (h : unit.1 ∈ shadowed) : IsCut unit.1 := by
  have hall : (shadowed.all fun name => decide (name.toList = cut name ++ ['s']) &&
      !(cut name).isEmpty && (cut name).all Char.isLower &&
      ((cut name).head? == some 'm' || (cut name).head? == some 'h')) = true := by
    decide
  have hone := List.all_eq_true.mp hall unit.1 h
  simp only [Bool.and_eq_true, decide_eq_true_eq, Bool.not_eq_true', List.isEmpty_eq_false_iff,
    List.all_eq_true, Bool.or_eq_true, beq_iff_eq] at hone
  obtain ⟨⟨⟨hsplit, hne⟩, hletters⟩, hhead⟩ := hone
  refine ⟨hsplit, hne, hletters, fun c hc => ?_⟩
  rcases hhead with hm | hh
  · exact .inl (Option.some.inj (hc.symm.trans hm))
  · exact .inr (Option.some.inj (hc.symm.trans hh))

theorem splitWindow_shadowed (spaced : Bool) (h : unit.1 ∈ shadowed) :
    splitWindow (front literal spaced ++ unit.1.toList) =
      (front literal spaced ++ cut unit.1, some 1) := by
  have hcut := isCut h
  have htake : (front literal spaced ++ unit.1.toList).take
      ((front literal spaced ++ unit.1.toList).length - "s".length) =
        front literal spaced ++ cut unit.1 := by
    have hone : "s".length = 1 := rfl
    rw [hcut.split, hone, ← List.append_assoc, List.length_append, List.length_singleton,
      Nat.add_sub_cancel, List.take_left]
  rw [splitWindow, find?_front, find?_shadowed h]
  simp only [htake, stripChars_of_letter hcut.nonempty hcut.letters]
  rw [if_neg]
  simp [hcut.nonempty]

theorem parseFloat_literal : parseFloat text literal.text = .ok (.ofRat literal.value) := by
  have hread := @DecimalLiteral.floatOf_append text.table literal [] (by simp) (by simp) (by simp)
    (by simp)
  rw [List.append_nil] at hread
  simp [parseFloat, hread, exponentOf, round]

theorem parseFloat_shadowed (spaced : Bool) (h : unit.1 ∈ shadowed) :
    ∃ e, parseFloat text (front literal spaced ++ cut unit.1) = .error e := by
  have hcut := isCut h
  obtain ⟨c, rest, hcons⟩ := List.exists_cons_of_ne_nil hcut.nonempty
  have hc : c = 'm' ∨ c = 'h' := hcut.head c (by rw [hcons]; rfl)
  have hbehind : ∀ d ∈ (if spaced then [' '] else []) ++ cut unit.1,
      d = ' ' ∨ d.isLower = true := by
    intro d hd
    rcases List.mem_append.mp hd with hspace | hletter
    · split at hspace
      · exact .inl (List.mem_singleton.mp hspace)
      · cases hspace
    · exact .inr (hcut.letters d hletter)
  have hhead : ∀ d, ((if spaced then [' '] else []) ++ cut unit.1).head? = some d →
      d = ' ' ∨ d = 'm' ∨ d = 'h' := by
    intro d hd
    cases spaced with
    | false => exact .inr (hcut.head d hd)
    | true => exact .inl (Option.some.inj hd).symm
  have hread := @DecimalLiteral.floatOf_append text.table literal
    ((if spaced then [' '] else []) ++ cut unit.1)
    (fun d hd => by
      rcases hbehind d hd with rfl | hletter
      · decide
      · exact decide_eq_true (by have := isLower_toNat hletter; omega))
    (fun hd => by
      rcases hbehind '_' hd with heq | hletter
      · cases heq
      · cases hletter)
    (fun d hd => by
      rw [List.getLast?_append_of_ne_nil _ hcut.nonempty] at hd
      have hletter := isLower_toNat (hcut.letters d (List.mem_of_getLast? hd))
      simp only [isBlank, Bool.or_eq_false_iff, Bool.and_eq_false_iff, decide_eq_false_iff_not]
      omega)
    (fun d hd => by
      rcases hhead d hd with rfl | rfl | rfl
      all_goals exact ⟨by decide, by decide⟩)
  have hnone : exponentOf ((if spaced then [' '] else []) ++ cut unit.1) = none := by
    obtain ⟨d, behind, hd⟩ := List.exists_cons_of_ne_nil
      (List.append_ne_nil_of_right_ne_nil (if spaced then [' '] else []) hcut.nonempty)
    rw [hd]
    rcases hhead d (by rw [hd]; rfl) with rfl | rfl | rfl
    all_goals rfl
  rw [hnone, ← List.append_assoc] at hread
  exact ⟨_, by rw [parseFloat, front, hread]; rfl⟩

theorem unit_ne_nil (hunit : unit ∈ units) : unit.1.toList ≠ [] := by
  have hall : (units.all fun unit => !unit.1.toList.isEmpty) = true := by decide
  simpa using List.all_eq_true.mp hall unit hunit

theorem lower_stripChars_window (spaced : Bool) (hunit : unit ∈ units) :
    text.lower (stripChars (front literal spaced ++ unit.1.toList)) =
      front literal spaced ++ unit.1.toList := by
  have hchars : ∀ c ∈ front literal spaced ++ unit.1.toList,
      c.toNat < 65 ∨ c.isLower = true := by
    intro c hc
    rcases List.mem_append.mp hc with hfront | hletter
    · rcases List.mem_append.mp hfront with htext | hspace
      · rcases literal.mem_text htext with hdigit | rfl
        · exact .inl (by have := isDigit_ascii hdigit; omega)
        · exact .inl (by decide)
      · split at hspace
        · rw [List.mem_singleton.mp hspace]
          exact .inl (by decide)
        · cases hspace
    · exact .inr (unit_letters hunit c hletter)
  rw [stripChars_of_letter (unit_ne_nil hunit) (unit_letters hunit),
    text.lower_ascii _ fun c hc => ?_]
  · refine (List.map_congr_left fun c hc => ?_).trans (List.map_id _)
    rcases hchars c hc with hlow | hletter
    · exact toLower_of_lt hlow
    · exact toLower_of_gt (by have := isLower_toNat hletter; omega)
  · rcases hchars c hc with hlow | hletter
    · exact decide_eq_true (by omega)
    · exact decide_eq_true (by have := isLower_toNat hletter; omega)

theorem parseWindowS_unit (spaced : Bool) (hunit : unit ∈ units) (h : unit.1 ∉ shadowed) :
    parseWindowS text (front literal spaced ++ unit.1.toList) =
      .ok ((Binary64.ofRat literal.value).mul (.ofRat unit.2)) := by
  rw [parseWindowS, lower_stripChars_window spaced hunit, splitWindow_unit spaced hunit h]
  simp only [parseFloat_literal]
  rfl

theorem parseWindowS_shadowed (spaced : Bool) (hunit : unit ∈ units) (h : unit.1 ∈ shadowed) :
    ∃ e, parseWindowS text (front literal spaced ++ unit.1.toList) = .error e := by
  obtain ⟨e, he⟩ := @parseFloat_shadowed text literal unit spaced h
  refine ⟨e, ?_⟩
  rw [parseWindowS, lower_stripChars_window spaced hunit, splitWindow_shadowed spaced h]
  simp only [he]
  rfl

theorem intText_digits {r : Int} (hr : 0 < r) : ∀ c ∈ intText r, c.isDigit = true := by
  intro c hc
  cases r with
  | ofNat n => exact toDigits_isDigit n c hc
  | negSucc n => exact absurd hr (by omega)

theorem parseInt_eq {r : Int} (hr : 0 < r) :
    parseInt text (intText r) =
      if digitCount r ≤ text.maxDigits then .ok r
      else .error (valueError
        s!"invalid literal for int() with base 10: '{String.ofList (intText r)}'") := by
  by_cases hlimit : digitCount r ≤ text.maxDigits
  · rw [if_pos hlimit, parseInt, intOf_intText hlimit]
  · rw [if_neg hlimit, parseInt]
    cases r with
    | ofNat n =>
      have hnone : intOf text.table text.maxDigits (intText (n : Int)) = none :=
        intOf_toDigits_eq_none (not_le.mp hlimit)
      rw [show Int.ofNat n = (n : Int) from rfl, hnone]
    | negSucc n => exact absurd hr (by omega)

theorem parse_rateText {r : Int} (hr : 0 < r) (spaced : Bool) (hunit : unit ∈ units) :
    parseInboundRateLimit text (some (rateText r literal spaced unit.1)) = (do
      let requests ← parseInt text (intText r)
      let windowS ← parseWindowS text (front literal spaced ++ unit.1.toList)
      let config ← inboundRateLimitConfig requests windowS
      pure (some config)) := by
  have hdigits := intText_digits hr
  have htext : (rateText r literal spaced unit.1).toList =
      intText r ++ '/' :: (front literal spaced ++ unit.1.toList) := by
    simp [rateText, front]
  have hint : stripChars (intText r) = intText r :=
    List.rdropWhile_dropWhile_of_ends
      (fun c hc => isSpace_of_isDigit (hdigits c (List.mem_of_mem_head? hc)))
      fun c hc => isSpace_of_isDigit (hdigits c (List.mem_of_getLast? hc))
  have hkeep : ∀ c ∈ intText r, decide (c ≠ '/') = true := fun c hc =>
    decide_eq_true (ne_of_isDigit (hdigits c hc) (by decide))
  have htake : (intText r ++ '/' :: (front literal spaced ++ unit.1.toList)).takeWhile (· ≠ '/') =
      intText r := by
    rw [List.takeWhile_append_of_pos hkeep]
    simp
  have hdrop : ((intText r ++ '/' :: (front literal spaced ++ unit.1.toList)).dropWhile
      (· ≠ '/')).tail = front literal spaced ++ unit.1.toList := by
    rw [List.dropWhile_append_of_pos hkeep]
    simp
  have hends : stripChars (intText r ++ '/' :: (front literal spaced ++ unit.1.toList)) =
      intText r ++ '/' :: (front literal spaced ++ unit.1.toList) := by
    refine List.rdropWhile_dropWhile_of_ends (fun c hc => ?_) fun c hc => ?_
    · rw [List.head?_append] at hc
      rcases Option.or_eq_some_iff.mp hc with hhead | ⟨-, hslash⟩
      · exact isSpace_of_isDigit (hdigits c (List.mem_of_mem_head? hhead))
      · rw [← Option.some.inj hslash]
        decide
    · rw [← List.cons_append, ← List.append_assoc,
        List.getLast?_append_of_ne_nil _ (unit_ne_nil hunit)] at hc
      exact isSpace_of_isLower (unit_letters hunit c (List.mem_of_getLast? hc))
  have hnotBlank :
      stripChars (intText r ++ '/' :: (front literal spaced ++ unit.1.toList)) ≠ [] := by
    rw [hends]
    simp
  rw [parseInboundRateLimit, htext, if_neg hnotBlank, if_neg (by simp), htake, hdrop, hint]

end Units

/-! The window, as a float. -/

section Windows
open Binary64
variable {q m : ℚ} {x : Binary64}

theorem not_le_zero_iff : x.le (ofRat 0) = false ↔
    x = .nan ∨ x = .infinite false ∨ ∃ v, x = .finite v ∧ 0 < v.1 := by
  have hzero : (ofRat 0).level = toLex (0, 0) := by rw [ofRat_zero_eq]; rfl
  rw [← Bool.not_eq_true]
  rcases x with v | (_ | _) | _
  · rw [le_iff (by simp) (ofRat_ne_nan 0), hzero]
    simp [level, Prod.Lex.toLex_le_toLex]
  · rw [le_iff (by simp) (ofRat_ne_nan 0), hzero]
    simp [level, Prod.Lex.toLex_le_toLex]
  · rw [le_iff (by simp) (ofRat_ne_nan 0), hzero]
    simp [level, Prod.Lex.toLex_le_toLex]
  · simp [le, nan_lt, nan_eq]

theorem ofRat_eq_infinite_iff : ofRat q = .infinite false ↔ 2 ^ (1024 : ℤ) ≤ nearest q := by
  constructor
  · intro h
    have hnot : ¬|nearest q| < 2 ^ (1024 : ℤ) := by
      intro hlt
      rw [ofRat, dif_pos hlt] at h
      cases h
    rw [ofRat, dif_neg hnot, infinite.injEq, decide_eq_false_iff_not, not_lt] at h
    rwa [abs_of_nonneg (nearest_nonneg h), not_lt] at hnot
  · intro h
    have hpos : ¬q < 0 := fun hneg =>
      absurd (h.trans (nearest_nonpos hneg.le)) (not_le.mpr (two_zpow_pos 1024))
    rw [ofRat, dif_neg, decide_eq_false hpos]
    rw [not_lt]
    exact h.trans (le_abs_self _)

theorem multiplier_cases {unit : String × ℚ} (hunit : unit ∈ units) :
    Representable unit.2 ∧ 1 ≤ unit.2 := by
  have hall : (units.all fun unit => unit.2 = 1 ∨ unit.2 = 60 ∨ unit.2 = 3600) = true := by
    decide
  rcases of_decide_eq_true (List.all_eq_true.mp hall unit hunit) with h | h | h <;> rw [h]
  · exact ⟨representable_one, le_rfl⟩
  · exact ⟨⟨60, 0, by norm_num⟩, by norm_num⟩
  · exact ⟨⟨3600, 0, by norm_num⟩, by norm_num⟩

theorem mul_multiplier (hm : Representable m) (hsmall : |nearest q| < 2 ^ (1024 : ℤ)) :
    (ofRat q).mul (ofRat m) = ofRat (nearest q * m) := by
  rw [ofRat_of_representable hm, ofRat, dif_pos hsmall]
  rfl

theorem infinite_mul_multiplier (hm : Representable m) (hpos : 1 ≤ m) (negative : Bool) :
    (infinite negative).mul (ofRat m) = infinite negative := by
  rw [ofRat_of_representable hm]
  simp [mul, (by linarith : m ≠ 0), (by linarith : ¬m < 0)]

theorem mul_multiplier_of_large (hm : Representable m) (hpos : 1 ≤ m)
    (hlarge : ¬|nearest q| < 2 ^ (1024 : ℤ)) :
    (ofRat q).mul (ofRat m) = infinite (decide (q < 0)) := by
  have hinfinite : ofRat q = infinite (decide (q < 0)) := by rw [ofRat, dif_neg hlarge]
  rw [hinfinite, infinite_mul_multiplier hm hpos]

theorem mul_multiplier_ne_nan (hm : Representable m) (hpos : 1 ≤ m) :
    (ofRat q).mul (ofRat m) ≠ .nan := by
  by_cases hsmall : |nearest q| < 2 ^ (1024 : ℤ)
  · rw [mul_multiplier hm hsmall]
    exact ofRat_ne_nan _
  · rw [mul_multiplier_of_large hm hpos hsmall]
    simp

theorem mul_multiplier_eq_infinite_iff (hm : Representable m) (hpos : 1 ≤ m) :
    (ofRat q).mul (ofRat m) = .infinite false ↔
      2 ^ (1024 : ℤ) ≤ nearest q ∨ 2 ^ (1024 : ℤ) ≤ nearest (nearest q * m) := by
  by_cases hsmall : |nearest q| < 2 ^ (1024 : ℤ)
  · rw [mul_multiplier hm hsmall, ofRat_eq_infinite_iff]
    exact (or_iff_right (not_le.mpr (abs_lt.mp hsmall).2)).symm
  · rw [mul_multiplier_of_large hm hpos hsmall]
    rcases lt_or_ge q 0 with hneg | hge
    · have hlow := nearest_nonpos hneg.le
      have hproduct : nearest (nearest q * m) ≤ 0 :=
        nearest_nonpos (mul_nonpos_of_nonpos_of_nonneg hlow (by linarith))
      have hbig := two_zpow_pos 1024
      rw [decide_eq_true hneg]
      refine iff_of_false (by simp) ?_
      rw [not_or, not_le, not_le]
      exact ⟨hlow.trans_lt hbig, hproduct.trans_lt hbig⟩
    · rw [abs_of_nonneg (nearest_nonneg hge), not_lt] at hsmall
      rw [decide_eq_false (not_lt.mpr hge)]
      exact iff_of_true rfl (.inl hsmall)

theorem finite_mul_multiplier_iff (hm : Representable m) (hpos : 1 ≤ m) (hq : 0 < q) :
    (∃ v, (ofRat q).mul (ofRat m) = .finite v ∧ 0 < v.1) ↔ InRange q m := by
  by_cases hsmall : |nearest q| < 2 ^ (1024 : ℤ)
  · have hnonneg := nearest_nonneg hq.le
    have hproduct : 0 ≤ nearest (nearest q * m) :=
      nearest_nonneg (mul_nonneg hnonneg (by linarith))
    rw [mul_multiplier hm hsmall]
    constructor
    · rintro ⟨v, hv, hvpos⟩
      obtain ⟨hfinite, hv⟩ := ofRat_eq_finite_iff.mp hv
      refine ⟨?_, (abs_lt.mp hsmall).2, (abs_lt.mp hfinite).2⟩
      rcases hnonneg.eq_or_lt with hzero | hlt
      · rw [← hv, ← hzero, zero_mul, nearest_zero] at hvpos
        exact absurd hvpos (lt_irrefl 0)
      · exact hlt
    · rintro ⟨hlow, -, hhigh⟩
      have hfinite : |nearest (nearest q * m)| < 2 ^ (1024 : ℤ) := by
        rwa [abs_of_nonneg hproduct]
      refine ⟨⟨_, representable_nearest hfinite⟩, ofRat_eq_finite_iff.mpr ⟨hfinite, rfl⟩, ?_⟩
      calc 0 < nearest q := hlow
        _ = nearest (nearest q) := (nearest_of_representable (representable_nearest hsmall)).symm
        _ ≤ nearest (nearest q * m) := nearest_mono (le_mul_of_one_le_right hnonneg hpos)
  · rw [mul_multiplier_of_large hm hpos hsmall]
    refine iff_of_false (by simp) ?_
    rintro ⟨hlow, hhigh, -⟩
    exact hsmall (by rwa [abs_of_pos hlow])

end Windows

/-- The text of a limit in seconds, minutes or hours is read as that limit. -/
def ReadAsWritten (text : PyText) (r : Int) (literal : DecimalLiteral) (spaced : Bool)
    (unit : String × ℚ) : Prop :=
  ∃ config, parseInboundRateLimit text (some (rateText r literal spaced unit.1)) =
      .ok (some config) ∧ config.requests = r ∧
    config.windowS = (Binary64.ofRat literal.value).mul (.ofRat unit.2) ∧
    config.windowS.isFinite = true

theorem inboundRateLimitConfig_of_pos {r : Int} (hr : 0 < r) {w : Binary64}
    (hw : w.le (.ofRat 0) = false) : inboundRateLimitConfig r w = .ok ⟨r, w, hr, hw⟩ := by
  rw [inboundRateLimitConfig, dif_neg (not_le.mpr hr), dif_neg (by simp [hw])]

theorem readAsWritten_iff {text : PyText} {r : Int} {literal : DecimalLiteral} {spaced : Bool}
    {unit : String × ℚ} (hr : 0 < r) (hvalue : 0 < literal.value) (hunit : unit ∈ units) :
    ReadAsWritten text r literal spaced unit ↔
      unit.1 ∉ shadowed ∧ digitCount r ≤ text.maxDigits ∧ InRange literal.value unit.2 := by
  obtain ⟨hm, hpos⟩ := multiplier_cases hunit
  rw [ReadAsWritten, parse_rateText hr spaced hunit, parseInt_eq hr]
  constructor
  · rintro ⟨config, hparse, -, hwindow, hfinite⟩
    obtain ⟨requests, hrequests, hparse⟩ := Except.bind_eq_ok_iff.mp hparse
    obtain ⟨window, hwindow', -⟩ := Except.bind_eq_ok_iff.mp hparse
    have hdigits : digitCount r ≤ text.maxDigits := by
      by_contra hmany
      rw [if_neg hmany] at hrequests
      cases hrequests
    have hshadow : unit.1 ∉ shadowed := by
      intro hshadow
      obtain ⟨e, he⟩ := @parseWindowS_shadowed text literal unit spaced hunit hshadow
      rw [he] at hwindow'
      cases hwindow'
    refine ⟨hshadow, hdigits, (finite_mul_multiplier_iff hm hpos hvalue).mp ?_⟩
    rcases not_le_zero_iff.mp config.window_above with hnan | hinfinite | ⟨v, hv, hvpos⟩
    · rw [hnan] at hfinite
      cases hfinite
    · rw [hinfinite] at hfinite
      cases hfinite
    · exact ⟨v, hwindow ▸ hv, hvpos⟩
  · rintro ⟨hshadow, hdigits, hrange⟩
    obtain ⟨v, hv, hvpos⟩ := (finite_mul_multiplier_iff hm hpos hvalue).mpr hrange
    have habove := not_le_zero_iff.mpr (.inr (.inr ⟨v, hv, hvpos⟩))
    have hfinite : ((Binary64.ofRat literal.value).mul (.ofRat unit.2)).isFinite = true := by
      rw [hv]
      rfl
    refine ⟨⟨r, _, hr, habove⟩, ?_, rfl, rfl, hfinite⟩
    rw [if_pos hdigits, parseWindowS_unit spaced hunit hshadow]
    show (inboundRateLimitConfig r _ >>= fun config => pure (some config)) = _
    rw [inboundRateLimitConfig_of_pos hr habove]
    rfl

/-! What is accepted at all. -/

def Unbounded (number : FloatText) (multiplier : Option ℚ) : Prop :=
  match number with
  | .nan => True
  | .infinite negative => negative = false
  | .finite q => 2 ^ (1024 : ℤ) ≤ Binary64.nearest q ∨
      ∃ m ∈ multiplier, 2 ^ (1024 : ℤ) ≤ Binary64.nearest (Binary64.nearest q * m)

/-- A limit on a positive number of requests in a window without an end. -/
def UnboundedRate (text : PyText) (value : String) : Prop :=
  stripChars value.toList ≠ [] ∧ '/' ∈ value.toList ∧
    (∃ requests, parseInt text (stripChars (value.toList.takeWhile (· ≠ '/'))) = .ok requests ∧
      0 < requests) ∧
    ∃ numeric multiplier number,
      splitWindow (text.lower (stripChars (value.toList.dropWhile (· ≠ '/')).tail)) =
        (numeric, multiplier) ∧
      floatOf text.table numeric = some number ∧ Unbounded number multiplier

def windowOf (number : FloatText) : Option ℚ → Binary64
  | some multiplier => (round number).mul (.ofRat multiplier)
  | none => round number

theorem windowOf_unbounded_iff {number : FloatText} {multiplier : Option ℚ}
    (h : ∀ m ∈ multiplier, Representable m ∧ 1 ≤ m) :
    Unbounded number multiplier ↔
      windowOf number multiplier = .nan ∨ windowOf number multiplier = .infinite false := by
  rcases multiplier with _ | m
  · rcases number with q | negative | _
    · simp [Unbounded, windowOf, round, Binary64.ofRat_ne_nan, ofRat_eq_infinite_iff]
    · simp [Unbounded, windowOf, round]
    · simp [Unbounded, windowOf, round]
  · obtain ⟨hm, hpos⟩ := h m rfl
    rcases number with q | negative | _
    · simp [Unbounded, windowOf, round, mul_multiplier_ne_nan hm hpos,
        mul_multiplier_eq_infinite_iff hm hpos]
    · simp [Unbounded, windowOf, round, infinite_mul_multiplier hm hpos]
    · simp [Unbounded, windowOf, round, Binary64.mul]

section Accepted
variable {text : PyText} {value : String}

theorem multiplier_of_splitWindow {window numeric : List Char} {multiplier : Option ℚ}
    (h : splitWindow window = (numeric, multiplier)) :
    ∀ m ∈ multiplier, Representable m ∧ 1 ≤ m := by
  rintro m rfl
  unfold splitWindow at h
  split at h
  · rename_i suffix multiplier hfind
    have hunit : (suffix, multiplier) ∈ units := List.mem_of_find?_eq_some hfind
    obtain rfl : multiplier = m := by
      dsimp only at h
      split at h
      · split at h
        · cases h
        · exact Option.some.inj (Prod.mk.inj h).2
      · exact Option.some.inj (Prod.mk.inj h).2
    exact multiplier_cases hunit
  · cases h

theorem parseWindowS_ok_iff {rawWindow : List Char} {window : Binary64} :
    parseWindowS text rawWindow = .ok window ↔ ∃ numeric multiplier number,
      splitWindow (text.lower (stripChars rawWindow)) = (numeric, multiplier) ∧
      floatOf text.table numeric = some number ∧ windowOf number multiplier = window := by
  unfold parseWindowS
  rcases splitWindow (text.lower (stripChars rawWindow)) with ⟨numeric, multiplier⟩
  rcases hread : floatOf text.table numeric with _ | number
  · cases multiplier <;> simp [parseFloat, hread, bind, Except.bind]
  · cases multiplier <;> simp [parseFloat, hread, bind, Except.bind, windowOf, pure, Except.pure]

theorem inboundRateLimitConfig_ok_iff {requests : Int} {window : Binary64}
    {config : InboundRateLimitConfig} :
    inboundRateLimitConfig requests window = .ok config ↔
      requests = config.requests ∧ window = config.windowS := by
  constructor
  · intro h
    unfold inboundRateLimitConfig at h
    split at h
    · cases h
    · split at h
      · cases h
      · obtain rfl := Except.ok.inj h
        exact ⟨rfl, rfl⟩
  · rintro ⟨rfl, rfl⟩
    exact inboundRateLimitConfig_of_pos config.requests_pos config.window_above

theorem parse_ok_iff {config : InboundRateLimitConfig} :
    parseInboundRateLimit text (some value) = .ok (some config) ↔
      stripChars value.toList ≠ [] ∧ '/' ∈ value.toList ∧
        parseInt text (stripChars (value.toList.takeWhile (· ≠ '/'))) = .ok config.requests ∧
        parseWindowS text (value.toList.dropWhile (· ≠ '/')).tail = .ok config.windowS := by
  unfold parseInboundRateLimit
  by_cases hblank : stripChars value.toList = []
  · simp [hblank]
  by_cases hslash : '/' ∈ value.toList
  · simp only [if_neg hblank, if_neg (not_not.mpr hslash)]
    constructor
    · intro h
      obtain ⟨requests, hrequests, h⟩ := Except.bind_eq_ok_iff.mp h
      obtain ⟨window, hwindow, h⟩ := Except.bind_eq_ok_iff.mp h
      obtain ⟨config', hconfig, h⟩ := Except.bind_eq_ok_iff.mp h
      obtain rfl : config' = config := Option.some.inj (Except.ok.inj h)
      obtain ⟨rfl, rfl⟩ := inboundRateLimitConfig_ok_iff.mp hconfig
      exact ⟨hblank, hslash, hrequests, hwindow⟩
    · rintro ⟨-, -, hrequests, hwindow⟩
      refine Except.bind_eq_ok_iff.mpr ⟨_, hrequests, Except.bind_eq_ok_iff.mpr ⟨_, hwindow, ?_⟩⟩
      exact Except.bind_eq_ok_iff.mpr ⟨config, inboundRateLimitConfig_ok_iff.mpr ⟨rfl, rfl⟩, rfl⟩
  · simp [hblank, hslash]

theorem accepted_finite_iff :
    (∀ config, parseInboundRateLimit text (some value) = .ok (some config) →
        ∃ v, config.windowS = .finite v ∧ 0 < v.1) ↔ ¬UnboundedRate text value := by
  constructor
  · rintro hall ⟨hblank, hslash, ⟨requests, hrequests, hpos⟩,
      numeric, multiplier, number, hsplit, hread, hunbounded⟩
    have hends := (windowOf_unbounded_iff (multiplier_of_splitWindow hsplit)).mp hunbounded
    have habove : (windowOf number multiplier).le (.ofRat 0) = false := by
      rcases hends with hnan | hinfinite
      · exact not_le_zero_iff.mpr (.inl hnan)
      · exact not_le_zero_iff.mpr (.inr (.inl hinfinite))
    obtain ⟨v, hv, -⟩ := hall ⟨requests, _, hpos, habove⟩ (parse_ok_iff.mpr
      ⟨hblank, hslash, hrequests,
        parseWindowS_ok_iff.mpr ⟨numeric, multiplier, number, hsplit, hread, rfl⟩⟩)
    have hv : windowOf number multiplier = .finite v := hv
    rcases hends with hnan | hinfinite
    · exact absurd (hnan.symm.trans hv) (by simp)
    · exact absurd (hinfinite.symm.trans hv) (by simp)
  · intro hbounded config hparse
    obtain ⟨hblank, hslash, hrequests, hwindow⟩ := parse_ok_iff.mp hparse
    obtain ⟨numeric, multiplier, number, hsplit, hread, hwindow⟩ := parseWindowS_ok_iff.mp hwindow
    have hnot : ¬Unbounded number multiplier := fun h =>
      hbounded ⟨hblank, hslash, ⟨_, hrequests, config.requests_pos⟩, numeric, multiplier, number,
        hsplit, hread, h⟩
    rw [windowOf_unbounded_iff (multiplier_of_splitWindow hsplit), hwindow, not_or] at hnot
    rcases not_le_zero_iff.mp config.window_above with hnan | hinfinite | hfinite
    · exact absurd hnan hnot.1
    · exact absurd hinfinite hnot.2
    · exact hfinite

end Accepted

/-- Which limits are read as they are written, and which texts give an endless window. -/
theorem rate_limit_syntax_iff (text : PyText) :
    (∀ r literal spaced unit, 0 < r → 0 < literal.value → unit ∈ units →
      (ReadAsWritten text r literal spaced unit ↔
        unit.1 ∉ shadowed ∧ digitCount r ≤ text.maxDigits ∧ InRange literal.value unit.2)) ∧
    ∀ value,
      (∀ config, parseInboundRateLimit text (some value) = .ok (some config) →
        ∃ v, config.windowS = .finite v ∧ 0 < v.1) ↔ ¬UnboundedRate text value :=
  ⟨fun _ _ _ _ hr hvalue hunit => readAsWritten_iff hr hvalue hunit, fun _ => accepted_finite_iff⟩

def asciiText : PyText := ⟨⟨fun _ => false, fun _ => none⟩, 4300, lowerAscii, fun _ _ => rfl⟩

def fiveLiteral : DecimalLiteral :=
  ⟨['5'], [], false, List.all_eq_true.mp (by decide), by decide, fun _ => rfl⟩

theorem fiveLiteral_value : fiveLiteral.value = 5 := by
  simp [DecimalLiteral.value, fiveLiteral, decimalValueOf, Nat.ofDigitChars]

/-- Sixty requests in five minutes, by the name of the unit that is tried before its shadow. -/
theorem sixty_per_five_min : ReadAsWritten asciiText 60 fiveLiteral true ("min", 60) := by
  refine ((rate_limit_syntax_iff asciiText).1 60 fiveLiteral true ("min", 60) (by decide)
    (by rw [fiveLiteral_value]; norm_num) (by decide)).mpr ⟨by decide, by decide, ?_⟩
  have hfive : Representable 5 := ⟨5, 0, by norm_num⟩
  have hproduct : Representable 300 := ⟨300, 0, by norm_num⟩
  have hexact : (5 : ℚ) * 60 = 300 := by norm_num
  rw [fiveLiteral_value, InRange, Binary64.nearest_of_representable hfive, hexact,
    Binary64.nearest_of_representable hproduct]
  exact ⟨by norm_num, (abs_lt.mp (Binary64.abs_lt_of_representable hfive)).2,
    (abs_lt.mp (Binary64.abs_lt_of_representable hproduct)).2⟩

/-- Five minutes are refused, and an infinite window is taken. -/
theorem five_minutes_refused_infinite_taken :
    ¬ReadAsWritten asciiText 60 fiveLiteral true ("minutes", 60) ∧
      ∃ config, parseInboundRateLimit asciiText (some "60/infs") = .ok (some config) ∧
        config.windowS = .infinite false := by
  constructor
  · rintro ⟨config, hparse, -⟩
    have hrefused : (parseInboundRateLimit asciiText
        (some (rateText 60 fiveLiteral true "minutes"))).map Option.isSome =
          .error (valueError "could not convert string to float: '5 minute'") := by
      decide
    rw [hparse] at hrefused
    cases hrefused
  · have habove : (Binary64.infinite false).le (.ofRat 0) = false :=
      not_le_zero_iff.mpr (.inr (.inl rfl))
    refine ⟨⟨60, .infinite false, by decide, habove⟩, ?_, rfl⟩
    have hrequests : parseInt asciiText (stripChars ("60/infs".toList.takeWhile (· ≠ '/'))) =
        .ok 60 := by decide
    refine parse_ok_iff.mpr ⟨by decide, by decide, hrequests, ?_⟩
    refine parseWindowS_ok_iff.mpr ⟨['i', 'n', 'f'], some 1, .infinite false, by decide,
      by decide, ?_⟩
    exact infinite_mul_multiplier Binary64.representable_one le_rfl false

end Pitwall.RateLimitSyntax
