import Pitwall.Library.Padded
import Pitwall.Routing.PlanSafety
set_option autoImplicit false

/-!
The versions of the CUDA constraint: what `_version_at_least` says of dotted numbers.
-/

namespace Pitwall.Routing

def decimalValue (digits : List Char) : ℕ :=
  digits.foldl (fun n c => 10 * n + (c.toNat - '0'.toNat)) 0

/-- `str.isdigit` and `int` on ASCII digits, `int` up to its limit of digits. -/
structure ReadsDigits (text : PyString) (limit : ℕ) : Prop where
  digit : ∀ c : Char, c.isDigit = true → text.isDigit c = true
  number : ∀ digits : List Char, digits ≠ [] → (∀ c ∈ digits, c.isDigit = true) →
    text.parseInt (String.ofList digits) =
      if digits.length ≤ limit then some (decimalValue digits : ℤ) else none

structure DottedVersion where
  parts : List (List Char)
  parts_ne : parts ≠ []
  part_ne : ∀ part ∈ parts, part ≠ []
  digits : ∀ part ∈ parts, ∀ c ∈ part, c.isDigit = true

namespace DottedVersion

def text (v : DottedVersion) : String := String.ofList (['.'].intercalate v.parts)

def components (v : DottedVersion) : List ℤ := v.parts.map fun part => (decimalValue part : ℤ)

/-- `int` reads each number. -/
def Readable (v : DottedVersion) (limit : ℕ) : Prop := ∀ part ∈ v.parts, part.length ≤ limit

variable (v : DottedVersion)

theorem components_nonneg : ∀ x ∈ v.components, 0 ≤ x := by
  intro x hx
  obtain ⟨part, -, rfl⟩ := List.mem_map.mp hx
  exact Int.natCast_nonneg _

theorem mem_intercalate {sep : List Char} {parts : List (List Char)} {c : Char}
    (h : c ∈ sep.intercalate parts) : c ∈ sep ∨ ∃ part ∈ parts, c ∈ part := by
  induction parts with
  | nil => simp at h
  | cons part parts ih =>
    by_cases hparts : parts = []
    · subst hparts
      rw [List.intercalate_singleton] at h
      exact .inr ⟨part, by simp, h⟩
    · rw [List.intercalate_cons_of_ne_nil hparts, List.append_assoc, List.mem_append,
        List.mem_append] at h
      rcases h with hpart | hsep | hrest
      · exact .inr ⟨part, by simp, hpart⟩
      · exact .inl hsep
      · rcases ih hrest with hsep | ⟨other, hother, hc⟩
        · exact .inl hsep
        · exact .inr ⟨other, by simp [hother], hc⟩

theorem mem_text {c : Char} (h : c ∈ v.text.toList) : c = '.' ∨ c.isDigit = true := by
  rw [text, String.toList_ofList] at h
  rcases mem_intercalate h with hdot | ⟨part, hpart, hc⟩
  · exact .inl (List.mem_singleton.mp hdot)
  · exact .inr (v.digits part hpart c hc)

theorem not_isSpace_of_digit {c : Char} (h : c.isDigit = true) : isSpace c = false := by
  have hrange : 48 ≤ c.toNat ∧ c.toNat ≤ 57 := by
    simp only [Char.isDigit, Bool.and_eq_true, decide_eq_true_eq] at h
    exact h
  unfold isSpace
  simp only [Bool.or_eq_false_iff, Bool.and_eq_false_iff, decide_eq_false_iff_not,
    beq_eq_false_iff_ne]
  omega

theorem strip_text : replaceChar '_' '.' (strip v.text) = v.text := by
  have hspace : ∀ c ∈ v.text.toList, isSpace c = false := by
    intro c hc
    rcases v.mem_text hc with rfl | hdigit
    · decide
    · exact not_isSpace_of_digit hdigit
  have hstrip : strip v.text = v.text := by
    have hdrop : v.text.toList.dropWhile isSpace = v.text.toList := by
      rw [List.dropWhile_eq_self_iff]
      intro hpos
      simp [hspace _ (List.getElem_mem hpos)]
    rw [strip, hdrop, List.rdropWhile, List.dropWhile_eq_self_iff.mpr, List.reverse_reverse,
      String.ofList_toList]
    intro hpos
    have hlast := hspace _ (List.mem_reverse.mp (List.getElem_mem hpos))
    rw [hlast]
    exact Bool.false_ne_true
  have hreplace : v.text.toList.map (fun c => if c = '_' then '.' else c) = v.text.toList := by
    refine (List.map_congr_left fun c hc => if_neg ?_).trans (List.map_id _)
    rintro rfl
    rcases v.mem_text hc with h | h
    · exact absurd h (by decide)
    · exact absurd h (by decide)
  rw [hstrip, replaceChar, hreplace, String.ofList_toList]

theorem splitAt_text : splitAt '.' v.text = v.parts.map String.ofList := by
  have hdot : ∀ part ∈ v.parts, '.' ∉ part := fun part hpart hmem =>
    absurd (v.digits part hpart '.' hmem) (by decide)
  rw [splitAt, text, String.toList_ofList, List.splitOn_intercalate '.' hdot v.parts_ne]

variable {text : PyString} {limit : ℕ}

theorem parsePart_part (hreads : ReadsDigits text limit) {part : List Char}
    (hpart : part ∈ v.parts) (hfits : part.length ≤ limit) :
    text.parsePart (String.ofList part) = .ok (decimalValue part : ℤ) := by
  rw [PyString.parsePart, hreads.number part (v.part_ne part hpart) (v.digits part hpart),
    if_pos hfits]

theorem digit_parts (hreads : ReadsDigits text limit) :
    ((v.parts.map String.ofList).map fun part =>
      String.ofList (part.toList.filter text.isDigit)).filter (fun d => d ≠ "") =
        v.parts.map String.ofList := by
  have hdigits : (v.parts.map String.ofList).map (fun part =>
      String.ofList (part.toList.filter text.isDigit)) = v.parts.map String.ofList := by
    rw [List.map_map]
    refine List.map_congr_left fun part hpart => ?_
    have hall : part.filter text.isDigit = part :=
      List.filter_eq_self.mpr fun c hc => hreads.digit c (v.digits part hpart c hc)
    simp only [Function.comp_apply, String.toList_ofList, hall]
  rw [hdigits, List.filter_eq_self]
  intro d hd
  obtain ⟨part, hpart, rfl⟩ := List.mem_map.mp hd
  refine decide_eq_true fun hempty => v.part_ne part hpart ?_
  exact String.ofList_inj.mp (hempty.trans String.ofList_nil.symm)

/-- `_version_tuple` of a dotted version, which fails where `int` does. -/
theorem versionTuple_text (hreads : ReadsDigits text limit) :
    text.versionTuple v.text = .ok (some v.components) ∧ v.Readable limit ∨
      (∃ exc, text.versionTuple v.text = .error exc) ∧ ¬ v.Readable limit := by
  unfold PyString.versionTuple
  rw [strip_text, splitAt_text]
  dsimp only
  rw [v.digit_parts hreads]
  by_cases hreadable : v.Readable limit
  · refine .inl ⟨?_, hreadable⟩
    have hparsed : (v.parts.map String.ofList).mapM text.parsePart = .ok v.components := by
      rw [List.mapM_eq_ok_iff, components, List.forall₂_map_left_iff, List.forall₂_map_right_iff,
        List.forall₂_same]
      exact fun part hpart => v.parsePart_part hreads hpart (hreadable part hpart)
    rw [Except.bind_of_ok hparsed, if_neg]
    · rfl
    · simp [components, v.parts_ne]
  · refine .inr ⟨?_, hreadable⟩
    cases hparsed : (v.parts.map String.ofList).mapM text.parsePart with
    | error exc => exact ⟨exc, Except.bind_of_error rfl⟩
    | ok parsed =>
      refine absurd (fun part hpart => ?_) hreadable
      obtain ⟨x, -, hx⟩ := List.exists_mem_of_mapM_eq_ok hparsed (List.mem_map_of_mem hpart)
      by_contra hlong
      rw [PyString.parsePart, hreads.number part (v.part_ne part hpart) (v.digits part hpart),
        if_neg hlong] at hx
      cases hx

/-- `candidate` is at least `required` with the missing components read as zero, and `required`
is not `candidate` with zeros after it. -/
def AtLeast (candidate required : DottedVersion) : Prop :=
  List.PaddedLe 0 required.components candidate.components ∧
    ¬ List.PadExtends 0 candidate.components required.components

theorem le_iff_atLeast (candidate required : DottedVersion) :
    required.components ≤ candidate.components ↔ candidate.AtLeast required :=
  List.le_iff_paddedLe required.components_nonneg candidate.components_nonneg

/-- `_version_at_least` of dotted versions. -/
theorem versionAtLeast_text (hreads : ReadsDigits text limit) (a b : DottedVersion) :
    text.versionAtLeast a.text b.text = .ok true ↔
      a.Readable limit ∧ b.Readable limit ∧ a.AtLeast b := by
  unfold PyString.versionAtLeast
  rcases a.versionTuple_text hreads with ⟨ha, haread⟩ | ⟨⟨exc, ha⟩, haread⟩
  · rw [Except.bind_of_ok ha]
    rcases b.versionTuple_text hreads with ⟨hb, hbread⟩ | ⟨⟨exc, hb⟩, hbread⟩
    · rw [Except.bind_of_ok hb, Except.pure_eq_ok_iff, decide_eq_true_iff, le_iff_atLeast]
      exact ⟨fun h => ⟨haread, hbread, h⟩, fun h => h.2.2⟩
    · rw [Except.bind_of_error hb]
      exact iff_of_false (fun h => nomatch h) fun h => hbread h.2.1
  · rw [Except.bind_of_error ha]
    exact iff_of_false (fun h => nomatch h) fun h => haread h.1

end DottedVersion

section Constraint
variable {text : PyString} {limit : ℕ}

theorem cudaMismatch_declared {request : RoutingRequest} {p : ProviderLike}
    {candidate required : String} (hrequired : requiredCuda request = some required)
    (hdeclared : text.providerCudaVersions p = .ok [candidate]) :
    cudaMismatch text request p = .ok false ↔ text.versionAtLeast candidate required = .ok true := by
  have hany : text.anyVersionAtLeast required [candidate] =
      text.versionAtLeast candidate required := by
    unfold PyString.anyVersionAtLeast
    cases text.versionAtLeast candidate required with
    | error exc => rfl
    | ok enough => cases enough <;> rfl
  unfold cudaMismatch
  rw [hrequired]
  dsimp only
  rw [Except.bind_of_ok hdeclared, hany]
  cases text.versionAtLeast candidate required with
  | error exc => exact iff_of_false (fun h => nomatch h) fun h => nomatch h
  | ok enough =>
    cases enough with
    | false => exact iff_of_false (fun h => nomatch h) fun h => nomatch h
    | true => exact iff_of_true rfl rfl

open DottedVersion

/-- The comparison of versions: the padded order, but for a requirement that is the declared
version with zeros after it. It is a total preorder, and what the CUDA constraint goes by. -/
theorem versionAtLeast_spec (hreads : ReadsDigits text limit) :
    (∀ a b : DottedVersion, text.versionAtLeast a.text b.text = .ok true ↔
        a.Readable limit ∧ b.Readable limit ∧ a.AtLeast b) ∧
      (∀ a : DottedVersion, a.Readable limit → text.versionAtLeast a.text a.text = .ok true) ∧
      (∀ a b c : DottedVersion, text.versionAtLeast a.text b.text = .ok true →
        text.versionAtLeast b.text c.text = .ok true →
          text.versionAtLeast a.text c.text = .ok true) ∧
      (∀ a b : DottedVersion, a.Readable limit → b.Readable limit →
        text.versionAtLeast a.text b.text = .ok true ∨
          text.versionAtLeast b.text a.text = .ok true) ∧
      ∀ (request : RoutingRequest) (p : ProviderLike) (a b : DottedVersion),
        requiredCuda request = some b.text → text.providerCudaVersions p = .ok [a.text] →
          (cudaMismatch text request p = .ok false ↔
            a.Readable limit ∧ b.Readable limit ∧ a.AtLeast b) := by
  refine ⟨versionAtLeast_text hreads, ?_, ?_, ?_, ?_⟩
  · intro a ha
    rw [versionAtLeast_text hreads, ← le_iff_atLeast]
    exact ⟨ha, ha, le_rfl⟩
  · intro a b c hab hbc
    rw [versionAtLeast_text hreads, ← le_iff_atLeast] at hab hbc ⊢
    exact ⟨hab.1, hbc.2.1, hbc.2.2.trans hab.2.2⟩
  · intro a b ha hb
    rw [versionAtLeast_text hreads, versionAtLeast_text hreads, ← le_iff_atLeast,
      ← le_iff_atLeast]
    rcases le_total b.components a.components with hle | hle
    · exact .inl ⟨ha, hb, hle⟩
    · exact .inr ⟨hb, ha, hle⟩
  · intro request p a b hrequired hdeclared
    rw [cudaMismatch_declared hrequired hdeclared, versionAtLeast_text hreads]

/-- `int` with the limit that Python sets on its digits. -/
def digitText : PyString := { asciiText with
  parseInt := fun s =>
    if s.toList ≠ [] ∧ (s.toList.all Char.isDigit) = true ∧ s.toList.length ≤ 4300 then
      some (decimalValue s.toList : ℤ)
    else none }

theorem digitText_reads : ReadsDigits digitText 4300 where
  digit _ h := h
  number digits hne hdigits := by
    have hall : digits.all Char.isDigit = true := List.all_eq_true.mpr hdigits
    simp only [digitText, String.toList_ofList, hall, ne_eq, hne, not_false_eq_true, true_and]

def cuda12 : DottedVersion := ⟨[['1', '2']], by decide, by decide, by simp⟩

def cuda12Zero : DottedVersion := ⟨[['1', '2'], ['0']], by decide, by decide, by simp⟩

theorem versionAtLeast_spec_ascii :
    digitText.versionAtLeast cuda12Zero.text cuda12.text = .ok true ↔
      cuda12Zero.Readable 4300 ∧ cuda12.Readable 4300 ∧ cuda12Zero.AtLeast cuda12 :=
  (versionAtLeast_spec digitText_reads).1 cuda12Zero cuda12

/-- A provider of CUDA 12 does not serve a request for CUDA 12.0. -/
theorem trailing_zero_is_newer :
    cuda12.text = "12" ∧ cuda12Zero.text = "12.0" ∧
      digitText.versionAtLeast "12" "12.0" = .ok false ∧
      digitText.versionAtLeast "12.0" "12" = .ok true ∧
      List.PaddedLe 0 cuda12Zero.components cuda12.components := by
  refine ⟨by decide, by decide, by decide +kernel, by decide +kernel, .inl fun i => ?_⟩
  match i with
  | 0 => rfl
  | 1 => rfl
  | i + 2 => rfl

end Constraint

end Pitwall.Routing
