import Mathlib
import Pitwall.Library.JsonText
import Pitwall.Library.Separated
import Pitwall.Library.Traversal
set_option autoImplicit false

/-!
The compact text that `json.dumps` writes with sorted names and without an escape for characters
outside of ASCII, and which values have a text that can be encoded.
-/

namespace JsonSyntax
open NumberText

/-- What is raised: `ValueError` on a float out of range or an integer of too many digits,
`RecursionError`, and `UnicodeEncodeError`. -/
inductive WriteFailure where
  | range
  | digits
  | depth
  | surrogate
  deriving DecidableEq

def isSurrogate (code : Nat) : Bool := 0xD800 ≤ code && code ≤ 0xDFFF

def codesOf (s : List Char) : List Nat := s.map Char.toNat

def hexCode (n : Nat) : Nat := if n < 10 then 48 + n else 87 + n

/-- `ESCAPE_DCT`, apart from the control characters without a letter. -/
def escapes : List (Nat × Char) :=
  [(34, '"'), (92, '\\'), (10, 'n'), (13, 'r'), (9, 't'), (12, 'f'), (8, 'b')]

def escapeCode (code : Nat) : List Nat :=
  match escapes.lookup code with
  | some c => codesOf ['\\', c]
  | none =>
      if code < 32 then
        codesOf ['\\', 'u', '0', '0'] ++ [hexCode (code / 16), hexCode (code % 16)]
      else [code]

def writeString (codes : List Nat) : List Nat :=
  '"'.toNat :: (codes.flatMap escapeCode ++ ['"'.toNat])

def lastFields {β : Type} : List (List Nat × β) → List (List Nat × β)
  | [] => []
  | field :: fields =>
      if fields.any fun other => other.1 = field.1 then lastFields fields
      else field :: lastFields fields

def sortFields {β : Type} (fields : List (List Nat × β)) : List (List Nat × β) :=
  (lastFields fields).mergeSort fun a b => decide (a.1 ≤ b.1)

def bracketed (opening closing : Char) (texts : List (List Nat)) : List Nat :=
  opening.toNat :: (List.intercalate [','.toNat] texts ++ [closing.toNat])

def writeField (field : List Nat × Except WriteFailure (List Nat)) :
    Except WriteFailure (List Nat) :=
  field.2.map fun text => writeString field.1 ++ ':'.toNat :: text

section Write
variable (floatRepr : Binary64 → List Char) (limits : Limits)

mutual
def write : Nat → Value → Except WriteFailure (List Nat)
  | _, .null => .ok (codesOf "null".toList)
  | _, .bool b => .ok (codesOf (if b then "true".toList else "false".toList))
  | _, .int n => if digitCount n ≤ limits.digits then .ok (codesOf (intText n)) else .error .digits
  | _, .float x =>
      match x with
      | .finite _ => .ok (codesOf (floatRepr x))
      | _ => .error .range
  | _, .str codes => .ok (writeString codes)
  | 0, .arr _ => .error .depth
  | depth + 1, .arr items =>
      ((writeItems depth items).mapM id).map (bracketed '[' ']')
  | 0, .obj _ => .error .depth
  | depth + 1, .obj fields =>
      ((sortFields (writeFields depth fields)).mapM writeField).map (bracketed '\x7b' '\x7d')

def writeItems : Nat → List Value → List (Except WriteFailure (List Nat))
  | _, [] => []
  | depth, item :: items => write depth item :: writeItems depth items

def writeFields :
    Nat → List (List Nat × Value) → List (List Nat × Except WriteFailure (List Nat))
  | _, [] => []
  | depth, (name, value) :: fields => (name, write depth value) :: writeFields depth fields
end

/-- `json.dumps(value).encode()`, as the code points that are encoded. -/
def dumps (value : Value) : Except WriteFailure (List Nat) :=
  (write floatRepr limits limits.depth value).bind fun text =>
    if text.any isSurrogate then .error .surrogate else .ok text

mutual
/-- The finite values of integers with few enough digits, of strings without half a surrogate pair,
in few enough containers. -/
def writable : Nat → Value → Bool
  | _, .null | _, .bool _ => true
  | _, .int n => digitCount n ≤ limits.digits
  | _, .float x =>
      match x with
      | .finite _ => true
      | _ => false
  | _, .str codes => codes.all fun code => !isSurrogate code
  | 0, .arr _ | 0, .obj _ => false
  | depth + 1, .arr items => (writableItems depth items).all id
  | depth + 1, .obj fields =>
      (lastFields (writableFields depth fields)).all fun field =>
        (field.1.all fun code => !isSurrogate code) && field.2

def writableItems : Nat → List Value → List Bool
  | _, [] => []
  | depth, item :: items => writable depth item :: writableItems depth items

def writableFields : Nat → List (List Nat × Value) → List (List Nat × Bool)
  | _, [] => []
  | depth, (name, value) :: fields => (name, writable depth value) :: writableFields depth fields
end

end Write

section Encoding
variable {text : List Nat} {codes : List Nat}

def Encodable (text : List Nat) : Prop := ∀ code ∈ text, isSurrogate code = false

theorem isSurrogate_of_lt {code : Nat} (h : code < 0xD800) : isSurrogate code = false := by
  simp only [isSurrogate, Bool.and_eq_false_iff, decide_eq_false_iff_not]
  omega

theorem encodable_codesOf (s : List Char) : Encodable (codesOf s) := by
  intro code hcode
  obtain ⟨c, -, rfl⟩ := List.mem_map.mp hcode
  have hvalid : c.toNat < 0xD800 ∨ 0xDFFF < c.toNat ∧ c.toNat < 0x110000 := c.valid
  simp only [isSurrogate, Bool.and_eq_false_iff, decide_eq_false_iff_not]
  omega

theorem encodable_append {s t : List Nat} : Encodable (s ++ t) ↔ Encodable s ∧ Encodable t := by
  simp only [Encodable, List.mem_append, or_imp, forall_and]

theorem encodable_cons {code : Nat} :
    Encodable (code :: text) ↔ isSurrogate code = false ∧ Encodable text := by
  simp only [Encodable, List.mem_cons, forall_eq_or_imp]

theorem encodable_nil : Encodable [] := fun _ hcode => absurd hcode List.not_mem_nil

theorem encodable_singleton {code : Nat} : Encodable [code] ↔ isSurrogate code = false := by
  simp [Encodable]

theorem isSurrogate_of_escapes {code : Nat} {c : Char} (h : escapes.lookup code = some c) :
    isSurrogate code = false := by
  have hall : ∀ entry ∈ escapes, entry.1 < 128 := by decide
  refine isSurrogate_of_lt ((hall (code, c) ?_).trans (by decide))
  obtain ⟨before, after, hsplit, -⟩ := List.lookup_eq_some_iff.mp h
  simp [hsplit]

theorem hexCode_lt {n : Nat} (h : n < 16) : hexCode n < 0xD800 := by
  unfold hexCode
  split
  · omega
  · omega

theorem encodable_escapeCode {code : Nat} :
    Encodable (escapeCode code) ↔ isSurrogate code = false := by
  unfold escapeCode
  split
  · rename_i c hc
    exact iff_of_true (encodable_codesOf _) (isSurrogate_of_escapes hc)
  · split
    · rename_i hlow
      refine iff_of_true (encodable_append.mpr ⟨encodable_codesOf _, ?_⟩)
        (isSurrogate_of_lt (by omega))
      rw [encodable_cons, encodable_singleton]
      exact ⟨isSurrogate_of_lt (hexCode_lt (by omega)), isSurrogate_of_lt (hexCode_lt (by omega))⟩
    · exact encodable_singleton

theorem encodable_writeString : Encodable (writeString codes) ↔
    (codes.all fun code => !isSurrogate code) = true := by
  have hquote : isSurrogate '"'.toNat = false := by decide
  simp only [writeString, encodable_cons, encodable_append, encodable_nil, hquote, true_and,
    and_true, List.all_eq_true, Bool.not_eq_true']
  refine ⟨fun h code hcode => ?_, fun h code hcode => ?_⟩
  · refine encodable_escapeCode.mp fun other hother => ?_
    exact h other (List.mem_flatMap.mpr ⟨code, hcode, hother⟩)
  · obtain ⟨origin, horigin, hmem⟩ := List.mem_flatMap.mp hcode
    exact encodable_escapeCode.mpr (h origin horigin) code hmem

theorem encodable_bracketed {opening closing : Char} {texts : List (List Nat)} :
    Encodable (bracketed opening closing texts) ↔ ∀ text ∈ texts, Encodable text := by
  have hchar : ∀ c : Char, isSurrogate c.toNat = false := fun c =>
    encodable_codesOf [c] c.toNat (by simp [codesOf])
  simp only [bracketed, encodable_cons, encodable_append, encodable_nil, hchar, true_and, and_true]
  refine ⟨fun h text htext code hcode => ?_, fun h code hcode => ?_⟩
  · exact h code (Separated.mem_intercalate_of_mem htext hcode)
  · rcases Separated.mem_of_mem_intercalate hcode with rfl | ⟨text, htext, hmem⟩
    · exact hchar ','
    · exact h text htext code hmem

def Written (result : Except WriteFailure (List Nat)) : Prop :=
  ∃ text, result = .ok text ∧ Encodable text

theorem written_ok : Written (.ok text) ↔ Encodable text := by
  refine ⟨?_, fun h => ⟨text, rfl, h⟩⟩
  rintro ⟨other, heq, h⟩
  rwa [Except.ok.inj heq]

theorem written_codesOf (s : List Char) : Written (.ok (codesOf s)) :=
  written_ok.mpr (encodable_codesOf s)

theorem not_written_error {failure : WriteFailure} : ¬ Written (.error failure) := by
  rintro ⟨text, heq, -⟩
  cases heq

theorem written_mapM {α : Type} {items : List α} {f : α → Except WriteFailure (List Nat)}
    {opening closing : Char} :
    Written ((items.mapM f).map (bracketed opening closing)) ↔ ∀ x ∈ items, Written (f x) := by
  refine ⟨?_, fun h => ?_⟩
  · rintro ⟨text, htext, hencodable⟩ x hx
    obtain ⟨texts, htexts, rfl⟩ := Except.map_eq_ok_iff.mp htext
    obtain ⟨written, hmem, hwritten⟩ := List.exists_mem_of_mapM_eq_ok htexts hx
    exact ⟨written, hwritten, encodable_bracketed.mp hencodable written hmem⟩
  · obtain ⟨texts, htexts⟩ := List.exists_mapM_eq_ok fun x hx => (h x hx).imp fun _ ht => ht.1
    refine ⟨_, Except.map_eq_ok_iff.mpr ⟨texts, htexts, rfl⟩, ?_⟩
    refine encodable_bracketed.mpr fun text htext => ?_
    obtain ⟨x, hx, hfx⟩ := List.mem_of_mapM_eq_ok htexts htext
    obtain ⟨text', hok, hencodable⟩ := h x hx
    obtain rfl := Except.ok.inj (hfx.symm.trans hok)
    exact hencodable

theorem written_writeField {field : List Nat × Except WriteFailure (List Nat)} :
    Written (writeField field) ↔
      (field.1.all fun code => !isSurrogate code) = true ∧ Written field.2 := by
  have hcolon : isSurrogate ':'.toNat = false := by decide
  refine ⟨?_, ?_⟩
  · rintro ⟨text, htext, hencodable⟩
    obtain ⟨value, hvalue, rfl⟩ := Except.map_eq_ok_iff.mp htext
    rw [encodable_append, encodable_cons] at hencodable
    exact ⟨encodable_writeString.mp hencodable.1, value, hvalue, hencodable.2.2⟩
  · rintro ⟨hname, value, hvalue, hencodable⟩
    refine ⟨_, Except.map_eq_ok_iff.mpr ⟨value, hvalue, rfl⟩, ?_⟩
    rw [encodable_append, encodable_cons]
    exact ⟨encodable_writeString.mpr hname, hcolon, hencodable⟩

end Encoding

section Writable
variable {floatRepr : Binary64 → List Char} {limits : Limits}

theorem forall₂_lastFields {β γ : Type} {R : β → γ → Prop} {fields : List (List Nat × β)}
    {others : List (List Nat × γ)}
    (h : List.Forall₂ (fun x y => x.1 = y.1 ∧ R x.2 y.2) fields others) :
    List.Forall₂ (fun x y => x.1 = y.1 ∧ R x.2 y.2) (lastFields fields) (lastFields others) := by
  induction h with
  | nil => exact .nil
  | @cons x y xs ys hxy htail ih =>
    have hany : (xs.any fun other => other.1 = x.1) = ys.any fun other => other.1 = y.1 := by
      clear ih
      induction htail with
      | nil => rfl
      | cons hhead _ ih => rw [List.any_cons, List.any_cons, ih, hhead.1, hxy.1]
    unfold lastFields
    rw [hany]
    split
    · exact ih
    · exact .cons hxy ih

theorem forall_mem_iff {α β : Type} {R : α → β → Prop} {p : α → Prop} {q : β → Prop} {xs : List α}
    {ys : List β} (h : List.Forall₂ R xs ys) (hpq : ∀ x y, R x y → (p x ↔ q y)) :
    (∀ x ∈ xs, p x) ↔ ∀ y ∈ ys, q y := by
  induction h with
  | nil => simp
  | cons hhead _ ih => simp only [List.forall_mem_cons, hpq _ _ hhead, ih]

mutual
theorem written_iff : ∀ (depth : Nat) (value : Value),
    Written (write floatRepr limits depth value) ↔ writable limits depth value = true
  | _, .null => by simpa only [write, writable, iff_true] using written_codesOf _
  | _, .bool b => by simpa only [write, writable, iff_true] using written_codesOf _
  | _, .int n => by
      simp only [write, writable, decide_eq_true_eq]
      split
      · rename_i hdigits
        exact iff_of_true (written_codesOf _) hdigits
      · rename_i hdigits
        exact iff_of_false not_written_error hdigits
  | _, .float x => by
      cases x with
      | finite value => simpa only [write, writable, iff_true] using written_codesOf _
      | infinite negative =>
        simp only [write, writable]
        exact iff_of_false not_written_error (by decide)
      | nan =>
        simp only [write, writable]
        exact iff_of_false not_written_error (by decide)
  | _, .str codes => by
      simp only [write, writable]
      rw [written_ok, encodable_writeString]
  | 0, .arr _ => by
      simp only [write, writable]
      exact iff_of_false not_written_error (by decide)
  | depth + 1, .arr items => by
      simp only [write, writable]
      rw [written_mapM, List.all_eq_true]
      exact forall_mem_iff (written_items depth items) fun _ _ h => h
  | 0, .obj _ => by
      simp only [write, writable]
      exact iff_of_false not_written_error (by decide)
  | depth + 1, .obj fields => by
      simp only [write, writable]
      rw [written_mapM, List.all_eq_true]
      have hlast := @forall₂_lastFields _ _ (fun result b => Written result ↔ b = true) _ _
        (written_fields depth fields)
      simp only [sortFields, List.mem_mergeSort]
      refine forall_mem_iff hlast fun x y hxy => ?_
      rw [written_writeField, hxy.1, hxy.2, Bool.and_eq_true]

theorem written_items : ∀ (depth : Nat) (items : List Value),
    List.Forall₂ (fun result b => Written result ↔ b = true)
      (writeItems floatRepr limits depth items) (writableItems limits depth items)
  | _, [] => .nil
  | depth, item :: items => .cons (written_iff depth item) (written_items depth items)

theorem written_fields : ∀ (depth : Nat) (fields : List (List Nat × Value)),
    List.Forall₂ (fun x y => x.1 = y.1 ∧ (Written x.2 ↔ y.2 = true))
      (writeFields floatRepr limits depth fields) (writableFields limits depth fields)
  | _, [] => .nil
  | depth, (_, value) :: fields =>
      .cons ⟨rfl, written_iff depth value⟩ (written_fields depth fields)
end

theorem dumps_returns_iff {value : Value} : (∃ text, dumps floatRepr limits value = .ok text) ↔
    writable limits limits.depth value = true := by
  rw [← @written_iff floatRepr]
  unfold dumps
  cases hwrite : write floatRepr limits limits.depth value with
  | error failure => exact iff_of_false (fun ⟨_, heq⟩ => by cases heq) not_written_error
  | ok text =>
    rw [written_ok]
    have hany : text.any isSurrogate = false ↔ Encodable text := by
      simp only [List.any_eq_false, Encodable, Bool.not_eq_true]
    rw [← hany]
    cases hsurrogate : text.any isSurrogate with
    | true => simp [Except.bind, hsurrogate]
    | false => simp [Except.bind, hsurrogate]

end Writable

end JsonSyntax
