import Mathlib.Data.List.Lex
import Pitwall.Library.JsonWriting
import Pitwall.Library.Sorting
set_option autoImplicit false

/-!
JSON values over any type of scalars, and the compact text in which `json.dumps` writes them with
sorted names: the text says which value it is, up to the order of the names.
-/

namespace JsonSyntax
open NumberText

universe u v

/-- A JSON value; an atom is `null`, a truth value or a number. -/
inductive JsonTree (ν : Type u) where
  | atom (a : ν)
  | str (codes : List Nat)
  | arr (items : List (JsonTree ν))
  | obj (fields : List (List Nat × JsonTree ν))

def isDelimiter (code : Nat) : Bool :=
  code = ','.toNat || code = ']'.toNat || code = '\x7d'.toNat

def isOpening (code : Nat) : Bool :=
  code = '"'.toNat || code = '['.toNat || code = '\x7b'.toNat

/-- How the atoms are written: each has a text of its own, without a delimiter, and none that
begins as the other values do. -/
structure AtomText (ν : Type u) (ε : Type v) where
  text : ν → Except ε (List Nat)
  injective : ∀ {a b t}, text a = .ok t → text b = .ok t → a = b
  apart : ∀ {a t}, text a = .ok t → ∀ code ∈ t, isDelimiter code = false
  head : ∀ {a t}, text a = .ok t → ∃ code rest, t = code :: rest ∧ isOpening code = false

variable {ν : Type u} {ε : Type v}

def nameLt (a b : List Nat × JsonTree ν) : Bool := decide (a.1 < b.1)

mutual
def sortKeys : JsonTree ν → JsonTree ν
  | .arr items => .arr (sortKeysItems items)
  | .obj fields => .obj (sortedBy nameLt (sortKeysFields fields))
  | value => value

def sortKeysItems : List (JsonTree ν) → List (JsonTree ν)
  | [] => []
  | x :: items => sortKeys x :: sortKeysItems items

def sortKeysFields : List (List Nat × JsonTree ν) → List (List Nat × JsonTree ν)
  | [] => []
  | (name, x) :: fields => (name, sortKeys x) :: sortKeysFields fields
end

mutual
def UniqueNames : JsonTree ν → Prop
  | .arr items => UniqueNamesItems items
  | .obj fields => (fields.map Prod.fst).Nodup ∧ UniqueNamesFields fields
  | _ => True

def UniqueNamesItems : List (JsonTree ν) → Prop
  | [] => True
  | x :: items => UniqueNames x ∧ UniqueNamesItems items

def UniqueNamesFields : List (List Nat × JsonTree ν) → Prop
  | [] => True
  | (_, x) :: fields => UniqueNames x ∧ UniqueNamesFields fields
end

mutual
/-- Equality of JSON values: objects with as many names are equal where each name of the one has
an equal value in the other. -/
def Same : JsonTree ν → JsonTree ν → Prop
  | .atom a, .atom b => a = b
  | .str s, .str t => s = t
  | .arr items, .arr others => SameItems items others
  | .obj fields, .obj others => fields.length = others.length ∧ SameFields fields others
  | _, _ => False

def SameItems : List (JsonTree ν) → List (JsonTree ν) → Prop
  | [], [] => True
  | x :: items, y :: others => Same x y ∧ SameItems items others
  | _, _ => False

def SameFields : List (List Nat × JsonTree ν) → List (List Nat × JsonTree ν) → Prop
  | [], _ => True
  | (name, x) :: fields, others =>
      (∃ y, (name, y) ∈ others ∧ Same x y) ∧ SameFields fields others
end

section Canonical
variable {fields others : List (List Nat × JsonTree ν)}

theorem sortKeysFields_eq_map (fields : List (List Nat × JsonTree ν)) :
    sortKeysFields fields = fields.map fun p => (p.1, sortKeys p.2) := by
  induction fields with
  | nil => rfl
  | cons p fields ih =>
    obtain ⟨name, x⟩ := p
    rw [sortKeysFields, ih, List.map_cons]

theorem names_sortKeysFields (fields : List (List Nat × JsonTree ν)) :
    (sortKeysFields fields).map Prod.fst = fields.map Prod.fst := by
  rw [sortKeysFields_eq_map, List.map_map]
  rfl

theorem comparesBy_nameLt (fields : List (List Nat × JsonTree ν)) :
    ComparesBy nameLt Prod.fst fields := by
  intro a _ b _
  rw [nameLt, decide_eq_true_eq]

theorem sortedBy_nameLt_of_perm (hnames : (fields.map Prod.fst).Nodup) (h : fields.Perm others) :
    sortedBy nameLt fields = sortedBy nameLt others :=
  sortedBy_eq_of_perm (comparesBy_nameLt fields)
    (fun _ ha _ hb hab => List.inj_on_of_nodup_map hnames ha hb hab) h

theorem sortedBy_nameLt_sortedBy (fields : List (List Nat × JsonTree ν)) :
    sortedBy nameLt (sortedBy nameLt fields) = sortedBy nameLt fields :=
  sortedBy_of_noDescent (noDescent_sortedBy (comparesBy_nameLt fields))

theorem sortedBy_nameLt_map (f : JsonTree ν → JsonTree ν) (fields : List (List Nat × JsonTree ν)) :
    sortedBy nameLt (fields.map fun p => (p.1, f p.2)) =
      (sortedBy nameLt fields).map fun p => (p.1, f p.2) :=
  sortedBy_map fun _ _ _ _ => rfl

theorem perm_of_names {xs ys : List (List Nat × JsonTree ν)} (hxs : (xs.map Prod.fst).Nodup)
    (hlen : xs.length = ys.length) (hsub : ∀ p ∈ xs, p ∈ ys) : xs.Perm ys :=
  (List.subperm_of_subset (List.Nodup.of_map _ hxs) hsub).perm_of_length_le hlen.ge

theorem sortedBy_eq_iff (hfields : (fields.map Prod.fst).Nodup) :
    sortedBy nameLt (sortKeysFields fields) = sortedBy nameLt (sortKeysFields others) ↔
      fields.length = others.length ∧
        ∀ p ∈ fields, ∃ y, (p.1, y) ∈ others ∧ sortKeys p.2 = sortKeys y := by
  have hnames : ((sortKeysFields fields).map Prod.fst).Nodup := by
    rw [names_sortKeysFields]
    exact hfields
  have hlength : ∀ fields : List (List Nat × JsonTree ν),
      (sortKeysFields fields).length = fields.length := by
    intro fields
    rw [sortKeysFields_eq_map, List.length_map]
  constructor
  · intro heq
    have hperm : (sortKeysFields fields).Perm (sortKeysFields others) :=
      (sortedBy_perm nameLt _).symm.trans (heq ▸ sortedBy_perm nameLt _)
    refine ⟨by rw [← hlength fields, hperm.length_eq, hlength], fun p hp => ?_⟩
    have hmem : (p.1, sortKeys p.2) ∈ sortKeysFields others := by
      refine hperm.mem_iff.mp ?_
      rw [sortKeysFields_eq_map]
      exact List.mem_map_of_mem hp
    rw [sortKeysFields_eq_map] at hmem
    obtain ⟨⟨name, y⟩, hy, heq⟩ := List.mem_map.mp hmem
    obtain ⟨rfl, hvalue⟩ := Prod.mk.inj heq
    exact ⟨y, hy, hvalue.symm⟩
  · rintro ⟨hlen, hsub⟩
    refine sortedBy_nameLt_of_perm hnames (perm_of_names hnames ?_ fun q hq => ?_)
    · rw [hlength, hlength, hlen]
    · rw [sortKeysFields_eq_map] at hq ⊢
      obtain ⟨p, hp, rfl⟩ := List.mem_map.mp hq
      obtain ⟨y, hy, hvalue⟩ := hsub p hp
      exact List.mem_map.mpr ⟨(p.1, y), hy, by rw [hvalue]⟩

mutual
theorem sortKeys_sortKeys : ∀ v : JsonTree ν, sortKeys (sortKeys v) = sortKeys v
  | .atom _ => rfl
  | .str _ => rfl
  | .arr items => by rw [sortKeys, sortKeys, sortKeysItems_sortKeysItems items]
  | .obj fields => by
      rw [sortKeys, sortKeys, sortKeysFields_eq_map (sortedBy _ _), ← sortedBy_nameLt_map,
        ← sortKeysFields_eq_map, sortKeysFields_sortKeysFields fields, sortedBy_nameLt_sortedBy]

theorem sortKeysItems_sortKeysItems : ∀ items : List (JsonTree ν),
    sortKeysItems (sortKeysItems items) = sortKeysItems items
  | [] => rfl
  | x :: items => by
      rw [sortKeysItems, sortKeysItems, sortKeys_sortKeys x, sortKeysItems_sortKeysItems items]

theorem sortKeysFields_sortKeysFields : ∀ fields : List (List Nat × JsonTree ν),
    sortKeysFields (sortKeysFields fields) = sortKeysFields fields
  | [] => rfl
  | (name, x) :: fields => by
      rw [sortKeysFields, sortKeysFields, sortKeys_sortKeys x,
        sortKeysFields_sortKeysFields fields]
end

mutual
theorem same_iff : ∀ {v w : JsonTree ν}, UniqueNames v → (Same v w ↔ sortKeys v = sortKeys w)
  | .atom a, w, _ => by cases w <;> simp [Same, sortKeys]
  | .str s, w, _ => by cases w <;> simp [Same, sortKeys]
  | .arr items, w, h => by
      cases w with
      | arr others => rw [Same, sameItems_iff h, sortKeys, sortKeys, JsonTree.arr.injEq]
      | _ => simp [Same, sortKeys]
  | .obj fields, w, h => by
      cases w with
      | obj others =>
        rw [Same, sortKeys, sortKeys, JsonTree.obj.injEq, sortedBy_eq_iff h.1, sameFields_iff h.2]
      | _ => simp [Same, sortKeys]

theorem sameItems_iff : ∀ {items others : List (JsonTree ν)}, UniqueNamesItems items →
    (SameItems items others ↔ sortKeysItems items = sortKeysItems others)
  | [], others, _ => by cases others <;> simp [SameItems, sortKeysItems]
  | x :: items, others, h => by
      cases others with
      | nil => simp [SameItems, sortKeysItems]
      | cons y others =>
        rw [SameItems, same_iff h.1, sameItems_iff h.2, sortKeysItems, sortKeysItems,
          List.cons.injEq]

theorem sameFields_iff : ∀ {fields others : List (List Nat × JsonTree ν)},
    UniqueNamesFields fields → (SameFields fields others ↔
      ∀ p ∈ fields, ∃ y, (p.1, y) ∈ others ∧ sortKeys p.2 = sortKeys y)
  | [], others, _ => by simp [SameFields]
  | (name, x) :: fields, others, h => by
      rw [SameFields, sameFields_iff h.2, List.forall_mem_cons]
      exact and_congr_left' (exists_congr fun y => and_congr_right' (same_iff h.1))
end

end Canonical

section Escapes
variable {code code' : Nat} {codes codes' r r' : List Nat}

theorem escapeCode_cases (code : Nat) :
    (∃ c, escapes.lookup code = some c ∧ escapeCode code = ['\\'.toNat, c.toNat]) ∨
    (code < 32 ∧ escapeCode code = ['\\'.toNat, 'u'.toNat, '0'.toNat, '0'.toNat,
      hexCode (code / 16), hexCode (code % 16)]) ∨
    (code ≠ '"'.toNat ∧ code ≠ '\\'.toNat ∧ escapeCode code = [code]) := by
  unfold escapeCode
  cases hlookup : escapes.lookup code with
  | some c => exact .inl ⟨c, rfl, rfl⟩
  | none =>
    by_cases hcontrol : code < 32
    · exact .inr (.inl ⟨hcontrol, if_pos hcontrol⟩)
    · refine .inr (.inr ⟨?_, ?_, if_neg hcontrol⟩)
      · rintro rfl
        exact absurd hlookup (by decide)
      · rintro rfl
        exact absurd hlookup (by decide)

theorem hexCode_inj {m n : Nat} (h : hexCode m = hexCode n) : m = n := by
  unfold hexCode at h
  split_ifs at h <;> omega

/-- The letters of the short escapes are distinct, and none of them is a `u`. -/
theorem escapes_letter {c c' : Char} (h : escapes.lookup code = some c)
    (h' : escapes.lookup code' = some c') :
    c.toNat ≠ 'u'.toNat ∧ (c.toNat = c'.toNat → code = code') := by
  have hmem : ∀ {k : Nat} {d : Char}, escapes.lookup k = some d → (k, d) ∈ escapes := by
    intro k d hk
    obtain ⟨before, after, heq, -⟩ := List.lookup_eq_some_iff.mp hk
    rw [heq]
    exact List.mem_append_right _ (List.mem_cons_self ..)
  have hall : ∀ p ∈ escapes, p.2.toNat ≠ 'u'.toNat ∧
      ∀ q ∈ escapes, p.2.toNat = q.2.toNat → p.1 = q.1 := by
    decide
  obtain ⟨hu, hinj⟩ := hall _ (hmem h)
  exact ⟨hu, hinj _ (hmem h')⟩

theorem escapeCode_cancel (h : escapeCode code ++ r = escapeCode code' ++ r') :
    code = code' ∧ r = r' := by
  rcases escapeCode_cases code with ⟨c, hc, heq⟩ | ⟨hcontrol, heq⟩ | ⟨hquote, hslash, heq⟩ <;>
  rcases escapeCode_cases code' with
    ⟨c', hc', heq'⟩ | ⟨hcontrol', heq'⟩ | ⟨hquote', hslash', heq'⟩ <;>
  rw [heq, heq'] at h <;>
  simp only [List.cons_append, List.nil_append, List.cons.injEq] at h
  · exact ⟨(escapes_letter hc hc').2 h.2.1, h.2.2⟩
  · exact absurd h.2.1 (escapes_letter hc hc).1
  · exact absurd h.1.symm hslash'
  · exact absurd h.2.1.symm (escapes_letter hc' hc').1
  · have hhigh := hexCode_inj h.2.2.2.2.1
    have hlow := hexCode_inj h.2.2.2.2.2.1
    exact ⟨by omega, h.2.2.2.2.2.2⟩
  · exact absurd h.1.symm hslash'
  · exact absurd h.1 hslash
  · exact absurd h.1 hslash
  · exact h

theorem escapeCode_ne_quote (code : Nat) (r : List Nat) :
    ∃ c rest, escapeCode code ++ r = c :: rest ∧ c ≠ '"'.toNat := by
  rcases escapeCode_cases code with ⟨c, -, heq⟩ | ⟨-, heq⟩ | ⟨hquote, -, heq⟩
  · exact ⟨_, _, by rw [heq, List.cons_append], by decide⟩
  · exact ⟨_, _, by rw [heq, List.cons_append], by decide⟩
  · exact ⟨_, _, by rw [heq, List.cons_append], hquote⟩

theorem escaped_cancel
    (h : codes.flatMap escapeCode ++ '"'.toNat :: r =
      codes'.flatMap escapeCode ++ '"'.toNat :: r') :
    codes = codes' ∧ r = r' := by
  induction codes generalizing codes' with
  | nil =>
    cases codes' with
    | nil => exact ⟨rfl, (List.cons.inj h).2⟩
    | cons code' codes' =>
      rw [List.flatMap_cons, List.append_assoc] at h
      obtain ⟨c, rest, heq, hc⟩ := escapeCode_ne_quote code'
        (codes'.flatMap escapeCode ++ '"'.toNat :: r')
      rw [heq] at h
      exact absurd (List.cons.inj h).1.symm hc
  | cons code codes ih =>
    rw [List.flatMap_cons, List.append_assoc] at h
    cases codes' with
    | nil =>
      obtain ⟨c, rest, heq, hc⟩ := escapeCode_ne_quote code
        (codes.flatMap escapeCode ++ '"'.toNat :: r)
      rw [heq] at h
      exact absurd (List.cons.inj h).1 hc
    | cons code' codes' =>
      rw [List.flatMap_cons, List.append_assoc] at h
      obtain ⟨rfl, hrest⟩ := escapeCode_cancel h
      obtain ⟨rfl, hr⟩ := ih hrest
      exact ⟨rfl, hr⟩

theorem writeString_cancel (h : writeString codes ++ r = writeString codes' ++ r') :
    codes = codes' ∧ r = r' := by
  simp only [writeString, List.cons_append, List.append_assoc, List.cons.injEq, true_and] at h
  exact escaped_cancel h

end Escapes

namespace JsonTree
variable (atoms : AtomText ν ε)

mutual
def write : JsonTree ν → Except ε (List Nat)
  | .atom a => atoms.text a
  | .str codes => .ok (writeString codes)
  | .arr items => (writeItems items).map (bracketed '[' ']')
  | .obj fields => (writeFields fields).map (bracketed '\x7b' '\x7d')

def writeItems : List (JsonTree ν) → Except ε (List (List Nat))
  | [] => .ok []
  | x :: items => (write x).bind fun text => (writeItems items).map fun texts => text :: texts

def writeFields : List (List Nat × JsonTree ν) → Except ε (List (List Nat))
  | [] => .ok []
  | (name, x) :: fields => (write x).bind fun text =>
      (writeFields fields).map fun texts => (writeString name ++ ':'.toNat :: text) :: texts
end

/-- `json.dumps(value, ensure_ascii=False, separators=(",", ":"), sort_keys=True)`. -/
def dumps (value : JsonTree ν) : Except ε (List Nat) := write atoms (sortKeys value)

def Delimited (r : List Nat) : Prop := ∀ code ∈ r.head?, isDelimiter code = true

section Cancel
variable {atoms} {r r' t u : List Nat} {a b : ν}

theorem cancel_apart (ht : ∀ code ∈ t, isDelimiter code = false)
    (hu : ∀ code ∈ u, isDelimiter code = false) (h : t ++ r = u ++ r') (hr : Delimited r)
    (hr' : Delimited r') : t = u ∧ r = r' := by
  have hstop : ∀ {t r : List Nat}, (∀ code ∈ t, isDelimiter code = false) → Delimited r →
      (t ++ r).takeWhile (fun code => !isDelimiter code) = t := by
    intro t r ht hr
    rw [List.takeWhile_append_of_pos fun code hcode => by rw [ht code hcode]; rfl]
    cases r with
    | nil => rw [List.takeWhile_nil, List.append_nil]
    | cons code r =>
      rw [List.takeWhile_cons, hr code rfl]
      exact List.append_nil t
  have htu : t = u := by rw [← hstop ht hr, h, hstop hu hr']
  subst htu
  exact ⟨rfl, List.append_cancel_left h⟩

def commas : List (List Nat) → List Nat
  | [] => []
  | t :: texts => ','.toNat :: (t ++ commas texts)

theorem intercalate_cons (t : List Nat) (texts : List (List Nat)) :
    List.intercalate [','.toNat] (t :: texts) = t ++ commas texts := by
  induction texts generalizing t with
  | nil => simp [List.intercalate, commas]
  | cons u texts ih =>
    have hstep : List.intercalate [','.toNat] (t :: u :: texts) =
        t ++ ','.toNat :: List.intercalate [','.toNat] (u :: texts) := by
      simp [List.intercalate]
    rw [hstep, ih, commas]

section Elements
variable {α : Type u} {E : α → List Nat → Prop} {xs ys : List α} {ts us : List (List Nat)}

/-- The text of `x`, before a delimiter, is that of no other element. -/
def Cancels (E : α → List Nat → Prop) (x : α) : Prop :=
  ∀ ⦃y t u r r'⦄, E x t → E y u → t ++ r = u ++ r' → Delimited r → Delimited r' → x = y ∧ r = r'

theorem delimited_commas {closing : Char} (hclosing : isDelimiter closing.toNat = true)
    (ts : List (List Nat)) (r : List Nat) : Delimited (commas ts ++ closing.toNat :: r) := by
  cases ts with
  | nil =>
    rintro code ⟨⟩
    exact hclosing
  | cons t ts =>
    rintro code ⟨⟩
    rfl

theorem commas_cancel {closing : Char} (hclosing : isDelimiter closing.toNat = true)
    (hcomma : closing.toNat ≠ ','.toNat) (hxs : ∀ x ∈ xs, Cancels E x)
    (ht : List.Forall₂ E xs ts) (hu : List.Forall₂ E ys us)
    (h : commas ts ++ closing.toNat :: r = commas us ++ closing.toNat :: r') :
    xs = ys ∧ r = r' := by
  induction ht generalizing ys us with
  | nil =>
    cases hu with
    | nil => exact ⟨rfl, (List.cons.inj h).2⟩
    | cons hy hys => exact absurd (List.cons.inj h).1 hcomma
  | cons hx hrest ih =>
    cases hu with
    | nil => exact absurd (List.cons.inj h).1.symm hcomma
    | cons hy hys =>
      simp only [commas, List.cons_append, List.append_assoc, List.cons.injEq, true_and] at h
      obtain ⟨hxy, htail⟩ := hxs _ (List.mem_cons_self ..) hx hy h
        (delimited_commas hclosing _ _) (delimited_commas hclosing _ _)
      obtain ⟨hxsys, hr⟩ := ih (fun x hmem => hxs x (List.mem_cons_of_mem _ hmem)) hys htail
      exact ⟨by rw [hxy, hxsys], hr⟩

theorem bracketed_cancel {opening closing : Char} (hclosing : isDelimiter closing.toNat = true)
    (hcomma : closing.toNat ≠ ','.toNat)
    (hhead : ∀ {x t}, E x t → ∃ code rest, t = code :: rest ∧ isDelimiter code = false)
    (hxs : ∀ x ∈ xs, Cancels E x) (ht : List.Forall₂ E xs ts) (hu : List.Forall₂ E ys us)
    (h : bracketed opening closing ts ++ r = bracketed opening closing us ++ r') :
    xs = ys ∧ r = r' := by
  simp only [bracketed, List.cons_append, List.append_assoc, List.nil_append, List.cons.injEq,
    true_and] at h
  have hends : ∀ {x t rest r}, E x t → closing.toNat :: r ≠ t ++ rest := by
    intro x t rest r hx heq
    obtain ⟨code, tail, rfl, hcode⟩ := hhead hx
    rw [← (List.cons.inj heq).1, hclosing] at hcode
    cases hcode
  cases ht with
  | nil =>
    cases hu with
    | nil => exact ⟨rfl, (List.cons.inj h).2⟩
    | cons hy hys =>
      rw [intercalate_cons, List.append_assoc] at h
      exact absurd h (hends hy)
  | cons hx hrest =>
    rw [intercalate_cons, List.append_assoc] at h
    cases hu with
    | nil => exact absurd h.symm (hends hx)
    | cons hy hys =>
      rw [intercalate_cons, List.append_assoc] at h
      obtain ⟨hxy, htail⟩ := hxs _ (List.mem_cons_self ..) hx hy h
        (delimited_commas hclosing _ _) (delimited_commas hclosing _ _)
      obtain ⟨hxsys, hr⟩ := commas_cancel hclosing hcomma
        (fun x hmem => hxs x (List.mem_cons_of_mem _ hmem)) hrest hys htail
      exact ⟨by rw [hxy, hxsys], hr⟩

end Elements

def FieldText (atoms : AtomText ν ε) (field : List Nat × JsonTree ν) (t : List Nat) : Prop :=
  ∃ text, write atoms field.2 = .ok text ∧ t = writeString field.1 ++ ':'.toNat :: text

theorem forall₂_writeItems {items : List (JsonTree ν)} {ts : List (List Nat)}
    (h : writeItems atoms items = .ok ts) :
    List.Forall₂ (fun v t => write atoms v = .ok t) items ts := by
  induction items generalizing ts with
  | nil =>
    cases h
    exact .nil
  | cons x items ih =>
    rw [writeItems] at h
    obtain ⟨t, hx, hrest⟩ := Except.bind_eq_ok_iff.mp h
    obtain ⟨texts, htexts, rfl⟩ := Except.map_eq_ok_iff.mp hrest
    exact .cons hx (ih htexts)

theorem forall₂_writeFields {fields : List (List Nat × JsonTree ν)} {ts : List (List Nat)}
    (h : writeFields atoms fields = .ok ts) : List.Forall₂ (FieldText atoms) fields ts := by
  induction fields generalizing ts with
  | nil =>
    cases h
    exact .nil
  | cons p fields ih =>
    obtain ⟨name, x⟩ := p
    rw [writeFields] at h
    obtain ⟨t, hx, hrest⟩ := Except.bind_eq_ok_iff.mp h
    obtain ⟨texts, htexts, rfl⟩ := Except.map_eq_ok_iff.mp hrest
    exact .cons ⟨t, hx, rfl⟩ (ih htexts)

/-- The character with which a value begins, unless it is an atom. -/
def opening : JsonTree ν → Option Nat
  | .atom _ => none
  | .str _ => some '"'.toNat
  | .arr _ => some '['.toNat
  | .obj _ => some '\x7b'.toNat

theorem write_head {v : JsonTree ν} (h : write atoms v = .ok t) :
    ∃ code rest, t = code :: rest ∧ isDelimiter code = false ∧
      (if isOpening code then some code else none) = opening v := by
  cases v with
  | atom a =>
    obtain ⟨code, rest, rfl, hcode⟩ := atoms.head h
    exact ⟨code, rest, rfl, atoms.apart h code (List.mem_cons_self ..), by rw [hcode]; rfl⟩
  | str codes =>
    cases h
    exact ⟨_, _, rfl, by decide, rfl⟩
  | arr items =>
    obtain ⟨texts, -, rfl⟩ := Except.map_eq_ok_iff.mp h
    exact ⟨_, _, rfl, by decide, rfl⟩
  | obj fields =>
    obtain ⟨texts, -, rfl⟩ := Except.map_eq_ok_iff.mp h
    exact ⟨_, _, rfl, by decide, rfl⟩

theorem opening_eq {v w : JsonTree ν} (hv : write atoms v = .ok t) (hw : write atoms w = .ok u)
    (h : t ++ r = u ++ r') : opening v = opening w := by
  obtain ⟨code, rest, rfl, -, hopening⟩ := write_head hv
  obtain ⟨code', rest', rfl, -, hopening'⟩ := write_head hw
  rw [← hopening, ← hopening', (List.cons.inj h).1]

theorem fieldText_head {field : List Nat × JsonTree ν} (h : FieldText atoms field t) :
    ∃ code rest, t = code :: rest ∧ isDelimiter code = false := by
  obtain ⟨text, -, rfl⟩ := h
  exact ⟨_, _, rfl, by decide⟩

theorem cancels_field {field : List Nat × JsonTree ν}
    (h : Cancels (fun v t => write atoms v = .ok t) field.2) : Cancels (FieldText atoms) field := by
  rintro ⟨name', y⟩ t u r r' ⟨text, hx, rfl⟩ ⟨text', hy, rfl⟩ htu hr hr'
  rw [List.append_assoc, List.append_assoc] at htu
  obtain ⟨hname, htext⟩ := writeString_cancel htu
  obtain ⟨hvalue, hrest⟩ := h hx hy (List.cons.inj htext).2 hr hr'
  exact ⟨Prod.ext hname hvalue, hrest⟩

mutual
theorem cancels : ∀ v : JsonTree ν, Cancels (fun v t => write atoms v = .ok t) v
  | .atom a => by
      intro w t u r r' ht hu h hr hr'
      cases w with
      | atom b =>
        obtain ⟨rfl, hrest⟩ := cancel_apart (atoms.apart ht) (atoms.apart hu) h hr hr'
        exact ⟨by rw [atoms.injective ht hu], hrest⟩
      | _ => cases opening_eq ht hu h
  | .str codes => by
      intro w t u r r' ht hu h hr hr'
      cases w with
      | str codes' =>
        cases ht
        cases hu
        obtain ⟨hcodes, hrest⟩ := writeString_cancel h
        exact ⟨by rw [hcodes], hrest⟩
      | _ => cases opening_eq ht hu h
  | .arr items => by
      intro w t u r r' ht hu h hr hr'
      cases w with
      | arr others =>
        obtain ⟨texts, htexts, rfl⟩ := Except.map_eq_ok_iff.mp ht
        obtain ⟨texts', htexts', rfl⟩ := Except.map_eq_ok_iff.mp hu
        obtain ⟨hitems, hrest⟩ := bracketed_cancel (by decide) (by decide)
          (fun hx => (write_head hx).imp fun _ => .imp fun _ hx => ⟨hx.1, hx.2.1⟩)
          (cancelsItems items) (forall₂_writeItems htexts) (forall₂_writeItems htexts') h
        exact ⟨by rw [hitems], hrest⟩
      | _ => cases opening_eq ht hu h
  | .obj fields => by
      intro w t u r r' ht hu h hr hr'
      cases w with
      | obj others =>
        obtain ⟨texts, htexts, rfl⟩ := Except.map_eq_ok_iff.mp ht
        obtain ⟨texts', htexts', rfl⟩ := Except.map_eq_ok_iff.mp hu
        obtain ⟨hfields, hrest⟩ := bracketed_cancel (by decide) (by decide) fieldText_head
          (fun field hmem => cancels_field (cancelsFields fields field hmem))
          (forall₂_writeFields htexts) (forall₂_writeFields htexts') h
        exact ⟨by rw [hfields], hrest⟩
      | _ => cases opening_eq ht hu h

theorem cancelsItems : ∀ (items : List (JsonTree ν)), ∀ v ∈ items,
    Cancels (fun v t => write atoms v = .ok t) v
  | [] => fun _ hmem => absurd hmem List.not_mem_nil
  | x :: items => List.forall_mem_cons.mpr ⟨cancels x, cancelsItems items⟩

theorem cancelsFields : ∀ (fields : List (List Nat × JsonTree ν)), ∀ field ∈ fields,
    Cancels (fun v t => write atoms v = .ok t) field.2
  | [] => fun _ hmem => absurd hmem List.not_mem_nil
  | (_, x) :: fields => List.forall_mem_cons.mpr ⟨cancels x, cancelsFields fields⟩
end

theorem write_injective {v w : JsonTree ν} (hv : write atoms v = .ok t)
    (hw : write atoms w = .ok t) : v = w := by
  have hend : Delimited [] := fun code hcode => by cases hcode
  exact (cancels v hv hw (rfl : t ++ [] = t ++ []) hend hend).1

theorem dumps_eq_iff {v w : JsonTree ν} (hnames : UniqueNames v) (hv : dumps atoms v = .ok t) :
    dumps atoms w = .ok t ↔ Same v w := by
  rw [same_iff hnames]
  refine ⟨fun hw => write_injective hv hw, fun h => ?_⟩
  rw [dumps, ← h]
  exact hv

end Cancel

end JsonTree

end JsonSyntax
