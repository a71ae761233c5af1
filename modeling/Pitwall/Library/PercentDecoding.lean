import Mathlib.Data.List.Basic
set_option autoImplicit false

/-!
Percent decoding of a text: the octets of its escapes and of its ASCII characters are read as
UTF-8, with a replacement character for each part that is not.
-/

namespace Percent

inductive Piece where
  | octet (b : Nat)
  | char (c : Char)
  deriving DecidableEq

def hexValue (c : Char) : Option Nat :=
  if '0' ≤ c ∧ c ≤ '9' then some (c.toNat - 48)
  else if 'A' ≤ c ∧ c ≤ 'F' then some (c.toNat - 55)
  else if 'a' ≤ c ∧ c ≤ 'f' then some (c.toNat - 87)
  else none

def piece (c : Char) : Piece := if c.toNat < 128 then .octet c.toNat else .char c

def pieces : List Char → List Piece
  | [] => []
  | '%' :: a :: b :: rest =>
      match hexValue a, hexValue b with
      | some x, some y => .octet (16 * x + y) :: pieces rest
      | _, _ => .octet 37 :: pieces (a :: b :: rest)
  | c :: rest => piece c :: pieces rest

/-- What is left of a character: how many octets, in which range the next of them is, and the bits
so far. -/
structure Pending where
  need : Nat
  low : Nat
  high : Nat
  code : Nat
  low_ge : 128 ≤ low

def replacement : Char := Char.ofNat 0xFFFD

def start (b : Nat) : List Char × Option Pending :=
  if b < 0x80 then ([Char.ofNat b], none)
  else if 0xC2 ≤ b ∧ b ≤ 0xDF then ([], some ⟨1, 0x80, 0xBF, b - 0xC0, by decide⟩)
  else if b = 0xE0 then ([], some ⟨2, 0xA0, 0xBF, 0, by decide⟩)
  else if b = 0xED then ([], some ⟨2, 0x80, 0x9F, 0xD, by decide⟩)
  else if 0xE1 ≤ b ∧ b ≤ 0xEF then ([], some ⟨2, 0x80, 0xBF, b - 0xE0, by decide⟩)
  else if b = 0xF0 then ([], some ⟨3, 0x90, 0xBF, 0, by decide⟩)
  else if b = 0xF4 then ([], some ⟨3, 0x80, 0x8F, 4, by decide⟩)
  else if 0xF1 ≤ b ∧ b ≤ 0xF3 then ([], some ⟨3, 0x80, 0xBF, b - 0xF0, by decide⟩)
  else ([replacement], none)

def step : Option Pending → Nat → List Char × Option Pending
  | none, b => start b
  | some p, b =>
      if p.low ≤ b ∧ b ≤ p.high then
        let code := p.code * 64 + (b - 0x80)
        if p.need = 1 then ([Char.ofNat code], none)
        else ([], some ⟨p.need - 1, 0x80, 0xBF, code, by decide⟩)
      else (replacement :: (start b).1, (start b).2)

def flush : Option Pending → List Char
  | none => []
  | some _ => [replacement]

def decode : Option Pending → List Piece → List Char
  | st, [] => flush st
  | st, .octet b :: rest => (step st b).1 ++ decode (step st b).2 rest
  | st, .char c :: rest => flush st ++ c :: decode none rest

def unquote (text : List Char) : List Char := decode none (pieces text)

section Separators
variable {sep : Char}

structure IsSeparator (sep : Char) : Prop where
  ascii : sep.toNat < 128
  not_percent : sep ≠ '%'
  not_hex : hexValue sep = none

theorem pieces_cons_of_ne {c : Char} (h : c ≠ '%') (rest : List Char) :
    pieces (c :: rest) = piece c :: pieces rest := by
  rw [pieces]
  intro a b tail hc
  exact absurd hc h

theorem pieces_append (hsep : IsSeparator sep) (x y : List Char) :
    pieces (x ++ sep :: y) = pieces x ++ .octet sep.toNat :: pieces y := by
  have hy : pieces (sep :: y) = .octet sep.toNat :: pieces y := by
    rw [pieces_cons_of_ne hsep.not_percent, piece, if_pos hsep.ascii]
  induction x using pieces.induct with
  | case1 => simpa [pieces] using hy
  | case2 a b rest u v hu hv ih => simp only [List.cons_append, pieces, hu, hv, ih]
  | case3 a b rest hnone ih =>
    simp only [List.cons_append] at ih ⊢
    have hskip : ∀ tail, pieces ('%' :: a :: b :: tail) = .octet 37 :: pieces (a :: b :: tail) := by
      intro tail
      rw [pieces]
      split
      · rename_i u v hu hv
        exact (hnone u v hu hv).elim
      · rfl
    rw [hskip, hskip, ih, List.cons_append]
  | case4 c rest hc ih =>
    have hkeep : ∀ tail, (∀ a b tail', c = '%' → tail = a :: b :: tail' →
        hexValue a = none ∨ hexValue b = none) →
        pieces (c :: tail) = piece c :: pieces tail := by
      intro tail htail
      by_cases hpercent : c = '%'
      · subst hpercent
        match tail with
        | [] => rfl
        | [a] => rfl
        | a :: b :: tail' =>
          rw [pieces]
          rcases htail a b tail' rfl rfl with hnone | hnone
          · rw [hnone]
            rfl
          · rw [hnone]
            cases hexValue a <;> rfl
      · exact pieces_cons_of_ne hpercent tail
    have hshort : ∀ a b tail', c = '%' → rest ++ sep :: y = a :: b :: tail' →
        hexValue a = none ∨ hexValue b = none := by
      intro a b tail' hpercent hrest
      match rest, hc with
      | [], _ =>
        left
        rw [← (List.cons.inj hrest).1]
        exact hsep.not_hex
      | [d], _ =>
        right
        rw [← (List.cons.inj (List.cons.inj hrest).2).1]
        exact hsep.not_hex
      | d :: e :: rest', hc => exact (hc d e rest' hpercent rfl).elim
    rw [List.cons_append, hkeep _ hshort, ih, hkeep rest fun a b tail' hpercent hrest =>
      (hc a b tail' hpercent hrest).elim, List.cons_append]

theorem decode_append (st : Option Pending) (x y : List Piece) {b : Nat} (hb : b < 128) :
    decode st (x ++ .octet b :: y) = decode st x ++ Char.ofNat b :: decode none y := by
  induction x generalizing st with
  | nil =>
    have hstart : start b = ([Char.ofNat b], none) := if_pos hb
    cases st with
    | none => simp [decode, step, hstart, flush]
    | some p =>
      have hlow : ¬ p.low ≤ b := Nat.not_le.mpr (Nat.lt_of_lt_of_le hb p.low_ge)
      simp [decode, step, hstart, hlow, flush]
  | cons head rest ih =>
    cases head with
    | octet d => simp [decode, ih]
    | char c => simp [decode, ih]

theorem unquote_append (hsep : IsSeparator sep) (x y : List Char) :
    unquote (x ++ sep :: y) = unquote x ++ sep :: unquote y := by
  rw [unquote, pieces_append hsep, decode_append _ _ _ hsep.ascii, Char.ofNat_toNat]
  rfl

end Separators

theorem unquote_of_notMem {s : List Char} (h : '%' ∉ s) : unquote s = s := by
  rw [unquote]
  induction s with
  | nil => rfl
  | cons c s ih =>
    rw [List.mem_cons, not_or] at h
    rw [pieces_cons_of_ne (Ne.symm h.1), piece]
    by_cases hascii : c.toNat < 128
    · rw [if_pos hascii, decode, step, start, if_pos hascii, Char.ofNat_toNat, ih h.2]
      rfl
    · rw [if_neg hascii, decode, ih h.2]
      rfl

end Percent
