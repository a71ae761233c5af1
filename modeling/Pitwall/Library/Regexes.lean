import Mathlib.Data.List.Basic
set_option autoImplicit false

/-!
Regular expressions with lookaround over any alphabet, matched by trying the alternatives in their
order, and the replacement of every match in a text. The expressions that are replaced match no
empty text.
-/

universe u

inductive Regex (α : Type u) where
  | empty
  | char (p : α → Bool)
  | seq (a b : Regex α)
  | alt (a b : Regex α)
  | star (a : Regex α) (lazily : Bool)
  | boundary
  | behind (width : Nat) (a : Regex α)
  | notBehind (width : Nat) (a : Regex α)
  | notAhead (a : Regex α)

namespace Regex
variable {α : Type u}

def times (a : Regex α) : Nat → Regex α
  | 0 => .empty
  | n + 1 => .seq a (times a n)

def atLeast (n : Nat) (a : Regex α) : Regex α := .seq (a.times n) (.star a false)

def optional (a : Regex α) : Regex α := .alt a .empty

def all : List (Regex α) → Regex α
  | [] => .empty
  | a :: rest => .seq a (all rest)

def any : List (Regex α) → Regex α
  | [] => .char fun _ => false
  | a :: rest => .alt a (any rest)

section Match
variable (isWord : α → Bool) (text : List α)

def iterate (step : Nat → List Nat) (lazily : Bool) : Nat → Nat → List Nat
  | 0, i => [i]
  | n + 1, i =>
      let more := ((step i).filter fun j => i < j).flatMap (iterate step lazily n)
      if lazily then i :: more else more ++ [i]

def isBoundary (i : Nat) : Bool :=
  (0 < i && text[i - 1]?.any isWord) != text[i]?.any isWord

/-- The ends of the matches from a place on, in the order in which they are tried. -/
def ends : Regex α → Nat → List Nat
  | .empty, i => [i]
  | .char p, i => if text[i]?.any p then [i + 1] else []
  | .seq a b, i => (ends a i).flatMap (ends b)
  | .alt a b, i => ends a i ++ ends b i
  | .star a lazily, i => iterate (ends a) lazily (text.length - i) i
  | .boundary, i => if isBoundary isWord text i then [i] else []
  | .behind width a, i => if width ≤ i ∧ i ∈ ends a (i - width) then [i] else []
  | .notBehind width a, i => if width ≤ i ∧ i ∈ ends a (i - width) then [] else [i]
  | .notAhead a, i => if ends a i = [] then [i] else []

def pieces (regex : Regex α) : Nat → Nat → List (α ⊕ List α)
  | 0, _ => []
  | n + 1, i =>
      match text[i]? with
      | none => []
      | some c =>
          match (ends isWord text regex i).head? with
          | some j =>
              if i < j then .inr ((text.take j).drop i) :: pieces regex n j
              else .inl c :: pieces regex n (i + 1)
          | none => .inl c :: pieces regex n (i + 1)

/-- The texts of the matches of `re.finditer`. -/
def found (regex : Regex α) (text : List α) : List (List α) :=
  (pieces isWord text regex text.length 0).filterMap Sum.getRight?

/-- `re.sub` by a fixed text. -/
def sub (regex : Regex α) (replacement text : List α) : List α :=
  (pieces isWord text regex text.length 0).flatMap (Sum.elim List.singleton fun _ => replacement)

/-- `re.sub` by a text that is made of the match. -/
def subBy (regex : Regex α) (replacement : List α → List α) (text : List α) : List α :=
  (pieces isWord text regex text.length 0).flatMap (Sum.elim List.singleton replacement)

variable {isWord text} {regex : Regex α}

theorem flatMap_pieces {n i : Nat} (h : text.length ≤ n + i) :
    (pieces isWord text regex n i).flatMap (Sum.elim List.singleton id) = text.drop i := by
  induction n generalizing i with
  | zero => exact (List.drop_eq_nil_of_le (by omega)).symm
  | succ n ih =>
    rw [pieces]
    cases hc : text[i]? with
    | none => exact (List.drop_eq_nil_of_le (List.getElem?_eq_none_iff.mp hc)).symm
    | some c =>
      obtain ⟨hi, hget⟩ := List.getElem?_eq_some_iff.mp hc
      have hplain : (Sum.inl c :: pieces isWord text regex n (i + 1)).flatMap
          (Sum.elim List.singleton id) = text.drop i := by
        rw [List.flatMap_cons, ih (by omega), List.drop_eq_getElem_cons hi, hget]
        rfl
      dsimp only
      split
      · split
        · rename_i j _ hj
          rw [List.flatMap_cons, ih (by omega), List.drop_take]
          calc (text.drop i).take (j - i) ++ text.drop j
              = (text.drop i).take (j - i) ++ (text.drop i).drop (j - i) := by
                rw [List.drop_drop, Nat.add_sub_cancel' (Nat.le_of_lt hj)]
            _ = text.drop i := List.take_append_drop _ _
        · exact hplain
      · exact hplain

theorem sub_of_found_nil {replacement : List α} (h : found isWord regex text = []) :
    sub isWord regex replacement text = text := by
  have hsame : ∀ piece ∈ pieces isWord text regex text.length 0,
      Sum.elim List.singleton (fun _ => replacement) piece =
        Sum.elim List.singleton id piece := by
    intro piece hpiece
    cases piece with
    | inl c => rfl
    | inr s => exact absurd (List.filterMap_eq_nil_iff.mp h _ hpiece) (Option.some_ne_none s)
  rw [sub, List.flatMap_congr hsame, flatMap_pieces (by omega), List.drop_zero]

end Match

end Regex
