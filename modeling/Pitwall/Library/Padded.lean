import Mathlib
set_option autoImplicit false

/-!
Lists in lexicographic order, with the end of a list before anything else or read as more of a
least element.
-/

namespace List
variable {α : Type*}

/-- The elements of a list, followed by `pad` without end. -/
def padded (pad : α) (l : List α) (i : ℕ) : α := l.getD i pad

@[simp] theorem padded_nil (pad : α) (i : ℕ) : padded pad [] i = pad := rfl

@[simp] theorem padded_cons_zero (pad x : α) (l : List α) : padded pad (x :: l) 0 = x := rfl

@[simp] theorem padded_cons_succ (pad x : α) (l : List α) (i : ℕ) :
    padded pad (x :: l) (i + 1) = padded pad l i := rfl

/-- `r` is `c` and at least one `pad` after it. -/
def PadExtends (pad : α) (c r : List α) : Prop :=
  ∃ rest, rest ≠ [] ∧ (∀ x ∈ rest, x = pad) ∧ r = c ++ rest

theorem padExtends_cons {pad x y : α} {r c : List α} :
    PadExtends pad (y :: c) (x :: r) ↔ x = y ∧ PadExtends pad c r := by
  unfold PadExtends
  simp only [cons_append, cons.injEq]
  constructor
  · rintro ⟨rest, hne, hpad, hxy, hr⟩
    exact ⟨hxy, rest, hne, hpad, hr⟩
  · rintro ⟨hxy, rest, hne, hpad, hr⟩
    exact ⟨rest, hne, hpad, hxy, hr⟩

variable [LinearOrder α]

theorem cons_le_cons_iff_lex {x y : α} {r c : List α} :
    x :: r ≤ y :: c ↔ x < y ∨ x = y ∧ r ≤ c := by
  rw [le_iff_lt_or_eq, le_iff_lt_or_eq (a := r)]
  constructor
  · rintro (hlt | heq)
    · cases hlt with
      | rel h => exact .inl h
      | cons h => exact .inr ⟨rfl, .inl h⟩
    · obtain ⟨rfl, rfl⟩ := cons.inj heq
      exact .inr ⟨rfl, .inr rfl⟩
  · rintro (hlt | ⟨rfl, hlt | rfl⟩)
    · exact .inl (.rel hlt)
    · exact .inl (.cons hlt)
    · exact .inr rfl

theorem nil_le_lex (c : List α) : [] ≤ c := by
  cases c with
  | nil => exact le_rfl
  | cons y c => exact le_of_lt .nil

theorem not_cons_le_nil {x : α} {r : List α} : ¬ x :: r ≤ [] := by
  intro h
  rcases le_iff_lt_or_eq.mp h with hlt | heq
  · cases hlt
  · cases heq

def PaddedLe (pad : α) (r c : List α) : Prop :=
  (∀ i, padded pad r i = padded pad c i) ∨
    ∃ i, (∀ j < i, padded pad r j = padded pad c j) ∧ padded pad r i < padded pad c i

theorem paddedLe_cons {pad x y : α} {r c : List α} :
    PaddedLe pad (x :: r) (y :: c) ↔ x < y ∨ x = y ∧ PaddedLe pad r c := by
  constructor
  · rintro (heq | ⟨i, hbelow, hlt⟩)
    · exact .inr ⟨heq 0, .inl fun i => heq (i + 1)⟩
    · cases i with
      | zero => exact .inl hlt
      | succ i =>
        refine .inr ⟨hbelow 0 (Nat.succ_pos i), .inr ⟨i, fun j hj => ?_, hlt⟩⟩
        exact hbelow (j + 1) (Nat.succ_lt_succ hj)
  · rintro (hlt | ⟨rfl, heq | ⟨i, hbelow, hlt⟩⟩)
    · exact .inr ⟨0, fun j hj => absurd hj (Nat.not_lt_zero j), hlt⟩
    · refine .inl fun i => ?_
      cases i with
      | zero => rfl
      | succ i => exact heq i
    · refine .inr ⟨i + 1, fun j hj => ?_, hlt⟩
      cases j with
      | zero => rfl
      | succ j => exact hbelow j (Nat.lt_of_succ_lt_succ hj)

theorem paddedLe_nil {pad : α} {c : List α} (h : ∀ x ∈ c, pad ≤ x) : PaddedLe pad [] c := by
  induction c with
  | nil => exact .inl fun _ => rfl
  | cons x c ih =>
    rcases (h x (by simp)).eq_or_lt with rfl | hlt
    · rcases ih fun y hy => h y (by simp [hy]) with heq | ⟨i, hbelow, hlt⟩
      · refine .inl fun i => ?_
        cases i with
        | zero => rfl
        | succ i => exact heq i
      · refine .inr ⟨i + 1, fun j hj => ?_, hlt⟩
        cases j with
        | zero => rfl
        | succ j => exact hbelow j (Nat.lt_of_succ_lt_succ hj)
    · exact .inr ⟨0, fun j hj => absurd hj (Nat.not_lt_zero j), hlt⟩

theorem eq_pad_of_paddedLe_nil {pad : α} {r : List α} (h : ∀ x ∈ r, pad ≤ x)
    (hle : PaddedLe pad r []) : ∀ x ∈ r, x = pad := by
  have hpad : ∀ i, pad ≤ padded pad r i := by
    intro i
    unfold padded
    rw [List.getD_eq_getElem?_getD]
    cases hi : r[i]? with
    | none => exact le_rfl
    | some x => exact h x (mem_of_getElem? hi)
  intro x hx
  obtain ⟨i, hi⟩ := mem_iff_getElem?.mp hx
  rcases hle with heq | ⟨i, -, hlt⟩
  · have hxi := heq i
    rw [padded_nil, padded, List.getD_eq_getElem?_getD, hi] at hxi
    exact hxi
  · exact absurd hlt (not_lt.mpr (hpad i))

theorem le_iff_paddedLe {pad : α} {r c : List α} (hr : ∀ x ∈ r, pad ≤ x)
    (hc : ∀ x ∈ c, pad ≤ x) : r ≤ c ↔ PaddedLe pad r c ∧ ¬ PadExtends pad c r := by
  induction r generalizing c with
  | nil =>
    refine iff_of_true (nil_le_lex c) ⟨paddedLe_nil hc, ?_⟩
    rintro ⟨rest, hne, -, heq⟩
    exact hne (append_eq_nil_iff.mp heq.symm).2
  | cons x r ih =>
    cases c with
    | nil =>
      refine iff_of_false not_cons_le_nil fun h => h.2 ?_
      exact ⟨x :: r, cons_ne_nil x r, eq_pad_of_paddedLe_nil hr h.1, rfl⟩
    | cons y c =>
      have ih := ih (fun z hz => hr z (by simp [hz])) (c := c) fun z hz => hc z (by simp [hz])
      rw [cons_le_cons_iff_lex, paddedLe_cons, padExtends_cons, ih]
      constructor
      · rintro (hlt | ⟨rfl, hle, hext⟩)
        · exact ⟨.inl hlt, fun h => hlt.ne h.1⟩
        · exact ⟨.inr ⟨rfl, hle⟩, fun h => hext h.2⟩
      · rintro ⟨hlt | ⟨rfl, hle⟩, hext⟩
        · exact .inl hlt
        · exact .inr ⟨rfl, hle, fun h => hext ⟨rfl, h⟩⟩

end List
