import Mathlib.Data.List.Infix
set_option autoImplicit false

/-!
Replacing every occurrence of a text, from left to right, in a list whose elements are compared by
a key; and texts that are replaced one after another. Where no two occurrences overlap, what comes
out is what is made by replacing them all at once, so the order does not count and nothing that was
covered is left.
-/

namespace Replacement

universe u v
variable {α : Type u} {β : Type v}

section Definitions
variable [DecidableEq α] (key : β → α) (old : List α) (new : List β)

/-- What comes out from a place on, where some elements more are part of an occurrence. -/
def replaceFrom : Nat → List β → List β
  | _, [] => []
  | 0, c :: t =>
      if old <+: (c :: t).map key then new ++ replaceFrom (old.length - 1) t
      else c :: replaceFrom 0 t
  | n + 1, _ :: t => replaceFrom n t

def replace (t : List β) : List β := replaceFrom key old new 0 t

def replaceEach (olds : List (List α)) (t : List β) : List β :=
  olds.foldl (fun t old => replace key old new t) t

end Definitions

def Separate (P : List α → Prop) (t : List α) : Prop :=
  ∀ u v i j, P u → P v → u <+: t.drop i → v <+: t.drop j →
    i < j + v.length → j < i + u.length → i = j ∧ u = v

def Apart (u v : List α) : Prop :=
  ∀ t i j, u <+: List.drop i t → v <+: List.drop j t →
    i < j + v.length → j < i + u.length → i = j ∧ u = v

inductive Censors (key : β → α) (new : List β) (P : List α → Prop) : List β → List β → Prop where
  | nil : Censors key new P [] []
  | secret {w t t' : List β} : P (w.map key) → w ≠ [] → Censors key new P t t' →
      Censors key new P (w ++ t) (new ++ t')
  | char {c : β} {t t' : List β} : (∀ u, P u → ¬ u <+: (c :: t).map key) → Censors key new P t t' →
      Censors key new P (c :: t) (c :: t')

section Replace
variable [DecidableEq α] {key : β → α} {old : List α} {new : List β}

theorem replaceFrom_zero {c : β} {t : List β} : replaceFrom key old new 0 (c :: t) =
    if old <+: (c :: t).map key then new ++ replaceFrom key old new (old.length - 1) t
    else c :: replaceFrom key old new 0 t := rfl

theorem replaceFrom_eq (n : Nat) (t : List β) :
    replaceFrom key old new n t = replace key old new (t.drop n) := by
  induction t generalizing n with
  | nil =>
    rw [List.drop_nil]
    cases n with
    | zero => rfl
    | succ n => rfl
  | cons c t ih =>
    cases n with
    | zero => rfl
    | succ n => exact ih n

@[simp] theorem replace_nil : replace key old new [] = [] := rfl

theorem replace_cons {c : β} {t : List β} (h : ¬ old <+: (c :: t).map key) :
    replace key old new (c :: t) = c :: replace key old new t := by
  exact replaceFrom_zero.trans (if_neg h)

theorem replace_front (hold : old ≠ []) {w t : List β} (hw : w.map key = old) :
    replace key old new (w ++ t) = new ++ replace key old new t := by
  cases w with
  | nil => exact absurd hw.symm hold
  | cons c w =>
    have hfront : old <+: (c :: (w ++ t)).map key := by
      rw [← List.cons_append, List.map_append, hw]
      exact List.prefix_append _ _
    have hlen : old.length - 1 = w.length := by
      rw [← hw, List.length_map, List.length_cons, Nat.add_sub_cancel]
    refine (replaceFrom_zero.trans (if_pos hfront)).trans ?_
    rw [replaceFrom_eq, hlen, List.drop_left]

theorem replace_append {w t : List β}
    (h : ∀ y, y <:+ w → y ≠ [] → ¬ old <+: (y ++ t).map key) :
    replace key old new (w ++ t) = w ++ replace key old new t := by
  induction w with
  | nil => rfl
  | cons c w ih =>
    have hfront := h (c :: w) List.suffix_rfl (List.cons_ne_nil c w)
    rw [List.cons_append] at hfront
    rw [List.cons_append, replace_cons hfront,
      ih fun y hy => h y (hy.trans (List.suffix_cons c w)), List.cons_append]

theorem replace_of_not_infix {t : List β} (h : ¬ old <:+: t.map key) :
    replace key old new t = t := by
  have hpart := @replace_append _ _ _ key old new t [] fun y hy _ hold => h <| by
    rw [List.append_nil] at hold
    exact hold.isInfix.trans (hy.isInfix.map key)
  simpa using hpart

theorem replace_ne_nil {t : List β} (hnew : new ≠ []) (ht : t ≠ []) :
    replace key old new t ≠ [] := by
  cases t with
  | nil => exact absurd rfl ht
  | cons c t =>
    refine ne_of_eq_of_ne replaceFrom_zero ?_
    split
    · exact List.append_ne_nil_of_left_ne_nil hnew _
    · exact List.cons_ne_nil c _

theorem map_replace (t : List β) :
    (replace key old new t).map key = replace id old (new.map key) (t.map key) := by
  have hfrom : ∀ n, (replaceFrom key old new n t).map key =
      replaceFrom id old (new.map key) n (t.map key) := by
    induction t with
    | nil => exact fun n => rfl
    | cons c t ih =>
      intro n
      cases n with
      | zero =>
        rw [replaceFrom_zero, List.map_cons, replaceFrom_zero, List.map_id, ← List.map_cons]
        split
        · rw [List.map_append, ih]
        · rw [List.map_cons, ih]
      | succ n => exact ih n
  exact hfrom 0

theorem replaceEach_append (olds others : List (List α)) (t : List β) :
    replaceEach key new (olds ++ others) t =
      replaceEach key new others (replaceEach key new olds t) := List.foldl_append

theorem map_replaceEach (olds : List (List α)) (t : List β) :
    (replaceEach key new olds t).map key = replaceEach id (new.map key) olds (t.map key) := by
  induction olds generalizing t with
  | nil => rfl
  | cons old olds ih =>
    rw [replaceEach, List.foldl_cons, replaceEach, List.foldl_cons, ← map_replace]
    exact ih _

end Replace

section Censor
variable {key : β → α} {new : List β} {P Q : List α → Prop}

theorem Separate.drop {t : List α} (h : Separate P t) (n : Nat) : Separate P (t.drop n) := by
  intro u v i j hu hv hi hj hij hji
  rw [List.drop_drop] at hi hj
  obtain ⟨hsame, huv⟩ := h u v (n + i) (n + j) hu hv hi hj (by omega) (by omega)
  exact ⟨by omega, huv⟩

theorem Separate.of_append {w t : List α} (h : Separate P (w ++ t)) : Separate P t := by
  have hdrop := h.drop w.length
  rwa [List.drop_left] at hdrop

theorem Separate.mono {t : List α} (h : Separate P t) (hPQ : ∀ u, Q u → P u) : Separate Q t :=
  fun u v i j hu hv => h u v i j (hPQ u hu) (hPQ v hv)

theorem Censors.prefix_of_prefix {t t' : List β} (h : Censors key new P t t') {z v : List α}
    (hz : z ≠ []) (hapart : (∃ u, P u ∧ u <:+: t.map key) → Apart (z ++ v) (new.map key))
    (hv : v <+: t'.map key) : v <+: t.map key := by
  induction h generalizing z v with
  | nil => exact hv
  | @secret w t t' hw hne h ih =>
    cases v with
    | nil => exact List.nil_prefix
    | cons d v =>
      have hocc : w.map key <:+: (w ++ t).map key := by
        rw [List.map_append]
        exact (List.prefix_append _ _).isInfix
      have hover := (hapart ⟨_, hw, hocc⟩) (z ++ (new ++ t').map key) 0 z.length
        (List.prefix_append_right_inj z |>.mpr hv)
        (by rw [List.drop_left, List.map_append]; exact List.prefix_append _ _)
        (Nat.add_pos_left (List.length_pos_iff.mpr hz) _)
        (by rw [List.length_append, List.length_cons]; omega)
      exact absurd hover.1.symm (List.length_pos_iff.mpr hz).ne'
  | @char c t t' hnone h ih =>
    cases v with
    | nil => exact List.nil_prefix
    | cons d v =>
      rw [List.map_cons, List.cons_prefix_cons] at hv ⊢
      refine ⟨hv.1, @ih (z ++ [d]) v (by simp) (fun hex => ?_) hv.2⟩
      obtain ⟨u, hu, hocc⟩ := hex
      rw [List.append_assoc]
      exact hapart ⟨u, hu, hocc.trans (List.suffix_cons _ _).isInfix⟩

theorem Censors.append_inv {w t s' : List β} (h : Censors key new P (w ++ t) s')
    (hnone : ∀ y, y <:+ w → y ≠ [] → ∀ u, P u → ¬ u <+: (y ++ t).map key) :
    ∃ t', s' = w ++ t' ∧ Censors key new P t t' := by
  induction w generalizing s' with
  | nil => exact ⟨s', rfl, h⟩
  | cons c w ih =>
    generalize hs : c :: w ++ t = s at h
    cases h with
    | nil => cases hs
    | @secret x r r' hx hne h =>
      refine absurd ?_ (hnone (c :: w) List.suffix_rfl (List.cons_ne_nil c w) _ hx)
      rw [hs, List.map_append]
      exact List.prefix_append _ _
    | @char d r r' hd h =>
      obtain ⟨rfl, rfl⟩ := List.cons.inj hs
      obtain ⟨t', rfl, ht⟩ := ih h fun y hy => hnone y (hy.trans (List.suffix_cons c w))
      exact ⟨t', rfl, ht⟩

variable [DecidableEq α]

theorem replace_new {old : List α} (hold : old ≠ []) (hapart : Apart old (new.map key))
    (t : List β) : replace key old new (new ++ t) = new ++ replace key old new t := by
  by_cases hsame : old = new.map key
  · exact replace_front hold hsame.symm
  · refine replace_append fun y hy hne hfront => hsame ?_
    obtain ⟨x, rfl⟩ := hy
    have hlen : 0 < y.length := List.length_pos_iff.mpr hne
    refine (hapart (((x ++ y) ++ t).map key) x.length 0 ?_ ?_ ?_ ?_).2
    · rw [List.append_assoc, List.map_append, List.drop_left' (List.length_map key)]
      exact hfront
    · rw [List.drop_zero, @List.map_append _ _ key (x ++ y)]
      exact List.prefix_append _ _
    · rw [List.length_map, List.length_append]
      omega
    · exact Nat.add_pos_right _ (List.length_pos_iff.mpr hold)

theorem Censors.replace {old : List α} (hold : old ≠ []) (hnew : ¬ P old)
    (hP : ∀ u, P u → u ≠ []) {t t' : List β}
    (hapart : (∃ u, P u ∧ u <:+: t.map key) → Apart old (new.map key))
    (hsep : Separate (fun u => P u ∨ u = old) (t.map key)) (h : Censors key new P t t') :
    Censors key new (fun u => P u ∨ u = old) t (replace key old new t') := by
  induction hn : t.length using Nat.strong_induction_on generalizing t t' with
  | h n ih =>
    subst hn
    cases h with
    | nil => exact .nil
    | @secret w t t' hw hne h =>
      rw [List.map_append] at hsep hapart
      rw [replace_new hold (hapart ⟨_, hw, (List.prefix_append _ _).isInfix⟩)]
      have hbehind : (∃ u, P u ∧ u <:+: t.map key) → Apart old (new.map key) :=
        fun ⟨u, hu, hocc⟩ => hapart ⟨u, hu, hocc.trans (List.suffix_append _ _).isInfix⟩
      refine .secret (.inl hw) hne (ih t.length ?_ hbehind hsep.of_append h rfl)
      rw [List.length_append]
      exact Nat.lt_add_of_pos_left (List.length_pos_iff.mpr hne)
    | @char c t t' hnone h =>
      by_cases hfront : old <+: (c :: t).map key
      · obtain ⟨r, hr⟩ := hfront
        obtain ⟨w, rest, hcut, hw, hrest⟩ := List.map_eq_append_iff.mp hr.symm
        have hchar : Censors key new P (c :: t) (c :: t') := .char hnone h
        have hshort : rest.length < (c :: t).length := by
          rw [hcut, List.length_append, ← @List.length_map _ _ w key, hw]
          exact Nat.lt_add_of_pos_left (List.length_pos_iff.mpr hold)
        rw [hcut] at hchar hsep hapart
        have hinside : ∀ y, y <:+ w → y ≠ [] → ∀ u, P u → ¬ u <+: (y ++ rest).map key := by
          -- an occurrence inside the one that is replaced would overlap it
          rintro y ⟨x, rfl⟩ hne u hu hocc
          have hlen : 0 < y.length := List.length_pos_iff.mpr hne
          have hboth := hsep old u 0 x.length (.inr rfl) (.inl hu) ?_ ?_ ?_ ?_
          · exact hnew (hboth.2 ▸ hu)
          · rw [List.drop_zero, List.map_append, hw]
            exact List.prefix_append _ _
          · rw [List.append_assoc, List.map_append, List.drop_left' (List.length_map key)]
            exact hocc
          · exact Nat.add_pos_right _ (List.length_pos_iff.mpr (hP u hu))
          · rw [← hw, List.length_map, List.length_append]
            omega
        obtain ⟨t'', ht'', hcensors⟩ := hchar.append_inv hinside
        have hwne : w ≠ [] := by
          rintro rfl
          exact hold hw.symm
        rw [List.map_append] at hsep hapart
        have hbehind : (∃ u, P u ∧ u <:+: rest.map key) → Apart old (new.map key) :=
          fun ⟨u, hu, hocc⟩ => hapart ⟨u, hu, hocc.trans (List.suffix_append _ _).isInfix⟩
        rw [ht'', replace_front hold hw, hcut]
        exact .secret (.inr hw) hwne (ih rest.length hshort hbehind hsep.of_append hcensors rfl)
      · have hbehind : (∃ u, P u ∧ u <:+: t.map key) → Apart old (new.map key) :=
          fun ⟨u, hu, hocc⟩ => hapart ⟨u, hu, hocc.trans (List.suffix_cons _ _).isInfix⟩
        have hnone' : ¬ old <+: (c :: t').map key := by
          intro hold'
          cases old with
          | nil => exact hold rfl
          | cons d v =>
            rw [List.map_cons, List.cons_prefix_cons] at hold'
            refine hfront ?_
            rw [List.map_cons, List.cons_prefix_cons]
            exact ⟨hold'.1, h.prefix_of_prefix (List.cons_ne_nil d []) hbehind hold'.2⟩
        rw [replace_cons hnone']
        refine .char ?_ (ih t.length (by simp) hbehind (hsep.drop 1) h rfl)
        rintro u (hu | rfl)
        · exact hnone u hu
        · exact hfront

theorem Censors.replaceEach {olds : List (List α)} (hnodup : olds.Nodup)
    (holds : ∀ old ∈ olds, old ≠ [] ∧ ¬ P old) (hP : ∀ u, P u → u ≠ []) {t t' : List β}
    (hapart : ∀ u, P u ∨ u ∈ olds → u <:+: t.map key →
      ∀ old ∈ olds, old ≠ u → Apart old (new.map key))
    (hsep : Separate (fun u => P u ∨ u ∈ olds) (t.map key))
    (h : Censors key new P t t') :
    Censors key new (fun u => P u ∨ u ∈ olds) t (replaceEach key new olds t') := by
  induction olds generalizing P t' with
  | nil =>
    have hsame : (fun u => P u ∨ u ∈ ([] : List (List α))) = P := by
      funext u
      simp
    rw [hsame]
    exact h
  | cons old olds ih =>
    obtain ⟨hold, hnew⟩ := holds old (List.mem_cons_self ..)
    obtain ⟨hmem, hnodup⟩ := List.nodup_cons.mp hnodup
    have hsame : (fun u => (P u ∨ u = old) ∨ u ∈ olds) = fun u => P u ∨ u ∈ old :: olds := by
      funext u
      rw [List.mem_cons, or_assoc]
    have hone := h.replace hold hnew hP
      (fun ⟨u, hu, hocc⟩ => hapart u (.inl hu) hocc old (List.mem_cons_self ..)
        fun heq => hnew (heq ▸ hu))
      (hsep.mono fun u hu => hu.imp_right fun heq => List.mem_cons.mpr (.inl heq))
    rw [← hsame] at hsep ⊢
    refine ih hnodup (fun u hu => ?_) ?_ (fun u hu hocc other hother => ?_) hsep hone
    · refine ⟨(holds u (List.mem_cons_of_mem old hu)).1, ?_⟩
      rintro (hPu | rfl)
      · exact (holds u (List.mem_cons_of_mem old hu)).2 hPu
      · exact hmem hu
    · rintro u (hPu | rfl)
      · exact hP u hPu
      · exact hold
    · refine hapart u ?_ hocc other (List.mem_cons_of_mem old hother)
      rwa [List.mem_cons, ← or_assoc]

end Censor

section Outcome
variable {key : β → α} {new : List β} {P : List α → Prop}

theorem Censors.refl (t : List β) : Censors key new (fun _ => False) t t := by
  induction t with
  | nil => exact .nil
  | cons c t ih => exact .char (fun _ h => h.elim) ih

theorem Censors.unique (hP : ∀ u, P u → u ≠ []) {t t₁ t₂ : List β}
    (hsep : Separate P (t.map key)) (h₁ : Censors key new P t t₁) (h₂ : Censors key new P t t₂) :
    t₁ = t₂ := by
  induction h₁ generalizing t₂ with
  | nil =>
    generalize hs : ([] : List β) = s at h₂
    cases h₂ with
    | nil => rfl
    | @secret w _ _ _ hne _ =>
      cases w with
      | nil => exact absurd rfl hne
      | cons c w => cases hs
    | char _ _ => cases hs
  | @secret w t t' hw hne h ih =>
    generalize hs : w ++ t = s at h₂
    cases h₂ with
    | nil => exact absurd (List.append_eq_nil_iff.mp hs).1 hne
    | @secret x r r' hx hxne h₂ =>
      have hboth := hsep (w.map key) (x.map key) 0 0 hw hx ?_ ?_ ?_ ?_
      · have hlen : w.length = x.length := by
          have hkeys := congrArg List.length hboth.2
          rwa [List.length_map, List.length_map] at hkeys
        obtain ⟨rfl, rfl⟩ := List.append_inj hs hlen
        rw [List.map_append] at hsep
        rw [ih hsep.of_append h₂]
      · rw [List.map_append]
        exact List.prefix_append _ _
      · rw [hs, List.map_append]
        exact List.prefix_append _ _
      · exact Nat.add_pos_right _ (List.length_pos_iff.mpr (hP _ hx))
      · exact Nat.add_pos_right _ (List.length_pos_iff.mpr (hP _ hw))
    | @char c r r' hnone h₂ =>
      refine absurd ?_ (hnone _ hw)
      rw [← hs, List.map_append]
      exact List.prefix_append _ _
  | @char c t t' hnone h ih =>
    generalize hs : c :: t = s at h₂
    cases h₂ with
    | nil => cases hs
    | @secret x r r' hx hxne h₂ =>
      refine absurd ?_ (hnone _ hx)
      rw [hs, List.map_append]
      exact List.prefix_append _ _
    | @char d r r' hd h₂ =>
      obtain ⟨rfl, rfl⟩ := List.cons.inj hs
      rw [ih (hsep.drop 1) h₂]

theorem Censors.kept (hP : ∀ u, P u → u ≠ []) {t t' : List β} (hsep : Separate P (t.map key))
    (h : Censors key new P t t') {b : β} (hb : b ∈ t') :
    b ∈ new ∨ ∃ x y, t = x ++ b :: y ∧
      ∀ u i, P u → u <+: (t.map key).drop i → i ≤ x.length → i + u.length ≤ x.length := by
  induction h with
  | nil => cases hb
  | @secret w t t' hw hne h ih =>
    rcases List.mem_append.mp hb with hnew | hb
    · exact .inl hnew
    · have hsep' := hsep
      rw [List.map_append] at hsep'
      refine (ih hsep'.of_append hb).imp_right ?_
      rintro ⟨x, y, rfl, hx⟩
      refine ⟨w ++ x, y, (List.append_assoc ..).symm, fun u i hu hocc hi => ?_⟩
      rw [List.length_append] at hi ⊢
      by_cases hinside : i < w.length
      · have hboth := hsep (w.map key) u 0 i hw hu ?_ hocc ?_ ?_
        · rw [← hboth.1, ← hboth.2, List.length_map]
          omega
        · rw [List.drop_zero, List.map_append]
          exact List.prefix_append _ _
        · exact Nat.add_pos_right _ (List.length_pos_iff.mpr (hP u hu))
        · rwa [List.length_map, Nat.zero_add]
      · obtain ⟨k, rfl⟩ := Nat.exists_eq_add_of_le (not_lt.mp hinside)
        rw [List.map_append, ← List.drop_drop, List.drop_left' (List.length_map key)] at hocc
        have hend := hx u k hu hocc (by omega)
        omega
  | @char c t t' hnone h ih =>
    rcases List.mem_cons.mp hb with rfl | hb
    · refine .inr ⟨[], t, rfl, fun u i hu hocc hi => ?_⟩
      obtain rfl := Nat.le_zero.mp hi
      exact absurd hocc (hnone u hu)
    · refine (ih (hsep.drop 1) hb).imp_right ?_
      rintro ⟨x, y, rfl, hx⟩
      refine ⟨c :: x, y, rfl, fun u i hu hocc hi => ?_⟩
      cases i with
      | zero => exact absurd hocc (hnone u hu)
      | succ i =>
        have hend := hx u i hu hocc (Nat.le_of_succ_le_succ hi)
        rw [List.length_cons]
        omega

end Outcome

section Separator
variable {old : List α} {b : α}

theorem prefix_of_separator (hb : b ∉ old) {s t : List α} (h : old <+: s ++ b :: t) :
    old <+: s := by
  induction s generalizing old with
  | nil =>
    cases old with
    | nil => exact List.nil_prefix
    | cons c old =>
      rw [List.nil_append, List.cons_prefix_cons] at h
      exact absurd (h.1 ▸ List.mem_cons_self ..) hb
  | cons d s ih =>
    cases old with
    | nil => exact List.nil_prefix
    | cons c old =>
      rw [List.cons_append, List.cons_prefix_cons] at h
      rw [List.cons_prefix_cons]
      exact ⟨h.1, ih (fun hmem => hb (List.mem_cons_of_mem c hmem)) h.2⟩

theorem infix_of_separator (hb : b ∉ old) {s t : List α} (h : old <:+: s ++ b :: t) :
    old <:+: s ∨ old <:+: t := by
  induction s with
  | nil =>
    rw [List.nil_append, List.infix_cons_iff] at h
    refine h.imp_left fun hfront => ?_
    exact (@prefix_of_separator _ _ _ hb [] _ hfront).isInfix
  | cons d s ih =>
    rw [List.cons_append, List.infix_cons_iff] at h
    rcases h with hfront | hinside
    · exact .inl (@prefix_of_separator _ _ _ hb (d :: s) _ hfront).isInfix
    · exact (ih hinside).imp_left fun hs => hs.trans (List.suffix_cons d s).isInfix

variable [DecidableEq α] {key : β → α} {new : List β}

theorem replace_separator (hold : old ≠ []) {c : β} (hc : key c ∉ old) (s t : List β) :
    replace key old new (s ++ c :: t) = replace key old new s ++ c :: replace key old new t := by
  induction hn : s.length using Nat.strong_induction_on generalizing s with
  | h n ih =>
    subst hn
    by_cases hfront : old <+: s.map key
    · obtain ⟨r, hr⟩ := hfront
      obtain ⟨w, rest, rfl, hw, -⟩ := List.map_eq_append_iff.mp hr.symm
      rw [List.append_assoc, replace_front hold hw, replace_front hold hw, List.append_assoc]
      refine congrArg _ (ih rest.length ?_ rest rfl)
      rw [List.length_append, ← @List.length_map _ _ w key, hw]
      exact Nat.lt_add_of_pos_left (List.length_pos_iff.mpr hold)
    · cases s with
      | nil =>
        refine replace_cons fun h => hold ?_
        exact List.prefix_nil.mp (@prefix_of_separator _ _ _ hc [] _ h)
      | cons d s =>
        have hnone : ¬ old <+: (d :: (s ++ c :: t)).map key := fun h =>
          hfront (@prefix_of_separator _ _ _ hc ((d :: s).map key) (t.map key) (by simpa using h))
        rw [List.cons_append, replace_cons hnone, replace_cons hfront, List.cons_append]
        exact congrArg _ (ih s.length (by simp) s rfl)

theorem exists_first (hold : old ≠ []) {t : List β} (h : old <:+: t.map key) :
    ∃ s w r, t = s ++ (w ++ r) ∧ w.map key = old ∧
      replace key old new t = s ++ (new ++ replace key old new r) := by
  induction t with
  | nil => exact absurd (List.infix_nil.mp h) hold
  | cons c t ih =>
    by_cases hfront : old <+: (c :: t).map key
    · obtain ⟨r, hr⟩ := hfront
      obtain ⟨w, rest, hcut, hw, -⟩ := List.map_eq_append_iff.mp hr.symm
      refine ⟨[], w, rest, hcut, hw, ?_⟩
      rw [hcut, replace_front hold hw, List.nil_append]
    · rw [List.map_cons, List.infix_cons_iff] at h
      obtain ⟨s, w, r, rfl, hw, hreplace⟩ := ih (h.resolve_left hfront)
      refine ⟨c :: s, w, r, rfl, hw, ?_⟩
      rw [replace_cons hfront, hreplace, List.cons_append]

theorem replaceEach_of_not_infix {olds : List (List α)} {t : List β}
    (h : ∀ old ∈ olds, ¬ old <:+: t.map key) : replaceEach key new olds t = t := by
  induction olds with
  | nil => rfl
  | cons old olds ih =>
    obtain ⟨hold, hrest⟩ := List.forall_mem_cons.mp h
    rw [replaceEach, List.foldl_cons, replace_of_not_infix hold]
    exact ih hrest

theorem replaceEach_ne_nil (hnew : new ≠ []) (olds : List (List α)) {t : List β} (ht : t ≠ []) :
    replaceEach key new olds t ≠ [] := by
  induction olds generalizing t with
  | nil => exact ht
  | cons old olds ih => exact ih (replace_ne_nil hnew ht)

end Separator

end Replacement
