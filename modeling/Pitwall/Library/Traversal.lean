import Mathlib.Data.List.Forall2
import Mathlib.Data.List.Perm.Basic
import Mathlib.Data.List.ReduceOption
set_option autoImplicit false

/-!
Loops that may raise, as `List.mapM` into `Except`, and what their results have in common
under a permutation of the list.
-/

universe u v w
variable {ε : Type u} {α : Type v} {β : Type w}

theorem Except.bind_eq_ok_iff {γ : Type w} {x : Except ε β} {f : β → Except ε γ} {c : γ} :
    x >>= f = .ok c ↔ ∃ b, x = .ok b ∧ f b = .ok c := by
  cases x with
  | error e => exact ⟨fun h => (nomatch h), fun ⟨_, hb, _⟩ => (nomatch hb)⟩
  | ok b => exact ⟨fun h => ⟨b, rfl, h⟩, fun ⟨_, hb, hf⟩ => Except.ok.inj hb ▸ hf⟩

theorem Except.bind_of_ok {γ : Type w} {x : Except ε β} {f : β → Except ε γ} {b : β}
    (h : x = .ok b) : x >>= f = f b := by rw [h]; rfl

theorem Except.bind_of_error {γ : Type w} {x : Except ε β} {f : β → Except ε γ} {e : ε}
    (h : x = .error e) : x >>= f = .error e := by rw [h]; rfl

theorem Except.pure_eq_ok_iff {a b : α} : (pure a : Except ε α) = .ok b ↔ a = b :=
  ⟨fun h => Except.ok.inj h, fun h => congrArg Except.ok h⟩

theorem Except.map_eq_ok_iff {γ : Type w} {x : Except ε β} {f : β → γ} {c : γ} :
    f <$> x = .ok c ↔ ∃ b, x = .ok b ∧ f b = c := by
  cases x with
  | error e => exact ⟨fun h => (nomatch h), fun ⟨_, hb, _⟩ => (nomatch hb)⟩
  | ok b =>
    refine ⟨fun h => ⟨b, rfl, Except.ok.inj h⟩, ?_⟩
    rintro ⟨b', hb, rfl⟩
    rw [← Except.ok.inj hb]
    rfl

theorem Except.bind_congr {γ : Type w} {x : Except ε β} {f g : β → Except ε γ}
    (h : ∀ b, x = .ok b → f b = g b) : x >>= f = x >>= g := by
  cases x with
  | error e => rfl
  | ok b => exact h b rfl

def Except.Meets (raises : ε → Prop) (returns : β → Prop) : Except ε β → Prop
  | .error e => raises e
  | .ok b => returns b

namespace Except.Meets
variable {raises : ε → Prop} {returns returns' : β → Prop} {x : Except ε β}

theorem mono (h : x.Meets raises returns) (hle : ∀ b, returns b → returns' b) :
    x.Meets raises returns' := by
  cases x with
  | error e => exact h
  | ok b => exact hle b h

theorem bind {γ : Type w} {after : γ → Prop} {f : β → Except ε γ} (h : x.Meets raises returns)
    (hf : ∀ b, returns b → (f b).Meets raises after) : (x >>= f).Meets raises after := by
  cases x with
  | error e => exact h
  | ok b => exact hf b h

end Except.Meets

namespace List
variable {f : α → Except ε β} {l l' : List α} {r : List β}

theorem mapM_eq_ok_iff : l.mapM f = .ok r ↔ Forall₂ (fun a b => f a = .ok b) l r := by
  induction l generalizing r with
  | nil =>
    rw [mapM_nil, Except.pure_eq_ok_iff, forall₂_nil_left_iff]
    exact eq_comm
  | cons a l ih =>
    simp only [mapM_cons, Except.bind_eq_ok_iff, Except.pure_eq_ok_iff, forall₂_cons_left_iff, ih]
    constructor
    · rintro ⟨b, hb, bs, hbs, rfl⟩
      exact ⟨b, bs, hb, hbs, rfl⟩
    · rintro ⟨b, bs, hb, hbs, rfl⟩
      exact ⟨b, hb, bs, hbs, rfl⟩

theorem mem_of_mapM_eq_ok (h : l.mapM f = .ok r) {b : β} (hb : b ∈ r) :
    ∃ a ∈ l, f a = .ok b := by
  obtain ⟨i, hi, rfl⟩ := getElem_of_mem hb
  have hforall := mapM_eq_ok_iff.mp h
  have hlen := hforall.length_eq
  exact ⟨l.get ⟨i, by omega⟩, get_mem _ _, hforall.get _ _⟩

theorem exists_mem_of_mapM_eq_ok (h : l.mapM f = .ok r) {a : α} (ha : a ∈ l) :
    ∃ b ∈ r, f a = .ok b := by
  obtain ⟨i, hi, rfl⟩ := getElem_of_mem ha
  have hforall := mapM_eq_ok_iff.mp h
  have hlen := hforall.length_eq
  exact ⟨r.get ⟨i, by omega⟩, get_mem _ _, hforall.get _ _⟩

theorem map_of_mapM_eq_ok {γ : Type w} {g : α → γ} {k : β → γ} (h : l.mapM f = .ok r)
    (hkeep : ∀ a ∈ l, ∀ b, f a = .ok b → k b = g a) : r.map k = l.map g := by
  have hforall := mapM_eq_ok_iff.mp h
  clear h
  induction hforall with
  | nil => rfl
  | @cons a b l r hab hforall ih =>
    rw [map_cons, map_cons, hkeep a (by simp) b hab,
      ih (fun a ha => hkeep a (by simp [ha]))]

theorem exists_mapM_eq_ok (h : ∀ a ∈ l, ∃ b, f a = .ok b) : ∃ r, l.mapM f = .ok r := by
  induction l with
  | nil => exact ⟨[], rfl⟩
  | cons a l ih =>
    obtain ⟨b, hb⟩ := h a (by simp)
    obtain ⟨bs, hbs⟩ := ih fun a ha => h a (by simp [ha])
    exact ⟨b :: bs, mapM_eq_ok_iff.mpr (.cons hb (mapM_eq_ok_iff.mp hbs))⟩

theorem mapM_returns_iff : (∃ r, l.mapM f = .ok r) ↔ ∀ a ∈ l, ∃ b, f a = .ok b := by
  refine ⟨fun ⟨r, h⟩ a ha => ?_, exists_mapM_eq_ok⟩
  obtain ⟨b, -, hb⟩ := exists_mem_of_mapM_eq_ok h ha
  exact ⟨b, hb⟩

theorem mapM_map_of_round {α' : Type v} {β' : Type w} {f' : α' → Except ε β'} {g : α → α'}
    {k : β → β'} (hround : ∀ a ∈ l, f' (g a) = k <$> f a) :
    (l.map g).mapM f' = map k <$> l.mapM f := by
  induction l with
  | nil => rfl
  | cons a l ih =>
    rw [map_cons, mapM_cons, mapM_cons, hround a (by simp), ih fun a ha => hround a (by simp [ha])]
    simp

theorem filterMap_of_mapM_eq_ok {γ : Type w} {g : β → Option γ} (h : l.mapM f = .ok r) :
    r.filterMap g = l.filterMap fun a =>
      match f a with
      | .ok b => g b
      | .error _ => none := by
  have hforall := mapM_eq_ok_iff.mp h
  clear h
  induction hforall with
  | nil => rfl
  | @cons a b l r hab hforall ih =>
    have hkept : (match f a with | .ok b => g b | .error _ => none) = g b := by rw [hab]
    rw [filterMap_cons, filterMap_cons, hkept, ih]

theorem map_filterMap_sublist {α β γ : Type*} {f : α → Option β} {g : β → γ} {key : α → γ}
    (h : ∀ a b, f a = some b → g b = key a) (l : List α) :
    ((l.filterMap f).map g).Sublist (l.map key) := by
  induction l with
  | nil => exact Sublist.slnil
  | cons a l ih =>
    rw [map_cons]
    cases hfa : f a with
    | none =>
      rw [filterMap_cons_none hfa]
      exact ih.cons _
    | some b =>
      rw [filterMap_cons_some hfa, map_cons, h a b hfa]
      exact ih.cons_cons _

theorem map_reduceOption_sublist {γ : Type*} {f : α → Except ε (Option β)} {r : List (Option β)}
    {g : β → γ} {key : α → γ} (h : l.mapM f = .ok r)
    (hkey : ∀ a b, f a = .ok (some b) → g b = key a) :
    (r.reduceOption.map g).Sublist (l.map key) := by
  have hforall := mapM_eq_ok_iff.mp h
  clear h
  induction hforall with
  | nil => exact Sublist.slnil
  | @cons a b l r hab hforall ih =>
    rw [map_cons]
    cases b with
    | none =>
      rw [reduceOption_cons_of_none]
      exact ih.cons _
    | some b =>
      rw [reduceOption_cons_of_some, map_cons, hkey a b hab]
      exact ih.cons_cons _

theorem filter_flatten_of_mapM {ρ : Type w} {κ : Type*} [DecidableEq κ] {f : α → Except ε (List ρ)}
    {key : α → κ} {rowKey : ρ → κ} {items : List α} {rows : List (List ρ)}
    (h : items.mapM f = .ok rows) (hkey : ∀ a rs, f a = .ok rs → ∀ r ∈ rs, rowKey r = key a)
    (hnodup : (items.map key).Nodup) {a : α} (ha : a ∈ items) :
    f a = .ok (rows.flatten.filter fun r => rowKey r = key a) := by
  have hforall := mapM_eq_ok_iff.mp h
  clear h
  induction hforall with
  | nil => cases ha
  | @cons b rs items rows hb hrest ih =>
    obtain ⟨hnew, hnodup⟩ := nodup_cons.mp hnodup
    rw [flatten_cons, filter_append]
    rcases mem_cons.mp ha with rfl | ha
    · have hown : (rs.filter fun r => rowKey r = key a) = rs := by
        refine filter_eq_self.mpr (fun r hr => ?_)
        simpa using hkey a rs hb r hr
      have hothers : (rows.flatten.filter fun r => rowKey r = key a) = [] := by
        refine filter_eq_nil_iff.mpr (fun r hr => ?_)
        obtain ⟨others, hothers, hr⟩ := mem_flatten.mp hr
        obtain ⟨c, hc, hmade⟩ := mem_of_mapM_eq_ok (mapM_eq_ok_iff.mpr hrest) hothers
        rw [decide_eq_true_eq, hkey c others hmade r hr]
        exact fun hsame => hnew (hsame ▸ mem_map_of_mem hc)
      rw [hown, hothers, append_nil, hb]
    · have hown : (rs.filter fun r => rowKey r = key a) = [] := by
        refine filter_eq_nil_iff.mpr (fun r hr => ?_)
        rw [decide_eq_true_eq, hkey b rs hb r hr]
        exact fun hsame => hnew (hsame ▸ mem_map_of_mem ha)
      rw [hown, nil_append]
      exact ih hnodup ha

theorem Perm.mapM_eq_ok (hperm : l ~ l') (h : l.mapM f = .ok r) :
    ∃ r', l'.mapM f = .ok r' ∧ r ~ r' := by
  obtain ⟨r', hforall, hperm'⟩ := perm_comp_forall₂ hperm.symm (mapM_eq_ok_iff.mp h)
  exact ⟨r', mapM_eq_ok_iff.mpr hforall, hperm'.symm⟩

end List
