import Mathlib.Data.List.Nodup
import Mathlib.Data.List.Flatten
import Mathlib.Data.List.Pairwise
import Mathlib.Algebra.Order.BigOperators.Group.List
set_option autoImplicit false

universe u v

/-- A relational table whose unique indexes hold by construction. `uniq r` lists
the index entries of row `r`: one for the primary key, one more for each further
unique index that covers the row. -/
structure Table {ρ : Type u} {κ : Type v} (uniq : ρ → List κ) where
  rows : List ρ
  nodup : (rows.flatMap uniq).Nodup

namespace Table
variable {ρ : Type u} {κ : Type v} {uniq : ρ → List κ}

def empty : Table uniq := ⟨[], by simp⟩

theorem eq_of_rows {t t' : Table uniq} (h : t.rows = t'.rows) : t = t' := by
  cases t
  cases t'
  cases h
  rfl

theorem eq_of_uniq (t : Table uniq) {r s : ρ} (hr : r ∈ t.rows) (hs : s ∈ t.rows)
    {k : κ} (hkr : k ∈ uniq r) (hks : k ∈ uniq s) : r = s := by
  by_contra hne
  have hdisj := (List.nodup_flatMap.mp t.nodup).2
  have : Std.Symm (Function.onFun List.Disjoint uniq) := ⟨fun _ _ h _ ha hb => h hb ha⟩
  exact hdisj.forall hr hs hne hkr hks

theorem countP_le_one (t : Table uniq) {p : ρ → Bool} {k : κ}
    (h : ∀ r, p r = true → k ∈ uniq r) : t.rows.countP p ≤ 1 := by
  obtain ⟨rows, nodup⟩ := t
  induction rows with
  | nil => simp
  | cons r rows ih =>
    rw [List.flatMap_cons, List.nodup_append] at nodup
    have ih := ih nodup.2.1
    rw [List.countP_cons]
    split
    · rename_i hr
      have hrest : rows.countP p = 0 := by
        rw [List.countP_eq_zero]
        intro s hs hps
        exact nodup.2.2 k (h r hr) k (List.mem_flatMap.mpr ⟨s, hs, h s hps⟩) rfl
      omega
    · exact ih

section Insert
variable [DecidableEq κ]

/-- `INSERT`: `none` is a unique violation. -/
def insert (t : Table uniq) (r : ρ) : Option (Table uniq) :=
  if h : (uniq r).Nodup ∧ ∀ k ∈ uniq r, k ∉ t.rows.flatMap uniq then
    some ⟨t.rows ++ [r], by
      rw [List.flatMap_append, List.nodup_append]
      refine ⟨t.nodup, by simpa using h.1, ?_⟩
      intro a ha b hb hab
      subst hab
      exact h.2 a (by simpa using hb) ha⟩
  else none

theorem rows_of_insert {t t' : Table uniq} {r : ρ} (h : t.insert r = some t') :
    t'.rows = t.rows ++ [r] := by
  unfold insert at h
  split at h
  · cases h; rfl
  · contradiction

end Insert

/-- The `SET` list of an `UPDATE`, for one that leaves the indexed columns alone. -/
structure Assignment (uniq : ρ → List κ) where
  set : ρ → ρ
  keeps : ∀ r, uniq (set r) = uniq r

/-- `UPDATE ... SET f WHERE p`. -/
def update (t : Table uniq) (p : ρ → Bool) (f : Assignment uniq) : Table uniq where
  rows := t.rows.map fun r => if p r then f.set r else r
  nodup := by
    have h : (t.rows.map fun r => if p r then f.set r else r).flatMap uniq =
        t.rows.flatMap uniq := by
      rw [List.flatMap_map]
      congr 1
      funext r
      split <;> simp [f.keeps]
    rw [h]; exact t.nodup

theorem rows_update (t : Table uniq) (p : ρ → Bool) (f : Assignment uniq) :
    (t.update p f).rows = t.rows.map fun r => if p r then f.set r else r := rfl

/-- `DELETE ... WHERE p`. -/
def delete (t : Table uniq) (p : ρ → Bool) : Table uniq where
  rows := t.rows.filter fun r => !p r
  nodup := by
    have hsub : ((t.rows.filter fun r => !p r).flatMap uniq).Sublist (t.rows.flatMap uniq) :=
      List.Sublist.flatMap List.filter_sublist uniq
    exact hsub.nodup t.nodup

theorem rows_delete (t : Table uniq) (p : ρ → Bool) :
    (t.delete p).rows = t.rows.filter fun r => !p r := rfl

def find (t : Table uniq) (p : ρ → Bool) : Option ρ := t.rows.find? p

theorem find_some {t : Table uniq} {p : ρ → Bool} {r : ρ} (h : t.find p = some r) :
    r ∈ t.rows ∧ p r = true :=
  ⟨List.mem_of_find?_eq_some h, List.find?_some h⟩

theorem find_none {t : Table uniq} {p : ρ → Bool} (h : t.find p = none) {r : ρ}
    (hr : r ∈ t.rows) : p r = false := by
  have h' := List.find?_eq_none.mp h r hr
  simpa using h'

theorem find_eq_some {t : Table uniq} {p : ρ → Bool} {r : ρ} (hr : r ∈ t.rows)
    (hp : p r = true) (hk : ∀ s ∈ t.rows, p s = true → ∃ k, k ∈ uniq r ∧ k ∈ uniq s) :
    t.find p = some r := by
  cases h : t.find p with
  | none => simp [find_none h hr] at hp
  | some s =>
    obtain ⟨hs, hps⟩ := find_some h
    obtain ⟨k, hkr, hks⟩ := hk s hs hps
    rw [t.eq_of_uniq hr hs hkr hks]

end Table

abbrev Keyed {ρ : Type u} {κ : Type v} (key : ρ → κ) := Table (fun r => [key r])

namespace Keyed
variable {ρ : Type u} {κ : Type v} {key : ρ → κ} [DecidableEq κ]

def get (t : Keyed key) (k : κ) : Option ρ := t.find (fun r => key r = k)

def put (t : Keyed key) (r : ρ) : Keyed key :=
  t.update (fun s => key s = key r)
    { set := fun s => if key s = key r then r else s
      keeps := by
        intro s
        split
        · rename_i h
          rw [h]
        · rfl }

/-- `INSERT ... ON CONFLICT DO UPDATE`, all columns taken from the new row. -/
def upsert (t : Keyed key) (r : ρ) : Keyed key :=
  match t.insert r with
  | some t' => t'
  | none => t.put r

theorem get_eq_some_iff {t : Keyed key} {k : κ} {r : ρ} :
    t.get k = some r ↔ r ∈ t.rows ∧ key r = k := by
  constructor
  · intro h
    obtain ⟨hr, hk⟩ := Table.find_some h
    exact ⟨hr, by simpa using hk⟩
  · rintro ⟨hr, rfl⟩
    refine Table.find_eq_some hr (by simp) (fun s _ hs => ⟨key r, by simp, ?_⟩)
    have hkey : key s = key r := by simpa using hs
    simp [hkey]

theorem key_of_get {t : Keyed key} {k : κ} {r : ρ} (h : t.get k = some r) : key r = k :=
  (get_eq_some_iff.mp h).2

theorem get_eq_none_iff {t : Keyed key} {k : κ} : t.get k = none ↔ ∀ r ∈ t.rows, key r ≠ k := by
  constructor
  · intro h r hr hk
    have hget := get_eq_some_iff.mpr ⟨hr, hk⟩
    simp [h] at hget
  · intro h
    cases hget : t.get k with
    | none => rfl
    | some r =>
      obtain ⟨hr, hk⟩ := get_eq_some_iff.mp hget
      exact absurd hk (h r hr)

theorem mem_put {t : Keyed key} {r s : ρ} :
    s ∈ (t.put r).rows ↔ (s ∈ t.rows ∧ key s ≠ key r) ∨ (s = r ∧ ∃ x ∈ t.rows, key x = key r) := by
  simp only [put, Table.rows_update, List.mem_map]
  constructor
  · rintro ⟨x, hx, rfl⟩
    by_cases hk : key x = key r
    · right
      simp only [hk, decide_true, if_true]
      exact ⟨trivial, x, hx, hk⟩
    · left
      simp [hk, hx]
  · rintro (⟨hs, hk⟩ | ⟨rfl, x, hx, hk⟩)
    · exact ⟨s, hs, by simp [hk]⟩
    · exact ⟨x, hx, by simp [hk]⟩

theorem get_put {t : Keyed key} {r : ρ} (k : κ) (h : (t.get (key r)).isSome) :
    (t.put r).get k = if k = key r then some r else t.get k := by
  obtain ⟨x, hx⟩ := Option.isSome_iff_exists.mp h
  obtain ⟨hmem, hkey⟩ := get_eq_some_iff.mp hx
  by_cases hk : k = key r
  · subst hk
    simp only [if_true]
    exact get_eq_some_iff.mpr ⟨mem_put.mpr (.inr ⟨rfl, x, hmem, hkey⟩), rfl⟩
  · simp only [hk, if_false]
    apply Option.ext
    intro s
    rw [get_eq_some_iff, get_eq_some_iff, mem_put]
    constructor
    · rintro ⟨⟨hs, -⟩ | ⟨rfl, -⟩, rfl⟩
      · exact ⟨hs, rfl⟩
      · exact absurd rfl hk
    · rintro ⟨hs, rfl⟩
      exact ⟨.inl ⟨hs, hk⟩, rfl⟩

theorem insert_eq_none_iff {t : Keyed key} {r : ρ} :
    t.insert r = none ↔ (t.get (key r)).isSome = true := by
  unfold Table.insert
  cases h : t.get (key r) with
  | none =>
    have hnone := get_eq_none_iff.mp h
    simpa using fun s hs => (hnone s hs).symm
  | some x =>
    obtain ⟨hx, hkey⟩ := get_eq_some_iff.mp h
    simpa using ⟨x, hx, hkey.symm⟩

theorem get_insert {t t' : Keyed key} {r : ρ} (h : t.insert r = some t') (k : κ) :
    t'.get k = if k = key r then some r else t.get k := by
  have hrows := Table.rows_of_insert h
  by_cases hk : k = key r
  · subst hk
    simp only [if_true]
    exact get_eq_some_iff.mpr ⟨by simp [hrows], rfl⟩
  · simp only [hk, if_false]
    apply Option.ext
    intro s
    simp only [get_eq_some_iff, hrows, List.mem_append, List.mem_singleton]
    constructor
    · rintro ⟨hs | rfl, rfl⟩
      · exact ⟨hs, rfl⟩
      · exact absurd rfl hk
    · rintro ⟨hs, rfl⟩
      exact ⟨.inl hs, rfl⟩

theorem length_put (t : Keyed key) (r : ρ) : (t.put r).rows.length = t.rows.length := by
  simp [put, Table.rows_update]

theorem length_upsert (t : Keyed key) (r : ρ) :
    (t.upsert r).rows.length =
      if (t.get (key r)).isSome then t.rows.length else t.rows.length + 1 := by
  unfold upsert
  cases h : t.insert r with
  | some t' =>
    have hnone : ¬ (t.get (key r)).isSome = true := by
      rw [← insert_eq_none_iff, h]
      simp
    simp [hnone, Table.rows_of_insert h]
  | none =>
    have hsome := insert_eq_none_iff.mp h
    simp [hsome, length_put]

theorem get_upsert (t : Keyed key) (r : ρ) (k : κ) :
    (t.upsert r).get k = if k = key r then some r else t.get k := by
  unfold upsert
  cases h : t.insert r with
  | some t' => exact get_insert h k
  | none => exact get_put k (insert_eq_none_iff.mp h)

omit [DecidableEq κ] in
theorem nodup_rows (t : Keyed key) : t.rows.Nodup := by
  have hkeys : (t.rows.map key).Nodup := by
    rw [← List.flatMap_pure_eq_map]
    exact t.nodup
  exact hkeys.of_map

theorem mem_rows_iff {t : Keyed key} {r : ρ} : r ∈ t.rows ↔ t.get (key r) = some r := by
  rw [get_eq_some_iff]
  exact ⟨fun h => ⟨h, rfl⟩, fun h => h.1⟩

theorem upsert_perm (t : Keyed key) (r : ρ) :
    (t.upsert r).rows.Perm (r :: t.rows.filter fun s => key s ≠ key r) := by
  have hnew : (r :: t.rows.filter fun s => key s ≠ key r).Nodup := by
    refine List.nodup_cons.mpr ⟨?_, t.nodup_rows.filter _⟩
    simp
  refine (List.perm_ext_iff_of_nodup (t.upsert r).nodup_rows hnew).mpr (fun s => ?_)
  rw [mem_rows_iff, get_upsert, List.mem_cons, List.mem_filter]
  by_cases hs : key s = key r
  · simp only [hs, if_true, Option.some.injEq]
    constructor
    · exact fun h => .inl h.symm
    · rintro (h | ⟨-, h⟩)
      · exact h.symm
      · simp at h
  · simp only [hs, if_false]
    rw [← mem_rows_iff]
    constructor
    · exact fun h => .inr ⟨h, by simpa using hs⟩
    · rintro (rfl | ⟨h, -⟩)
      · exact absurd rfl hs
      · exact h

end Keyed
