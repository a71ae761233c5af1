import Mathlib.Algebra.BigOperators.Group.List.Basic
import Mathlib.Algebra.Order.BigOperators.Group.List
import Mathlib.Data.List.Dedup
import Mathlib.Data.List.Perm.Subperm
import Mathlib.Data.List.Sort
import Pitwall.Library.Table
set_option autoImplicit false

/-!
Sums over lists of rows, split by a key: `SUM ... GROUP BY`, and sums over tables that
are written group by group.
-/

universe u v w

section Groups
variable {α : Type u} {κ : Type v} {M : Type w} [DecidableEq κ] [AddCommMonoid M]

/-- `SUM(val) ... GROUP BY key`, the sum of one group. -/
def groupSum (key : α → κ) (val : α → M) (rows : List α) (k : κ) : M :=
  ((rows.filter fun r => key r = k).map val).sum

def groupKeys (key : α → κ) (rows : List α) : List κ := (rows.map key).dedup

theorem nodup_groupKeys (key : α → κ) (rows : List α) : (groupKeys key rows).Nodup :=
  List.nodup_dedup _

theorem mem_groupKeys {key : α → κ} {rows : List α} {k : κ} :
    k ∈ groupKeys key rows ↔ ∃ r ∈ rows, key r = k := by
  simp [groupKeys]

theorem sum_map_single {ks : List κ} (hks : ks.Nodup) (a : κ) (x : M) :
    (ks.map fun k => if a = k then x else 0).sum = if a ∈ ks then x else 0 := by
  induction ks with
  | nil => simp
  | cons k ks ih =>
    have hk := List.nodup_cons.mp hks
    rw [List.map_cons, List.sum_cons, ih hk.2]
    by_cases ha : a = k
    · subst ha
      simp [hk.1]
    · simp [ha]

theorem groupSum_cons (key : α → κ) (val : α → M) (r : α) (rows : List α) (k : κ) :
    groupSum key val (r :: rows) k =
      (if key r = k then val r else 0) + groupSum key val rows k := by
  unfold groupSum
  by_cases h : key r = k
  · simp [h]
  · simp [h]

theorem sum_groupSum {ks : List κ} (hks : ks.Nodup) (key : α → κ) (val : α → M)
    (rows : List α) :
    (ks.map (groupSum key val rows)).sum =
      ((rows.filter fun r => key r ∈ ks).map val).sum := by
  induction rows with
  | nil =>
    have hzero : groupSum key val [] = fun _ => 0 := rfl
    simp [hzero]
  | cons r rows ih =>
    have hsplit : ks.map (groupSum key val (r :: rows)) = ks.map fun k =>
        (if key r = k then val r else 0) + groupSum key val rows k := by
      refine List.map_congr_left (fun k _ => ?_)
      exact groupSum_cons key val r rows k
    rw [hsplit, List.sum_map_add, sum_map_single hks, ih]
    by_cases hr : key r ∈ ks
    · simp [hr]
    · simp [hr]

theorem sum_groups (key : α → κ) (val : α → M) (rows : List α) :
    ((groupKeys key rows).map (groupSum key val rows)).sum = (rows.map val).sum := by
  rw [sum_groupSum (nodup_groupKeys key rows)]
  congr 2
  refine List.filter_eq_self.mpr (fun r hr => ?_)
  simpa using mem_groupKeys.mpr ⟨r, hr, rfl⟩

end Groups

section Sorted
variable {α : Type u} {κ : Type v} [DecidableEq α] [LinearOrder κ] {key : α → κ}

/-- `sorted(set(xs))`, in the order of a key. -/
def sortedSet (key : α → κ) (xs : List α) : List α :=
  xs.dedup.insertionSort fun a b => key a ≤ key b

@[simp] theorem mem_sortedSet {xs : List α} {x : α} : x ∈ sortedSet key xs ↔ x ∈ xs := by
  simp [sortedSet]

theorem nodup_sortedSet (key : α → κ) (xs : List α) : (sortedSet key xs).Nodup :=
  (List.perm_insertionSort _ xs.dedup).nodup_iff.mpr (List.nodup_dedup xs)

theorem sortedSet_congr (hkey : Function.Injective key) {xs ys : List α}
    (h : ∀ x, x ∈ xs ↔ x ∈ ys) : sortedSet key xs = sortedSet key ys := by
  have hperm : (sortedSet key xs).Perm (sortedSet key ys) := by
    refine (List.perm_ext_iff_of_nodup (nodup_sortedSet key xs) (nodup_sortedSet key ys)).mpr ?_
    intro x
    rw [mem_sortedSet, mem_sortedSet, h x]
  have : Std.Total fun a b => key a ≤ key b := ⟨fun a b => le_total (key a) (key b)⟩
  have : IsTrans α fun a b => key a ≤ key b := ⟨fun _ _ _ => le_trans⟩
  refine hperm.eq_of_pairwise (fun a b _ _ hab hba => hkey (le_antisymm hab hba)) ?_ ?_
  · exact List.pairwise_insertionSort _ _
  · exact List.pairwise_insertionSort _ _

end Sorted

section Filtered
variable {α : Type u} {M : Type w} [AddCommMonoid M]

def sumWhere (p : α → Bool) (val : α → M) (rows : List α) : M := ((rows.filter p).map val).sum

theorem sumWhere_cons (p : α → Bool) (val : α → M) (r : α) (rows : List α) :
    sumWhere p val (r :: rows) = (if p r then val r else 0) + sumWhere p val rows := by
  unfold sumWhere
  cases h : p r with
  | true => simp [h]
  | false => simp [h]

theorem sumWhere_append (p : α → Bool) (val : α → M) (xs ys : List α) :
    sumWhere p val (xs ++ ys) = sumWhere p val xs + sumWhere p val ys := by
  simp [sumWhere]

theorem sumWhere_perm {p : α → Bool} {val : α → M} {xs ys : List α} (h : xs.Perm ys) :
    sumWhere p val xs = sumWhere p val ys :=
  ((h.filter p).map val).sum_eq

theorem sumWhere_filter (p q : α → Bool) (val : α → M) (rows : List α) :
    sumWhere p val (rows.filter q) = sumWhere (fun r => p r && q r) val rows := by
  simp [sumWhere, List.filter_filter]

theorem sumWhere_eq_sum_map (p : α → Bool) (val : α → M) (rows : List α) :
    sumWhere p val rows = (rows.map fun r => if p r then val r else 0).sum := by
  induction rows with
  | nil => rfl
  | cons r rows ih =>
    rw [sumWhere_cons, ih, List.map_cons, List.sum_cons]

theorem sumWhere_split (p q : α → Bool) (val : α → M) (rows : List α) :
    sumWhere p val rows =
      sumWhere (fun r => p r && q r) val rows + sumWhere (fun r => p r && !q r) val rows := by
  induction rows with
  | nil => simp [sumWhere]
  | cons r rows ih =>
    rw [sumWhere_cons, sumWhere_cons, sumWhere_cons, ih, add_add_add_comm]
    congr 1
    cases p r <;> cases q r <;> simp

theorem sumWhere_congr {p q : α → Bool} {val : α → M} {rows : List α}
    (h : ∀ r ∈ rows, p r = q r) : sumWhere p val rows = sumWhere q val rows := by
  unfold sumWhere
  rw [List.filter_congr h]

theorem sumWhere_eq_zero {p : α → Bool} {val : α → M} {rows : List α}
    (h : ∀ r ∈ rows, p r = false) : sumWhere p val rows = 0 := by
  have hnone : rows.filter p = [] := by
    rw [List.filter_eq_nil_iff]
    intro r hr
    simp [h r hr]
  simp [sumWhere, hnone]

theorem sum_filterMap {β : Type v} (f : α → Option β) (val : β → M) (rows : List α) :
    ((rows.filterMap f).map val).sum = (rows.map fun r => ((f r).map val).getD 0).sum := by
  induction rows with
  | nil => rfl
  | cons r rows ih =>
    rw [List.map_cons, List.sum_cons, ← ih, List.filterMap_cons]
    cases f r with
    | none => simp
    | some b => simp

end Filtered

section Ordered
variable {α : Type u} {M : Type w} [AddCommMonoid M] [PartialOrder M]
  [IsOrderedCancelAddMonoid M]

theorem sum_eq_sum_iff_of_le {f g : α → M} {rows : List α} (h : ∀ r ∈ rows, f r ≤ g r) :
    (rows.map f).sum = (rows.map g).sum ↔ ∀ r ∈ rows, f r = g r := by
  constructor
  · intro hsum r hr
    by_contra hne
    have hlt := List.sum_lt_sum f g h ⟨r, hr, lt_of_le_of_ne (h r hr) hne⟩
    exact absurd hsum (ne_of_lt hlt)
  · intro hall
    rw [List.map_congr_left hall]

end Ordered

section Upserts
variable {ρ : Type u} {κ : Type v} {key : ρ → κ} [DecidableEq κ]

/-- `INSERT ... SELECT ... ON CONFLICT DO UPDATE`, one row for each group. -/
def Keyed.upsertAll (t : Keyed key) (rs : List ρ) : Keyed key := rs.foldl Keyed.upsert t

theorem Keyed.upsertAll_perm (t : Keyed key) {rs : List ρ} (hrs : (rs.map key).Nodup) :
    (t.upsertAll rs).rows.Perm (rs ++ t.rows.filter fun s => key s ∉ rs.map key) := by
  induction rs generalizing t with
  | nil => simp [Keyed.upsertAll]
  | cons r rs ih =>
    have hr := List.nodup_cons.mp hrs
    have hstep : (t.upsertAll (r :: rs)).rows.Perm
        (rs ++ (t.upsert r).rows.filter fun s => key s ∉ rs.map key) := ih (t.upsert r) hr.2
    have hkept : ((t.upsert r).rows.filter fun s => key s ∉ rs.map key).Perm
        (r :: t.rows.filter fun s => key s ∉ (r :: rs).map key) := by
      refine ((t.upsert_perm r).filter _).trans ?_
      rw [List.filter_cons_of_pos (by simpa using hr.1), List.filter_filter]
      refine List.Perm.cons r (List.Perm.of_eq (List.filter_congr (fun s _ => ?_)))
      by_cases hs : key s = key r
      · simp [hs]
      · simp only [List.map_cons, List.mem_cons, hs, false_or, ne_eq, not_false_eq_true,
          decide_true, Bool.and_true]
    refine hstep.trans ((hkept.append_left rs).trans ?_)
    exact List.perm_middle

theorem Keyed.get_upsertAll_of_notMem {t : Keyed key} {rs : List ρ} {k : κ}
    (h : k ∉ rs.map key) : (t.upsertAll rs).get k = t.get k := by
  induction rs generalizing t with
  | nil => rfl
  | cons r rs ih =>
    rw [List.map_cons, List.mem_cons, not_or] at h
    have hrest : (t.upsertAll (r :: rs)).get k = (t.upsert r).get k := ih h.2
    rw [hrest, Keyed.get_upsert, if_neg h.1]

theorem Keyed.get_upsertAll_of_mem {t : Keyed key} {rs : List ρ} {r : ρ}
    (hrs : (rs.map key).Nodup) (hr : r ∈ rs) : (t.upsertAll rs).get (key r) = some r := by
  have hperm := t.upsertAll_perm hrs
  refine Keyed.mem_rows_iff.mp (hperm.mem_iff.mpr ?_)
  exact List.mem_append_left _ hr

theorem Keyed.sumWhere_key {M : Type w} [AddCommMonoid M] (t : Keyed key) (k : κ) (val : ρ → M) :
    sumWhere (fun r => decide (key r = k)) val t.rows = ((t.get k).map val).getD 0 := by
  cases h : t.get k with
  | none =>
    have hnone := Keyed.get_eq_none_iff.mp h
    exact sumWhere_eq_zero (fun r hr => by simpa using hnone r hr)
  | some r =>
    obtain ⟨hr, hkey⟩ := Keyed.get_eq_some_iff.mp h
    have hperm : (t.rows.filter fun s => decide (key s = k)).Perm [r] := by
      refine (List.perm_ext_iff_of_nodup (t.nodup_rows.filter _) (List.nodup_singleton r)).mpr ?_
      intro s
      rw [List.mem_filter, List.mem_singleton]
      constructor
      · rintro ⟨hs, hskey⟩
        have hget := Keyed.get_eq_some_iff.mpr ⟨hs, by simpa using hskey⟩
        rw [h] at hget
        exact (Option.some.inj hget).symm
      · rintro rfl
        exact ⟨hr, by simpa using hkey⟩
    unfold sumWhere
    rw [(hperm.map val).sum_eq]
    simp

end Upserts
