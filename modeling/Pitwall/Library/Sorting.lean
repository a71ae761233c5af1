import Mathlib.Data.List.Chain
import Mathlib.Data.List.Forall2
import Mathlib.Data.List.Sort
set_option autoImplicit false

/-!
Sorting by a comparison that need not be an order. On a list without a descent the sort
changes nothing; where the comparison is that of a key, the sort is a function of the set.
-/

universe u v
variable {α : Type u}

/-- The stable sort by `lt`. -/
def sortedBy (lt : α → α → Bool) (l : List α) : List α :=
  l.insertionSort fun a b => lt b a = false

theorem sortedBy_perm (lt : α → α → Bool) (l : List α) : (sortedBy lt l).Perm l :=
  List.perm_insertionSort _ l

@[simp] theorem mem_sortedBy {lt : α → α → Bool} {l : List α} {a : α} :
    a ∈ sortedBy lt l ↔ a ∈ l :=
  List.mem_insertionSort _

theorem sortedBy_map {β : Type v} {lt : β → β → Bool} {lt' : α → α → Bool} {f : α → β} {l : List α}
    (h : ∀ a ∈ l, ∀ b ∈ l, lt (f a) (f b) = lt' a b) :
    sortedBy lt (l.map f) = (sortedBy lt' l).map f :=
  (List.map_insertionSort _ _ f l fun a ha b hb => by rw [h b hb a ha]).symm

def NoDescent (lt : α → α → Bool) (l : List α) : Prop := l.IsChain fun a b => lt b a = false

theorem sortedBy_of_noDescent {lt : α → α → Bool} {l : List α} (h : NoDescent lt l) :
    sortedBy lt l = l := by
  induction l with
  | nil => rfl
  | cons a l ih =>
    have htail : sortedBy lt l = l := ih h.tail
    rw [sortedBy, List.insertionSort_cons]
    change List.orderedInsert _ a (sortedBy lt l) = a :: l
    rw [htail]
    cases l with
    | nil => rfl
    | cons b l => exact List.orderedInsert_cons_of_le _ _ (List.isChain_cons_cons.mp h).1

section Key
variable {κ : Type v} [LinearOrder κ] {lt : α → α → Bool} {key : α → κ} {l l' : List α}

/-- On the members of the list, `lt` compares the keys. -/
def ComparesBy (lt : α → α → Bool) (key : α → κ) (l : List α) : Prop :=
  ∀ a ∈ l, ∀ b ∈ l, lt a b = true ↔ key a < key b

theorem ComparesBy.perm (h : ComparesBy lt key l) (hperm : l.Perm l') : ComparesBy lt key l' :=
  fun a ha b hb => h a (hperm.mem_iff.mpr ha) b (hperm.mem_iff.mpr hb)

theorem pairwise_sortedBy (h : ComparesBy lt key l) :
    (sortedBy lt l).Pairwise fun a b => key a ≤ key b := by
  have hmap : (sortedBy lt l).map key = (l.map key).insertionSort (· ≤ ·) := by
    refine List.map_insertionSort _ (· ≤ ·) key l (fun a ha b hb => ?_)
    rw [← not_lt, ← h b hb a ha, Bool.not_eq_true]
  rw [← List.pairwise_map, hmap]
  exact List.pairwise_insertionSort _ _

theorem le_of_head?_sortedBy (h : ComparesBy lt key l) {a : α}
    (hhead : (sortedBy lt l).head? = some a) : ∀ b ∈ l, key a ≤ key b := by
  intro b hb
  obtain ⟨rest, hrest⟩ := List.head?_eq_some_iff.mp hhead
  have hsorted := pairwise_sortedBy h
  have hmem : b ∈ sortedBy lt l := mem_sortedBy.mpr hb
  rw [hrest] at hsorted hmem
  rcases List.mem_cons.mp hmem with rfl | hlater
  · exact le_rfl
  · exact List.rel_of_pairwise_cons hsorted hlater

theorem le_of_getLast?_sortedBy (h : ComparesBy lt key l) {a : α}
    (hlast : (sortedBy lt l).getLast? = some a) : ∀ b ∈ l, key b ≤ key a := by
  intro b hb
  obtain ⟨rest, hrest⟩ := List.getLast?_eq_some_iff.mp hlast
  have hsorted := pairwise_sortedBy h
  have hmem : b ∈ sortedBy lt l := mem_sortedBy.mpr hb
  rw [hrest] at hsorted hmem
  rcases List.mem_append.mp hmem with hearlier | hlast
  · exact (List.pairwise_append.mp hsorted).2.2 b hearlier a (List.mem_singleton_self a)
  · obtain rfl := List.mem_singleton.mp hlast
    exact le_rfl

theorem noDescent_sortedBy (h : ComparesBy lt key l) : NoDescent lt (sortedBy lt l) := by
  refine List.Pairwise.isChain ?_
  refine (pairwise_sortedBy h).imp_of_mem (fun {a b} ha hb hle => ?_)
  rw [← Bool.not_eq_true, h b (mem_sortedBy.mp hb) a (mem_sortedBy.mp ha)]
  exact not_lt.mpr hle

theorem sortedBy_eq_of_perm (h : ComparesBy lt key l)
    (hinj : ∀ a ∈ l, ∀ b ∈ l, key a = key b → a = b) (hperm : l.Perm l') :
    sortedBy lt l = sortedBy lt l' := by
  have hsorted : (sortedBy lt l).Perm (sortedBy lt l') :=
    ((sortedBy_perm lt l).trans hperm).trans (sortedBy_perm lt l').symm
  refine hsorted.eq_of_pairwise (fun a b ha hb hab hba => ?_) (pairwise_sortedBy h)
    (pairwise_sortedBy (h.perm hperm))
  have hb' : b ∈ l := hperm.mem_iff.mpr (mem_sortedBy.mp hb)
  exact hinj a (mem_sortedBy.mp ha) b hb' (le_antisymm hab hba)

theorem orderedInsert_of_forall {r : α → α → Prop} [DecidableRel r] {a : α} {ys : List α}
    (h : ∀ y ∈ ys, r a y) : ys.orderedInsert r a = a :: ys := by
  cases ys with
  | nil => rfl
  | cons y ys => exact List.orderedInsert_cons_of_le _ _ (h y (by simp))

theorem orderedInsert_append_left {r : α → α → Prop} [DecidableRel r] {a : α} {xs ys : List α}
    (h : ∀ y ∈ ys, r a y) :
    (xs ++ ys).orderedInsert r a = xs.orderedInsert r a ++ ys := by
  induction xs with
  | nil => simp [orderedInsert_of_forall h]
  | cons x xs ih =>
    by_cases hx : r a x
    · simp [hx]
    · simp [hx, ih]

theorem orderedInsert_append_right {r : α → α → Prop} [DecidableRel r] {a : α} {xs ys : List α}
    (h : ∀ x ∈ xs, ¬r a x) : (xs ++ ys).orderedInsert r a = xs ++ ys.orderedInsert r a := by
  induction xs with
  | nil => rfl
  | cons x xs ih =>
    have hx : ¬r a x := h x (by simp)
    simp [hx, ih fun y hy => h y (by simp [hy])]

theorem sortedBy_split (h : ComparesBy lt key l) (k : κ) :
    sortedBy lt l = sortedBy lt (l.filter fun a => key a < k) ++
      ((l.filter fun a => key a = k) ++ sortedBy lt (l.filter fun a => k < key a)) := by
  induction l with
  | nil => rfl
  | cons a l ih =>
    have hcompares : ComparesBy lt key l := fun x hx y hy => h x (by simp [hx]) y (by simp [hy])
    have hle : ∀ b ∈ l, key a ≤ key b → lt b a = false := by
      intro b hb hab
      rw [← Bool.not_eq_true, h b (by simp [hb]) a (by simp)]
      exact not_lt.mpr hab
    have hlt : ∀ b ∈ l, key b < key a → ¬lt b a = false := by
      intro b hb hba
      rw [Bool.not_eq_false, h b (by simp [hb]) a (by simp)]
      exact hba
    have hinsert : ∀ l' : List α, sortedBy lt (a :: l') =
        (sortedBy lt l').orderedInsert (fun a b => lt b a = false) a := fun _ => rfl
    rw [hinsert, ih hcompares]
    rcases lt_trichotomy (key a) k with hak | hak | hak
    · rw [orderedInsert_append_left]
      · simp [hak, hak.ne, hak.not_gt, hinsert]
      · intro y hy
        rcases List.mem_append.mp hy with hy | hy
        · have hy' := List.mem_filter.mp hy
          exact hle y hy'.1 (by simpa using hak.le.trans (of_decide_eq_true hy'.2).ge)
        · have hy' := List.mem_filter.mp (mem_sortedBy.mp hy)
          exact hle y hy'.1 (hak.trans (of_decide_eq_true hy'.2)).le
    · rw [orderedInsert_append_right, orderedInsert_of_forall]
      · simp [hak]
      · intro y hy
        rcases List.mem_append.mp hy with hy | hy
        · have hy' := List.mem_filter.mp hy
          exact hle y hy'.1 (hak.trans (of_decide_eq_true hy'.2).symm).le
        · have hy' := List.mem_filter.mp (mem_sortedBy.mp hy)
          exact hle y hy'.1 (hak.trans_lt (of_decide_eq_true hy'.2)).le
      · intro x hx
        have hx' := List.mem_filter.mp (mem_sortedBy.mp hx)
        exact hlt x hx'.1 ((of_decide_eq_true hx'.2).trans_eq hak.symm)
    · rw [orderedInsert_append_right, orderedInsert_append_right]
      · simp [hak, hak.ne', hak.not_gt, hinsert]
      · intro x hx
        have hx' := List.mem_filter.mp hx
        exact hlt x hx'.1 (by simpa [of_decide_eq_true hx'.2] using hak)
      · intro x hx
        have hx' := List.mem_filter.mp (mem_sortedBy.mp hx)
        exact hlt x hx'.1 ((of_decide_eq_true hx'.2).trans hak)

end Key

section Pointwise
variable [LinearOrder α] {a b : α} {xs ys : List α}

theorem orderedInsert_of_sorted {x : α} (h : (x :: xs).Pairwise (· ≤ ·)) :
    xs.orderedInsert (· ≤ ·) x = x :: xs :=
  orderedInsert_of_forall fun _ hy => List.rel_of_pairwise_cons h hy

theorem forall₂_orderedInsert (hab : a ≤ b) (hxs : xs.Pairwise (· ≤ ·)) (hys : ys.Pairwise (· ≤ ·))
    (h : List.Forall₂ (· ≤ ·) xs ys) :
    List.Forall₂ (· ≤ ·) (xs.orderedInsert (· ≤ ·) a) (ys.orderedInsert (· ≤ ·) b) := by
  induction h generalizing a b with
  | nil => exact .cons hab .nil
  | @cons x y xs ys hxy h ih =>
    have hxs' := (List.pairwise_cons.mp hxs).2
    have hys' := (List.pairwise_cons.mp hys).2
    rcases le_or_gt a x with hax | hax
    · rw [List.orderedInsert_cons_of_le _ _ hax]
      rcases le_or_gt b y with hby | hby
      · rw [List.orderedInsert_cons_of_le _ _ hby]
        exact .cons hab (.cons hxy h)
      · -- The lesser list moves up by one place below the one that is inserted into.
        rw [List.orderedInsert_of_not_le _ _ (not_le.mpr hby), ← orderedInsert_of_sorted hxs]
        exact .cons (hax.trans hxy) (ih (hxy.trans hby.le) hxs' hys')
    · rw [List.orderedInsert_of_not_le _ _ (not_le.mpr hax)]
      rcases le_or_gt b y with hby | hby
      · rw [List.orderedInsert_cons_of_le _ _ hby, ← orderedInsert_of_sorted hys]
        exact .cons (hax.le.trans hab) (ih (hab.trans hby) hxs' hys')
      · rw [List.orderedInsert_of_not_le _ _ (not_le.mpr hby)]
        exact .cons hxy (ih hab hxs' hys')

theorem forall₂_insertionSort (h : List.Forall₂ (· ≤ ·) xs ys) :
    List.Forall₂ (· ≤ ·) (xs.insertionSort (· ≤ ·)) (ys.insertionSort (· ≤ ·)) := by
  induction h with
  | nil => exact .nil
  | cons hxy h ih =>
    rw [List.insertionSort_cons, List.insertionSort_cons]
    exact forall₂_orderedInsert hxy (List.pairwise_insertionSort _ _)
      (List.pairwise_insertionSort _ _) ih

theorem insertionSort_eq_of_perm (h : xs.Perm ys) :
    xs.insertionSort (· ≤ ·) = ys.insertionSort (· ≤ ·) := by
  have hsorted : (xs.insertionSort (· ≤ ·)).Perm (ys.insertionSort (· ≤ ·)) :=
    ((List.perm_insertionSort _ xs).trans h).trans (List.perm_insertionSort _ ys).symm
  exact hsorted.eq_of_pairwise (fun _ _ _ _ => le_antisymm) (List.pairwise_insertionSort _ _)
    (List.pairwise_insertionSort _ _)

end Pointwise

section Nan
variable {lt : α → α → Bool} {isNan : α → Bool} {l : List α}

theorem noDescent_append (hnan : ∀ a b, isNan a = true ∨ isNan b = true → lt a b = false)
    {xs ys : List α} (hxs : NoDescent lt xs) (hys : NoDescent lt ys)
    (h : (∀ x ∈ xs, isNan x = true) ∨ ∀ y ∈ ys, isNan y = true) : NoDescent lt (xs ++ ys) := by
  refine List.isChain_append.mpr ⟨hxs, hys, fun x hx y hy => ?_⟩
  have hx' := List.mem_of_getLast? hx
  have hy' := List.mem_of_head? hy
  rcases h with h | h
  · exact hnan y x (.inr (h x hx'))
  · exact hnan y x (.inl (h y hy'))

theorem noDescent_of_nan (hnan : ∀ a b, isNan a = true ∨ isNan b = true → lt a b = false)
    {xs : List α} (h : ∀ x ∈ xs, isNan x = true) : NoDescent lt xs :=
  List.Pairwise.isChain (List.pairwise_of_forall_mem_list fun a _ b hb =>
    hnan b a (.inl (h b hb)))

theorem ne_reverse {β : Type v} {xs : List β} (hnodup : xs.Nodup) (hlen : 2 ≤ xs.length) :
    xs ≠ xs.reverse := by
  intro h
  have hpos : 0 < xs.length := by omega
  have hpred : xs.length - 1 < xs.length := by omega
  have hfirst : xs[0] = xs[xs.length - 1] := by
    have hget := List.getElem_reverse (l := xs) (i := 0) (by simp; omega)
    simp only [← h] at hget
    simpa using hget
  have := (List.Nodup.getElem_inj_iff hnodup).mp hfirst
  omega

theorem two_orders {β κ : Type v} [LinearOrder κ] {id : α → β} (key : α → κ)
    (hnan : ∀ a b, isNan a = true ∨ isNan b = true → lt a b = false)
    (hkey : ∀ a b, isNan a = false → isNan b = false → (lt a b = true ↔ key a < key b))
    (hnodup : (l.map id).Nodup) (hlen : 2 ≤ l.length) (hsome : ∃ a ∈ l, isNan a = true) :
    ∃ xs ys : List α, xs.Perm l ∧ ys.Perm l ∧ NoDescent lt xs ∧ NoDescent lt ys ∧
      xs.map id ≠ ys.map id := by
  set nans := l.filter isNan with hnans
  set others := sortedBy lt (l.filter fun a => !isNan a) with hothers
  have hmemNans : ∀ a ∈ nans, isNan a = true := fun a ha => List.of_mem_filter ha
  have hmemOthers : ∀ a ∈ others, isNan a = false := by
    intro a ha
    have hrest := List.of_mem_filter (mem_sortedBy.mp ha)
    simpa using hrest
  have hperm : (nans ++ others).Perm l :=
    ((sortedBy_perm lt _).append_left nans).trans (List.filter_append_perm isNan l)
  have hothersChain : NoDescent lt others := by
    have hcompares : ComparesBy lt key (l.filter fun a => !isNan a) := by
      intro a ha b hb
      have ha' := List.of_mem_filter ha
      have hb' := List.of_mem_filter hb
      exact hkey a b (by simpa using ha') (by simpa using hb')
    exact noDescent_sortedBy hcompares
  have hreverse : ∀ a ∈ nans.reverse, isNan a = true := fun a ha =>
    hmemNans a (List.mem_reverse.mp ha)
  refine ⟨nans ++ others, others ++ nans.reverse, hperm, ?_,
    noDescent_append hnan (noDescent_of_nan hnan hmemNans) hothersChain (.inl hmemNans),
    noDescent_append hnan hothersChain (noDescent_of_nan hnan hreverse) (.inr hreverse), ?_⟩
  · exact ((nans.reverse_perm).append_left others).trans
      (List.perm_append_comm.trans hperm)
  · intro heq
    have hids : ((nans ++ others).map id).Nodup := (hperm.map id).nodup_iff.mpr hnodup
    cases hfirst : others with
    | nil =>
      rw [hfirst, List.append_nil] at hperm hids
      rw [hfirst, List.append_nil, List.nil_append, List.map_reverse] at heq
      refine ne_reverse hids ?_ heq
      rw [List.length_map, hperm.length_eq]
      exact hlen
    | cons o rest =>
      obtain ⟨a, ha, hisNan⟩ := hsome
      have hne : nans ≠ [] := List.ne_nil_of_mem (List.mem_filter.mpr ⟨ha, hisNan⟩)
      obtain ⟨n, more, hcons⟩ := List.exists_cons_of_ne_nil hne
      rw [hfirst, hcons, List.cons_append, List.cons_append, List.map_cons, List.map_cons] at heq
      have hsame : id n = id o := (List.cons.inj heq).1
      have hn : n ∈ nans ++ others := by simp [hcons]
      have ho : o ∈ nans ++ others := by simp [hfirst]
      have heqElem := List.inj_on_of_nodup_map hids hn ho hsame
      have hyes := hmemNans n (by simp [hcons])
      have hno := hmemOthers o (by simp [hfirst])
      rw [heqElem, hno] at hyes
      cases hyes

end Nan

section Keys
variable {κ : Type v} {lt : α → α → Bool} {key : α → κ} {xs ys : List α}

theorem sortedBy_eq_iff_of_keys
    (hlt : ∀ a b a' b', key a = key a' → key b = key b' → lt a b = lt a' b')
    (hkeys : xs.map key = ys.map key) : sortedBy lt xs = sortedBy lt ys ↔ xs = ys := by
  refine ⟨fun h => ?_, fun h => by rw [h]⟩
  obtain ⟨hlen, hpairs⟩ : xs.length = ys.length ∧
      ∀ {x y}, (x, y) ∈ xs.zip ys → key x = key y := by
    rw [← List.forall₂_iff_zip, ← List.forall₂_map_right_iff, ← List.forall₂_map_left_iff,
      List.forall₂_eq_eq_eq]
    exact hkeys
  have hxs : (xs.zip ys).map Prod.fst = xs := List.map_fst_zip hlen.le
  have hys : (xs.zip ys).map Prod.snd = ys := List.map_snd_zip hlen.ge
  have hleft : sortedBy lt xs =
      (sortedBy (fun z z' => lt z.1 z'.1) (xs.zip ys)).map Prod.fst := by
    conv_lhs => rw [← hxs]
    exact sortedBy_map fun _ _ _ _ => rfl
  have hright : sortedBy lt ys =
      (sortedBy (fun z z' => lt z.1 z'.1) (xs.zip ys)).map Prod.snd := by
    conv_lhs => rw [← hys]
    exact sortedBy_map fun z hz z' hz' => hlt _ _ _ _ (hpairs hz).symm (hpairs hz').symm
  rw [hleft, hright, List.map_inj_left] at h
  calc xs = (xs.zip ys).map Prod.fst := hxs.symm
    _ = (xs.zip ys).map Prod.snd := List.map_congr_left fun z hz => h z (mem_sortedBy.mpr hz)
    _ = ys := hys

end Keys
