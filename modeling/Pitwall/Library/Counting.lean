import Mathlib.Algebra.BigOperators.Group.List.Lemmas
import Mathlib.Data.List.Nodup
import Mathlib.Tactic.Ring
set_option autoImplicit false

/-!
A dictionary as a list of entries, written one key at a time, and the sum of the counts that
such a dictionary holds.
-/

universe u v
variable {κ : Type u} [DecidableEq κ] {α : Type v}

/-- `d[key] = value`, at the place of the key if it has one. -/
def setEntry (key : κ) (value : α) : List (κ × α) → List (κ × α)
  | [] => [(key, value)]
  | (k, v) :: entries =>
      if k = key then (k, value) :: entries else (k, v) :: setEntry key value entries

section Keys
variable {key k : κ} {value : α} {entries : List (κ × α)}

theorem setEntry_nil : setEntry key value [] = [(key, value)] := rfl

theorem setEntry_cons {v : α} : setEntry key value ((k, v) :: entries) =
    if k = key then (k, value) :: entries else (k, v) :: setEntry key value entries := rfl

theorem setEntry_of_not_mem (h : key ∉ entries.map Prod.fst) :
    setEntry key value entries = entries ++ [(key, value)] := by
  induction entries with
  | nil => rfl
  | cons entry entries ih =>
    obtain ⟨k, v⟩ := entry
    rw [List.map_cons, List.mem_cons, not_or] at h
    rw [setEntry_cons, if_neg (Ne.symm h.1), ih h.2, List.cons_append]

theorem mem_keys_setEntry :
    k ∈ (setEntry key value entries).map Prod.fst ↔ k = key ∨ k ∈ entries.map Prod.fst := by
  induction entries with
  | nil => simp [setEntry_nil]
  | cons entry entries ih =>
    obtain ⟨k', v⟩ := entry
    by_cases h : k' = key
    · simp [setEntry_cons, h]
    · rw [setEntry_cons, if_neg h, List.map_cons, List.mem_cons, ih, List.map_cons, List.mem_cons]
      exact or_left_comm

theorem nodup_keys_setEntry (h : (entries.map Prod.fst).Nodup) :
    ((setEntry key value entries).map Prod.fst).Nodup := by
  induction entries with
  | nil => exact List.nodup_singleton _
  | cons entry entries ih =>
    obtain ⟨k, v⟩ := entry
    obtain ⟨hnew, hrest⟩ := List.nodup_cons.mp h
    by_cases hkey : k = key
    · rw [setEntry_cons, if_pos hkey]
      exact List.nodup_cons.mpr ⟨hnew, hrest⟩
    · rw [setEntry_cons, if_neg hkey]
      refine List.nodup_cons.mpr ⟨fun hmem => ?_, ih hrest⟩
      exact (mem_keys_setEntry.mp hmem).elim hkey hnew

theorem lookup_setEntry : (setEntry key value entries).lookup k =
    if k = key then some value else entries.lookup k := by
  induction entries with
  | nil =>
    by_cases h : k = key
    · simp [setEntry_nil, h]
    · simp [setEntry_nil, List.lookup_cons, beq_false_of_ne h, h]
  | cons entry entries ih =>
    obtain ⟨k', v⟩ := entry
    by_cases hkey : k' = key
    · subst hkey
      by_cases h : k = k'
      · simp [setEntry_cons, h]
      · simp [setEntry_cons, List.lookup_cons, beq_false_of_ne h, h]
    · by_cases h : k = k'
      · subst h
        simp [setEntry_cons, hkey]
      · simp [setEntry_cons, hkey, List.lookup_cons, beq_false_of_ne h, ih]

theorem map_setEntry {β : Type v} (f : α → β) :
    (setEntry key value entries).map (Prod.map id f) =
      setEntry key (f value) (entries.map (Prod.map id f)) := by
  induction entries with
  | nil => rfl
  | cons entry entries ih =>
    obtain ⟨k', v⟩ := entry
    by_cases hkey : k' = key
    · simp [setEntry_cons, hkey]
    · simp [setEntry_cons, hkey, ih]

theorem lookup_map {β : Type v} (f : α → β) :
    (entries.map (Prod.map id f)).lookup k = (entries.lookup k).map f := by
  induction entries with
  | nil => rfl
  | cons entry entries ih =>
    obtain ⟨k', v⟩ := entry
    rw [List.map_cons, Prod.map_apply, id, List.lookup_cons, List.lookup_cons, ih]
    cases k == k' with
    | true => rfl
    | false => rfl

theorem lookup_of_mem (hkeys : (entries.map Prod.fst).Nodup) {value : α}
    (h : (k, value) ∈ entries) : entries.lookup k = some value := by
  induction entries with
  | nil => cases h
  | cons entry entries ih =>
    obtain ⟨hnew, hrest⟩ := List.nodup_cons.mp hkeys
    rcases List.mem_cons.mp h with rfl | hmem
    · simp
    · have hne : k ≠ entry.1 := by
        rintro rfl
        exact hnew (List.mem_map.mpr ⟨_, hmem, rfl⟩)
      rw [List.lookup_cons, beq_false_of_ne hne]
      exact ih hrest hmem

theorem mem_of_lookup {value : α} (h : entries.lookup k = some value) : (k, value) ∈ entries := by
  induction entries with
  | nil => cases h
  | cons entry entries ih =>
    obtain ⟨k', v⟩ := entry
    rw [List.lookup_cons] at h
    by_cases hk : k = k'
    · subst hk
      rw [beq_self_eq_true] at h
      obtain rfl := Option.some.inj h
      exact List.mem_cons_self
    · rw [beq_false_of_ne hk] at h
      exact List.mem_cons_of_mem _ (ih h)

theorem perm_of_lookup_eq {entries' : List (κ × α)} (hkeys : (entries.map Prod.fst).Nodup)
    (hkeys' : (entries'.map Prod.fst).Nodup) (h : ∀ k, entries.lookup k = entries'.lookup k) :
    entries.Perm entries' := by
  refine (List.perm_ext_iff_of_nodup hkeys.of_map hkeys'.of_map).mpr ?_
  rintro ⟨k, value⟩
  constructor
  · intro hmem
    exact mem_of_lookup ((h k).symm.trans (lookup_of_mem hkeys hmem))
  · intro hmem
    exact mem_of_lookup ((h k).trans (lookup_of_mem hkeys' hmem))

theorem foldl_setEntry {fresh : List (κ × α)}
    (h : ((entries ++ fresh).map Prod.fst).Nodup) :
    fresh.foldl (fun entries entry => setEntry entry.1 entry.2 entries) entries =
      entries ++ fresh := by
  induction fresh generalizing entries with
  | nil => simp
  | cons entry fresh ih =>
    have hsplit : entries ++ entry :: fresh = (entries ++ [entry]) ++ fresh := by simp
    rw [hsplit] at h ⊢
    have hprefix : ((entries ++ [entry]).map Prod.fst).Nodup := by
      rw [List.map_append] at h
      exact h.of_append_left
    have hnew : entry.1 ∉ entries.map Prod.fst := by
      intro hmem
      rw [List.map_append, List.map_singleton] at hprefix
      exact (List.nodup_append.mp hprefix).2.2 _ hmem _ (List.mem_singleton_self _) rfl
    rw [List.foldl_cons, setEntry_of_not_mem hnew]
    exact ih h

end Keys

def countSum {ι : Type u} (counts : List (ι × ℕ)) : ℕ := (counts.map Prod.snd).sum

theorem countSum_perm {ι : Type u} {counts counts' : List (ι × ℕ)} (h : counts.Perm counts') :
    countSum counts = countSum counts' :=
  (h.map Prod.snd).sum_eq

theorem countSum_increment (key : κ) (counts : List (κ × ℕ)) :
    countSum (setEntry key ((counts.lookup key).getD 0 + 1) counts) = countSum counts + 1 := by
  have hset : ∀ n, countSum (setEntry key n counts) + (counts.lookup key).getD 0 =
      countSum counts + n := by
    intro n
    induction counts with
    | nil => simp [setEntry_nil, countSum]
    | cons entry counts ih =>
      obtain ⟨k, v⟩ := entry
      by_cases h : k = key
      · subst h
        simp only [setEntry_cons, countSum, if_true, List.map_cons, List.sum_cons, List.lookup_cons_self,
          Option.getD_some]
        ring
      · have hne : (key == k) = false := beq_false_of_ne (Ne.symm h)
        simp only [setEntry_cons, countSum, if_neg h, List.map_cons, List.sum_cons, List.lookup_cons,
          hne]
        simp only [countSum] at ih
        omega
  have hone := hset ((counts.lookup key).getD 0 + 1)
  omega
