import Mathlib.Data.List.Nodup
set_option autoImplicit false

/-!
Filling a bounded list from candidates, each key once.
-/

universe u v
variable {α : Type u} {κ : Type v} [DecidableEq κ]

/-- `a` at the end of `chain`, unless that is full or has its key. -/
def appendFresh (key : α → κ) (limit : Nat) (chain : List α) (a : α) : List α :=
  if limit ≤ chain.length ∨ key a ∈ chain.map key then chain else chain ++ [a]

def appendAllFresh (key : α → κ) (limit : Nat) (chain candidates : List α) : List α :=
  candidates.foldl (appendFresh key limit) chain

section Fresh
variable {key : α → κ} {limit : Nat} {chain candidates : List α}

theorem appendFresh_nodup {a : α} (h : (chain.map key).Nodup) :
    ((appendFresh key limit chain a).map key).Nodup := by
  unfold appendFresh
  split
  · exact h
  · rename_i hfresh
    rw [not_or] at hfresh
    rw [List.map_append, List.map_singleton]
    exact List.Nodup.append h (List.nodup_singleton _)
      (List.disjoint_singleton.mpr hfresh.2)

theorem appendAllFresh_nodup (h : (chain.map key).Nodup) :
    ((appendAllFresh key limit chain candidates).map key).Nodup := by
  induction candidates generalizing chain with
  | nil => exact h
  | cons a candidates ih => exact ih (appendFresh_nodup h)

theorem appendFresh_length_le {a : α} (h : chain.length ≤ limit) :
    (appendFresh key limit chain a).length ≤ limit := by
  unfold appendFresh
  split
  · exact h
  · rename_i hfresh
    rw [not_or, Nat.not_le] at hfresh
    rw [List.length_append, List.length_singleton]
    exact hfresh.1

theorem appendAllFresh_length_le (h : chain.length ≤ limit) :
    (appendAllFresh key limit chain candidates).length ≤ limit := by
  induction candidates generalizing chain with
  | nil => exact h
  | cons a candidates ih => exact ih (appendFresh_length_le h)

theorem mem_appendFresh {a b : α} (h : b ∈ appendFresh key limit chain a) : b ∈ chain ∨ b = a := by
  unfold appendFresh at h
  split at h
  · exact .inl h
  · simpa using h

theorem mem_appendAllFresh {b : α} (h : b ∈ appendAllFresh key limit chain candidates) :
    b ∈ chain ∨ b ∈ candidates := by
  induction candidates generalizing chain with
  | nil => exact .inl h
  | cons a candidates ih =>
    rcases ih h with hchain | hcandidates
    · rcases mem_appendFresh hchain with hmem | rfl
      · exact .inl hmem
      · exact .inr (by simp)
    · exact .inr (List.mem_cons_of_mem a hcandidates)

end Fresh

section First
variable {ks ks' : List κ} {k : κ}

theorem nodup_eraseDups (ks : List κ) : ks.eraseDups.Nodup := by
  cases ks with
  | nil => exact List.nodup_nil
  | cons k ks =>
    rw [List.eraseDups_cons, List.nodup_cons]
    constructor
    · simp [List.mem_eraseDups]
    · exact nodup_eraseDups (ks.filter fun b => !b == k)
termination_by ks.length
decreasing_by
  exact Nat.lt_succ_of_le (List.length_filter_le _ _)

theorem eraseDups_of_nodup (h : ks.Nodup) : ks.eraseDups = ks := by
  induction ks with
  | nil => rfl
  | cons k ks ih =>
    obtain ⟨hnew, hrest⟩ := List.nodup_cons.mp h
    have hkeep : (ks.filter fun b => !b == k) = ks := by
      refine List.filter_eq_self.mpr (fun b hb => ?_)
      have hne : b ≠ k := fun heq => hnew (heq ▸ hb)
      simp [hne]
    rw [List.eraseDups_cons, hkeep, ih hrest]

theorem eraseDups_append_cons_of_mem (h : k ∈ ks) :
    (ks ++ k :: ks').eraseDups = (ks ++ ks').eraseDups := by
  rw [List.eraseDups_append, List.eraseDups_append, List.cons_removeAll]
  simp [h]

theorem map_appendAllFresh {key : α → κ} {limit : Nat} {chain candidates : List α}
    (hnodup : (chain.map key).Nodup) (hlen : chain.length ≤ limit) :
    (appendAllFresh key limit chain candidates).map key =
      ((chain ++ candidates).map key).eraseDups.take limit := by
  induction candidates generalizing chain with
  | nil =>
    rw [List.append_nil, eraseDups_of_nodup hnodup, List.take_of_length_le (by simpa using hlen)]
    rfl
  | cons a candidates ih =>
    have hnext : (appendAllFresh key limit (appendFresh key limit chain a) candidates).map key =
        ((appendFresh key limit chain a ++ candidates).map key).eraseDups.take limit :=
      ih (appendFresh_nodup hnodup) (appendFresh_length_le hlen)
    rw [appendAllFresh, List.foldl_cons]
    refine hnext.trans ?_
    unfold appendFresh
    split
    · rename_i hkept
      rcases hkept with hfull | hold
      · have htake : ∀ more : List α,
            ((chain ++ more).map key).eraseDups.take limit = chain.map key := by
          intro more
          rw [List.map_append, List.eraseDups_append, eraseDups_of_nodup hnodup]
          exact List.take_left' (by rw [List.length_map]; omega)
        rw [htake, htake]
      · rw [List.map_append, List.map_append, List.map_cons, eraseDups_append_cons_of_mem hold]
    · rw [List.append_assoc, List.singleton_append]

theorem length_eraseDups_of_mem_iff (hnodup : ks'.Nodup) (h : ∀ k, k ∈ ks ↔ k ∈ ks') :
    ks.eraseDups.length = ks'.length := by
  have hperm : ks.eraseDups.Perm ks' := by
    refine (List.perm_ext_iff_of_nodup (nodup_eraseDups ks) hnodup).mpr (fun k => ?_)
    rw [List.mem_eraseDups, h k]
  exact hperm.length_eq

end First
