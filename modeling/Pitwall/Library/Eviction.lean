import Mathlib.Data.List.MinMax
import Pitwall.Library.Table
set_option autoImplicit false

/-!
Holding a keyed table to a size: while it has too many rows, the least of them goes.
-/

universe u v w

/-- `kept` are the `limit` greatest of the candidates, or all when they are fewer. -/
structure Greatest {ρ : Type u} {ω : Type w} [LT ω] (rank : ρ → ω) (limit : Nat)
    (kept candidates : List ρ) : Prop where
  sub : kept ⊆ candidates
  length : kept.length = min limit candidates.length
  above : ∀ a ∈ kept, ∀ b ∈ candidates, b ∉ kept → rank b < rank a

theorem Greatest.all {ρ : Type u} {ω : Type w} [LT ω] {rank : ρ → ω} {limit : Nat}
    {candidates : List ρ} (h : candidates.length ≤ limit) :
    Greatest rank limit candidates candidates where
  sub := List.Subset.refl _
  length := by omega
  above := fun _ _ b hb hno => absurd hb hno

theorem Greatest.perm {ρ : Type u} {ω : Type w} [LT ω] {rank : ρ → ω} {limit : Nat}
    {kept candidates candidates' : List ρ} (h : Greatest rank limit kept candidates)
    (hperm : candidates.Perm candidates') : Greatest rank limit kept candidates' where
  sub := fun _ ha => hperm.mem_iff.mp (h.sub ha)
  length := by rw [h.length, hperm.length_eq]
  above := fun a ha b hb => h.above a ha b (hperm.mem_iff.mpr hb)

namespace Keyed
variable {ρ : Type u} {κ : Type v} {ω : Type w} {key : ρ → κ} [DecidableEq κ] [LinearOrder ω]
  {rank : ρ → ω} {limit : Nat} {t : Keyed key}

def evictLeast (rank : ρ → ω) (t : Keyed key) : Keyed key :=
  match t.rows.argmin rank with
  | none => t
  | some victim => t.delete fun r => key r = key victim

/-- `while len(t) > limit: evict`, for at most `fuel` rounds. -/
def evictRounds (rank : ρ → ω) (limit : Nat) : Nat → Keyed key → Keyed key
  | 0, t => t
  | fuel + 1, t =>
      if limit < t.rows.length then evictRounds rank limit fuel (t.evictLeast rank) else t

def evictTo (rank : ρ → ω) (limit : Nat) (t : Keyed key) : Keyed key :=
  evictRounds rank limit t.rows.length t

theorem evictLeast_spec (rank : ρ → ω) (h : t.rows ≠ []) : ∃ victim ∈ t.rows,
    (∀ r ∈ t.rows, rank victim ≤ rank r) ∧
    (∀ r, r ∈ (t.evictLeast rank).rows ↔ r ∈ t.rows ∧ r ≠ victim) ∧
    (t.evictLeast rank).rows.length + 1 = t.rows.length := by
  cases hvictim : t.rows.argmin rank with
  | none => exact absurd (List.argmin_eq_none.mp hvictim) h
  | some victim =>
    have hmem := List.argmin_mem hvictim
    have hrows : (t.evictLeast rank).rows = t.rows.filter fun r => !decide (key r = key victim) := by
      unfold evictLeast
      rw [hvictim]
      rfl
    refine ⟨victim, hmem, fun r hr => List.le_of_mem_argmin hr hvictim, fun r => ?_, ?_⟩
    · rw [hrows, List.mem_filter]
      refine and_congr_right (fun hr => ?_)
      simp only [Bool.not_eq_true', decide_eq_false_iff_not]
      refine not_congr ⟨fun hkey => ?_, fun heq => by rw [heq]⟩
      exact t.eq_of_uniq hr hmem (k := key r) (by simp) (by simp [hkey])
    · have hone : t.rows.countP (fun r => decide (key r = key victim)) = 1 := by
        refine le_antisymm (t.countP_le_one (k := key victim) (fun r hr => ?_)) ?_
        · simpa using (of_decide_eq_true hr).symm
        · exact List.countP_pos_iff.mpr ⟨victim, hmem, by simp⟩
      have hsplit := List.length_eq_countP_add_countP
        (fun r => decide (key r = key victim)) (l := t.rows)
      rw [hrows, ← List.countP_eq_length_filter]
      simp only [Bool.not_eq_true, decide_eq_false_iff_not, decide_not] at hsplit ⊢
      omega

theorem Greatest.of_evictLeast {kept : List ρ} (hlimit : limit < t.rows.length)
    (hinj : ∀ a ∈ t.rows, ∀ b ∈ t.rows, rank a = rank b → a = b)
    (h : Greatest rank limit kept (t.evictLeast rank).rows) :
    Greatest rank limit kept t.rows := by
  have hne : t.rows ≠ [] := by
    intro hnil
    rw [hnil] at hlimit
    simp at hlimit
  obtain ⟨victim, hvictim, hleast, hmem, hlength⟩ := evictLeast_spec rank hne
  refine ⟨fun a ha => ((hmem a).mp (h.sub ha)).1, ?_, fun a ha b hb hno => ?_⟩
  · rw [h.length]
    omega
  · obtain ⟨ha', hnot⟩ := (hmem a).mp (h.sub ha)
    by_cases hbv : b = victim
    · subst hbv
      exact lt_of_le_of_ne (hleast a ha') (fun heq => hnot (hinj _ hb _ ha' heq).symm)
    · exact h.above a ha b ((hmem b).mpr ⟨hb, hbv⟩) hno

theorem greatest_evictTo (hinj : ∀ a ∈ t.rows, ∀ b ∈ t.rows, rank a = rank b → a = b) :
    Greatest rank limit (t.evictTo rank limit).rows t.rows := by
  have hrounds : ∀ fuel (t : Keyed key), t.rows.length ≤ fuel + limit →
      (∀ a ∈ t.rows, ∀ b ∈ t.rows, rank a = rank b → a = b) →
      Greatest rank limit (evictRounds rank limit fuel t).rows t.rows := by
    intro fuel
    induction fuel with
    | zero =>
      intro t hfuel _
      unfold evictRounds
      exact Greatest.all (by omega)
    | succ fuel ih =>
      intro t hfuel hinj
      unfold evictRounds
      split
      · rename_i hlimit
        have hne : t.rows ≠ [] := by
          intro hnil
          rw [hnil] at hlimit
          simp at hlimit
        obtain ⟨victim, -, -, hmem, hlength⟩ := evictLeast_spec rank hne
        refine Greatest.of_evictLeast hlimit hinj (ih _ (by omega) (fun a ha b hb => ?_))
        exact hinj a ((hmem a).mp ha).1 b ((hmem b).mp hb).1
      · exact Greatest.all (by omega)
  exact hrounds _ t (by omega) hinj

end Keyed
