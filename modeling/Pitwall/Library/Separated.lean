import Mathlib.Data.List.Basic
import Mathlib.Data.List.DropRight
set_option autoImplicit false

/-!
Lists that are put together from segments with a separator between them.
-/

namespace Separated
universe u
variable {α : Type u}

theorem mem_of_mem_intercalate {sep c : α} {segments : List (List α)}
    (h : c ∈ [sep].intercalate segments) : c = sep ∨ ∃ segment ∈ segments, c ∈ segment := by
  induction segments with
  | nil => cases h
  | cons segment rest ih =>
    cases rest with
    | nil => exact .inr ⟨segment, by simp, by simpa using h⟩
    | cons next rest =>
      rw [List.intercalate_cons_cons, List.append_assoc, List.singleton_append] at h
      rcases List.mem_append.mp h with h | h
      · exact .inr ⟨segment, by simp, h⟩
      · rcases List.mem_cons.mp h with h | h
        · exact .inl h
        · rcases ih h with h | ⟨s, hs, hc⟩
          · exact .inl h
          · exact .inr ⟨s, List.mem_cons_of_mem _ hs, hc⟩

theorem mem_intercalate_of_mem {sep c : α} {segment : List α} {segments : List (List α)}
    (hs : segment ∈ segments) (hc : c ∈ segment) : c ∈ [sep].intercalate segments := by
  induction segments with
  | nil => cases hs
  | cons first rest ih =>
    cases rest with
    | nil =>
      obtain rfl := List.mem_singleton.mp hs
      simpa using hc
    | cons next rest =>
      rw [List.intercalate_cons_cons]
      rcases List.mem_cons.mp hs with rfl | hs
      · simp [hc]
      · exact List.mem_append_right _ (ih hs)

theorem mem_of_mem_splitOn [BEq α] [LawfulBEq α] {sep c : α} {s segment : List α}
    (hs : segment ∈ s.splitOn sep) (hc : c ∈ segment) : c ∈ s := by
  rw [← @List.intercalate_splitOn _ s _ _ sep]
  exact mem_intercalate_of_mem hs hc

theorem mem_splitOn_of_mem [BEq α] [LawfulBEq α] {sep c : α} {s : List α} (hc : c ∈ s) :
    c = sep ∨ ∃ segment ∈ s.splitOn sep, c ∈ segment := by
  rw [← @List.intercalate_splitOn _ s _ _ sep] at hc
  exact mem_of_mem_intercalate hc

end Separated

theorem List.forall_split_concat {α : Type} {Q : List α → α → Prop} {xs : List α} {y : α} :
    (∀ earlier x later, xs ++ [y] = earlier ++ x :: later → Q earlier x) ↔
      (∀ earlier x later, xs = earlier ++ x :: later → Q earlier x) ∧ Q xs y := by
  constructor
  · intro h
    refine ⟨fun earlier x later hsplit => h earlier x (later ++ [y]) (by simp [hsplit]),
      h xs y [] rfl⟩
  · rintro ⟨h, hlast⟩ earlier x later hsplit
    rcases List.eq_nil_or_concat later with rfl | ⟨init, last, rfl⟩
    · obtain ⟨rfl, heq⟩ := List.append_inj' hsplit rfl
      obtain rfl : y = x := by simpa using heq
      exact hlast
    · rw [List.concat_eq_append, ← List.cons_append, ← List.append_assoc] at hsplit
      exact h earlier x init (List.append_inj' hsplit rfl).1

theorem List.rdropWhile_dropWhile_of_ends {α : Type} {p : α → Bool} {s : List α}
    (hhead : ∀ c, s.head? = some c → p c = false) (hlast : ∀ c, s.getLast? = some c → p c = false) :
    (s.dropWhile p).rdropWhile p = s := by
  have hdrop : s.dropWhile p = s := by
    cases s with
    | nil => rfl
    | cons c rest => exact List.dropWhile_cons_of_neg (by simp [hhead c rfl])
  rw [hdrop, List.rdropWhile_eq_self_iff]
  intro hne hcut
  rw [hlast _ (List.getLast?_eq_some_getLast hne)] at hcut
  cases hcut

theorem List.suffix_append_iff_of_marks {α : Type} {p : α → Prop} {front back suffix : List α}
    (hfront : ∀ c ∈ front, p c) (hsuffix : ∀ c ∈ suffix, ¬p c) :
    suffix <:+ front ++ back ↔ suffix <:+ back := by
  refine ⟨fun h => ?_, fun h => h.trans (List.suffix_append front back)⟩
  rcases List.suffix_or_suffix_of_suffix h (List.suffix_append front back) with hle | hge
  · exact hle
  · obtain ⟨extra, rfl⟩ := hge
    obtain ⟨rest, hrest⟩ := h
    rw [← List.append_assoc] at hrest
    have heq : rest ++ extra = front := List.append_cancel_right hrest
    cases extra with
    | nil => exact List.suffix_rfl
    | cons c extra =>
      have hmem : c ∈ front := by
        rw [← heq]
        simp
      exact absurd (hfront c hmem) (hsuffix c (by simp))
