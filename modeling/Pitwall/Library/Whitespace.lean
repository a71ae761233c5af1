import Mathlib.Data.List.Chain
import Mathlib.Data.List.DropRight
set_option autoImplicit false

/-!
Text stripped of the blanks at its ends, and with every run of blanks in it made one.
-/

namespace Whitespace

universe u
variable {α : Type u} (blank : α → Bool) (space : α)

def strip (s : List α) : List α := (s.dropWhile blank).rdropWhile blank

def single (c : α) : α := if blank c then space else c

def collapseRuns : List α → List α
  | [] => []
  | [c] => [single blank space c]
  | c :: d :: s =>
      if blank c && blank d then collapseRuns (d :: s)
      else single blank space c :: collapseRuns (d :: s)

def collapse (s : List α) : List α := collapseRuns blank space (strip blank s)

structure Collapsed (s : List α) : Prop where
  spaces : ∀ c ∈ s, blank c = true → c = space
  apart : s.IsChain fun c d => (blank c && blank d) = false

structure Trimmed (s : List α) : Prop where
  head : ∀ c ∈ s.head?, blank c = false
  last : ∀ c ∈ s.getLast?, blank c = false

variable {blank} {space} {s : List α}

theorem single_of_not {c : α} (h : blank c = false) : single blank space c = c := by
  rw [single, h, if_neg Bool.false_ne_true]

theorem blank_single (hspace : blank space = true) (c : α) :
    blank (single blank space c) = blank c := by
  cases h : blank c with
  | true => rw [single, h, if_pos rfl, hspace]
  | false => rw [single_of_not h, h]

theorem collapseRuns_singleton (c : α) :
    collapseRuns blank space [c] = [single blank space c] := rfl

theorem collapseRuns_cons_cons (c d : α) (s : List α) :
    collapseRuns blank space (c :: d :: s) =
      if blank c && blank d then collapseRuns blank space (d :: s)
      else single blank space c :: collapseRuns blank space (d :: s) := rfl

theorem collapseRuns_of_collapsed (h : Collapsed blank space s) :
    collapseRuns blank space s = s := by
  have hself : ∀ c ∈ s, single blank space c = c := by
    intro c hc
    cases hblank : blank c with
    | true => rw [single, hblank, if_pos rfl, h.spaces c hc hblank]
    | false => exact single_of_not hblank
  obtain ⟨-, hapart⟩ := h
  induction s with
  | nil => rfl
  | cons c s ih =>
    cases s with
    | nil => rw [collapseRuns_singleton, hself c (List.mem_singleton_self c)]
    | cons d s =>
      obtain ⟨hcd, hrest⟩ := List.isChain_cons_cons.mp hapart
      rw [collapseRuns_cons_cons, hcd, if_neg Bool.false_ne_true,
        hself c (List.mem_cons_self ..), ih (fun e he => hself e (List.mem_cons_of_mem _ he)) hrest]

theorem head?_collapseRuns (s : List α) (hspace : blank space = true) :
    (collapseRuns blank space s).head?.map blank = s.head?.map blank := by
  induction s with
  | nil => rfl
  | cons c s ih =>
    cases s with
    | nil => simp [collapseRuns_singleton, blank_single hspace]
    | cons d s =>
      rw [collapseRuns_cons_cons]
      split
      · rename_i hboth
        rw [Bool.and_eq_true] at hboth
        rw [ih]
        simp [hboth.1, hboth.2]
      · simp [blank_single hspace]

theorem getLast?_collapseRuns (s : List α) (hspace : blank space = true) :
    (collapseRuns blank space s).getLast?.map blank = s.getLast?.map blank := by
  induction s with
  | nil => rfl
  | cons c s ih =>
    cases s with
    | nil => simp [collapseRuns_singleton, blank_single hspace]
    | cons d s =>
      rw [collapseRuns_cons_cons, List.getLast?_cons_cons]
      split
      · exact ih
      · have hne : collapseRuns blank space (d :: s) ≠ [] := by
          intro hnil
          rw [hnil] at ih
          simp [List.getLast?_cons] at ih
        obtain ⟨e, t, ht⟩ := List.exists_cons_of_ne_nil hne
        rw [ht, List.getLast?_cons_cons, ← ht, ih]

theorem collapsed_collapseRuns (s : List α) (hspace : blank space = true) :
    Collapsed blank space (collapseRuns blank space s) := by
  have hsingle : ∀ c, blank (single blank space c) = true → single blank space c = space := by
    intro c hc
    rw [blank_single hspace] at hc
    rw [single, hc, if_pos rfl]
  induction s with
  | nil => exact ⟨fun c hc => absurd hc List.not_mem_nil, .nil⟩
  | cons c s ih =>
    cases s with
    | nil =>
      rw [collapseRuns_singleton]
      exact ⟨List.forall_mem_singleton.mpr (hsingle c), .singleton _⟩
    | cons d s =>
      rw [collapseRuns_cons_cons]
      split
      · exact ih
      · rename_i hapart
        refine ⟨List.forall_mem_cons.mpr ⟨hsingle c, ih.spaces⟩, ?_⟩
        have hhead := head?_collapseRuns (d :: s) hspace
        cases hrest : collapseRuns blank space (d :: s) with
        | nil => exact .singleton _
        | cons e t =>
          rw [hrest] at hhead ih
          have he : blank e = blank d := by simpa using hhead
          refine List.isChain_cons_cons.mpr ⟨?_, ih.apart⟩
          rw [blank_single hspace, he]
          exact Bool.eq_false_iff.mpr hapart

theorem strip_of_trimmed (h : Trimmed blank s) : strip blank s = s := by
  have hhead : s.dropWhile blank = s := by
    cases s with
    | nil => rfl
    | cons c s => rw [List.dropWhile_cons, h.head c rfl, if_neg Bool.false_ne_true]
  rw [strip, hhead, List.rdropWhile_eq_self_iff]
  intro hne hblank
  have hlast := h.last _ (List.getLast?_eq_some_getLast hne)
  rw [hlast] at hblank
  exact Bool.false_ne_true hblank

theorem trimmed_strip (s : List α) : Trimmed blank (strip blank s) := by
  have hprefix := List.rdropWhile_prefix blank (s.dropWhile blank)
  constructor
  · intro c hc
    obtain ⟨rest, hrest⟩ := hprefix
    have hhead : (s.dropWhile blank).head? = some c := by
      rw [← hrest, List.head?_append, strip] at *
      rw [Option.mem_def.mp hc, Option.some_or]
    cases hdrop : s.dropWhile blank with
    | nil =>
      rw [hdrop] at hhead
      cases hhead
    | cons d t =>
      rw [hdrop] at hhead
      cases hhead
      have hne : s.dropWhile blank ≠ [] := by
        rw [hdrop]
        exact List.cons_ne_nil _ _
      simpa [hdrop] using List.head_dropWhile_not blank hne
  · intro c hc
    have hne : strip blank s ≠ [] := by
      intro hnil
      rw [hnil] at hc
      cases hc
    rw [List.getLast?_eq_some_getLast hne] at hc
    cases hc
    exact Bool.eq_false_iff.mpr (List.rdropWhile_last_not blank (s.dropWhile blank) hne)

theorem trimmed_collapseRuns (hspace : blank space = true) (h : Trimmed blank s) :
    Trimmed blank (collapseRuns blank space s) := by
  have hmap : ∀ x y : Option α, x.map blank = y.map blank → (∀ c ∈ y, blank c = false) →
      ∀ c ∈ x, blank c = false := by
    rintro x y hxy hy c rfl
    obtain ⟨d, hd, hcd⟩ := Option.map_eq_some_iff.mp hxy.symm
    rw [← hcd]
    exact hy d hd
  exact ⟨hmap _ _ (head?_collapseRuns s hspace) h.head,
    hmap _ _ (getLast?_collapseRuns s hspace) h.last⟩

theorem collapse_collapse (hspace : blank space = true) (s : List α) :
    collapse blank space (collapse blank space s) = collapse blank space s := by
  have htrimmed := trimmed_collapseRuns hspace (@trimmed_strip α blank s)
  rw [collapse, collapse, strip_of_trimmed htrimmed,
    collapseRuns_of_collapsed (collapsed_collapseRuns _ hspace)]

end Whitespace
