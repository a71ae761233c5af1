import Mathlib.Data.List.Nodup
import Mathlib.Data.List.Perm.Basic
set_option autoImplicit false

/-!
A dictionary built from a list, as it is read: of several elements with one key the last one
counts.
-/

universe u v
variable {α : Type u} {κ : Type v} [DecidableEq κ] {key : α → κ} {xs ys : List α} {x : α} {k : κ}

/-- `{key(x): x for x in xs}.get(k)`. -/
def lastBy (key : α → κ) (xs : List α) (k : κ) : Option α := xs.reverse.find? fun x => key x = k

theorem mem_of_lastBy (h : lastBy key xs k = some x) : x ∈ xs :=
  List.mem_reverse.mp (List.mem_of_find?_eq_some h)

theorem key_of_lastBy (h : lastBy key xs k = some x) : key x = k := by
  have hkey := List.find?_some h
  simpa using hkey

theorem lastBy_eq_none_iff : lastBy key xs k = none ↔ ∀ x ∈ xs, key x ≠ k := by
  simp [lastBy, List.find?_eq_none]

theorem exists_lastBy (hx : x ∈ xs) (hkey : key x = k) : ∃ y, lastBy key xs k = some y := by
  cases h : lastBy key xs k with
  | some y => exact ⟨y, rfl⟩
  | none => exact absurd hkey (lastBy_eq_none_iff.mp h x hx)

@[simp] theorem lastBy_nil : lastBy key [] k = none := rfl

theorem lastBy_cons :
    lastBy key (x :: xs) k = (lastBy key xs k).or (if key x = k then some x else none) := by
  rw [lastBy, List.reverse_cons, List.find?_append, lastBy, List.find?_singleton]
  simp

theorem lastBy_append : lastBy key (xs ++ ys) k = (lastBy key ys k).or (lastBy key xs k) := by
  rw [lastBy, List.reverse_append, List.find?_append, lastBy, lastBy]

theorem lastBy_eq_some_iff (hnodup : (xs.map key).Nodup) :
    lastBy key xs k = some x ↔ x ∈ xs ∧ key x = k := by
  refine ⟨fun h => ⟨mem_of_lastBy h, key_of_lastBy h⟩, ?_⟩
  rintro ⟨hx, hkey⟩
  obtain ⟨y, hy⟩ := exists_lastBy hx hkey
  have hxy : x = y := List.inj_on_of_nodup_map hnodup hx (mem_of_lastBy hy)
    (hkey.trans (key_of_lastBy hy).symm)
  rw [hy, hxy]

theorem lastBy_of_perm (hnodup : (xs.map key).Nodup) (hperm : xs.Perm ys) :
    lastBy key xs = lastBy key ys := by
  funext k
  refine Option.ext fun x => ?_
  rw [lastBy_eq_some_iff hnodup, lastBy_eq_some_iff ((hperm.map key).nodup_iff.mp hnodup),
    hperm.mem_iff]

theorem lastBy_map {β : Type u} {key' : β → κ} {f : α → β} (h : ∀ x ∈ xs, key' (f x) = key x) :
    lastBy key' (xs.map f) k = (lastBy key xs k).map f := by
  induction xs with
  | nil => rfl
  | cons x xs ih =>
    rw [List.map_cons, lastBy_cons, lastBy_cons, ih fun y hy => h y (by simp [hy]),
      h x (by simp)]
    cases lastBy key xs k with
    | some y => rfl
    | none =>
      by_cases hkey : key x = k
      · simp [hkey]
      · simp [hkey]

theorem List.lookup_filter_ne {β : Type u} {entries : List (κ × β)} {k dropped : κ}
    (h : k ≠ dropped) :
    (entries.filter fun entry => entry.1 ≠ dropped).lookup k = entries.lookup k := by
  induction entries with
  | nil => rfl
  | cons entry entries ih =>
    by_cases hentry : entry.1 = dropped
    · have hne : (k == entry.1) = false := by simpa [hentry] using h
      rw [List.filter_cons_of_neg (by simp [hentry]), ih, List.lookup_cons, hne]
    · rw [List.filter_cons_of_pos (by simp [hentry]), List.lookup_cons, List.lookup_cons, ih]
