import Pitwall.Library.Dictionary
set_option autoImplicit false

/-!
Rows that are put one by one, each in the place of the row with its key. A run of operations on
distinct keys leaves under each key what its own operation makes of the row that was there.
-/

universe u v w
variable {α : Type u} {κ : Type v} {key : α → κ} {rows rows' : List α} {r : α} {k : κ}

section Keys
variable [DecidableEq κ]

/-- The rows with `r` in the place of the row with its key, or behind them. -/
def putBy (key : α → κ) (rows : List α) (r : α) : List α :=
  if rows.any fun x => key x = key r then rows.map fun x => if key x = key r then r else x
  else rows ++ [r]

def replacedBy (key : α → κ) (r x : α) : α := if key x = key r then r else x

theorem key_replacedBy (x : α) : key (replacedBy key r x) = key x := by
  unfold replacedBy
  split
  · rename_i h
    exact h.symm
  · rfl

theorem putBy_of_mem (h : ∃ x ∈ rows, key x = key r) :
    putBy key rows r = rows.map (replacedBy key r) := by
  have hany : rows.any (fun x => key x = key r) = true := by simpa using h
  rw [putBy, if_pos hany]
  rfl

theorem putBy_of_notMem (h : ∀ x ∈ rows, key x ≠ key r) : putBy key rows r = rows ++ [r] := by
  have hany : ¬ rows.any (fun x => key x = key r) = true := by simpa using h
  rw [putBy, if_neg hany]

omit [DecidableEq κ] in
theorem exists_key_or (key : α → κ) (rows : List α) (r : α) :
    (∃ x ∈ rows, key x = key r) ∨ ∀ x ∈ rows, key x ≠ key r := by
  by_cases h : ∃ x ∈ rows, key x = key r
  · exact .inl h
  · push Not at h
    exact .inr h

theorem lastBy_putBy :
    lastBy key (putBy key rows r) k = if k = key r then some r else lastBy key rows k := by
  rcases exists_key_or key rows r with h | h
  · rw [putBy_of_mem h, lastBy_map fun x _ => key_replacedBy x]
    by_cases hk : k = key r
    · obtain ⟨x, hx, hkey⟩ := h
      obtain ⟨y, hy⟩ := exists_lastBy hx hkey
      rw [if_pos hk, hk, hy, Option.map_some, replacedBy, if_pos (key_of_lastBy hy)]
    · rw [if_neg hk]
      cases hlast : lastBy key rows k with
      | none => rfl
      | some y =>
        have hne : key y ≠ key r := by rwa [key_of_lastBy hlast]
        rw [Option.map_some, replacedBy, if_neg hne]
  · rw [putBy_of_notMem h, lastBy_append, lastBy_cons, lastBy_nil, Option.none_or]
    by_cases hk : k = key r
    · simp [hk]
    · simp [hk, Ne.symm hk]

theorem nodup_putBy (hnodup : (rows.map key).Nodup) : ((putBy key rows r).map key).Nodup := by
  rcases exists_key_or key rows r with h | h
  · have hkeys : (rows.map (replacedBy key r)).map key = rows.map key := by
      rw [List.map_map]
      exact List.map_congr_left fun x _ => key_replacedBy x
    rwa [putBy_of_mem h, hkeys]
  · rw [putBy_of_notMem h, List.map_append, List.map_singleton, ← List.concat_eq_append]
    refine hnodup.concat ?_
    simpa using h

theorem putBy_putBy (r s : α) (h : key s = key r) :
    putBy key (putBy key rows r) s = putBy key rows s := by
  have hr : ∃ x ∈ putBy key rows r, key x = key s := by
    have hread : lastBy key (putBy key rows r) (key r) = some r := by rw [lastBy_putBy, if_pos rfl]
    exact ⟨r, mem_of_lastBy hread, h.symm⟩
  rw [putBy_of_mem hr]
  rcases exists_key_or key rows r with hmem | hmem
  · rw [putBy_of_mem hmem, putBy_of_mem (by rwa [h]), List.map_map]
    refine List.map_congr_left fun x _ => ?_
    simp only [Function.comp_apply, replacedBy, h]
    split
    · rw [if_pos rfl]
    · rfl
  · rw [putBy_of_notMem hmem, putBy_of_notMem (by rwa [h]), List.map_append, List.map_singleton]
    have hrest : rows.map (replacedBy key s) = rows := by
      refine (List.map_congr_left fun x hx => ?_).trans (List.map_id rows)
      rw [replacedBy, if_neg (by rw [h]; exact hmem x hx)]
      rfl
    rw [hrest, replacedBy, if_pos h.symm]

theorem putBy_of_lastBy (hnodup : (rows.map key).Nodup) (h : lastBy key rows (key r) = some r) :
    putBy key rows r = rows := by
  rw [putBy_of_mem ⟨r, mem_of_lastBy h, rfl⟩]
  refine (List.map_congr_left fun x hx => ?_).trans (List.map_id rows)
  unfold replacedBy
  split
  · rename_i hkey
    exact (List.inj_on_of_nodup_map hnodup hx (mem_of_lastBy h) hkey).symm
  · rfl

end Keys

section Runs
variable {β : Type w} [DecidableEq κ] {target : β → κ} {R : β → Option α → α → Prop} {ops : List β}

/-- A run of operations, each of which puts a row that `R` relates to the row in its place. -/
inductive PutRun (key : α → κ) (target : β → κ) (R : β → Option α → α → Prop) :
    List α → List β → List α → Prop where
  | nil (rows : List α) : PutRun key target R rows [] rows
  | cons {rows rows' : List α} {op : β} {ops : List β} {r : α} (hkey : key r = target op)
      (hr : R op (lastBy key rows (target op)) r) (h : PutRun key target R (putBy key rows r) ops rows') :
      PutRun key target R rows (op :: ops) rows'

namespace PutRun

theorem lastBy_of_notMem (h : PutRun key target R rows ops rows') (hk : k ∉ ops.map target) :
    lastBy key rows' k = lastBy key rows k := by
  induction h with
  | nil => rfl
  | cons hkey hr h ih =>
    rw [List.map_cons, List.mem_cons, not_or] at hk
    rw [ih hk.2, lastBy_putBy, hkey, if_neg hk.1]

theorem lastBy_of_mem (h : PutRun key target R rows ops rows') (hnodup : (ops.map target).Nodup)
    {op : β} (hop : op ∈ ops) :
    ∃ r, lastBy key rows' (target op) = some r ∧ R op (lastBy key rows (target op)) r := by
  induction h with
  | nil => cases hop
  | @cons rows rows' op' ops r hkey hr h ih =>
    rw [List.map_cons, List.nodup_cons] at hnodup
    rcases List.mem_cons.mp hop with rfl | hop
    · exact ⟨r, by rw [h.lastBy_of_notMem hnodup.1, lastBy_putBy, hkey, if_pos rfl], hr⟩
    · obtain ⟨r', hread, hr'⟩ := ih hnodup.2 hop
      have hne : target op ≠ target op' := by
        intro heq
        exact hnodup.1 (heq ▸ List.mem_map_of_mem hop)
      rw [lastBy_putBy, hkey, if_neg hne] at hr'
      exact ⟨r', hread, hr'⟩

theorem nodup (h : PutRun key target R rows ops rows') (hnodup : (rows.map key).Nodup) :
    (rows'.map key).Nodup := by
  induction h with
  | nil => exact hnodup
  | cons hkey hr h ih => exact ih (nodup_putBy hnodup)

end PutRun

end Runs
