import Mathlib
import Pitwall.Finops.BurnRate
set_option autoImplicit false

/-!
What a forecast reads of the rows of `pitwall.cost_daily` beyond their daily totals: the trend
compares the halves of the rows, so it follows how the rows are spread over the days.
-/

namespace Pitwall

theorem windowPoints_append (cutoff : Int) (table table' : List DailyCost) :
    windowPoints cutoff (table ++ table') =
      windowPoints cutoff table ++ windowPoints cutoff table' := by
  simp [windowPoints]

theorem windowPoints_cons (cutoff : Int) (row : DailyCost) (table : List DailyCost) :
    windowPoints cutoff (row :: table) =
      windowPoints cutoff [row] ++ windowPoints cutoff table :=
  windowPoints_append cutoff [row] table

theorem windowPoints_parts {cutoff : Int} {row : DailyCost} {parts : List DailyCost}
    (h : ∀ part ∈ parts, part.day = row.day) :
    windowPoints cutoff parts =
      if cutoff ≤ row.day then parts.map DailyCost.toSpendPoint else [] := by
  unfold windowPoints
  split
  · rename_i hin
    rw [List.filter_eq_self.mpr]
    intro part hpart
    simpa [h part hpart] using hin
  · rename_i hout
    rw [List.filter_eq_nil_iff.mpr, List.map_nil]
    intro part hpart
    simpa [h part hpart] using hout

theorem windowPoints_singleton (cutoff : Int) (row : DailyCost) :
    windowPoints cutoff [row] = if cutoff ≤ row.day then [row.toSpendPoint] else [] :=
  windowPoints_parts (by simp)

section Split
variable {cutoff : Int} {table table' : List DailyCost}

theorem splitsInto_self (row : DailyCost) : SplitsInto row [row] := by
  refine ⟨by simp, by simp, ?_⟩
  simp [costSum]

theorem Splits.refl (table : List DailyCost) : Splits table table := by
  induction table with
  | nil => exact .nil
  | cons row table ih => exact .cons (splitsInto_self row) ih

theorem splits_at {row : DailyCost} {parts : List DailyCost} (h : SplitsInto row parts)
    (before after : List DailyCost) :
    Splits (before ++ row :: after) (before ++ (parts ++ after)) := by
  induction before with
  | nil =>
    have hcons := Splits.cons h (Splits.refl after)
    simpa using hcons
  | cons first before ih =>
    have hcons := Splits.cons (splitsInto_self first) ih
    simpa using hcons

theorem Splits.costSum_eq (h : Splits table table') :
    costSum (windowPoints cutoff table') = costSum (windowPoints cutoff table) := by
  induction h with
  | nil => rfl
  | @cons row parts rest rest' hrow hrest ih =>
    obtain ⟨-, hday, hsum⟩ := hrow
    rw [windowPoints_append, windowPoints_cons, costSum_append, costSum_append, ih,
      windowPoints_parts hday, windowPoints_singleton]
    congr 1
    split
    · rw [hsum]
      simp [costSum]
    · rfl

theorem Splits.sameDays (h : Splits table table') :
    SameDays (windowPoints cutoff table) (windowPoints cutoff table') := by
  induction h with
  | nil => exact fun _ => Iff.rfl
  | @cons row parts rest rest' hrow hrest ih =>
    obtain ⟨hne, hday, -⟩ := hrow
    intro day
    rw [windowPoints_append, windowPoints_cons, List.map_append, List.map_append, List.mem_append,
      List.mem_append, ih day, windowPoints_parts hday, windowPoints_singleton]
    refine or_congr ?_ Iff.rfl
    split
    · obtain ⟨part, hpart⟩ := List.exists_mem_of_ne_nil parts hne
      constructor
      · intro hmem
        obtain rfl : day = row.day := by simpa using hmem
        rw [List.map_map]
        exact List.mem_map.mpr ⟨part, hpart, hday part hpart⟩
      · intro hmem
        rw [List.map_map] at hmem
        obtain ⟨part', hpart', rfl⟩ := List.mem_map.mp hmem
        simpa using hday part' hpart'
    · rfl

theorem Splits.length_le (h : Splits table table') :
    (windowPoints cutoff table).length ≤ (windowPoints cutoff table').length := by
  induction h with
  | nil => exact le_rfl
  | @cons row parts rest rest' hrow hrest ih =>
    obtain ⟨hne, hday, -⟩ := hrow
    rw [windowPoints_append, windowPoints_cons, List.length_append, List.length_append,
      windowPoints_parts hday, windowPoints_singleton]
    refine Nat.add_le_add ?_ ih
    split
    · rw [List.length_map]
      exact List.length_pos_iff.mpr hne
    · exact le_rfl

end Split

theorem windowPoints_nonneg {cutoff : Int} {table : List DailyCost} {p : SpendPoint}
    (hp : p ∈ windowPoints cutoff table) : 0 ≤ p.costUsd := by
  obtain ⟨row, -, rfl⟩ := List.mem_map.mp hp
  exact row.cost_nonneg

theorem eq_zero_of_costSum {points : List SpendPoint} (hnonneg : ∀ p ∈ points, 0 ≤ p.costUsd)
    (h : costSum points = 0) : ∀ p ∈ points, p.costUsd = 0 := by
  intro p hp
  have hle := List.single_le_sum (l := points.map SpendPoint.costUsd) (by simpa using hnonneg)
    p.costUsd (List.mem_map.mpr ⟨p, hp, rfl⟩)
  exact (hle.trans_eq h).antisymm (hnonneg p hp)

theorem costSum_nonneg {points : List SpendPoint} (h : ∀ q ∈ points, 0 ≤ q.costUsd) :
    0 ≤ costSum points :=
  List.sum_nonneg (by simpa using h)

def SpendPoint.filler (p : SpendPoint) : SpendPoint := ⟨p.day, 0⟩

section Fillers
variable {before after : List SpendPoint} {p : SpendPoint} {m : ℕ}

theorem mem_fillers_before {q : SpendPoint}
    (hq : q ∈ before ++ (List.replicate m p.filler ++ p :: after)) :
    q = p.filler ∨ q ∈ before ++ p :: after := by
  simp only [List.mem_append, List.mem_replicate] at hq ⊢
  grind

theorem mem_fillers_after {q : SpendPoint}
    (hq : q ∈ before ++ p :: (List.replicate m p.filler ++ after)) :
    q = p.filler ∨ q ∈ before ++ p :: after := by
  simp only [List.mem_append, List.mem_cons, List.mem_replicate] at hq ⊢
  grind

theorem computeTrend_fillers_before (hpos : 0 < p.costUsd)
    (hnonneg : ∀ q ∈ before ++ p :: after, 0 ≤ q.costUsd)
    (hearlier : ∀ q ∈ before ++ p :: after, q.day < p.day → q.costUsd = 0)
    (hbefore : ∀ q ∈ before, q.day = p.day → q.costUsd = 0)
    (hm : (before ++ p :: after).length ≤ m) :
    computeTrend (sortedBy dayLt (before ++ (List.replicate m p.filler ++ p :: after))) =
      .increasing := by
  set points := before ++ (List.replicate m p.filler ++ p :: after) with hpoints
  -- the day of the point splits the sort, and in it the fillers stand before the point
  have hday : points.filter (fun q => q.day = p.day) =
      (before.filter (fun q => q.day = p.day) ++ List.replicate m p.filler) ++
        p :: after.filter fun q => q.day = p.day := by
    simp [hpoints, SpendPoint.filler]
  have hsplit := sortedBy_split (dayLt_compares points) p.day
  rw [hday, List.append_assoc, ← List.append_assoc] at hsplit
  have hlength := congrArg List.length hsplit
  rw [length_sortedBy, List.length_append] at hlength
  rw [hsplit]
  refine computeTrend_late ?_ ?_ ?_
  · intro q hq
    rcases List.mem_append.mp hq with hq | hq
    · obtain ⟨hq, hlt⟩ := List.mem_filter.mp (mem_sortedBy.mp hq)
      rcases mem_fillers_before hq with rfl | hq
      · rfl
      · exact hearlier q hq (of_decide_eq_true hlt)
    · rcases List.mem_append.mp hq with hq | hq
      · obtain ⟨hq, heq⟩ := List.mem_filter.mp hq
        exact hbefore q hq (of_decide_eq_true heq)
      · rw [List.eq_of_mem_replicate hq]
        rfl
  · rw [List.cons_append, costSum, List.map_cons, List.sum_cons]
    refine add_pos_of_pos_of_nonneg hpos (costSum_nonneg fun q hq => ?_)
    rcases List.mem_append.mp hq with hq | hq
    · exact hnonneg q (by simp [(List.mem_filter.mp hq).1])
    · rcases mem_fillers_before (List.mem_filter.mp (mem_sortedBy.mp hq)).1 with rfl | hq
      · exact le_rfl
      · exact hnonneg q hq
  · simp only [hpoints, List.length_append, List.length_replicate, List.length_cons] at hlength hm ⊢
    omega

theorem computeTrend_fillers_after (hpos : 0 < p.costUsd)
    (hnonneg : ∀ q ∈ before ++ p :: after, 0 ≤ q.costUsd)
    (hlater : ∀ q ∈ before ++ p :: after, p.day < q.day → q.costUsd = 0)
    (hafter : ∀ q ∈ after, q.day = p.day → q.costUsd = 0)
    (hm : (before ++ p :: after).length ≤ m) :
    computeTrend (sortedBy dayLt (before ++ p :: (List.replicate m p.filler ++ after))) =
      .decreasing := by
  set points := before ++ p :: (List.replicate m p.filler ++ after) with hpoints
  have hday : points.filter (fun q => q.day = p.day) =
      (before.filter (fun q => q.day = p.day) ++ [p]) ++
        (List.replicate m p.filler ++ after.filter fun q => q.day = p.day) := by
    simp [hpoints, SpendPoint.filler]
  have hsplit := sortedBy_split (dayLt_compares points) p.day
  rw [hday, List.append_assoc, ← List.append_assoc] at hsplit
  have hlength := congrArg List.length hsplit
  rw [length_sortedBy, List.length_append] at hlength
  rw [hsplit]
  refine computeTrend_early ?_ ?_ ?_
  · rw [costSum_append, costSum_append, add_comm, add_comm _ (costSum [p]), add_assoc]
    refine add_pos_of_pos_of_nonneg (by simpa [costSum] using hpos) ?_
    refine add_nonneg (costSum_nonneg fun q hq => ?_) (costSum_nonneg fun q hq => ?_)
    · exact hnonneg q (by simp [(List.mem_filter.mp hq).1])
    · rcases mem_fillers_after (List.mem_filter.mp (mem_sortedBy.mp hq)).1 with rfl | hq
      · exact le_rfl
      · exact hnonneg q hq
  · intro q hq
    rcases List.mem_append.mp hq with hq | hq
    · rcases List.mem_append.mp hq with hq | hq
      · rw [List.eq_of_mem_replicate hq]
        rfl
      · obtain ⟨hq, heq⟩ := List.mem_filter.mp hq
        exact hafter q hq (of_decide_eq_true heq)
    · obtain ⟨hq, hlt⟩ := List.mem_filter.mp (mem_sortedBy.mp hq)
      rcases mem_fillers_after hq with rfl | hq
      · rfl
      · exact hlater q hq (of_decide_eq_true hlt)
  · simp only [hpoints, List.length_append, List.length_replicate, List.length_cons] at hlength hm ⊢
    omega

end Fillers

section Search
variable {α : Type} {l : List α} {q : α → Bool}

theorem exists_first (h : ∃ a ∈ l, q a = true) :
    ∃ before a after, l = before ++ a :: after ∧ q a = true ∧ ∀ b ∈ before, q b = false := by
  obtain ⟨a, ha, hq⟩ := h
  cases hfind : l.find? q with
  | none => exact absurd hq (List.find?_eq_none.mp hfind a ha)
  | some first =>
    obtain ⟨hfirst, before, after, hsplit, hbefore⟩ := List.find?_eq_some_iff_append.mp hfind
    exact ⟨before, first, after, hsplit, hfirst, fun b hb => by simpa using hbefore b hb⟩

theorem exists_last (h : ∃ a ∈ l, q a = true) :
    ∃ before a after, l = before ++ a :: after ∧ q a = true ∧ ∀ b ∈ after, q b = false := by
  obtain ⟨a, ha, hq⟩ := h
  obtain ⟨before, last, after, hsplit, hlast, hbefore⟩ :=
    exists_first (l := l.reverse) ⟨a, List.mem_reverse.mpr ha, hq⟩
  refine ⟨after.reverse, last, before.reverse, ?_, hlast, fun b hb => ?_⟩
  · have hreverse := congrArg List.reverse hsplit
    simpa using hreverse
  · exact hbefore b (List.mem_reverse.mp hb)

end Search

section Window
variable {cutoff : Int} {table : List DailyCost}

def DailyCost.spends (cutoff : Int) (row : DailyCost) : Bool :=
  decide (cutoff ≤ row.day) && decide (0 < row.costUsd)

theorem spends_iff {row : DailyCost} :
    row.spends cutoff = true ↔ cutoff ≤ row.day ∧ 0 < row.costUsd := by
  simp [DailyCost.spends]

theorem cost_eq_zero {row : DailyCost} (hwindow : cutoff ≤ row.day)
    (h : ¬row.spends cutoff = true) : row.costUsd = 0 := by
  rw [spends_iff, not_and, not_lt] at h
  exact (h hwindow).antisymm row.cost_nonneg

theorem mem_windowPoints {p : SpendPoint} (hp : p ∈ windowPoints cutoff table) :
    ∃ row ∈ table, cutoff ≤ row.day ∧ row.toSpendPoint = p := by
  obtain ⟨row, hrow, hpoint⟩ := List.mem_map.mp hp
  obtain ⟨hrow, hwindow⟩ := List.mem_filter.mp hrow
  exact ⟨row, hrow, of_decide_eq_true hwindow, hpoint⟩

theorem no_spend_nonneg : (0 : ℚ) ≤ 0 := le_rfl

def DailyCost.filler (row : DailyCost) : DailyCost := ⟨⟨row.day, 0⟩, no_spend_nonneg⟩

theorem splitsInto_fillers_before (row : DailyCost) (m : ℕ) :
    SplitsInto row (List.replicate m row.filler ++ [row]) := by
  refine ⟨by simp, ?_, ?_⟩
  · intro part hpart
    rcases List.mem_append.mp hpart with hpart | hpart
    · rw [List.eq_of_mem_replicate hpart]
      rfl
    · rw [List.mem_singleton.mp hpart]
  · simp [costSum, DailyCost.filler]

theorem splitsInto_fillers_after (row : DailyCost) (m : ℕ) :
    SplitsInto row (row :: List.replicate m row.filler) := by
  refine ⟨by simp, ?_, ?_⟩
  · intro part hpart
    rcases List.mem_cons.mp hpart with rfl | hpart
    · rfl
    · rw [List.eq_of_mem_replicate hpart]
      rfl
  · simp [costSum, DailyCost.filler]

theorem exists_spends (h : ∃ p ∈ windowPoints cutoff table, 0 < p.costUsd) :
    ∃ row ∈ table, row.spends cutoff = true := by
  obtain ⟨p, hp, hpos⟩ := h
  obtain ⟨row, hrow, hwindow, rfl⟩ := mem_windowPoints hp
  exact ⟨row, hrow, spends_iff.mpr ⟨hwindow, hpos⟩⟩

theorem spending_rows_compare : ComparesBy (fun a b : DailyCost => decide (a.day < b.day))
    (fun row => row.day) (table.filter (DailyCost.spends cutoff)) :=
  fun _ _ _ _ => decide_eq_true_iff

theorem sorted_spends_ne_nil (h : ∃ p ∈ windowPoints cutoff table, 0 < p.costUsd) :
    sortedBy (fun a b : DailyCost => decide (a.day < b.day))
      (table.filter (DailyCost.spends cutoff)) ≠ [] := by
  obtain ⟨row, hrow, hspends⟩ := exists_spends h
  exact List.ne_nil_of_mem (mem_sortedBy.mpr (List.mem_filter.mpr ⟨hrow, hspends⟩))

theorem exists_first_spend (h : ∃ p ∈ windowPoints cutoff table, 0 < p.costUsd) :
    ∃ before row after, table = before ++ row :: after ∧ row.spends cutoff = true ∧
      (∀ other ∈ table, other.spends cutoff = true → row.day ≤ other.day) ∧
      ∀ other ∈ before, other.day = row.day → ¬other.spends cutoff = true := by
  have hfirst := List.head?_eq_some_head (sorted_spends_ne_nil h)
  have hleast := le_of_head?_sortedBy spending_rows_compare hfirst
  set first := List.head _ (sorted_spends_ne_nil h)
  have hmem := List.mem_filter.mp (mem_sortedBy.mp (List.mem_of_head? hfirst))
  obtain ⟨before, row, after, hsplit, hrow, hbefore⟩ := exists_first (l := table)
    (q := fun row => row.spends cutoff && decide (row.day = first.day))
    ⟨first, hmem.1, by simp [hmem.2]⟩
  rw [Bool.and_eq_true, decide_eq_true_iff] at hrow
  refine ⟨before, row, after, hsplit, hrow.1, fun other hother hspends => ?_,
    fun other hother hday hspends => ?_⟩
  · rw [hrow.2]
    exact hleast other (List.mem_filter.mpr ⟨hother, hspends⟩)
  · have hfalse := hbefore other hother
    rw [hspends, hday, hrow.2] at hfalse
    simp at hfalse

theorem exists_last_spend (h : ∃ p ∈ windowPoints cutoff table, 0 < p.costUsd) :
    ∃ before row after, table = before ++ row :: after ∧ row.spends cutoff = true ∧
      (∀ other ∈ table, other.spends cutoff = true → other.day ≤ row.day) ∧
      ∀ other ∈ after, other.day = row.day → ¬other.spends cutoff = true := by
  have hlast := List.getLast?_eq_some_getLast (sorted_spends_ne_nil h)
  have hgreatest := le_of_getLast?_sortedBy spending_rows_compare hlast
  set last := List.getLast _ (sorted_spends_ne_nil h)
  have hmem := List.mem_filter.mp (mem_sortedBy.mp (List.mem_of_getLast? hlast))
  obtain ⟨before, row, after, hsplit, hrow, hafter⟩ := exists_last (l := table)
    (q := fun row => row.spends cutoff && decide (row.day = last.day))
    ⟨last, hmem.1, by simp [hmem.2]⟩
  rw [Bool.and_eq_true, decide_eq_true_iff] at hrow
  refine ⟨before, row, after, hsplit, hrow.1, fun other hother hspends => ?_,
    fun other hother hday hspends => ?_⟩
  · rw [hrow.2]
    exact hgreatest other (List.mem_filter.mpr ⟨hother, hspends⟩)
  · have hfalse := hafter other hother
    rw [hspends, hday, hrow.2] at hfalse
    simp at hfalse

theorem windowPoints_at (before after : List DailyCost) {row : DailyCost} {parts : List DailyCost}
    (hwindow : cutoff ≤ row.day) (hparts : ∀ part ∈ parts, part.day = row.day) :
    windowPoints cutoff (before ++ (parts ++ after)) =
      windowPoints cutoff before ++
        (parts.map DailyCost.toSpendPoint ++ windowPoints cutoff after) := by
  rw [windowPoints_append, windowPoints_append, windowPoints_parts hparts, if_pos hwindow]

theorem windowPoints_row (before after : List DailyCost) {row : DailyCost}
    (hwindow : cutoff ≤ row.day) : windowPoints cutoff (before ++ row :: after) =
      windowPoints cutoff before ++ row.toSpendPoint :: windowPoints cutoff after := by
  rw [windowPoints_append, windowPoints_cons, windowPoints_singleton, if_pos hwindow,
    List.singleton_append]

theorem exists_increasing_split (h : ∃ p ∈ windowPoints cutoff table, 0 < p.costUsd) :
    ∃ table', Splits table table' ∧
      computeTrend (sortedBy dayLt (windowPoints cutoff table')) = .increasing := by
  obtain ⟨before, row, after, rfl, hrow, hleast, hfirst⟩ := exists_first_spend h
  obtain ⟨hwindow, hpos⟩ := spends_iff.mp hrow
  have hpoints := windowPoints_row before after hwindow
  have hsplits := splitsInto_fillers_before row
    (windowPoints cutoff (before ++ row :: after)).length
  have hearlier : ∀ q ∈ windowPoints cutoff (before ++ row :: after), q.day < row.day →
      q.costUsd = 0 := by
    intro q hq hlt
    obtain ⟨other, hother, hotherWindow, rfl⟩ := mem_windowPoints hq
    exact cost_eq_zero hotherWindow fun hspends =>
      absurd (hleast other hother hspends) (not_le.mpr hlt)
  have hbefore : ∀ q ∈ windowPoints cutoff before, q.day = row.day → q.costUsd = 0 := by
    intro q hq hday
    obtain ⟨other, hother, hotherWindow, rfl⟩ := mem_windowPoints hq
    exact cost_eq_zero hotherWindow (hfirst other hother hday)
  refine ⟨_, splits_at hsplits before after, ?_⟩
  rw [windowPoints_at before after hwindow hsplits.2.1, List.map_append, List.map_replicate,
    List.append_assoc, List.map_singleton, List.singleton_append]
  refine computeTrend_fillers_before hpos ?_ ?_ hbefore ?_
  · rw [← hpoints]
    exact fun q hq => windowPoints_nonneg hq
  · rwa [← hpoints]
  · rw [← hpoints]

theorem exists_decreasing_split (h : ∃ p ∈ windowPoints cutoff table, 0 < p.costUsd) :
    ∃ table', Splits table table' ∧
      computeTrend (sortedBy dayLt (windowPoints cutoff table')) = .decreasing := by
  obtain ⟨before, row, after, rfl, hrow, hgreatest, hlast⟩ := exists_last_spend h
  obtain ⟨hwindow, hpos⟩ := spends_iff.mp hrow
  have hpoints := windowPoints_row before after hwindow
  have hsplits := splitsInto_fillers_after row
    (windowPoints cutoff (before ++ row :: after)).length
  have hlater : ∀ q ∈ windowPoints cutoff (before ++ row :: after), row.day < q.day →
      q.costUsd = 0 := by
    intro q hq hlt
    obtain ⟨other, hother, hotherWindow, rfl⟩ := mem_windowPoints hq
    exact cost_eq_zero hotherWindow fun hspends =>
      absurd (hgreatest other hother hspends) (not_le.mpr hlt)
  have hafter : ∀ q ∈ windowPoints cutoff after, q.day = row.day → q.costUsd = 0 := by
    intro q hq hday
    obtain ⟨other, hother, hotherWindow, rfl⟩ := mem_windowPoints hq
    exact cost_eq_zero hotherWindow (hlast other hother hday)
  refine ⟨_, splits_at hsplits before after, ?_⟩
  rw [windowPoints_at before after hwindow hsplits.2.1, List.map_cons, List.map_replicate,
    List.cons_append]
  refine computeTrend_fillers_after hpos ?_ ?_ hafter ?_
  · rw [← hpoints]
    exact fun q hq => windowPoints_nonneg hq
  · rwa [← hpoints]
  · rw [← hpoints]

theorem exists_stable_split (hlen : (windowPoints cutoff table).length = 1)
    (hzero : ∀ p ∈ windowPoints cutoff table, p.costUsd = 0) :
    ∃ table', Splits table table' ∧
      computeTrend (sortedBy dayLt (windowPoints cutoff table')) = .stable := by
  obtain ⟨p, hp⟩ := List.exists_mem_of_length_pos (by omega : 0 < (windowPoints cutoff table).length)
  obtain ⟨row, hrow, hwindow, rfl⟩ := mem_windowPoints hp
  obtain ⟨before, after, rfl⟩ := List.append_of_mem hrow
  have hpoints := windowPoints_row before after hwindow
  have hsplits := splitsInto_fillers_after row 1
  refine ⟨_, splits_at hsplits before after, ?_⟩
  rw [hpoints] at hlen hzero
  rw [windowPoints_at before after hwindow hsplits.2.1]
  refine computeTrend_of_zero ?_ ?_
  · rw [length_sortedBy]
    simp
    omega
  · intro q hq
    rw [List.map_cons, List.map_replicate, List.cons_append] at hq
    rcases mem_fillers_after (mem_sortedBy.mp hq) with rfl | hq
    · rfl
    · exact hzero q hq

end Window

section Forecast
variable {floats : ForecastFloats} {table table' : List DailyCost} {budgetUsd mtdSpendUsd : ℚ}
  {observedAt : Instant} {windowDays cutoff : Int}

theorem forecastFromCostDaily_ok (hcutoff : cutoffDay observedAt windowDays = .ok cutoff) :
    forecastFromCostDaily floats table budgetUsd mtdSpendUsd (some observedAt) windowDays =
      .ok (forecast floats (windowPoints cutoff table) budgetUsd mtdSpendUsd observedAt) := by
  have hnow : normalizeUtc (some observedAt) "now" = .ok observedAt := rfl
  rw [forecastFromCostDaily, Except.bind_of_ok hnow, Except.bind_of_ok hcutoff]
  simp only [forecast, sortedBy_sortedBy]
  rfl

theorem burnRate_of_splits (hcutoff : cutoffDay observedAt windowDays = .ok cutoff)
    (h : Splits table table') {f f' : BurnRateForecast}
    (hf : forecastFromCostDaily floats table budgetUsd mtdSpendUsd (some observedAt) windowDays =
      .ok f)
    (hf' : forecastFromCostDaily floats table' budgetUsd mtdSpendUsd (some observedAt) windowDays =
      .ok f') :
    f'.burnRateUsdPerDay = f.burnRateUsdPerDay ∧ f'.runwayDays = f.runwayDays := by
  rw [forecastFromCostDaily_ok hcutoff] at hf hf'
  obtain rfl := Except.ok.inj hf
  obtain rfl := Except.ok.inj hf'
  exact forecast_of_daily_totals floats h.sameDays h.costSum_eq.symm budgetUsd mtdSpendUsd observedAt

theorem windowPoints_perm (h : table'.Perm table) :
    (windowPoints cutoff table').Perm (windowPoints cutoff table) :=
  (h.filter _).map DailyCost.toSpendPoint

theorem DependsOnDailyTotals.trend_eq (hcutoff : cutoffDay observedAt windowDays = .ok cutoff)
    (h : DependsOnDailyTotals floats table budgetUsd mtdSpendUsd (some observedAt) windowDays)
    (hsplit : Splits table table') :
    computeTrend (sortedBy dayLt (windowPoints cutoff table')) =
      computeTrend (sortedBy dayLt (windowPoints cutoff table)) :=
  (h.split table' hsplit _ _ (forecastFromCostDaily_ok hcutoff)
    (forecastFromCostDaily_ok hcutoff)).2.2

theorem dependsOnDailyTotals_of_trend (hcutoff : cutoffDay observedAt windowDays = .ok cutoff)
    (htrend : ∀ table', (Splits table table' ∨ table'.Perm table) →
      computeTrend (sortedBy dayLt (windowPoints cutoff table')) =
        computeTrend (sortedBy dayLt (windowPoints cutoff table))) :
    DependsOnDailyTotals floats table budgetUsd mtdSpendUsd (some observedAt) windowDays where
  split := by
    intro table' hsplit f f' hf hf'
    obtain ⟨hrate, hrunway⟩ := burnRate_of_splits hcutoff hsplit hf hf'
    rw [forecastFromCostDaily_ok hcutoff] at hf hf'
    obtain rfl := Except.ok.inj hf
    obtain rfl := Except.ok.inj hf'
    exact ⟨hrate, hrunway, htrend table' (.inl hsplit)⟩
  order := by
    intro table' hperm
    rw [forecastFromCostDaily_ok hcutoff, forecastFromCostDaily_ok hcutoff,
      forecast_perm floats (windowPoints_perm hperm) budgetUsd mtdSpendUsd observedAt
        (htrend table' (.inr hperm))]

/-- The burn rate and the runway follow from the daily totals. The trend does so only where the
window has no rows, or two rows or more of which none has a cost. -/
theorem forecast_daily_totals_iff (hcutoff : cutoffDay observedAt windowDays = .ok cutoff) :
    (∀ table', Splits table table' → ∀ f f',
      forecastFromCostDaily floats table budgetUsd mtdSpendUsd (some observedAt) windowDays =
        .ok f →
      forecastFromCostDaily floats table' budgetUsd mtdSpendUsd (some observedAt) windowDays =
        .ok f' →
      f'.burnRateUsdPerDay = f.burnRateUsdPerDay ∧ f'.runwayDays = f.runwayDays) ∧
    (DependsOnDailyTotals floats table budgetUsd mtdSpendUsd (some observedAt) windowDays ↔
      windowPoints cutoff table = [] ∨
        2 ≤ (windowPoints cutoff table).length ∧
          ∀ p ∈ windowPoints cutoff table, p.costUsd = 0) := by
  refine ⟨fun table' hsplit f f' hf hf' => burnRate_of_splits hcutoff hsplit hf hf', ?_, ?_⟩
  · intro h
    have hzero : ∀ p ∈ windowPoints cutoff table, p.costUsd = 0 := by
      intro p hp
      by_contra hne
      have hspend : ∃ p ∈ windowPoints cutoff table, 0 < p.costUsd :=
        ⟨p, hp, lt_of_le_of_ne (windowPoints_nonneg hp) (Ne.symm hne)⟩
      obtain ⟨up, hup, hincreasing⟩ := exists_increasing_split hspend
      obtain ⟨down, hdown, hdecreasing⟩ := exists_decreasing_split hspend
      have hsame := (h.trend_eq hcutoff hup).trans (h.trend_eq hcutoff hdown).symm
      rw [hincreasing, hdecreasing] at hsame
      cases hsame
    by_cases hlen : 2 ≤ (windowPoints cutoff table).length
    · exact .inr ⟨hlen, hzero⟩
    · left
      by_contra hne
      have hpos := List.length_pos_iff.mpr hne
      obtain ⟨table', hsplit, hstable⟩ := exists_stable_split (by omega) hzero
      have hsame := h.trend_eq hcutoff hsplit
      have hfew : computeTrend (sortedBy dayLt (windowPoints cutoff table)) =
          .insufficientData := by
        rw [computeTrend, if_pos (by rw [length_sortedBy]; omega)]
      rw [hstable, hfew] at hsame
      cases hsame
  · intro h
    refine dependsOnDailyTotals_of_trend hcutoff (fun table' hrows => ?_)
    -- the window of the other table is as empty, or as free of costs, as that of the first
    have hdays : SameDays (windowPoints cutoff table) (windowPoints cutoff table') :=
      hrows.elim (fun hsplit => hsplit.sameDays)
        fun hperm day => ((windowPoints_perm hperm).symm.map SpendPoint.day).mem_iff
    have hlen : (windowPoints cutoff table).length ≤ (windowPoints cutoff table').length :=
      hrows.elim (fun hsplit => hsplit.length_le)
        fun hperm => (windowPoints_perm hperm).length_eq.ge
    have hsum : costSum (windowPoints cutoff table') = costSum (windowPoints cutoff table) :=
      hrows.elim (fun hsplit => hsplit.costSum_eq) fun hperm => costSum_perm (windowPoints_perm hperm)
    rcases h with hnil | ⟨htwo, hzero⟩
    · rw [hnil, hdays.nil_iff.mp hnil]
    · have hzero' : ∀ p ∈ windowPoints cutoff table', p.costUsd = 0 := by
        refine eq_zero_of_costSum (fun p hp => windowPoints_nonneg hp) ?_
        rw [hsum, costSum_of_zero hzero]
      have hstable : ∀ points : List SpendPoint, 2 ≤ points.length →
          (∀ p ∈ points, p.costUsd = 0) → computeTrend (sortedBy dayLt points) = .stable := by
        intro points hpoints hcosts
        exact computeTrend_of_zero (by rwa [length_sortedBy])
          fun p hp => hcosts p (mem_sortedBy.mp hp)
      rw [hstable _ htwo hzero, hstable _ (htwo.trans hlen) hzero']

end Forecast

theorem whole_cost_nonneg (cost : ℕ) : (0 : ℚ) ≤ cost := Nat.cast_nonneg cost

def dailyCost (cost : ℕ) (day : ℕ) : DailyCost := ⟨⟨day, cost⟩, whole_cost_nonneg cost⟩

def weekOf (costs : List ℕ) : List DailyCost :=
  (List.range' 20000 7).flatMap fun day => costs.map fun cost => dailyCost cost day

def squareFloats : ForecastFloats where
  pointFactor := fun n => if 7 ≤ n then 1 else 0
  squareRoot := fun variance => (Nat.sqrt ⌊variance⌋₊ : ℚ)
  addDays := fun observedAt days => some (observedAt + ⌊days * microsPerDay⌋)

def weekEnd : Instant := 20006 * microsPerDay

theorem cutoffDay_weekEnd : cutoffDay weekEnd 30 = .ok 19977 := by decide

theorem forecast_daily_totals_iff_week :
    DependsOnDailyTotals squareFloats (weekOf [0]) 100 0 (some weekEnd) 30 := by
  refine (forecast_daily_totals_iff cutoffDay_weekEnd).2.mpr (.inr ⟨?_, ?_⟩)
  · decide
  · decide +kernel

theorem splits_week : Splits (weekOf [10]) (weekOf [10, 0]) := by
  have hdays : ∀ days : List ℕ,
      Splits (days.flatMap fun day => [10].map fun cost => dailyCost cost day)
        (days.flatMap fun day => [10, 0].map fun cost => dailyCost cost day) := by
    intro days
    induction days with
    | nil => exact .nil
    | cons day days ih =>
      refine Splits.cons ⟨by simp, by simp [dailyCost], ?_⟩ ih
      simp [costSum, dailyCost]
  exact hdays (List.range' 20000 7)

/-- Ten dollars a day are a stable trend; with a second row a day that costs nothing they are a
decreasing one. -/
theorem week_depends_on_rows :
    ¬DependsOnDailyTotals squareFloats (weekOf [10]) 70 70 (some weekEnd) 30 := by
  intro h
  have hsame := h.trend_eq cutoffDay_weekEnd splits_week
  have hrows : computeTrend (sortedBy dayLt (windowPoints 19977 (weekOf [10]))) = .stable := by
    decide +kernel
  have hsplit : computeTrend (sortedBy dayLt (windowPoints 19977 (weekOf [10, 0]))) =
      .decreasing := by
    decide +kernel
  rw [hrows, hsplit] at hsame
  cases hsame

end Pitwall
