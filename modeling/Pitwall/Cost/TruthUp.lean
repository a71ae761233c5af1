import Pitwall.Cost.ReconcileCost
set_option autoImplicit false

/-!
What a billing truth-up leaves behind: the corrected entries, what a second run finds, and
what the nightly rollup does to them.
-/

namespace Pitwall

def CostDaily.cost (daily : CostDaily) (k : CostWindow) : ℚ :=
  ((daily.get k).map CostDailyRow.costUsd).getD 0

def actualSum (actuals : List ProviderActualCostWindow) (k : CostWindow) : ℚ :=
  sumWhere (fun a => decide (a.window.1 = k)) ProviderActualCostWindow.actualUsd actuals

/-- The column `cost_usd` is a `NUMERIC(12,6)`. -/
def CostDaily.Stored (daily : CostDaily) : Prop := ∀ r ∈ daily.rows, IsMultiple 6 r.costUsd

section Aggregation

theorem foldl_usd {xs : List ℚ} (h : ∀ x ∈ xs, IsMultiple 6 x) {total : ℚ}
    (htotal : IsMultiple 6 total) :
    xs.foldl (fun total x => usd (total + x)) total = total + xs.sum := by
  induction xs generalizing total with
  | nil => simp
  | cons x xs ih =>
    have hx := htotal.add (h x (by simp))
    have hround : usd (total + x) = total + x := roundHalfAway_of_isMultiple hx
    rw [List.foldl_cons, hround, ih (fun y hy => h y (by simp [hy])) hx, List.sum_cons,
      add_assoc]

theorem aggregate_eq {α : Type} {window : α → CostReconcileWindow} {amount : α → ℚ}
    {items : List α} (h : ∀ i ∈ items, IsMultiple 6 (amount i)) (k : CostReconcileWindow) :
    aggregate window amount items k =
      sumWhere (fun i => decide (window i = k)) amount items := by
  unfold aggregate
  rw [foldl_usd (fun x hx => ?_) (.zero 6), zero_add]
  · rfl
  · obtain ⟨i, hi, rfl⟩ := List.mem_map.mp hx
    exact h i (List.mem_filter.mp hi).1

theorem aggregateActuals_eq (actuals : List ProviderActualCostWindow) (k : CostReconcileWindow) :
    aggregateActuals actuals k = actualSum actuals k.1 := by
  unfold aggregateActuals actualSum
  rw [aggregate_eq (fun a _ => a.isMultiple)]
  refine sumWhere_congr (fun a _ => ?_)
  simp [Subtype.ext_iff]

theorem isMultiple_sumWhere {α : Type} {p : α → Bool} {val : α → ℚ} {rows : List α}
    (h : ∀ r ∈ rows, IsMultiple 6 (val r)) : IsMultiple 6 (sumWhere p val rows) := by
  refine IsMultiple.sum (fun x hx => ?_)
  obtain ⟨r, hr, rfl⟩ := List.mem_map.mp hx
  exact h r (List.mem_filter.mp hr).1

theorem isMultiple_actualSum (actuals : List ProviderActualCostWindow) (k : CostWindow) :
    IsMultiple 6 (actualSum actuals k) :=
  isMultiple_sumWhere (fun a _ => a.isMultiple)

theorem actualSum_nonneg (actuals : List ProviderActualCostWindow) (k : CostWindow) :
    0 ≤ actualSum actuals k := by
  refine List.sum_nonneg (fun x hx => ?_)
  obtain ⟨a, -, rfl⟩ := List.mem_map.mp hx
  exact a.nonneg

theorem actualSum_of_not_stripped {actuals : List ProviderActualCostWindow} {k : CostWindow}
    (h : ¬ k.Stripped) : actualSum actuals k = 0 := by
  refine sumWhere_eq_zero (fun a _ => ?_)
  have hne : a.window.1 ≠ k := fun heq => h (heq ▸ a.window.2)
  simpa using hne

end Aggregation

section Fetch

/-- The row makes a `RecordedCostWindow`. -/
def CostDailyRow.Readable (r : CostDailyRow) : Prop :=
  (strip r.window.capabilityClass ≠ "" ∧ strip r.window.providerType ≠ "") ∧
    0 ≤ usd r.costUsd ∧ 0 ≤ r.workloadCount

theorem recordedFromRow_ok {r : CostDailyRow} {item : RecordedCostWindow}
    (h : recordedFromRow r = .ok item) :
    r.Readable ∧ item.window.1 = r.window.strip ∧ item.recordedUsd = usd r.costUsd := by
  unfold recordedFromRow costReconcileWindow at h
  split at h
  · cases h
  · rename_i window hwindow
    split at hwindow
    · cases hwindow
    · rename_i hclass
      split at hwindow
      · cases hwindow
      · rename_i htype
        cases hwindow
        split at h
        · cases h
        · rename_i hneg
          split at h
          · cases h
          · rename_i hcount
            cases h
            exact ⟨⟨⟨hclass, htype⟩, not_lt.mp hneg, not_lt.mp hcount⟩, rfl, rfl⟩

theorem recordedFromRow_of_readable {r : CostDailyRow} (h : r.Readable) :
    ∃ item, recordedFromRow r = .ok item := by
  obtain ⟨⟨hclass, htype⟩, hneg, hcount⟩ := h
  unfold recordedFromRow costReconcileWindow
  rw [dif_neg hclass, dif_neg htype]
  simp only
  rw [dif_neg (not_lt.mpr hneg), dif_neg (not_lt.mpr hcount)]
  exact ⟨_, rfl⟩

theorem recordedFromRows_ok {rows : List CostDailyRow} {items : List RecordedCostWindow}
    (h : recordedFromRows rows = .ok items) :
    (∀ r ∈ rows, r.Readable) ∧ ∀ k : CostReconcileWindow,
      sumWhere (fun i => decide (i.window = k)) RecordedCostWindow.recordedUsd items =
        sumWhere (fun r => decide (r.window.strip = k.1)) (fun r => usd r.costUsd) rows := by
  induction rows generalizing items with
  | nil =>
    cases h
    exact ⟨by simp, fun k => rfl⟩
  | cons r rows ih =>
    unfold recordedFromRows at h
    split at h
    · contradiction
    · rename_i item hitem
      split at h
      · contradiction
      · rename_i rest hrest
        cases h
        obtain ⟨hreadable, hwindow, husd⟩ := recordedFromRow_ok hitem
        obtain ⟨hrows, hsums⟩ := ih hrest
        refine ⟨?_, fun k => ?_⟩
        · intro s hs
          rcases List.mem_cons.mp hs with rfl | hs
          · exact hreadable
          · exact hrows s hs
        · rw [sumWhere_cons, sumWhere_cons, hsums k, husd]
          simp [Subtype.ext_iff, hwindow]

theorem recordedFromRows_of_readable {rows : List CostDailyRow}
    (h : ∀ r ∈ rows, r.Readable) : ∃ items, recordedFromRows rows = .ok items := by
  induction rows with
  | nil => exact ⟨[], rfl⟩
  | cons r rows ih =>
    obtain ⟨item, hitem⟩ := recordedFromRow_of_readable (h r (by simp))
    obtain ⟨items, hitems⟩ := ih (fun s hs => h s (by simp [hs]))
    exact ⟨item :: items, by simp [recordedFromRows, hitem, hitems]⟩

/-- What the truth-up takes for the recorded cost of a window: rows whose names differ in
surrounding blanks only are added up. -/
def CostDaily.recordedSum (daily : CostDaily) (startDay endDay : Int) (k : CostWindow) : ℚ :=
  sumWhere (fun r => r.window.inRange startDay endDay && decide (r.window.strip = k))
    CostDailyRow.costUsd daily.rows

theorem aggregateRecorded_eq {daily : CostDaily} {startDay endDay : Int}
    {recorded : List RecordedCostWindow} (hstored : daily.Stored)
    (h : fetchRecordedWindows daily startDay endDay = .ok recorded) (k : CostReconcileWindow) :
    aggregateRecorded recorded k = daily.recordedSum startDay endDay k.1 := by
  unfold fetchRecordedWindows at h
  split at h
  · contradiction
  · unfold aggregateRecorded CostDaily.recordedSum
    rw [aggregate_eq (fun i _ => i.isMultiple), (recordedFromRows_ok h).2 k, sumWhere_filter,
      sumWhere_eq_sum_map, sumWhere_eq_sum_map]
    congr 1
    refine List.map_congr_left (fun r hr => ?_)
    have hround : usd r.costUsd = r.costUsd := roundHalfAway_of_isMultiple (hstored r hr)
    rw [hround, Bool.and_comm]

end Fetch

section Plan
variable {recorded : List RecordedCostWindow} {actuals : List ProviderActualCostWindow}

theorem windowOrder_injective : Function.Injective windowOrder := by
  intro a b h
  unfold windowOrder at h
  rw [toLex_inj, Prod.mk.injEq, toLex_inj, Prod.mk.injEq] at h
  obtain ⟨hday, hclass, htype⟩ := h
  obtain ⟨⟨_, _, _⟩, _⟩ := a
  obtain ⟨⟨_, _, _⟩, _⟩ := b
  simp only at hday hclass htype
  subst hday hclass htype
  rfl

theorem isMultiple_aggregateRecorded (k : CostReconcileWindow) :
    IsMultiple 6 (aggregateRecorded recorded k) := by
  unfold aggregateRecorded
  rw [aggregate_eq (fun i _ => i.isMultiple)]
  exact isMultiple_sumWhere (fun i _ => i.isMultiple)

theorem adjustmentOf_zero (recorded : List RecordedCostWindow)
    (actuals : List ProviderActualCostWindow) (k : CostReconcileWindow) :
    adjustmentOf recorded actuals 0 k =
      if actualSum actuals k.1 = aggregateRecorded recorded k then none
      else some ⟨k, aggregateRecorded recorded k, actualSum actuals k.1,
        actualSum actuals k.1 - aggregateRecorded recorded k, sourcesOf actuals k⟩ := by
  have hexact : usd (actualSum actuals k.1 - aggregateRecorded recorded k) =
      actualSum actuals k.1 - aggregateRecorded recorded k :=
    roundHalfAway_of_isMultiple
      ((isMultiple_actualSum actuals k.1).sub (isMultiple_aggregateRecorded k))
  simp only [adjustmentOf, aggregateActuals_eq, hexact]
  simp only [abs_nonpos_iff, sub_eq_zero]

theorem mem_reconciledWindows {k : CostReconcileWindow}
    (h : actualSum actuals k.1 ≠ aggregateRecorded recorded k) :
    k ∈ reconciledWindows recorded actuals := by
  unfold reconciledWindows
  rw [mem_sortedSet, List.mem_append, List.mem_map, List.mem_map]
  by_contra hnot
  rw [not_or] at hnot
  apply h
  have hactual : actualSum actuals k.1 = 0 := by
    refine sumWhere_eq_zero (fun a ha => ?_)
    have hne : a.window.1 ≠ k.1 := fun heq => hnot.2 ⟨a, ha, Subtype.ext heq⟩
    simpa using hne
  have hrecorded : aggregateRecorded recorded k = 0 := by
    unfold aggregateRecorded
    rw [aggregate_eq (fun i _ => i.isMultiple)]
    refine sumWhere_eq_zero (fun i hi => ?_)
    have hne : i.window ≠ k := fun heq => hnot.1 ⟨i, hi, heq⟩
    simpa using hne
  rw [hactual, hrecorded]

/-- A plan computed with tolerance 0. -/
structure CostReconcilePlan.Exact (plan : CostReconcilePlan) (recorded : CostReconcileWindow → ℚ)
    (actuals : List ProviderActualCostWindow) : Prop where
  nodup : (plan.adjustments.map fun a => a.window.1).Nodup
  corrects : ∀ a ∈ plan.adjustments, a.providerActualUsd = actualSum actuals a.window.1 ∧
    actualSum actuals a.window.1 ≠ recorded a.window
  complete : ∀ k, actualSum actuals k.1 ≠ recorded k → ∃ a ∈ plan.adjustments, a.window = k

theorem reconcileCost_eq (recorded : List RecordedCostWindow)
    (actuals : List ProviderActualCostWindow) :
    reconcileCost recorded actuals 0 =
      .ok ⟨(reconciledWindows recorded actuals).filterMap (adjustmentOf recorded actuals 0),
        (reconciledWindows recorded actuals).length⟩ := by
  have hzero : usd 0 = 0 := roundHalfAway_of_isMultiple (.zero 6)
  have htolerance : nonNegativeUsd 0 "tolerance_usd" = .ok 0 := by
    unfold nonNegativeUsd
    rw [hzero, if_neg (lt_irrefl 0)]
  unfold reconcileCost
  rw [htolerance]

theorem reconcileCost_zero {plan : CostReconcilePlan}
    (h : reconcileCost recorded actuals 0 = .ok plan) :
    plan.Exact (aggregateRecorded recorded) actuals := by
  rw [reconcileCost_eq] at h
  cases h
  have hwindow : ∀ {k a}, adjustmentOf recorded actuals 0 k = some a → a.window = k ∧
      a.providerActualUsd = actualSum actuals k.1 ∧
      actualSum actuals k.1 ≠ aggregateRecorded recorded k := by
    intro k a ha
    rw [adjustmentOf_zero] at ha
    split at ha
    · contradiction
    · rename_i hne
      cases ha
      exact ⟨rfl, rfl, hne⟩
  refine ⟨?_, ?_, ?_⟩
  · refine List.Nodup.map_on ?_ (List.Nodup.filterMap ?_ (nodup_sortedSet _ _))
    · intro a ha b hb heq
      obtain ⟨k, -, hk⟩ := List.mem_filterMap.mp ha
      obtain ⟨l, -, hl⟩ := List.mem_filterMap.mp hb
      have hkl : k = l := by
        rw [← (hwindow hk).1, ← (hwindow hl).1]
        exact Subtype.ext heq
      subst hkl
      rw [hk] at hl
      exact Option.some.inj hl
    · intro k l a hk hl
      rw [← (hwindow hk).1, ← (hwindow hl).1]
  · intro a ha
    obtain ⟨k, -, hk⟩ := List.mem_filterMap.mp ha
    obtain ⟨rfl, hactual, hne⟩ := hwindow hk
    exact ⟨hactual, hne⟩
  · intro k hne
    have hsome := adjustmentOf_zero recorded actuals k
    rw [if_neg hne] at hsome
    exact ⟨_, List.mem_filterMap.mpr ⟨k, mem_reconciledWindows hne, hsome⟩, rfl⟩

theorem reconcileCost_perm {recorded' : List RecordedCostWindow}
    {actuals' : List ProviderActualCostWindow} (hrecorded : recorded.Perm recorded')
    (hactuals : actuals.Perm actuals') (tolerance : ℚ) :
    reconcileCost recorded actuals tolerance = reconcileCost recorded' actuals' tolerance := by
  have hwindows : reconciledWindows recorded actuals = reconciledWindows recorded' actuals' := by
    refine sortedSet_congr windowOrder_injective (fun k => ?_)
    exact ((hrecorded.map _).append (hactuals.map _)).mem_iff
  have hadjustment : adjustmentOf recorded actuals = adjustmentOf recorded' actuals' := by
    funext tolerance k
    have hr : aggregateRecorded recorded k = aggregateRecorded recorded' k := by
      unfold aggregateRecorded
      rw [aggregate_eq (fun i _ => i.isMultiple), aggregate_eq (fun i _ => i.isMultiple)]
      exact sumWhere_perm hrecorded
    have ha : aggregateActuals actuals k = aggregateActuals actuals' k := by
      rw [aggregateActuals_eq, aggregateActuals_eq]
      exact sumWhere_perm hactuals
    have hs : sourcesOf actuals k = sourcesOf actuals' k := by
      refine sortedSet_congr Function.injective_id (fun x => ?_)
      exact ((hactuals.filter _).map _).mem_iff
    simp only [adjustmentOf, hr, ha, hs]
  unfold reconcileCost
  rw [hwindows, hadjustment]

end Plan

section Apply
variable {adjustments : List CostReconcileAdjustment}

theorem get_foldl_of_forall_ne {daily : CostDaily} {k : CostWindow}
    (h : ∀ a ∈ adjustments, a.window.1 ≠ k) :
    (adjustments.foldl applyAdjustment daily).get k = daily.get k := by
  induction adjustments generalizing daily with
  | nil => rfl
  | cons a rest ih =>
    rw [List.foldl_cons, ih (fun b hb => h b (by simp [hb]))]
    unfold applyAdjustment
    rw [Keyed.get_upsert, if_neg (h a (by simp)).symm]

theorem cost_foldl_of_mem {daily : CostDaily} {a : CostReconcileAdjustment}
    (hnodup : (adjustments.map fun b => b.window.1).Nodup) (ha : a ∈ adjustments) :
    CostDaily.cost (adjustments.foldl applyAdjustment daily) a.window.1 =
      roundHalfAway 6 a.providerActualUsd := by
  induction adjustments generalizing daily with
  | nil => simp at ha
  | cons b rest ih =>
    rw [List.map_cons, List.nodup_cons] at hnodup
    rw [List.foldl_cons]
    rcases List.mem_cons.mp ha with rfl | ha
    · have huntouched : ∀ b ∈ rest, b.window.1 ≠ a.window.1 := fun b hb heq =>
        hnodup.1 (List.mem_map.mpr ⟨b, hb, heq⟩)
      unfold CostDaily.cost
      rw [get_foldl_of_forall_ne huntouched]
      unfold applyAdjustment
      rw [Keyed.get_upsert, if_pos rfl]
      rfl
    · exact ih hnodup.2 ha

def CostDaily.ReadableIn (daily : CostDaily) (startDay endDay : Int) : Prop :=
  ∀ r ∈ daily.rows, r.window.inRange startDay endDay = true → r.Readable

theorem readableIn_foldl {startDay endDay : Int} {daily : CostDaily}
    (h : daily.ReadableIn startDay endDay)
    (hactual : ∀ a ∈ adjustments, 0 ≤ a.providerActualUsd) :
    CostDaily.ReadableIn (adjustments.foldl applyAdjustment daily) startDay endDay := by
  induction adjustments generalizing daily with
  | nil => exact h
  | cons a rest ih =>
    rw [List.foldl_cons]
    refine ih ?_ (fun b hb => hactual b (by simp [hb]))
    intro r hr hrange
    unfold applyAdjustment at hr
    rcases List.mem_cons.mp ((daily.upsert_perm _).mem_iff.mp hr) with rfl | hr
    · refine ⟨⟨?_, ?_⟩, ?_, ?_⟩
      · simp only
        rw [a.window.2.1.1]
        exact a.window.2.1.2
      · simp only
        rw [a.window.2.2.1]
        exact a.window.2.2.2
      · have hround : usd (roundHalfAway 6 a.providerActualUsd) =
            roundHalfAway 6 a.providerActualUsd :=
          roundHalfAway_of_isMultiple (isMultiple_usd _)
        simp only
        rw [hround, roundHalfAway, if_pos (hactual a (by simp))]
        have hfloor : (0 : ℤ) ≤ ⌊a.providerActualUsd * 10 ^ 6 + 1 / 2⌋ := by
          have hpos := hactual a (by simp)
          positivity
        positivity
      · simp only
        cases hget : daily.get a.window.1 with
        | none => simp
        | some old =>
          obtain ⟨hold, hkey⟩ := Keyed.get_eq_some_iff.mp hget
          have hreadable := h old hold (by rw [hkey]; exact hrange)
          simpa using hreadable.2.2
    · exact h r (List.mem_filter.mp hr).1 hrange

theorem stored_foldl {daily : CostDaily} (h : daily.Stored) :
    CostDaily.Stored (adjustments.foldl applyAdjustment daily) := by
  induction adjustments generalizing daily with
  | nil => exact h
  | cons a rest ih =>
    rw [List.foldl_cons]
    refine ih (fun r hr => ?_)
    unfold applyAdjustment at hr
    rcases List.mem_cons.mp ((daily.upsert_perm _).mem_iff.mp hr) with rfl | hr
    · exact isMultiple_usd a.providerActualUsd
    · exact h r (List.mem_filter.mp hr).1

end Apply

def CostDaily.BlanksEmpty (daily : CostDaily) (startDay endDay : Int) : Prop :=
  ∀ r ∈ daily.rows, r.window.inRange startDay endDay = true → ¬ r.window.Stripped → r.costUsd = 0

section Recorded
variable {daily : CostDaily} {startDay endDay : Int}

theorem strip_eq_self {k : CostWindow} (h : k.Stripped) : k.strip = k := by
  obtain ⟨day, capabilityClass, providerType⟩ := k
  simp only [CostWindow.strip, CostWindow.mk.injEq, true_and]
  exact ⟨h.1.1, h.2.1⟩

theorem cost_eq_sumWhere (k : CostWindow) :
    daily.cost k = sumWhere (fun r => decide (r.window = k)) CostDailyRow.costUsd daily.rows :=
  (daily.sumWhere_key k CostDailyRow.costUsd).symm

theorem recordedSum_inRange (hblank : daily.BlanksEmpty startDay endDay) {k : CostWindow}
    (hk : k.Stripped) (hrange : k.inRange startDay endDay = true) :
    daily.recordedSum startDay endDay k = daily.cost k := by
  unfold CostDaily.recordedSum
  rw [cost_eq_sumWhere, sumWhere_eq_sum_map, sumWhere_eq_sum_map]
  congr 1
  refine List.map_congr_left (fun r hr => ?_)
  by_cases heq : r.window = k
  · simp [heq, hrange, strip_eq_self hk]
  · simp only [heq, decide_false, Bool.false_eq_true, if_false]
    split
    · rename_i hsplit
      rw [Bool.and_eq_true, decide_eq_true_eq] at hsplit
      refine hblank r hr hsplit.1 (fun hstripped => heq ?_)
      rw [← hsplit.2, strip_eq_self hstripped]
    · rfl

theorem recordedSum_outOfRange (daily : CostDaily) {k : CostWindow}
    (hrange : k.inRange startDay endDay = false) :
    daily.recordedSum startDay endDay k = 0 := by
  refine sumWhere_eq_zero (fun r _ => ?_)
  by_cases heq : r.window.strip = k
  · have hday : r.window.inRange startDay endDay = k.inRange startDay endDay := by
      rw [← heq]
      rfl
    simp [hday, hrange]
  · simp [heq]

end Recorded

section Rollup
variable {capabilities : Capabilities} {providers : Providers} {t : Workloads}
  {daily daily' : CostDaily}

theorem cost_aggregateDailyCost (hstored : t.CostStored)
    (h : aggregateDailyCost capabilities providers t daily = .ok daily') :
    (∀ g ∈ dailyGroups capabilities providers t, daily'.cost g.window = g.costUsd) ∧
    ∀ k, k ∉ (dailyGroups capabilities providers t).map CostDailyRow.window →
      daily'.cost k = daily.cost k := by
  rw [aggregateDailyCost_of_fits _ (fits_of_aggregateDailyCost h), stored_dailyGroups hstored] at h
  cases h
  refine ⟨fun g hg => ?_, fun k hk => ?_⟩
  · unfold CostDaily.cost
    rw [Keyed.get_upsertAll_of_mem nodup_windows_dailyGroups hg]
    rfl
  · unfold CostDaily.cost
    rw [Keyed.get_upsertAll_of_notMem hk]

end Rollup

section TruthUp
variable {daily daily' : CostDaily} {startDay endDay : Int}
  {actuals : List ProviderActualCostWindow} {plan : CostReconcilePlan}

structure TruthedUp (daily daily' : CostDaily) (startDay endDay : Int)
    (actuals : List ProviderActualCostWindow) (plan : CostReconcilePlan) : Prop where
  range : startDay < endDay
  readable : daily.ReadableIn startDay endDay
  exact_plan : plan.Exact (fun k => daily.recordedSum startDay endDay k.1) actuals
  applied : daily' = plan.adjustments.foldl applyAdjustment daily

theorem truthedUp_of_ok (hstored : daily.Stored)
    (h : truthUpCostDaily daily startDay endDay actuals 0 = .ok (plan, daily')) :
    TruthedUp daily daily' startDay endDay actuals plan := by
  unfold truthUpCostDaily at h
  split at h
  · contradiction
  · rename_i recorded hfetch
    split at h
    · contradiction
    · rename_i plan' hplan
      split at h
      · contradiction
      · rename_i daily'' happly
        cases h
        have hexact := reconcileCost_zero hplan
        have hrecorded : aggregateRecorded recorded =
            fun k => daily.recordedSum startDay endDay k.1 := by
          funext k
          exact aggregateRecorded_eq hstored hfetch k
        rw [hrecorded] at hexact
        unfold fetchRecordedWindows at hfetch
        split at hfetch
        · contradiction
        · rename_i hrange
          refine ⟨not_le.mp hrange, ?_, hexact, ?_⟩
          · intro r hr hin
            exact (recordedFromRows_ok hfetch).1 r (List.mem_filter.mpr ⟨hr, hin⟩)
          · unfold applyAdjustments at happly
            split at happly
            · cases happly
              rfl
            · contradiction

theorem truthUp_of_settled (hrange : startDay < endDay) (hstored : daily.Stored)
    (hreadable : daily.ReadableIn startDay endDay)
    (hsettled : ∀ k : CostReconcileWindow,
      actualSum actuals k.1 = daily.recordedSum startDay endDay k.1) :
    ∃ n, truthUpCostDaily daily startDay endDay actuals 0 = .ok (⟨[], n⟩, daily) := by
  obtain ⟨recorded, hrows⟩ : ∃ recorded, recordedFromRows
      (daily.rows.filter fun r => r.window.inRange startDay endDay) = .ok recorded := by
    refine recordedFromRows_of_readable (fun r hr => ?_)
    exact hreadable r (List.mem_filter.mp hr).1 (List.mem_filter.mp hr).2
  have hfetch : fetchRecordedWindows daily startDay endDay = .ok recorded := by
    simp [fetchRecordedWindows, not_le.mpr hrange, hrows]
  have hplan := reconcileCost_eq recorded actuals
  have hnone : (reconciledWindows recorded actuals).filterMap
      (adjustmentOf recorded actuals 0) = [] := by
    refine List.filterMap_eq_nil_iff.mpr (fun k _ => ?_)
    rw [adjustmentOf_zero, if_pos]
    rw [hsettled k, aggregateRecorded_eq hstored hfetch k]
  rw [hnone] at hplan
  refine ⟨(reconciledWindows recorded actuals).length, ?_⟩
  unfold truthUpCostDaily
  rw [hfetch]
  simp only [hplan]
  rfl

namespace TruthedUp
variable (h : TruthedUp daily daily' startDay endDay actuals plan)
include h

theorem cost_corrected {a : CostReconcileAdjustment} (ha : a ∈ plan.adjustments) :
    daily'.cost a.window.1 = actualSum actuals a.window.1 := by
  rw [h.applied, cost_foldl_of_mem h.exact_plan.nodup ha, (h.exact_plan.corrects a ha).1]
  exact roundHalfAway_of_isMultiple (isMultiple_actualSum actuals a.window.1)

theorem get_of_not_stripped {k : CostWindow} (hk : ¬ k.Stripped) :
    daily'.get k = daily.get k := by
  rw [h.applied]
  refine get_foldl_of_forall_ne (fun a _ heq => hk ?_)
  rw [← heq]
  exact a.window.2

theorem cost_of_stripped (k : CostReconcileWindow) :
    daily'.cost k.1 =
      if actualSum actuals k.1 = daily.recordedSum startDay endDay k.1 then daily.cost k.1
      else actualSum actuals k.1 := by
  split
  · rename_i heq
    have huntouched : ∀ a ∈ plan.adjustments, a.window.1 ≠ k.1 := by
      intro a ha hwindow
      refine (h.exact_plan.corrects a ha).2 ?_
      rw [hwindow]
      exact heq
    unfold CostDaily.cost
    rw [h.applied, get_foldl_of_forall_ne huntouched]
  · rename_i hne
    obtain ⟨a, ha, rfl⟩ := h.exact_plan.complete k hne
    exact h.cost_corrected ha

theorem corrected_iff :
    (∀ k : CostWindow, k.inRange startDay endDay = true → daily'.cost k = actualSum actuals k) ↔
      daily.BlanksEmpty startDay endDay := by
  constructor
  · intro hcost r hr hrange hblank
    have hrow : daily.get r.window = some r := Keyed.mem_rows_iff.mp hr
    have hk := hcost r.window hrange
    rw [actualSum_of_not_stripped hblank] at hk
    unfold CostDaily.cost at hk
    rw [h.get_of_not_stripped hblank, hrow] at hk
    exact hk
  · intro hblanks k hrange
    by_cases hk : k.Stripped
    · rw [h.cost_of_stripped ⟨k, hk⟩]
      split
      · rename_i heq
        rw [heq]
        exact (recordedSum_inRange hblanks hk hrange).symm
      · rfl
    · rw [actualSum_of_not_stripped hk]
      unfold CostDaily.cost
      rw [h.get_of_not_stripped hk]
      cases hget : daily.get k with
      | none => rfl
      | some r =>
        obtain ⟨hr, rfl⟩ := Keyed.get_eq_some_iff.mp hget
        exact hblanks r hr hrange hk

theorem blanksEmpty (hblanks : daily.BlanksEmpty startDay endDay) :
    daily'.BlanksEmpty startDay endDay := by
  intro r hr hrange hk
  have hrow := Keyed.mem_rows_iff.mp hr
  rw [h.get_of_not_stripped hk] at hrow
  exact hblanks r (Keyed.get_eq_some_iff.mp hrow).1 hrange hk

theorem readable_after : daily'.ReadableIn startDay endDay := by
  rw [h.applied]
  refine readableIn_foldl h.readable (fun a ha => ?_)
  rw [(h.exact_plan.corrects a ha).1]
  exact actualSum_nonneg actuals a.window.1

end TruthedUp

end TruthUp

/-- The truth-up is durable and idempotent: the windows in range show the reported actuals, a
second run finds nothing to correct, the order of the inputs does not matter, and the next
rollup leaves the corrections in place. -/
structure TruthUpDurable (daily daily' : CostDaily) (startDay endDay : Int)
    (actuals : List ProviderActualCostWindow) (plan : CostReconcilePlan)
    (capabilities : Capabilities) (providers : Providers) (t : Workloads) : Prop where
  corrected : ∀ k : CostWindow, k.inRange startDay endDay = true →
    daily'.cost k = actualSum actuals k
  repeated : ∃ n daily'', truthUpCostDaily daily' startDay endDay actuals 0 =
    .ok (⟨[], n⟩, daily'')
  orderFree : ∀ recorded recorded' actuals', recorded.Perm recorded' → actuals.Perm actuals' →
    reconcileCost recorded actuals 0 = reconcileCost recorded' actuals' 0
  durable : ∀ daily'', aggregateDailyCost capabilities providers t daily' = .ok daily'' →
    ∀ a ∈ plan.adjustments, daily''.cost a.window.1 = daily'.cost a.window.1

/-- When it is: no cost in range stands under a name with blanks around it, no provider
reports a cost outside the range, and the workloads of every window that is corrected add up
to what the provider reports. -/
structure TruthUpSettles (daily : CostDaily) (startDay endDay : Int)
    (actuals : List ProviderActualCostWindow) (capabilities : Capabilities)
    (providers : Providers) (t : Workloads) : Prop where
  blanks : daily.BlanksEmpty startDay endDay
  inRange : ∀ a ∈ actuals, a.window.1.inRange startDay endDay = false → a.actualUsd = 0
  rollup : (dailyGroups capabilities providers t).all CostDailyRow.fits = true →
    ∀ g ∈ dailyGroups capabilities providers t, g.window.Stripped →
      g.window.inRange startDay endDay = true → daily.cost g.window ≠ actualSum actuals g.window →
      g.costUsd = actualSum actuals g.window

section Durable
variable {daily daily' : CostDaily} {startDay endDay : Int}
  {actuals : List ProviderActualCostWindow} {plan : CostReconcilePlan}
  {capabilities : Capabilities} {providers : Providers} {t : Workloads}

theorem actualSum_outOfRange
    (h : ∀ a ∈ actuals, a.window.1.inRange startDay endDay = false → a.actualUsd = 0)
    {k : CostWindow} (hk : k.inRange startDay endDay = false) : actualSum actuals k = 0 := by
  refine List.sum_eq_zero (fun x hx => ?_)
  obtain ⟨a, ha, rfl⟩ := List.mem_map.mp hx
  rw [List.mem_filter, decide_eq_true_eq] at ha
  exact h a ha.1 (by rw [ha.2]; exact hk)

theorem actualUsd_le_actualSum {a : ProviderActualCostWindow} (ha : a ∈ actuals) :
    a.actualUsd ≤ actualSum actuals a.window.1 := by
  refine List.single_le_sum (fun x hx => ?_) _ (List.mem_map.mpr ⟨a, ?_, rfl⟩)
  · obtain ⟨b, -, rfl⟩ := List.mem_map.mp hx
    exact b.nonneg
  · simpa [List.mem_filter] using ha

theorem TruthedUp.repeated_iff (h : TruthedUp daily daily' startDay endDay actuals plan)
    (hstored : daily.Stored) (hblanks : daily.BlanksEmpty startDay endDay) :
    (∃ n daily'', truthUpCostDaily daily' startDay endDay actuals 0 = .ok (⟨[], n⟩, daily'')) ↔
      ∀ a ∈ actuals, a.window.1.inRange startDay endDay = false → a.actualUsd = 0 := by
  have hstored' : daily'.Stored := by
    rw [h.applied]
    exact stored_foldl hstored
  constructor
  · rintro ⟨n, daily'', hagain⟩ a ha hout
    have hexact := (truthedUp_of_ok hstored' hagain).exact_plan
    have hzero : actualSum actuals a.window.1 = 0 := by
      by_contra hne
      rw [← recordedSum_outOfRange daily' hout] at hne
      obtain ⟨b, hb, -⟩ := hexact.complete a.window hne
      simp at hb
    have hle := actualUsd_le_actualSum ha
    rw [hzero] at hle
    exact le_antisymm hle a.nonneg
  · intro hin
    have hcosts := h.corrected_iff.mpr hblanks
    have hsettled : ∀ k : CostReconcileWindow,
        actualSum actuals k.1 = daily'.recordedSum startDay endDay k.1 := by
      intro k
      cases hrange : k.1.inRange startDay endDay with
      | true =>
        rw [recordedSum_inRange (h.blanksEmpty hblanks) k.2 hrange]
        exact (hcosts k.1 hrange).symm
      | false => rw [actualSum_outOfRange hin hrange, recordedSum_outOfRange _ hrange]
    obtain ⟨n, hn⟩ := truthUp_of_settled h.range hstored' h.readable_after hsettled
    exact ⟨n, daily', hn⟩

theorem TruthedUp.durable_iff (h : TruthedUp daily daily' startDay endDay actuals plan)
    (ht : t.CostStored) (hblanks : daily.BlanksEmpty startDay endDay)
    (hin : ∀ a ∈ actuals, a.window.1.inRange startDay endDay = false → a.actualUsd = 0) :
    (∀ daily'', aggregateDailyCost capabilities providers t daily' = .ok daily'' →
      ∀ a ∈ plan.adjustments, daily''.cost a.window.1 = daily'.cost a.window.1) ↔
    ((dailyGroups capabilities providers t).all CostDailyRow.fits = true →
      ∀ g ∈ dailyGroups capabilities providers t, g.window.Stripped →
        g.window.inRange startDay endDay = true →
        daily.cost g.window ≠ actualSum actuals g.window →
        g.costUsd = actualSum actuals g.window) := by
  constructor
  · intro hdurable hfits g hg hk hrange hne
    have hok := aggregateDailyCost_of_fits daily' hfits
    rw [← recordedSum_inRange hblanks hk hrange] at hne
    obtain ⟨a, ha, hwindow⟩ := h.exact_plan.complete ⟨g.window, hk⟩ (Ne.symm hne)
    have hsame := hdurable _ hok a ha
    rw [h.cost_corrected ha, hwindow] at hsame
    rw [← hsame]
    exact ((cost_aggregateDailyCost ht hok).1 g hg).symm
  · intro hrollup daily'' hok a ha
    obtain ⟨hgroups, hothers⟩ := cost_aggregateDailyCost ht hok
    by_cases hmem : a.window.1 ∈ (dailyGroups capabilities providers t).map CostDailyRow.window
    · obtain ⟨g, hg, hwindow⟩ := List.mem_map.mp hmem
      have hne := (h.exact_plan.corrects a ha).2
      have hfits := fits_of_aggregateDailyCost hok
      cases hrange : a.window.1.inRange startDay endDay with
      | false =>
        rw [actualSum_outOfRange hin hrange, recordedSum_outOfRange _ hrange] at hne
        exact absurd rfl hne
      | true =>
        rw [recordedSum_inRange hblanks a.window.2 hrange] at hne
        rw [← hwindow] at hrange hne
        have hcost := hrollup hfits g hg (by rw [hwindow]; exact a.window.2) hrange (Ne.symm hne)
        rw [h.cost_corrected ha, ← hwindow, hgroups g hg, hcost]
    · exact hothers _ hmem

/-- A truth-up with tolerance 0 that returns is durable and idempotent exactly when it has
nothing to correct that it cannot read back or that the rollup computes otherwise. -/
theorem truth_up_durable_iff (hstored : daily.Stored) (ht : t.CostStored)
    (h : truthUpCostDaily daily startDay endDay actuals 0 = .ok (plan, daily')) :
    TruthUpDurable daily daily' startDay endDay actuals plan capabilities providers t ↔
      TruthUpSettles daily startDay endDay actuals capabilities providers t := by
  have hdone := truthedUp_of_ok hstored h
  constructor
  · rintro ⟨hcorrected, hrepeated, -, hdurable⟩
    have hblanks := hdone.corrected_iff.mp hcorrected
    have hin := (hdone.repeated_iff hstored hblanks).mp hrepeated
    exact ⟨hblanks, hin, (hdone.durable_iff ht hblanks hin).mp hdurable⟩
  · rintro ⟨hblanks, hin, hrollup⟩
    exact ⟨hdone.corrected_iff.mpr hblanks, (hdone.repeated_iff hstored hblanks).mpr hin,
      fun _ _ _ hr ha => reconcileCost_perm hr ha 0,
      (hdone.durable_iff ht hblanks hin).mpr hrollup⟩

end Durable

section Undone

def lbWindow : CostReconcileWindow := ⟨⟨0, "llm", "serverless_lb"⟩, by decide +kernel⟩

def reported (dollars : Nat) : List ProviderActualCostWindow :=
  [⟨lbWindow, dollars, "runpod", ⟨dollars * 1000000, by push_cast; norm_num⟩, by positivity⟩]

def fiveDollarsRecorded : CostDaily := ⟨[⟨lbWindow.1, 1, 5⟩], by simp⟩

theorem fiveDollarsRecorded_stored : fiveDollarsRecorded.Stored := by
  intro r hr
  obtain rfl : r = ⟨lbWindow.1, 1, 5⟩ := by simpa [fiveDollarsRecorded] using hr
  exact ⟨5000000, by norm_num⟩

theorem truthUp_returns (dollars : Nat)
    (h : (truthUpCostDaily fiveDollarsRecorded 0 1 (reported dollars) 0).isOk = true) :
    ∃ plan daily', truthUpCostDaily fiveDollarsRecorded 0 1 (reported dollars) 0 =
      .ok (plan, daily') := by
  cases hrun : truthUpCostDaily fiveDollarsRecorded 0 1 (reported dollars) 0 with
  | error e =>
    rw [hrun] at h
    contradiction
  | ok result => exact ⟨result.1, result.2, rfl⟩

/-- The provider confirms what the rollup has recorded. -/
theorem confirmed_truth_up_durable :
    ∃ plan daily', truthUpCostDaily fiveDollarsRecorded 0 1 (reported 5) 0 = .ok (plan, daily') ∧
      TruthUpDurable fiveDollarsRecorded daily' 0 1 (reported 5) plan oneCapability oneProvider
        (oneWorkload .completed) := by
  obtain ⟨plan, daily', hrun⟩ := truthUp_returns 5 (by decide +kernel)
  refine ⟨plan, daily', hrun, ?_⟩
  refine (truth_up_durable_iff fiveDollarsRecorded_stored (oneWorkload_costStored .completed)
    hrun).mpr ⟨?_, ?_, ?_⟩
  · intro r hr _ hblank
    obtain rfl : r = ⟨lbWindow.1, 1, 5⟩ := by simpa [fiveDollarsRecorded] using hr
    exact absurd lbWindow.2 hblank
  · intro a ha hout
    obtain rfl : a = _ := by simpa [reported] using ha
    simp [lbWindow, CostWindow.inRange] at hout
  · intro _ g hg _ _ hne
    have hwindow : ∀ g ∈ dailyGroups oneCapability oneProvider (oneWorkload .completed),
        fiveDollarsRecorded.cost g.window = actualSum (reported 5) g.window := by
      decide +kernel
    exact absurd (hwindow g hg) hne

/-- The provider reports seven dollars, the table is set to them, and the next rollup sets it
back to the five that the workload cost. -/
theorem rollup_undoes_truth_up :
    ¬ ∀ (daily daily' : CostDaily) (startDay endDay : Int)
      (actuals : List ProviderActualCostWindow) (plan : CostReconcilePlan)
      (capabilities : Capabilities) (providers : Providers) (t : Workloads),
      daily.Stored → t.CostStored →
      truthUpCostDaily daily startDay endDay actuals 0 = .ok (plan, daily') →
      TruthUpDurable daily daily' startDay endDay actuals plan capabilities providers t := by
  intro h
  obtain ⟨plan, daily', hrun⟩ := truthUp_returns 7 (by decide +kernel)
  have hdone := truthedUp_of_ok fiveDollarsRecorded_stored hrun
  have hdurable := (h fiveDollarsRecorded daily' 0 1 (reported 7) plan oneCapability oneProvider
    (oneWorkload .completed) fiveDollarsRecorded_stored (oneWorkload_costStored .completed)
    hrun).durable
  have hfits : (dailyGroups oneCapability oneProvider (oneWorkload .completed)).all
      CostDailyRow.fits = true := by decide +kernel
  obtain ⟨a, ha, hwindow⟩ := hdone.exact_plan.complete lbWindow (by decide +kernel)
  have hok := aggregateDailyCost_of_fits daily' hfits
  have hgroup : ⟨lbWindow.1, 1, 5⟩ ∈
      dailyGroups oneCapability oneProvider (oneWorkload .completed) := by decide +kernel
  have hcost := hdurable _ hok a ha
  rw [hdone.cost_corrected ha, hwindow,
    (cost_aggregateDailyCost (oneWorkload_costStored .completed) hok).1 _ hgroup] at hcost
  exact absurd hcost (by decide +kernel)

end Undone

end Pitwall
