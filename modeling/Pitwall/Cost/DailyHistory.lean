import Pitwall.Core.Inference
import Pitwall.Cost.CostDaily
import Pitwall.Retention.Purge
set_option autoImplicit false

/-!
`cost_daily` over whole histories: workloads are submitted and finish, providers and
capabilities are edited, retention purges, and the rollup runs in between.
-/

namespace Pitwall
open Machine

structure CostHistory where
  workloads : Workloads
  capabilities : Capabilities
  providers : Providers
  costDaily : CostDaily
  /-- Every workload purged so far. -/
  purged : List Workload

/-- `UPDATE pitwall.providers SET provider_type = $2 WHERE id = $1`. -/
def Providers.editType (t : Providers) (id : String) (providerType : ProviderType) : Providers :=
  t.update (fun p => p.id = id)
    { set := fun p => { p with providerType := providerType }, keeps := fun _ => rfl }

/-- `UPDATE pitwall.capabilities SET class = $2 WHERE id = $1`. -/
def Capabilities.editClass (t : Capabilities) (id capabilityClass : String) : Capabilities :=
  t.update (fun c => c.id = id)
    { set := fun c => { c with capabilityClass := capabilityClass }, keeps := fun _ => rfl }

inductive HistoryEvent where
  | submit (w : Workload)
  | finish (id : String) (state : WorkloadState) (actualCost : Option ℚ) (completedAt : Instant)
  | editProvider (id : String) (providerType : ProviderType)
  | editCapability (id capabilityClass : String)
  | purge (call : ArchiveCall) (startedAt : Instant) (locked : String → Bool)
  | aggregate

def CostHistory.aggregated (s : CostHistory) : Except PyError CostDaily :=
  aggregateDailyCost s.capabilities s.providers s.workloads s.costDaily

def historyStep (s : CostHistory) : HistoryEvent → CostHistory
  | .submit w => { s with workloads := (s.workloads.insert w).getD s.workloads }
  | .finish id state actualCost completedAt =>
      { s with workloads := s.workloads.applyTerminalState id state actualCost completedAt }
  | .editProvider id providerType =>
      { s with providers := s.providers.editType id providerType }
  | .editCapability id capabilityClass =>
      { s with capabilities := s.capabilities.editClass id capabilityClass }
  | .purge call startedAt locked =>
      { s with
        workloads := call.purgeWorkloads startedAt locked s.workloads
        purged := s.purged ++ s.workloads.rows.filter (call.purges startedAt locked s.workloads) }
  | .aggregate =>
      match s.aggregated with
      | .ok daily => { s with costDaily := daily }
      | .error _ => s

def CostHistory.start (workloads : Workloads) (capabilities : Capabilities)
    (providers : Providers) : CostHistory :=
  ⟨workloads, capabilities, providers, Table.empty, []⟩

def Workload.terminalOn (day : Int) (w : Workload) : Bool :=
  w.state.terminal && decide (utcDay w.submittedAt = day)

def CostHistory.everTotal (s : CostHistory) (day : Int) : ℚ :=
  sumWhere (Workload.terminalOn day) Workload.actual s.workloads.rows +
    sumWhere (Workload.terminalOn day) Workload.actual s.purged

def CostEventStored : HistoryEvent → Prop
  | .submit w => w.CostStored
  | .finish _ _ actualCost _ => ∀ x ∈ actualCost, 0 ≤ x ∧ IsMultiple 6 x
  | _ => True

/-- An aggregation that returns leaves every day at the cost of all its terminal workloads,
and lowers none. -/
def HistoryKept (s : CostHistory) : HistoryEvent → Prop
  | .aggregate => ∀ daily, s.aggregated = .ok daily → ∀ day,
      daily.dayTotal day = s.everTotal day ∧ s.costDaily.dayTotal day ≤ daily.dayTotal day
  | _ => True

def CostHistory.windows (s : CostHistory) : List CostWindow :=
  (dailyGroups s.capabilities s.providers s.workloads).map CostDailyRow.window

def CostHistory.unseen (s : CostHistory) (day : Int) : ℚ :=
  sumWhere (fun w => w.terminalOn day && !w.rolledUp s.capabilities s.providers day)
    Workload.actual s.workloads.rows

/-- Where an aggregation fits the columns, the day's entries of windows without a terminal
workload add up to what was purged of the day and what the joins miss. -/
def LeftoverIsPurged (s : CostHistory) : HistoryEvent → Prop
  | .aggregate =>
      (dailyGroups s.capabilities s.providers s.workloads).all CostDailyRow.fits = true →
      ∀ day, s.costDaily.left s.windows day =
        sumWhere (Workload.terminalOn day) Workload.actual s.purged + s.unseen day
  | _ => True

section Totals
variable {s : CostHistory}

theorem everTotal_eq (day : Int) :
    s.everTotal day =
      sumWhere (Workload.rolledUp s.capabilities s.providers day) Workload.actual
        s.workloads.rows + s.unseen day +
      sumWhere (Workload.terminalOn day) Workload.actual s.purged := by
  unfold CostHistory.everTotal CostHistory.unseen
  rw [sumWhere_split (Workload.terminalOn day)
    (Workload.rolledUp s.capabilities s.providers day)]
  congr 2
  refine sumWhere_congr (fun w _ => ?_)
  unfold Workload.terminalOn Workload.rolledUp
  cases hw : joinedWindow s.capabilities s.providers w with
  | none => simp
  | some r =>
    obtain ⟨-, hterminal, -⟩ := joinedWindow_some hw
    simp [hterminal]

theorem dayTotal_eq_everTotal_iff {daily : CostDaily} (hstored : s.workloads.CostStored)
    (h : s.aggregated = .ok daily) (day : Int) :
    daily.dayTotal day = s.everTotal day ↔
      s.costDaily.left s.windows day =
        sumWhere (Workload.terminalOn day) Workload.actual s.purged + s.unseen day := by
  have htotal : daily.dayTotal day =
      sumWhere (Workload.rolledUp s.capabilities s.providers day) Workload.actual
        s.workloads.rows + s.costDaily.left s.windows day :=
    dayTotal_aggregateDailyCost hstored h day
  rw [htotal, everTotal_eq]
  constructor
  · intro heq
    linarith
  · intro heq
    linarith

end Totals

section Growth
variable {t : Workloads} (day : Int)

theorem terminalTotal_nonneg {rows : List Workload} (h : ∀ w ∈ rows, w.CostStored) :
    0 ≤ sumWhere (Workload.terminalOn day) Workload.actual rows := by
  refine List.sum_nonneg (fun x hx => ?_)
  obtain ⟨w, hw, rfl⟩ := List.mem_map.mp hx
  exact (h w (List.mem_filter.mp hw).1).actual_nonneg

theorem costStored_submit {w : Workload} (h : t.CostStored) (hw : w.CostStored) :
    Workloads.CostStored ((t.insert w).getD t) := by
  cases hins : t.insert w with
  | none => exact h
  | some t' =>
    intro v hv
    rw [Option.getD_some, Table.rows_of_insert hins, List.mem_append, List.mem_singleton] at hv
    rcases hv with hv | rfl
    · exact h v hv
    · exact hw

theorem terminalTotal_submit {w : Workload} (hw : w.CostStored) :
    sumWhere (Workload.terminalOn day) Workload.actual t.rows ≤
      sumWhere (Workload.terminalOn day) Workload.actual ((t.insert w).getD t).rows := by
  cases hins : t.insert w with
  | none => exact le_refl _
  | some t' =>
    have hnew : 0 ≤ sumWhere (Workload.terminalOn day) Workload.actual [w] := by
      refine terminalTotal_nonneg day (fun v hv => ?_)
      rw [List.mem_singleton.mp hv]
      exact hw
    rw [Option.getD_some, Table.rows_of_insert hins, sumWhere_append]
    linarith

section Finish
variable (id : String) (state : WorkloadState) {actualCost : Option ℚ} (completedAt : Instant)
  (hcost : ∀ x ∈ actualCost, 0 ≤ x ∧ IsMultiple 6 x)
include hcost

theorem costStored_finish (h : t.CostStored) :
    (t.applyTerminalState id state actualCost completedAt).CostStored := by
  intro w hw
  unfold Workloads.applyTerminalState at hw
  rw [Workloads.rows_updateById] at hw
  obtain ⟨v, hv, rfl⟩ := List.mem_map.mp hw
  split
  · exact hcost
  · exact h v hv

theorem terminalTotal_finish :
    sumWhere (Workload.terminalOn day) Workload.actual t.rows ≤
      sumWhere (Workload.terminalOn day) Workload.actual
        (t.applyTerminalState id state actualCost completedAt).rows := by
  unfold Workloads.applyTerminalState
  rw [Workloads.rows_updateById, sumWhere_eq_sum_map, sumWhere_eq_sum_map, List.map_map]
  refine List.sum_le_sum (fun w _ => ?_)
  by_cases hhit : w.id = id ∧ (!w.state.terminal) = true
  · have hbefore : w.terminalOn day = false := by
      have hopen : w.state.terminal = false := by simpa using hhit.2
      simp [Workload.terminalOn, hopen]
    have hafter : (0 : ℚ) ≤ actualCost.getD 0 := by
      cases hx : actualCost with
      | none => exact le_refl 0
      | some x => exact (hcost x hx).1
    simp only [hbefore, Function.comp_apply, hhit, and_self, if_true, Bool.false_eq_true,
      if_false]
    split
    · exact hafter
    · exact le_refl 0
  · simp only [Function.comp_apply, if_neg hhit]
    exact le_refl _

end Finish

theorem terminalTotal_purge (call : ArchiveCall) (startedAt : Instant) (locked : String → Bool) :
    sumWhere (Workload.terminalOn day) Workload.actual t.rows =
      sumWhere (Workload.terminalOn day) Workload.actual
        (call.purgeWorkloads startedAt locked t).rows +
      sumWhere (Workload.terminalOn day) Workload.actual
        (t.rows.filter (call.purges startedAt locked t)) := by
  unfold ArchiveCall.purgeWorkloads
  rw [Table.rows_delete, sumWhere_filter, sumWhere_filter, add_comm]
  exact sumWhere_split _ _ _ _

end Growth

/-- Costs are as the column stores them, and no day shows more than was ever spent. -/
structure CostHistory.Sound (s : CostHistory) : Prop where
  stored : s.workloads.CostStored
  purged : ∀ w ∈ s.purged, w.CostStored
  bounded : ∀ day, s.costDaily.dayTotal day ≤ s.everTotal day

section Steps
variable {s : CostHistory}

theorem everTotal_step {e : HistoryEvent} (he : CostEventStored e) (day : Int) :
    s.everTotal day ≤ (historyStep s e).everTotal day := by
  cases e with
  | submit w =>
    have hgrow := terminalTotal_submit (t := s.workloads) day he
    exact add_le_add_left hgrow _
  | finish id state actualCost completedAt =>
    have hgrow := terminalTotal_finish (t := s.workloads) day id state completedAt he
    exact add_le_add_left hgrow _
  | editProvider id providerType => exact le_refl _
  | editCapability id capabilityClass => exact le_refl _
  | purge call startedAt locked =>
    have hmoved := terminalTotal_purge (t := s.workloads) day call startedAt locked
    simp only [CostHistory.everTotal, historyStep, sumWhere_append]
    rw [hmoved]
    linarith
  | aggregate =>
    simp only [historyStep]
    split <;> exact le_refl _

theorem costStored_step (h : s.Sound) {e : HistoryEvent} (he : CostEventStored e) :
    (historyStep s e).workloads.CostStored ∧ ∀ w ∈ (historyStep s e).purged, w.CostStored := by
  cases e with
  | submit w => exact ⟨costStored_submit h.stored he, h.purged⟩
  | finish id state actualCost completedAt =>
    exact ⟨costStored_finish id state completedAt he h.stored, h.purged⟩
  | editProvider id providerType => exact ⟨h.stored, h.purged⟩
  | editCapability id capabilityClass => exact ⟨h.stored, h.purged⟩
  | purge call startedAt locked =>
    refine ⟨fun w hw => h.stored w (List.mem_filter.mp hw).1, fun w hw => ?_⟩
    rcases List.mem_append.mp hw with hw | hw
    · exact h.purged w hw
    · exact h.stored w (List.mem_filter.mp hw).1
  | aggregate =>
    simp only [historyStep]
    split <;> exact ⟨h.stored, h.purged⟩

theorem costDaily_step {e : HistoryEvent} :
    (historyStep s e).costDaily = s.costDaily ∨
      ∃ daily, e = .aggregate ∧ s.aggregated = .ok daily ∧
        (historyStep s e).costDaily = daily := by
  cases e with
  | aggregate =>
    cases hagg : s.aggregated with
    | ok daily => exact .inr ⟨daily, rfl, rfl, by simp [historyStep, hagg]⟩
    | error exc => exact .inl (by simp [historyStep, hagg])
  | _ => exact .inl rfl

theorem sound_step (h : s.Sound) {e : HistoryEvent} (he : CostEventStored e)
    (hkept : HistoryKept s e) : (historyStep s e).Sound := by
  obtain ⟨hstored, hpurged⟩ := costStored_step h he
  refine ⟨hstored, hpurged, fun day => ?_⟩
  have hgrow := everTotal_step (s := s) he day
  rcases costDaily_step (s := s) (e := e) with hsame | ⟨daily, rfl, hagg, hdaily⟩
  · rw [hsame]
    exact le_trans (h.bounded day) hgrow
  · rw [hdaily, (hkept daily hagg day).1]
    exact hgrow

theorem historyKept_iff (h : s.Sound) (e : HistoryEvent) :
    HistoryKept s e ↔ LeftoverIsPurged s e := by
  cases e with
  | aggregate =>
    constructor
    · intro hkept hfits day
      have hagg : s.aggregated = .ok _ := aggregateDailyCost_of_fits _ hfits
      exact (dayTotal_eq_everTotal_iff h.stored hagg day).mp (hkept _ hagg day).1
    · intro hleft daily hagg day
      have hday := (dayTotal_eq_everTotal_iff h.stored hagg day).mpr
        (hleft (fits_of_aggregateDailyCost hagg) day)
      refine ⟨hday, ?_⟩
      rw [hday]
      exact h.bounded day
  | _ => exact Iff.rfl

theorem sound_start {workloads : Workloads} (capabilities : Capabilities)
    (providers : Providers) (hstored : workloads.CostStored) :
    (CostHistory.start workloads capabilities providers).Sound := by
  refine ⟨hstored, by simp [CostHistory.start], fun day => ?_⟩
  have hnonneg := terminalTotal_nonneg day hstored
  simp only [CostHistory.start, CostHistory.everTotal, CostDaily.dayTotal, Table.empty]
  simpa [sumWhere] using hnonneg

theorem historyKept_of_leftover (hsound : s.Sound) {events : List HistoryEvent}
    (hevents : ∀ e ∈ events, CostEventStored e)
    (hleft : Along historyStep LeftoverIsPurged s events) :
    Along historyStep HistoryKept s events := by
  refine along_of_invariant (I := CostHistory.Sound) (fun s e h he => ?_) hsound
    ((along_of_mem _ hevents).and hleft)
  have hkept := (historyKept_iff h e).mpr he.2
  exact ⟨sound_step h he.1 hkept, hkept⟩

end Steps

/-- Over every history: each aggregation leaves every day at the cost of all workloads ever
submitted on it, exactly when at each of them the entries that no present workload falls
into add up to what was purged of the day and what the joins miss. -/
theorem cost_daily_keeps_history (workloads : Workloads) (capabilities : Capabilities)
    (providers : Providers) (events : List HistoryEvent) (hstored : workloads.CostStored)
    (hevents : ∀ e ∈ events, CostEventStored e) :
    Along historyStep HistoryKept (.start workloads capabilities providers) events ↔
      Along historyStep LeftoverIsPurged (.start workloads capabilities providers) events := by
  constructor
  · intro hkept
    refine along_of_invariant (I := CostHistory.Sound) (fun s e h he => ?_)
      (sound_start capabilities providers hstored) ((along_of_mem _ hevents).and hkept)
    exact ⟨sound_step h he.1 he.2, (historyKept_iff h e).mp he.2⟩
  · intro hleft
    exact historyKept_of_leftover (sound_start capabilities providers hstored) hevents hleft

section Drift

def regrouped : List HistoryEvent := [.aggregate, .editProvider "prov" .podLease, .aggregate]

/-- An edit of the provider's type makes the day count twice. -/
theorem regrouping_doubles_day :
    ¬ ∀ (workloads : Workloads) (capabilities : Capabilities) (providers : Providers)
      (events : List HistoryEvent), workloads.CostStored →
      (∀ e ∈ events, CostEventStored e) →
      Along historyStep HistoryKept (.start workloads capabilities providers) events := by
  intro h
  have hevents : ∀ e ∈ regrouped, CostEventStored e := by
    intro e he
    simp only [regrouped, List.mem_cons, List.not_mem_nil, or_false] at he
    rcases he with rfl | rfl | rfl <;> trivial
  have hkept := h (oneWorkload .completed) oneCapability oneProvider regrouped
    (oneWorkload_costStored .completed) hevents
  obtain ⟨daily, hagg⟩ : ∃ daily, (run historyStep
      (.start (oneWorkload .completed) oneCapability oneProvider)
      (regrouped.take 2)).aggregated = .ok daily :=
    ⟨_, aggregateDailyCost_of_fits _ (by decide +kernel)⟩
  have hday := (hkept.2.2.1 daily hagg 0).1
  have hdaily : (run historyStep (.start (oneWorkload .completed) oneCapability oneProvider)
      regrouped).costDaily = daily := by
    change (historyStep (run historyStep _ (regrouped.take 2)) .aggregate).costDaily = daily
    simp only [historyStep, hagg]
  rw [← hdaily] at hday
  exact absurd hday (by decide +kernel)

end Drift

end Pitwall
