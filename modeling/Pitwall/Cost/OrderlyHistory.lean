import Pitwall.Cost.DailyHistory
set_option autoImplicit false

/-!
A way to run retention and the rollup next to each other that keeps `cost_daily` right: a
window with an entry neither gains its first nor loses its last workload, unless a purge takes all
of them after they were rolled up.
-/

namespace Pitwall
open Machine

namespace CostHistory

def windowOf (s : CostHistory) (w : Workload) : Option CostWindow :=
  (joinedWindow s.capabilities s.providers w).map Prod.fst

/-- Every terminal workload has its capability and its provider. -/
def AllJoined (s : CostHistory) : Prop :=
  ∀ w ∈ s.workloads.rows, w.state.terminal = true → (s.windowOf w).isSome = true

/-- What `cost_daily` has for a window. -/
def entry (s : CostHistory) (window : CostWindow) : ℚ :=
  groupSum CostDailyRow.window CostDailyRow.costUsd s.costDaily.rows window

def filed (s : CostHistory) (rows : List Workload) (window : CostWindow) : ℚ :=
  groupSum s.windowOf Workload.actual rows (some window)

end CostHistory

/-- A purge that takes all workloads of a window finds its entry up to date, and one that leaves
some takes none that cost anything. Anything else leaves every terminal workload with its joins,
and gives a window with an entry neither its first workload nor takes its last. -/
def Orderly (s : CostHistory) : HistoryEvent → Prop
  | .aggregate => True
  | .purge call startedAt locked => ∀ window ∈ s.windows,
      if window ∈ (historyStep s (.purge call startedAt locked)).windows then
        s.filed (s.workloads.rows.filter (call.purges startedAt locked s.workloads)) window = 0
      else s.entry window = s.filed s.workloads.rows window
  | e => (historyStep s e).AllJoined ∧
      ∀ window, (window ∈ (historyStep s e).windows ↔ window ∈ s.windows) ∨ s.entry window = 0

structure CostHistory.Filed (s : CostHistory) : Prop where
  joined : s.AllJoined
  left : ∀ day, s.costDaily.left s.windows day =
    sumWhere (Workload.terminalOn day) Workload.actual s.purged

section Windows
variable {s : CostHistory}

theorem windowOf_some {w : Workload} {window : CostWindow} (h : s.windowOf w = some window) :
    w.state.terminal = true ∧ window.day = utcDay w.submittedAt ∧
      (joinedWindow s.capabilities s.providers w).isSome = true := by
  unfold CostHistory.windowOf at h
  obtain ⟨r, hr, rfl⟩ := Option.map_eq_some_iff.mp h
  obtain ⟨-, hterminal, hday⟩ := joinedWindow_some hr
  exact ⟨hterminal, hday, by rw [hr]; rfl⟩

theorem mem_windows {window : CostWindow} :
    window ∈ s.windows ↔ ∃ w ∈ s.workloads.rows, s.windowOf w = some window := by
  unfold CostHistory.windows CostHistory.windowOf
  rw [windows_dailyGroups, mem_groupKeys]
  constructor
  · rintro ⟨r, hr, hwindow⟩
    obtain ⟨w, hw, hjoined⟩ := List.mem_filterMap.mp hr
    exact ⟨w, hw, by rw [hjoined, Option.map_some, hwindow]⟩
  · rintro ⟨w, hw, hwindow⟩
    obtain ⟨r, hr, hkey⟩ := Option.map_eq_some_iff.mp hwindow
    exact ⟨r, List.mem_filterMap.mpr ⟨w, hw, hr⟩, hkey⟩

theorem CostHistory.AllJoined.unseen_eq_zero (h : s.AllJoined) (day : Int) : s.unseen day = 0 := by
  refine sumWhere_eq_zero (fun w hw => ?_)
  cases hterminal : w.state.terminal with
  | false => simp [Workload.terminalOn, hterminal]
  | true =>
    obtain ⟨window, hwindow⟩ := Option.isSome_iff_exists.mp (h w hw hterminal)
    simp [Workload.terminalOn, Workload.rolledUp, hterminal, (windowOf_some hwindow).2.2]

theorem CostHistory.Filed.leftover (h : s.Filed) (e : HistoryEvent) : LeftoverIsPurged s e := by
  cases e with
  | aggregate =>
    intro _ day
    rw [h.left day, h.joined.unseen_eq_zero day, add_zero]
  | _ => trivial

theorem entry_of_mem {r : CostDailyRow} (hr : r ∈ s.costDaily.rows) :
    s.entry r.window = r.costUsd := by
  refine (Keyed.sumWhere_key s.costDaily r.window CostDailyRow.costUsd).trans ?_
  rw [Keyed.mem_rows_iff.mp hr]
  rfl

theorem left_eq_left {windows windows' : List CostWindow}
    (h : ∀ window, (window ∈ windows' ↔ window ∈ windows) ∨ s.entry window = 0) (day : Int) :
    s.costDaily.left windows' day = s.costDaily.left windows day := by
  unfold CostDaily.left
  rw [sumWhere_eq_sum_map, sumWhere_eq_sum_map]
  refine congrArg List.sum (List.map_congr_left fun r hr => ?_)
  rcases h r.window with hsame | hzero
  · simp only [hsame]
  · rw [entry_of_mem hr] at hzero
    simp [hzero]

end Windows

section Purged
variable {s : CostHistory} {call : ArchiveCall} {startedAt : Instant} {locked : String → Bool}

theorem filed_purged (he : Orderly s (.purge call startedAt locked)) {window : CostWindow}
    (hwindow : window ∈ s.windows) :
    s.filed (s.workloads.rows.filter (call.purges startedAt locked s.workloads)) window =
      if window ∈ (historyStep s (.purge call startedAt locked)).windows then 0
      else s.entry window := by
  have hpurge := he window hwindow
  by_cases hleft : window ∈ (historyStep s (.purge call startedAt locked)).windows
  · rw [if_pos hleft] at hpurge ⊢
    exact hpurge
  · rw [if_neg hleft] at hpurge ⊢
    rw [hpurge]
    refine (sumWhere_filter _ _ _ _).trans (sumWhere_congr fun w hw => ?_)
    by_cases hfiled : s.windowOf w = some window
    · have htaken : call.purges startedAt locked s.workloads w = true := by
        by_contra hkept
        refine hleft (mem_windows.mpr ⟨w, List.mem_filter.mpr ⟨hw, ?_⟩, hfiled⟩)
        simpa using hkept
      simp [hfiled, htaken]
    · simp [hfiled]

theorem terminalTotal_purged (h : s.AllJoined) (day : Int) :
    sumWhere (Workload.terminalOn day) Workload.actual
        (s.workloads.rows.filter (call.purges startedAt locked s.workloads)) =
      ((s.windows.filter fun window => decide (window.day = day)).map
        (s.filed (s.workloads.rows.filter (call.purges startedAt locked s.workloads)))).sum := by
  set ks := s.windows.filter fun window => decide (window.day = day) with hks
  set taken := s.workloads.rows.filter (call.purges startedAt locked s.workloads) with htaken
  have hnodup : ks.Nodup := nodup_windows_dailyGroups.filter _
  have hsome : ks.map (s.filed taken) =
      (ks.map some).map (groupSum s.windowOf Workload.actual taken) := by
    rw [List.map_map]
    rfl
  rw [hsome]
  refine (((sum_groupSum (hnodup.map (Option.some_injective _)) _ _ _).trans ?_)).symm
  refine sumWhere_congr (fun w hw => ?_)
  obtain ⟨hw, hpurges⟩ := List.mem_filter.mp hw
  have hterminal := (ArchiveCall.eligible_of_purges hpurges).2
  obtain ⟨window, hwindow⟩ := Option.isSome_iff_exists.mp (h w hw hterminal)
  have hin : window ∈ ks ↔ window.day = day := by
    rw [hks, List.mem_filter, decide_eq_true_eq]
    exact ⟨fun hk => hk.2, fun hday => ⟨mem_windows.mpr ⟨w, hw, hwindow⟩, hday⟩⟩
  simp [hwindow, hin, Workload.terminalOn, hterminal, (windowOf_some hwindow).2.1]

theorem left_purge (day : Int) :
    s.costDaily.left (historyStep s (.purge call startedAt locked)).windows day =
      s.costDaily.left s.windows day +
        sumWhere (fun window => decide
            (window ∉ (historyStep s (.purge call startedAt locked)).windows)) s.entry
          (s.windows.filter fun window => decide (window.day = day)) := by
  set windows' := (historyStep s (.purge call startedAt locked)).windows with hwindows'
  have hsub : ∀ window ∈ windows', window ∈ s.windows := by
    intro window hwindow
    obtain ⟨w, hw, hfiled⟩ := mem_windows.mp hwindow
    exact mem_windows.mpr ⟨w, (List.mem_filter.mp hw).1, hfiled⟩
  have hnodup : ((s.windows.filter fun window => decide (window.day = day)).filter
      fun window => decide (window ∉ windows')).Nodup :=
    (nodup_windows_dailyGroups.filter _).filter _
  have hgone := sum_groupSum hnodup CostDailyRow.window CostDailyRow.costUsd s.costDaily.rows
  unfold CostDaily.left
  rw [sumWhere_split _ fun r => decide (r.window ∉ s.windows)]
  congr 1
  · refine sumWhere_congr (fun r _ => ?_)
    by_cases hbefore : r.window ∈ s.windows
    · simp [hbefore]
    · have hafter : r.window ∉ windows' := fun hafter => hbefore (hsub r.window hafter)
      simp [hbefore, hafter]
  · refine Eq.trans (sumWhere_congr fun r _ => ?_) hgone.symm
    by_cases hbefore : r.window ∈ s.windows <;> simp [hbefore, and_comm]

end Purged

section OrderlySteps
variable {s : CostHistory}

theorem filed_of_same_windows (h : s.Filed) {s' : CostHistory} (hdaily : s'.costDaily = s.costDaily)
    (hpurged : s'.purged = s.purged) (hjoined : s'.AllJoined)
    (hwindows : ∀ window, (window ∈ s'.windows ↔ window ∈ s.windows) ∨ s.entry window = 0) :
    s'.Filed := by
  refine ⟨hjoined, fun day => ?_⟩
  rw [hdaily, hpurged, left_eq_left hwindows, h.left day]

theorem filed_aggregate (h : s.Filed) : (historyStep s .aggregate).Filed := by
  cases hagg : s.aggregated with
  | error exc =>
    simp only [historyStep, hagg]
    exact h
  | ok daily =>
    simp only [historyStep, hagg]
    refine ⟨h.joined, fun day => (h.left day).symm.trans ?_ |>.symm⟩
    unfold CostHistory.aggregated at hagg
    rw [aggregateDailyCost_of_fits _ (fits_of_aggregateDailyCost hagg)] at hagg
    obtain rfl := Except.ok.inj hagg
    have hkeys : ((dailyGroups s.capabilities s.providers s.workloads).map
        CostDailyRow.stored).map CostDailyRow.window = s.windows := List.map_map
    have hnew : sumWhere (fun r => decide (r.window.day = day) && decide (r.window ∉ s.windows))
        CostDailyRow.costUsd ((dailyGroups s.capabilities s.providers s.workloads).map
          CostDailyRow.stored) = 0 := by
      refine sumWhere_eq_zero (fun r hr => ?_)
      have hmem : r.window ∈ s.windows := hkeys ▸ List.mem_map_of_mem hr
      simp [hmem]
    change _ = CostDaily.left _ s.windows day
    unfold CostDaily.left
    rw [sumWhere_perm (s.costDaily.upsertAll_perm (hkeys ▸ nodup_windows_dailyGroups)),
      sumWhere_append, hnew, zero_add, sumWhere_filter, hkeys]
    exact sumWhere_congr fun r _ => by simp

theorem filed_purge (h : s.Filed) {call : ArchiveCall} {startedAt : Instant}
    {locked : String → Bool} (he : Orderly s (.purge call startedAt locked)) :
    (historyStep s (.purge call startedAt locked)).Filed := by
  refine ⟨fun w hw hterminal => h.joined w (List.mem_filter.mp hw).1 hterminal, fun day => ?_⟩
  have htaken : ((s.windows.filter fun window => decide (window.day = day)).map
      (s.filed (s.workloads.rows.filter (call.purges startedAt locked s.workloads)))).sum =
        sumWhere (fun window => decide
            (window ∉ (historyStep s (.purge call startedAt locked)).windows)) s.entry
          (s.windows.filter fun window => decide (window.day = day)) := by
    rw [sumWhere_eq_sum_map]
    refine congrArg List.sum (List.map_congr_left fun window hwindow => ?_)
    rw [filed_purged he (List.mem_filter.mp hwindow).1]
    by_cases hleft : window ∈ (historyStep s (.purge call startedAt locked)).windows <;>
      simp [hleft]
  calc s.costDaily.left (historyStep s (.purge call startedAt locked)).windows day
      = sumWhere (Workload.terminalOn day) Workload.actual s.purged +
          sumWhere (Workload.terminalOn day) Workload.actual
            (s.workloads.rows.filter (call.purges startedAt locked s.workloads)) := by
        rw [left_purge, h.left day, terminalTotal_purged h.joined, htaken]
    _ = sumWhere (Workload.terminalOn day) Workload.actual
          (historyStep s (.purge call startedAt locked)).purged := (sumWhere_append _ _ _ _).symm

theorem filed_step (h : s.Filed) {e : HistoryEvent} (he : Orderly s e) :
    (historyStep s e).Filed := by
  cases e with
  | purge call startedAt locked => exact filed_purge h he
  | aggregate => exact filed_aggregate h
  | _ => exact filed_of_same_windows h rfl rfl he.1 he.2

end OrderlySteps

/-- In an orderly history no aggregation loses a day's cost, whatever was purged and edited
before it. -/
theorem orderly_historyKept {workloads : Workloads} {capabilities : Capabilities}
    {providers : Providers} {events : List HistoryEvent} (hstored : workloads.CostStored)
    (hjoined : (CostHistory.start workloads capabilities providers).AllJoined)
    (hevents : ∀ e ∈ events, CostEventStored e)
    (horderly : Along historyStep Orderly (.start workloads capabilities providers) events) :
    Along historyStep HistoryKept (.start workloads capabilities providers) events := by
  have hfiled : (CostHistory.start workloads capabilities providers).Filed := by
    refine ⟨hjoined, fun day => ?_⟩
    simp [CostHistory.start, CostDaily.left, Table.empty, sumWhere]
  refine historyKept_of_leftover (sound_start capabilities providers hstored) hevents ?_
  exact along_of_invariant (fun s e h he => ⟨filed_step h he, h.leftover e⟩) hfiled horderly

def rolledUpAndPurged : List HistoryEvent :=
  [.editProvider "prov" .podLease, .aggregate,
    .purge purgeCall (2 * microsPerDay) (fun _ => false), .aggregate]

theorem rolledUpAndPurged_kept :
    Along historyStep HistoryKept
      (.start (oneWorkload .completed) oneCapability oneProvider) rolledUpAndPurged := by
  refine orderly_historyKept (oneWorkload_costStored .completed) ?_ ?_ ?_
  · unfold CostHistory.AllJoined
    decide +kernel
  · intro e he
    simp only [rolledUpAndPurged, List.mem_cons, List.not_mem_nil, or_false] at he
    rcases he with rfl | rfl | rfl | rfl <;> trivial
  · refine ⟨⟨?_, fun _ => .inr rfl⟩, trivial, ?_, trivial, trivial⟩
    · unfold CostHistory.AllJoined
      decide +kernel
    · unfold Orderly
      decide +kernel

end Pitwall
