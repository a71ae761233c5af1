import Mathlib.Data.Prod.Lex
import Mathlib.Data.String.Basic
import Pitwall.Core.Text
import Pitwall.Cost.CostDaily
set_option autoImplicit false

/-!
The billing truth-up of `cost_daily`. Amounts are exact: one that `quantize` cannot hold in
28 digits does not fit the column either.
-/

namespace Pitwall

/-- `_usd`: `quantize` to six digits, half away from zero. -/
def usd (x : ℚ) : ℚ := roundHalfAway 6 x

def nonNegativeUsd (value : ℚ) (name : String) : Except PyError ℚ :=
  if usd value < 0 then .error ⟨"ValueError", s!"{name} must be non-negative"⟩ else .ok (usd value)

def CostWindow.Stripped (k : CostWindow) : Prop :=
  (strip k.capabilityClass = k.capabilityClass ∧ k.capabilityClass ≠ "") ∧
    strip k.providerType = k.providerType ∧ k.providerType ≠ ""

instance (k : CostWindow) : Decidable k.Stripped :=
  inferInstanceAs (Decidable ((strip k.capabilityClass = k.capabilityClass ∧
    k.capabilityClass ≠ "") ∧ strip k.providerType = k.providerType ∧ k.providerType ≠ ""))

abbrev CostReconcileWindow := { window : CostWindow // window.Stripped }

def CostWindow.strip (k : CostWindow) : CostWindow :=
  ⟨k.day, Pitwall.strip k.capabilityClass, Pitwall.strip k.providerType⟩

/-- `CostReconcileWindow.__post_init__`. -/
def costReconcileWindow (k : CostWindow) : Except PyError CostReconcileWindow :=
  if hclass : strip k.capabilityClass = "" then
    .error ⟨"ValueError", "capability_class must be non-empty"⟩
  else if htype : strip k.providerType = "" then
    .error ⟨"ValueError", "provider_type must be non-empty"⟩
  else .ok ⟨k.strip, ⟨strip_strip _, hclass⟩, strip_strip _, htype⟩

structure RecordedCostWindow where
  window : CostReconcileWindow
  recordedUsd : ℚ
  workloadCount : Int
  isMultiple : IsMultiple 6 recordedUsd
  nonneg : 0 ≤ recordedUsd
  count_nonneg : 0 ≤ workloadCount

structure ProviderActualCostWindow where
  window : CostReconcileWindow
  actualUsd : ℚ
  source : String
  isMultiple : IsMultiple 6 actualUsd
  nonneg : 0 ≤ actualUsd

structure CostReconcileAdjustment where
  window : CostReconcileWindow
  recordedUsd : ℚ
  providerActualUsd : ℚ
  adjustmentUsd : ℚ
  sources : List String

structure CostReconcilePlan where
  adjustments : List CostReconcileAdjustment
  windowCount : Nat

/-- One entry of the dict that `_aggregate_recorded` or `_aggregate_actuals` builds. -/
def aggregate {α : Type} (window : α → CostReconcileWindow) (amount : α → ℚ) (items : List α)
    (k : CostReconcileWindow) : ℚ :=
  ((items.filter fun i => window i = k).map amount).foldl (fun total x => usd (total + x)) 0

def aggregateRecorded (recorded : List RecordedCostWindow) : CostReconcileWindow → ℚ :=
  aggregate RecordedCostWindow.window RecordedCostWindow.recordedUsd recorded

def aggregateActuals (actuals : List ProviderActualCostWindow) : CostReconcileWindow → ℚ :=
  aggregate ProviderActualCostWindow.window ProviderActualCostWindow.actualUsd actuals

def sourcesOf (actuals : List ProviderActualCostWindow) (k : CostReconcileWindow) : List String :=
  sortedSet id ((actuals.filter fun a => a.window = k).map ProviderActualCostWindow.source)

def windowOrder (k : CostReconcileWindow) : Int ×ₗ (String ×ₗ String) :=
  toLex (k.1.day, toLex (k.1.capabilityClass, k.1.providerType))

/-- `sorted(set(recorded_by_window) | set(actual_by_window))`. -/
def reconciledWindows (recorded : List RecordedCostWindow)
    (actuals : List ProviderActualCostWindow) : List CostReconcileWindow :=
  sortedSet windowOrder (recorded.map RecordedCostWindow.window ++
    actuals.map ProviderActualCostWindow.window)

def adjustmentOf (recorded : List RecordedCostWindow) (actuals : List ProviderActualCostWindow)
    (tolerance : ℚ) (k : CostReconcileWindow) : Option CostReconcileAdjustment :=
  let recordedUsd := aggregateRecorded recorded k
  let providerActualUsd := aggregateActuals actuals k
  let adjustmentUsd := usd (providerActualUsd - recordedUsd)
  if |adjustmentUsd| ≤ tolerance then none
  else some ⟨k, recordedUsd, providerActualUsd, adjustmentUsd, sourcesOf actuals k⟩

def reconcileCost (recorded : List RecordedCostWindow) (actuals : List ProviderActualCostWindow)
    (toleranceUsd : ℚ) : Except PyError CostReconcilePlan :=
  match nonNegativeUsd toleranceUsd "tolerance_usd" with
  | .error e => .error e
  | .ok tolerance =>
    let windows := reconciledWindows recorded actuals
    .ok ⟨windows.filterMap (adjustmentOf recorded actuals tolerance), windows.length⟩

theorem isMultiple_usd (x : ℚ) : IsMultiple 6 (usd x) := isMultiple_roundHalfAway 6 x

/-- `_recorded_from_row`. -/
def recordedFromRow (row : CostDailyRow) : Except PyError RecordedCostWindow :=
  match costReconcileWindow row.window with
  | .error e => .error e
  | .ok window =>
    if hneg : usd row.costUsd < 0 then .error ⟨"ValueError", "recorded_usd must be non-negative"⟩
    else if hcount : row.workloadCount < 0 then
      .error ⟨"ValueError", "workload_count must be non-negative"⟩
    else .ok ⟨window, usd row.costUsd, row.workloadCount, isMultiple_usd _, not_lt.mp hneg,
      not_lt.mp hcount⟩

def recordedFromRows : List CostDailyRow → Except PyError (List RecordedCostWindow)
  | [] => .ok []
  | row :: rows =>
    match recordedFromRow row with
    | .error e => .error e
    | .ok item =>
      match recordedFromRows rows with
      | .error e => .error e
      | .ok items => .ok (item :: items)

/-- `day >= start_day AND day < end_day`. -/
def CostWindow.inRange (startDay endDay : Int) (k : CostWindow) : Bool :=
  decide (startDay ≤ k.day) && decide (k.day < endDay)

/-- `fetch_recorded_windows`. The `ORDER BY` decides only which of several bad rows is
reported. -/
def fetchRecordedWindows (daily : CostDaily) (startDay endDay : Int) :
    Except PyError (List RecordedCostWindow) :=
  if endDay ≤ startDay then .error ⟨"ValueError", "end_day must be after start_day"⟩
  else recordedFromRows (daily.rows.filter fun r => r.window.inRange startDay endDay)

/-- `_APPLY_ADJUSTMENT_SQL`: a window that has a row keeps its `workload_count`. -/
def applyAdjustment (daily : CostDaily) (a : CostReconcileAdjustment) : CostDaily :=
  daily.upsert ⟨a.window.1, ((daily.get a.window.1).map CostDailyRow.workloadCount).getD 0,
    roundHalfAway 6 a.providerActualUsd⟩

/-- `apply_adjustments`: one `executemany`, all or nothing. -/
def applyAdjustments (daily : CostDaily) (adjustments : List CostReconcileAdjustment) :
    Except PyError CostDaily :=
  if adjustments.all fun a => (numeric 12 6 a.providerActualUsd).isSome then
    .ok (adjustments.foldl applyAdjustment daily)
  else .error outOfRange

def truthUpCostDaily (daily : CostDaily) (startDay endDay : Int)
    (actuals : List ProviderActualCostWindow) (toleranceUsd : ℚ) :
    Except PyError (CostReconcilePlan × CostDaily) :=
  match fetchRecordedWindows daily startDay endDay with
  | .error e => .error e
  | .ok recorded =>
    match reconcileCost recorded actuals toleranceUsd with
    | .error e => .error e
    | .ok plan =>
      match applyAdjustments daily plan.adjustments with
      | .error e => .error e
      | .ok daily' => .ok (plan, daily')

end Pitwall
