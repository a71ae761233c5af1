import Mathlib.Algebra.Order.Ring.Rat
import Mathlib.Data.Prod.Lex
import Mathlib.Data.String.Basic
import Pitwall.Core.Text
import Pitwall.Cost.CircuitBreaker
import Pitwall.Cost.Simulator
import Pitwall.Library.Machine
import Pitwall.Library.Sorting
set_option autoImplicit false

/-!
`AutopilotController`: a run decides one action after the other. The policy evaluator, the
simulator and the executor are what the controller is given.
-/

namespace Pitwall.Autopilot
open Machine

inductive AutopilotMode where
  | shadow | apply
  deriving DecidableEq

inductive AutopilotActionKind where
  | setWarmCapacity | markProviderUnhealthy | reserveCapacity | adjustProviderPriority
  deriving DecidableEq

def AutopilotActionKind.value : AutopilotActionKind → String
  | .setWarmCapacity => "set_warm_capacity"
  | .markProviderUnhealthy => "mark_provider_unhealthy"
  | .reserveCapacity => "reserve_capacity"
  | .adjustProviderPriority => "adjust_provider_priority"

structure AutopilotHardLimits where
  maxActionsPerRun : Nat
  maxReservedUsdPerAction : Option UsdAmount
  maxReservedUsdPerRun : Option UsdAmount
  maxProjectedSpendUsd : Option UsdAmount

structure AutopilotSignal (W : Type) where
  signalId : String
  source : String
  actionKind : AutopilotActionKind
  targetKind : String
  targetId : String
  reason : String
  priority : Int
  confidence : ℚ
  params : JsonObject
  policyProvider : Option JsonObject
  policyWorkloads : List JsonObject
  policyCapability : Option JsonObject
  simulationWorkloads : List W

structure AutopilotAction (W : Type) extends AutopilotSignal W where
  actionId : String

/-- `AutopilotAction.from_signal`. -/
def AutopilotAction.fromSignal {W : Type} (signal : AutopilotSignal W) : AutopilotAction W :=
  { signal with actionId := "ap-" ++ signal.signalId }

/-- `_PolicySnapshot`. -/
structure PolicySnapshot where
  providers : List JsonObject
  workloads : List JsonObject
  capability : Option JsonObject

def AutopilotAction.policyProviderSnapshot {W : Type} (action : AutopilotAction W) : JsonObject :=
  match action.policyProvider with
  | some provider => provider
  | none =>
      [("id", .str action.targetId), ("provider_type", .str action.actionKind.value),
        ("config", .obj [("autopilot", .obj action.params)])]

structure PolicyEvaluationResult where
  allowed : Bool
  violations : List JsonObject

/-- `decision`, which the result keeps beside `allowed`. -/
def PolicyEvaluationResult.decision (result : PolicyEvaluationResult) : String :=
  if result.allowed then "allow" else "deny"

structure ActionApplyResult where
  actionId : String
  applied : Bool
  message : String
  details : JsonObject

inductive GateDetail where
  | json (value : Json)
  | usd (value : Option ℚ)
  | count (n : Nat)
  | flag (value : Option Bool)

structure AutopilotGateResult where
  name : String
  passed : Bool
  reason : String
  details : List (String × GateDetail)

inductive AutopilotOutcome where
  | applied | shadowed | denied
  deriving DecidableEq

structure AutopilotDecision (W : Type) where
  action : AutopilotAction W
  outcome : AutopilotOutcome
  gates : List AutopilotGateResult
  simulation : Option WhatIfBatchProjection
  applyResult : Option ActionApplyResult

/-- `_SimulationEvaluation`. -/
structure SimulationEvaluation where
  passed : Bool
  reason : String
  projection : Option WhatIfBatchProjection

/-- `_HardLimitEvaluation`. -/
structure HardLimitEvaluation where
  passed : Bool
  reason : String

/-- `AutopilotController`, with the breaker decision of the run. The executor may answer each of
its calls differently. -/
structure AutopilotController (W : Type) where
  evaluatePolicies : PolicySnapshot → Except PyError PolicyEvaluationResult
  simulator : WhatIfSimulator W
  executor : Option (Nat → AutopilotAction W → Except PyError ActionApplyResult)
  mode : AutopilotMode
  limits : AutopilotHardLimits
  breakerDecision : Option CircuitBreakerDecision

section Gates

def policyGate (result : PolicyEvaluationResult) : AutopilotGateResult where
  name := "policy"
  passed := result.allowed
  reason := if result.allowed then "policy allowed action" else "policy denied action"
  details := [("decision", .json (.str result.decision)),
    ("violations", .json (.arr (result.violations.map .obj)))]

def projectionDetails (projection : WhatIfBatchProjection) : List (String × GateDetail) :=
  [("projected_spend_usd", .usd projection.projectedSpendUsd.value),
    ("total_reserved_usd", .usd projection.totalReservedUsd.value),
    ("would_exceed_budget", .flag projection.wouldExceedBudget)]

def simulationGate (evaluation : SimulationEvaluation) : AutopilotGateResult :=
  match evaluation.passed, evaluation.projection with
  | false, none => ⟨"simulation", false, evaluation.reason, []⟩
  | false, some projection =>
      ⟨"simulation", false, evaluation.reason, projectionDetails projection⟩
  | true, none => ⟨"simulation", false, "simulation result missing", []⟩
  | true, some projection => ⟨"simulation", true, evaluation.reason, projectionDetails projection⟩

def breakerActionText : BreakerAction → String
  | .allow => "allow"
  | .downgrade => "downgrade"
  | .block => "block"

def breakerStateText : CircuitBreakerState → String
  | .closed => "closed"
  | .opened => "open"
  | .halfOpen => "half-open"

def breakerDetails (decision : CircuitBreakerDecision) : List (String × GateDetail) :=
  [("action", .json (.str (breakerActionText decision.action))),
    ("headroom_pct", .usd decision.headroomPct), ("headroom_usd", .usd decision.headroomUsd),
    ("runway_hours", .usd decision.runwayHours),
    ("state", .json (.str (breakerStateText decision.state)))]

/-- `_breaker_gate`. The reason of a gate must not be blank. -/
def breakerGate : Option CircuitBreakerDecision → Except PyError AutopilotGateResult
  | none => .ok ⟨"circuit_breaker", true, "no breaker decision supplied", []⟩
  | some decision =>
      match decision.action with
      | .allow =>
          if strip decision.reason = "" then .error ⟨"ValueError", "reason must be non-empty"⟩
          else .ok ⟨"circuit_breaker", true, decision.reason, breakerDetails decision⟩
      | action => .ok ⟨"circuit_breaker", false,
          "breaker requested " ++ breakerActionText action ++ ": " ++ decision.reason,
          breakerDetails decision⟩

end Gates

section Evaluations
variable {W : Type} (c : AutopilotController W)

/-- `_evaluate_policy`. -/
def evaluatePolicy (action : AutopilotAction W) : Except PyError PolicyEvaluationResult :=
  c.evaluatePolicies ⟨[action.policyProviderSnapshot], action.policyWorkloads,
    action.policyCapability⟩

/-- `except ValueError`. -/
def isValueError (exc : PyError) : Bool := exc.type ∈ ["ValueError", "ValidationError"]

/-- `_simulate`. -/
def simulate (action : AutopilotAction W) : Except PyError SimulationEvaluation :=
  if action.simulationWorkloads.isEmpty then
    .ok ⟨false, "action has no simulation workload", none⟩
  else
    match c.simulator.simulateWorkloads action.simulationWorkloads with
    | .error exc =>
        if isValueError exc then .ok ⟨false, "simulation failed: " ++ exc.message, none⟩
        else .error exc
    | .ok projection =>
        if projection.wouldExceedBudget = some true then
          .ok ⟨false, "simulation would exceed budget", some projection⟩
        else .ok ⟨true, "simulation passed", some projection⟩

/-- `value > limit`, of a limit that may be missing. -/
def exceeds (value : ℚ) : Option UsdAmount → Bool
  | none => false
  | some limit => decide (limit.value < value)

/-- `_evaluate_hard_limits`; the run total is added up only where it is limited. -/
def evaluateHardLimits (limits : AutopilotHardLimits) (simulation : WhatIfBatchProjection)
    (appliedCount : Nat) (acceptedReservedUsd : ℚ) : Except PyError HardLimitEvaluation := do
  let reserved := simulation.totalReservedUsd.value
  if limits.maxActionsPerRun ≤ appliedCount then
    return ⟨false, "max actions per run reached"⟩
  if exceeds reserved limits.maxReservedUsdPerAction then
    return ⟨false, "action reserved cost exceeds hard limit"⟩
  if limits.maxReservedUsdPerRun.isSome then
    let total ← contextual (acceptedReservedUsd + reserved)
    if exceeds total limits.maxReservedUsdPerRun then
      return ⟨false, "run reserved cost exceeds hard limit"⟩
  if exceeds simulation.projectedSpendUsd.value limits.maxProjectedSpendUsd then
    return ⟨false, "projected spend exceeds hard limit"⟩
  return ⟨true, "hard limits passed"⟩

/-- What `_decide` has come to before it calls the executor. -/
inductive Gated (W : Type) where
  | decided (decision : AutopilotDecision W)
  | cleared (gates : List AutopilotGateResult) (simulation : WhatIfBatchProjection)
      (executor : Nat → AutopilotAction W → Except PyError ActionApplyResult)

/-- `_decide`, up to the call of the executor. -/
def gate (action : AutopilotAction W) (appliedCount : Nat) (acceptedReservedUsd : ℚ) :
    Except PyError (Gated W) := do
  let policyResult ← evaluatePolicy c action
  let gates := [policyGate policyResult]
  if !policyResult.allowed then
    return .decided ⟨action, .denied, gates, none, none⟩
  let simulation ← simulate c action
  let gates := gates ++ [simulationGate simulation]
  match simulation.passed, simulation.projection with
  | true, some projection => do
      let limit ← evaluateHardLimits c.limits projection appliedCount acceptedReservedUsd
      let gates := gates ++ [⟨"hard_limits", limit.passed, limit.reason,
        [("accepted_reserved_usd", .usd acceptedReservedUsd), ("applied_count", .count appliedCount),
          ("reserved_usd", .usd projection.totalReservedUsd.value)]⟩]
      if !limit.passed then
        return .decided ⟨action, .denied, gates, some projection, none⟩
      let breaker ← breakerGate c.breakerDecision
      let gates := gates ++ [breaker]
      if !breaker.passed then
        return .decided ⟨action, .denied, gates, some projection, none⟩
      match c.mode, c.executor with
      | .shadow, _ =>
          return .decided ⟨action, .shadowed,
            gates ++ [⟨"mode", false, "shadow mode; apply skipped", []⟩], some projection, none⟩
      | .apply, none =>
          return .decided ⟨action, .denied,
            gates ++ [⟨"executor", false, "apply mode requires an executor", []⟩],
            some projection, none⟩
      | .apply, some executor => return .cleared gates projection executor
  | _, _ => return .decided ⟨action, .denied, gates, none, none⟩

end Evaluations

structure ExecutorCall (W : Type) where
  action : AutopilotAction W
  simulation : WhatIfBatchProjection
  appliedCount : Nat
  acceptedReservedUsd : ℚ

/-- The variables of `run`, the calls that the executor has had, and what the run has raised. -/
structure RunState (W : Type) where
  decisions : List (AutopilotDecision W)
  appliedCount : Nat
  acceptedReservedUsd : ℚ
  calls : List (ExecutorCall W)
  raised : Option PyError

namespace RunState
variable {W : Type}

def start : RunState W := ⟨[], 0, 0, [], none⟩

def fail (s : RunState W) (exc : PyError) : RunState W := { s with raised := some exc }

def record (s : RunState W) (decision : AutopilotDecision W) : RunState W :=
  { s with decisions := s.decisions ++ [decision] }

def applyDecision (action : AutopilotAction W) (gates : List AutopilotGateResult)
    (simulation : WhatIfBatchProjection) (result : ActionApplyResult) : AutopilotDecision W where
  action := action
  outcome := if result.applied then .applied else .denied
  gates := gates ++ [⟨"executor", result.applied, result.message,
    result.details.map fun entry => (entry.1, .json entry.2)⟩]
  simulation := some simulation
  applyResult := some result

def accept (s : RunState W) (reserved : UsdAmount) : RunState W :=
  match contextual (s.acceptedReservedUsd + reserved.value) with
  | .error exc => { s with appliedCount := s.appliedCount + 1 }.fail exc
  | .ok total => { s with appliedCount := s.appliedCount + 1, acceptedReservedUsd := total }

/-- One round of `run`. -/
def step (c : AutopilotController W) (s : RunState W) (action : AutopilotAction W) : RunState W :=
  match s.raised with
  | some _ => s
  | none =>
      match gate c action s.appliedCount s.acceptedReservedUsd with
      | .error exc => s.fail exc
      | .ok (.decided decision) => s.record decision
      | .ok (.cleared gates simulation executor) =>
          let called : RunState W := { s with
            calls := s.calls ++ [⟨action, simulation, s.appliedCount, s.acceptedReservedUsd⟩] }
          match executor s.calls.length action with
          | .error exc => called.fail exc
          | .ok result =>
              let recorded := called.record (applyDecision action gates simulation result)
              if result.applied then recorded.accept simulation.totalReservedUsd else recorded

end RunState

def AutopilotSignal.sortKey {W : Type} (signal : AutopilotSignal W) :
    Int ×ₗ String ×ₗ String ×ₗ String ×ₗ String :=
  toLex (signal.priority, toLex (signal.source, toLex (signal.signalId,
    toLex (signal.targetKind, signal.targetId))))

/-- `_collect_signals`; a `now` without a timezone is `none`. -/
def collectSignals {W : Type} (now : Option Instant) (signals : List (AutopilotSignal W))
    (sources : List (Instant → Except PyError (List (AutopilotSignal W)))) :
    Except PyError (List (AutopilotSignal W)) :=
  match now with
  | none => .error ⟨"ValueError", "now must include timezone information"⟩
  | some now => do
      let collected ← sources.mapM fun source => source now
      return sortedBy (fun a b => decide (a.sortKey < b.sortKey)) (signals ++ collected.flatten)

/-- `AutopilotController.run`, whose result holds the decisions unless it raises. -/
def AutopilotController.run {W : Type} (c : AutopilotController W) (now : Option Instant)
    (signals : List (AutopilotSignal W))
    (sources : List (Instant → Except PyError (List (AutopilotSignal W)))) : RunState W :=
  match collectSignals now signals sources with
  | .error exc => RunState.start.fail exc
  | .ok collected => Machine.run (RunState.step c) .start (collected.map AutopilotAction.fromSignal)

end Pitwall.Autopilot
