import Pitwall.Providers.Operations
import Pitwall.Routing.Arbitrage
import Pitwall.Cost.BudgetGate
set_option autoImplicit false

/-!
`execute_spot_failover` over any provider plugins: inspect the source, take a checkpoint, provision
the best on-demand target, resume there, and clean up where that fails.
-/

namespace Pitwall.Routing.Failover
open Providers (OperationContext ProviderRecord ProvisionResult StatusResult StatusText
  containsText)

inductive Outcome (α : Type) where
  | returned (value : α)
  | raised (exc : PyError)
  | pending

namespace Outcome

def ofExcept {α : Type} : Except PyError α → Outcome α
  | .ok value => .returned value
  | .error exc => .raised exc

def andThen {W α β : Type} (x : Outcome α × W) (next : α → W → Outcome β × W) : Outcome β × W :=
  match x with
  | (.returned value, w) => next value w
  | (.raised exc, w) => (.raised exc, w)
  | (.pending, w) => (.pending, w)

end Outcome

section Plugins

structure StatusRequest where
  context : OperationContext
  record : ProviderRecord
  credentials : Json
  externalId : String

structure ProvisionRequest where
  context : OperationContext
  capabilityId : String
  record : ProviderRecord
  credentials : Json
  requestId : Option String
  extraEnv : Option JsonObject
  payload : JsonObject
  budgetGate : Option BudgetGate
  idempotencyKey : Option String
  dryRun : Bool

structure ReconcileRequest where
  context : OperationContext
  record : ProviderRecord
  credentials : Json
  externalIds : List String

structure TeardownRequest where
  context : OperationContext
  record : ProviderRecord
  credentials : Json
  leaseId : String
  reason : Option String
  terminalState : LeaseState

/-- The protocol `Provider`, over the state `W` of whatever the plugins act on. What `reconcile` and
`teardown` return is not read here. -/
structure Plugin (W : Type) where
  /-- `credential_schema.model_validate`: the fields that fail, or the credentials. -/
  validate : Json → Except (List String) Json
  status : StatusRequest → W → Outcome StatusResult × W
  provision : ProvisionRequest → W → Outcome ProvisionResult × W
  reconcile : ReconcileRequest → W → Outcome Unit × W
  teardown : TeardownRequest → W → Outcome Unit × W

abbrev ProviderRegistry (W : Type) := List (String × Plugin W)

variable {W : Type} (text : StatusText)

/-- `lookup`. -/
def ProviderRegistry.lookup (registry : ProviderRegistry W) (providerId : String) :
    Except PyError (Plugin W) :=
  match List.lookup providerId registry with
  | some plugin => .ok plugin
  | none =>
      .error ⟨"ProviderNotRegisteredError", s!"provider {text.repr providerId} is not registered"⟩

/-- `CredentialValidationError`. -/
def credentialValidationError (providerId : String) (fields : List String) : PyError :=
  let normalized := fields.reverse.dedup.reverse
  let fieldList := if normalized = [] then "<model>" else ", ".intercalate normalized
  ⟨"CredentialValidationError", s!"credentials for provider {text.repr providerId} " ++
    s!"failed validation for fields: {fieldList}"⟩

/-- `lookup` and `validate_credentials`, as the failover calls them. -/
def ProviderRegistry.plugin (registry : ProviderRegistry W) (providerId : String)
    (credentials : Json) : Except PyError (Plugin W × Json) := do
  let plugin ← ProviderRegistry.lookup text registry providerId
  match plugin.validate credentials with
  | .ok credentials => pure (plugin, credentials)
  | .error fields => .error (credentialValidationError text providerId fields)

end Plugins

section Requests

/-- A text that `_validate_non_empty` accepts. -/
def IsName (value : String) : Prop := strip value ≠ "" ∧ value = strip value

inductive CapacityMarket where
  | spot | preemptible | onDemand
  deriving DecidableEq

structure Source where
  providerPluginId : String
  record : ProviderRecord
  credentials : Json
  externalId : String
  leaseId : Option String
  market : CapacityMarket
  plugin_named : IsName providerPluginId
  external_named : IsName externalId

structure Checkpoint where
  token : String
  state : JsonObject
  capturedAt : Option Instant
  token_named : IsName token

structure CheckpointRequest where
  context : OperationContext
  source : Source
  status : StatusResult

structure Target where
  providerPluginId : String
  record : ProviderRecord
  credentials : Json
  gpu : String
  price : DecimalNumber
  latencyMs : DecimalNumber
  market : CapacityMarket
  provisionPayload : JsonObject
  extraEnv : Option JsonObject
  plugin_named : IsName providerPluginId
  gpu_named : IsName gpu

structure TargetSelection where
  target : Target
  score : ArbitrageScore
  rank : Nat

structure ResumeRequest where
  context : OperationContext
  source : Source
  status : StatusResult
  checkpoint : Checkpoint
  target : Target
  selection : TargetSelection
  provisionResult : ProvisionResult

/-- `FailoverRequest`. The two hooks are the application's: they do what they like to the state. -/
structure Request (W ρ : Type) where
  context : OperationContext
  registry : ProviderRegistry W
  capabilityId : String
  source : Source
  targets : List Target
  checkpoint : CheckpointRequest → W → Outcome Checkpoint × W
  resume : ResumeRequest → W → Outcome ρ × W
  lambdaWeight : DecimalNumber
  requestId : Option String
  budgetGate : Option BudgetGate
  idempotencyKey : Option String
  dryRun : Bool

structure Result (ρ : Type) where
  preempted : Bool
  resumed : Bool
  status : StatusResult
  checkpoint : Option Checkpoint
  target : Option Target
  selection : Option TargetSelection
  provisionResult : Option ProvisionResult
  resumeResult : Option ρ

end Requests

section Preemption
variable (text : StatusText)

def preemptionTextFields : List String :=
  ["actual_status", "cur_state", "failure_reason", "intended_status", "lifecycle_state",
    "next_state", "reason", "state", "status", "status_message", "status_msg"]

/-- `_truthy`. -/
def truthy : Json → Bool
  | .bool b => b
  | .str s => text.lower (strip s) ∈ ["1", "true", "yes", "on"]
  | _ => false

/-- `_preemption_text_values`. -/
def preemptionTextValues (raw : JsonObject) : List String :=
  (preemptionTextFields.map fun field => Providers.normalizedText text (raw.get field)).filter
    (· ≠ "")

/-- `is_preempted_status`. -/
def isPreemptedStatus (status : StatusResult) : Bool :=
  if truthy text (status.raw.get "pitwall_preempted") then true
  else if status.status ≠ .failed then false
  else
    (preemptionTextValues text status.raw).any fun value =>
      Providers.preemptionMarkers.any fun marker => containsText value marker

end Preemption

section Targets

def arbitrageCall (lambdaWeight : DecimalNumber) : ArbitrageCall where
  lambdaWeight := lambdaWeight
  carbonWeight := .finite 0
  carbonSource := none
  costWeight := .finite 1

/-- `_selection_for_target`. -/
def selectionForTarget (lambdaWeight : DecimalNumber) (target : Target) :
    Except PyError TargetSelection := do
  let score ← scoreArbitrageOption (arbitrageCall lambdaWeight)
    ⟨target.record.id, target.gpu, target.price, target.latencyMs, none⟩
  pure ⟨target, score, 1⟩

/-- `_selection_sort_key`. -/
def TargetSelection.sortKey (s : TargetSelection) : ℚ ×ₗ ℚ ×ₗ ℚ ×ₗ String ×ₗ String :=
  toLex (s.score.objective, toLex (s.score.costComponent, toLex (s.score.option.latencyMs,
    toLex (s.score.option.providerId, s.score.option.gpu))))

def selectionLt (a b : TargetSelection) : Bool := decide (a.sortKey < b.sortKey)

/-- `sort_on_demand_failover_targets`. -/
def sortOnDemandTargets (targets : List Target) (lambdaWeight : DecimalNumber) :
    Except PyError (List TargetSelection) := do
  let onDemand := targets.filter fun target => target.market = .onDemand
  let selections ← onDemand.mapM (selectionForTarget lambdaWeight)
  pure ((sortedBy selectionLt selections).mapIdx fun index selection =>
    { selection with rank := index + 1 })

/-- `select_on_demand_failover_target`. -/
def selectOnDemandTarget (targets : List Target) (lambdaWeight : DecimalNumber) :
    Except PyError TargetSelection := do
  match ← sortOnDemandTargets targets lambdaWeight with
  | [] => .error (valueError "targets must include at least one on-demand target")
  | selection :: _ => pure selection

end Targets

section Failover
variable {W ρ : Type} (text : StatusText)

/-- A target that has been provisioned, with what the hook is called with. -/
structure Provisioned (W : Type) where
  plugin : Plugin W
  credentials : Json
  resumeRequest : ResumeRequest

inductive Prepared (W : Type) where
  | notPreempted (status : StatusResult)
  | provisioned (p : Provisioned W)

/-- `execute_spot_failover`, from the checkpoint on to the provisioned target. -/
def provisionTarget (request : Request W ρ) (status : StatusResult) (checkpoint : Checkpoint)
    (w : W) : Outcome (Provisioned W) × W :=
  match selectOnDemandTarget request.targets request.lambdaWeight with
  | .error exc => (.raised exc, w)
  | .ok selection =>
    let target := selection.target
    match ProviderRegistry.plugin text request.registry target.providerPluginId
        target.credentials with
    | .error exc => (.raised exc, w)
    | .ok (plugin, credentials) =>
      Outcome.andThen
        (plugin.provision
          { context := request.context
            capabilityId := request.capabilityId
            record := target.record
            credentials := credentials
            requestId := request.requestId
            extraEnv := target.extraEnv
            payload := target.provisionPayload
            budgetGate := request.budgetGate
            idempotencyKey := request.idempotencyKey
            dryRun := request.dryRun } w)
        fun provisionResult w =>
          (.returned ⟨plugin, credentials,
            { context := request.context
              source := request.source
              status := status
              checkpoint := checkpoint
              target := target
              selection := selection
              provisionResult := provisionResult }⟩, w)

/-- `execute_spot_failover`, up to the resume hook. -/
def prepareResume (request : Request W ρ) (w : W) : Outcome (Prepared W) × W :=
  let source := request.source
  match ProviderRegistry.plugin text request.registry source.providerPluginId
      source.credentials with
  | .error exc => (.raised exc, w)
  | .ok (plugin, credentials) =>
    Outcome.andThen
      (plugin.status ⟨request.context, source.record, credentials, source.externalId⟩ w)
      fun status w =>
        if !isPreemptedStatus text status then (.returned (.notPreempted status), w)
        else
          Outcome.andThen (request.checkpoint ⟨request.context, source, status⟩ w)
            fun checkpoint w =>
              Outcome.andThen (provisionTarget text request status checkpoint w) fun p w =>
                (.returned (.provisioned p), w)

/-- `_cleanup_failed_resume`. -/
def cleanupFailedResume (p : Provisioned W) (w : W) : Outcome Unit × W :=
  let r := p.resumeRequest
  match r.provisionResult.leaseId, r.provisionResult.externalId with
  | some leaseId, _ =>
      p.plugin.teardown
        { context := r.context
          record := r.target.record
          credentials := p.credentials
          leaseId := leaseId
          reason := some "failover_resume_failed"
          terminalState := .stopped } w
  | none, some externalId =>
      p.plugin.reconcile
        { context := r.context
          record := r.target.record
          credentials := p.credentials
          externalIds := [externalId] } w
  | none, none => (.returned (), w)

/-- The `except BaseException` around the hook: what it raises comes out again behind the cleanup,
unless the cleanup raises itself. -/
def resumeTarget (request : Request W ρ) (p : Provisioned W) (w : W) : Outcome ρ × W :=
  match request.resume p.resumeRequest w with
  | (.raised exc, w) =>
      Outcome.andThen (cleanupFailedResume p w) fun _ w => (.raised exc, w)
  | result => result

/-- `execute_spot_failover`. -/
def executeSpotFailover (request : Request W ρ) (w : W) : Outcome (Result ρ) × W :=
  Outcome.andThen (prepareResume text request w) fun prepared w =>
    match prepared with
    | .notPreempted status =>
        (.returned
          { preempted := false
            resumed := false
            status := status
            checkpoint := none
            target := none
            selection := none
            provisionResult := none
            resumeResult := none }, w)
    | .provisioned p =>
        Outcome.andThen (resumeTarget request p w) fun resumeResult w =>
          let r := p.resumeRequest
          (.returned
            { preempted := true
              resumed := true
              status := r.status
              checkpoint := some r.checkpoint
              target := some r.target
              selection := some r.selection
              provisionResult := some r.provisionResult
              resumeResult := some resumeResult }, w)

end Failover

section Runs
variable {W ρ : Type} {text : StatusText} {request : Request W ρ}

namespace Outcome

theorem andThen_eq_returned {α β : Type} {x : Outcome α × W} {next : α → W → Outcome β × W}
    {b : β} {w' : W} (h : andThen x next = (.returned b, w')) :
    ∃ a w, x = (.returned a, w) ∧ next a w = (.returned b, w') := by
  obtain ⟨outcome, w⟩ := x
  cases outcome with
  | returned a => exact ⟨a, w, rfl, h⟩
  | raised exc => cases h
  | pending => cases h

end Outcome

theorem plugin_registered {registry : ProviderRegistry W} {id : String} {credentials c : Json}
    {plugin : Plugin W}
    (h : ProviderRegistry.plugin text registry id credentials = .ok (plugin, c)) :
    List.lookup id registry = some plugin := by
  simp only [ProviderRegistry.plugin, Except.bind_eq_ok_iff] at h
  obtain ⟨found, hfound, h⟩ := h
  have hplugin : found = plugin := by
    split at h
    · exact congrArg Prod.fst (Except.pure_eq_ok_iff.mp h)
    · cases h
  unfold ProviderRegistry.lookup at hfound
  split at hfound
  · rename_i hlookup
    rw [hlookup, ← hplugin, Except.ok.inj hfound]
  · cases hfound

theorem prepareResume_provisioned {p : Provisioned W} {w w' : W}
    (h : prepareResume text request w = (.returned (.provisioned p), w')) :
    p.resumeRequest.context = request.context ∧
      List.lookup p.resumeRequest.target.providerPluginId request.registry = some p.plugin ∧
      ∃ call w₀, p.plugin.provision call w₀ = (.returned p.resumeRequest.provisionResult, w') ∧
        call.context = request.context ∧ call.dryRun = request.dryRun := by
  unfold prepareResume at h
  dsimp only at h
  split at h
  · cases h
  · obtain ⟨status, w₁, -, h⟩ := Outcome.andThen_eq_returned h
    split at h
    · cases h
    · obtain ⟨checkpoint, w₂, -, h⟩ := Outcome.andThen_eq_returned h
      obtain ⟨p', w₃, hp, h⟩ := Outcome.andThen_eq_returned h
      cases h
      unfold provisionTarget at hp
      split at hp
      · cases hp
      · dsimp only at hp
        split at hp
        · cases hp
        · rename_i hplugin
          obtain ⟨result, w₄, hresult, hp⟩ := Outcome.andThen_eq_returned hp
          cases hp
          exact ⟨rfl, plugin_registered hplugin, _, _, hresult, rfl, rfl⟩

theorem execute_of_failed_resume {p : Provisioned W} {w w₁ w₂ w₃ : W} {exc : PyError}
    (hprepared : prepareResume text request w = (.returned (.provisioned p), w₁))
    (hresume : request.resume p.resumeRequest w₁ = (.raised exc, w₂))
    (hcleanup : cleanupFailedResume p w₂ = (.returned (), w₃)) :
    executeSpotFailover text request w = (.raised exc, w₃) := by
  have hresumed : resumeTarget request p w₁ = (.raised exc, w₃) := by
    simp only [resumeTarget, hresume, hcleanup, Outcome.andThen]
  simp only [executeSpotFailover, hprepared, hresumed, Outcome.andThen]

end Runs

end Pitwall.Routing.Failover
