import Mathlib
import Pitwall.Finops.TimeMachineSummary
import Pitwall.Routing.Replay
set_option autoImplicit false

/-!
What a time-machine report says: its totals and counts are those of its workloads, and a
scenario that changes nothing routes each workload as it was routed.
-/

namespace Pitwall.Finops
open Pricing Routing

section Reports
variable {text : FinopsText} {world : World} {decision : HistoricalRoutingDecision}
  {scenario : CounterfactualScenario} {context : PricedContext} {simulator : RouteSimulator}
  {report : TimeMachineWorkloadReport}

structure Reports (report : TimeMachineWorkloadReport) (decision : HistoricalRoutingDecision) :
    Prop where
  actual_cost : report.actualCostUsd = decision.actualCostUsd
  counterfactual_cost : report.counterfactualCostUsd = report.projection.reservedUsd
  delta : report.costDeltaUsd = report.counterfactualCostUsd.value - report.actualCostUsd.value
  routed_differently : report.routedDifferently =
    (decision.actualProviderId != report.projection.plan.selectedProviderId ||
      decision.actualFallbackChain != report.projection.plan.fallbackChain)

theorem workloadReport_ok
    (h : workloadReport text world decision scenario context simulator = .ok report) :
    projectWorkload text world decision scenario context simulator = .ok report.projection ∧
      Reports report decision := by
  obtain ⟨projection, hprojection, h⟩ := Except.bind_eq_ok_iff.mp h
  dsimp only at h
  rw [costDelta_eq, Except.bind_of_ok rfl, Except.pure_eq_ok_iff] at h
  subst h
  exact ⟨hprojection, rfl, rfl, rfl, rfl⟩

theorem workloadReport_returns {projection : RouteProjection}
    (h : projectWorkload text world decision scenario context simulator = .ok projection) :
    ∃ report, workloadReport text world decision scenario context simulator = .ok report ∧
      report.projection = projection ∧ report.actualProviderId = decision.actualProviderId ∧
      report.counterfactualProviderId = projection.plan.selectedProviderId := by
  unfold workloadReport
  rw [Except.bind_of_ok h]
  dsimp only
  rw [costDelta_eq, Except.bind_of_ok rfl]
  exact ⟨_, rfl, rfl, rfl, rfl⟩

theorem plan_of_simulate {request : RoutingRequest} {payload : EstimatePayload}
    {hints : Option Hints} {observed : Observed} {maxAttempts : Option Int}
    {backoffBaseS : Option Binary64} {projection : RouteProjection}
    (hprices : simulator.priceOverrides = [])
    (h : simulator.simulate text world request payload hints observed maxAttempts backoffBaseS =
      .ok projection) :
    ∃ capability, simulator.baseContext.capability = some capability ∧
      planRouteIn text.toPyString world request none
        ⟨some capability.toCapabilityModel, none, hints, observed,
          maxAttempts.getD simulator.maxAttempts, backoffBaseS.getD simulator.backoffBaseS⟩
        (some simulator.baseContext.planning) none (none : Option (CacheArgument Unit)) none =
          .ok projection.plan := by
  unfold RouteSimulator.simulate RouteSimulator.contextFor at h
  rw [hprices] at h
  obtain ⟨context, hcontext, h⟩ := Except.bind_eq_ok_iff.mp h
  obtain rfl := Except.ok.inj hcontext
  obtain ⟨capability, hcapability, h⟩ := Except.bind_eq_ok_iff.mp h
  dsimp only at h
  obtain ⟨plan, hplan, h⟩ := Except.bind_eq_ok_iff.mp h
  obtain ⟨costs, -, h⟩ := Except.bind_eq_ok_iff.mp h
  obtain ⟨base, -, h⟩ := Except.bind_eq_ok_iff.mp h
  obtain rfl := Except.pure_eq_ok_iff.mp h
  refine ⟨capability, ?_, hplan⟩
  unfold RouteSimulator.resolveCapability at hcapability
  cases hgiven : simulator.baseContext.capability with
  | none =>
    rw [hgiven] at hcapability
    cases hcapability
  | some given =>
    rw [hgiven] at hcapability
    rw [Except.ok.inj hcapability]

theorem simulate_returns {request : RoutingRequest} {payload : EstimatePayload}
    {hints : Option Hints} {observed : Observed} {maxAttempts : Option Int}
    {backoffBaseS : Option Binary64} {capability : PricedCapability} {plan : RoutePlan}
    {costs : List ProviderCostProjection} (hprices : simulator.priceOverrides = [])
    (hcapability : simulator.baseContext.capability = some capability)
    (hplan : planRouteIn text.toPyString world request none
      ⟨some capability.toCapabilityModel, none, hints, observed,
        maxAttempts.getD simulator.maxAttempts, backoffBaseS.getD simulator.backoffBaseS⟩
      (some simulator.baseContext.planning) none (none : Option (CacheArgument Unit)) none =
        .ok plan)
    (hcosts : attemptCosts text.toPyString plan capability payload = .ok costs)
    (hsmall : simulator.currentSpendUsd.value +
      ((costs.map ProviderCostProjection.upperBoundUsd).head?.getD .zero).value < 10 ^ 22) :
    ∃ projection, simulator.simulate text world request payload hints observed maxAttempts
        backoffBaseS = .ok projection ∧ projection.plan = plan ∧
      projection.reservedUsd =
        (costs.map ProviderCostProjection.upperBoundUsd).head?.getD .zero := by
  have hcontext : simulator.contextFor text = .ok simulator.baseContext := by
    rw [RouteSimulator.contextFor, hprices]
    rfl
  have hresolved : RouteSimulator.resolveCapability simulator.baseContext = .ok capability := by
    rw [RouteSimulator.resolveCapability, hcapability]
  have hpriced : (simulator.pricedAt costs).attemptCosts () =
      .ok (costs.map ProviderCostProjection.upperBoundUsd) := rfl
  obtain ⟨base, hbase, hreserved⟩ :=
    WhatIfSimulator.simulate_returns simulator.currentSpendUsd hpriced hsmall
  unfold RouteSimulator.simulate
  rw [Except.bind_of_ok hcontext, Except.bind_of_ok hresolved]
  dsimp only
  rw [Except.bind_of_ok hplan, Except.bind_of_ok hcosts, Except.bind_of_ok hbase]
  exact ⟨_, rfl, rfl, hreserved⟩

theorem planRouteIn_of_context {text : PyString} {world : World} {request : RoutingRequest}
    {options : PlanOptions} {context : PlanningContext} :
    planRouteIn text world request none options (some context) none
        (none : Option (CacheArgument Unit)) none =
      (do
        validatePlanOptions options.maxAttempts options.backoffBaseS
        let active ← providersForPlan none context true
        planRoute text (context.availabilitySnapshot.reader text) () request
          { options with capability := options.capability.or context.capability } context.now
          active) :=
  rfl

theorem planRouteIn_capability {text : PyString} {world : World} (world' : World)
    {request : RoutingRequest} {context : PlanningContext} {capability : CapabilityModel}
    (options : PlanOptions)
    (h : context.capability = some capability) :
    planRouteIn text world request none { options with capability := some capability }
        (some context) none (none : Option (CacheArgument Unit)) none =
      planRouteIn text world' request none { options with capability := none } (some context) none
        (none : Option (CacheArgument Unit)) none := by
  rw [planRouteIn_of_context, planRouteIn_of_context]
  simp only [h, Option.some_or, Option.none_or]

theorem providers_ne_of_plan {text : PyString} {world : World} {request : RoutingRequest}
    {options : PlanOptions} {context : PlanningContext} {plan : RoutePlan}
    (h : planRouteIn text world request none options (some context) none
      (none : Option (CacheArgument Unit)) none = .ok plan) : context.providers ≠ [] := by
  intro hempty
  rw [planRouteIn_of_context] at h
  obtain ⟨-, -, h⟩ := Except.bind_eq_ok_iff.mp h
  obtain ⟨active, hactive, -⟩ := Except.bind_eq_ok_iff.mp h
  simp [providersForPlan, hempty] at hactive

end Reports

section Identity
variable {text : FinopsText} {context : PricedContext} {scenario : CounterfactualScenario}

/-- The records are frozen, as `PlanningContext.live` and `PlanningContext.replay` make them. -/
def Frozen (providers : List ProviderLike) : Prop := ∀ p ∈ providers, p.freeze = p

theorem frozen_freezeProviderSnapshot (providers : List ProviderLike) :
    Frozen (freezeProviderSnapshot providers) := by
  intro p hp
  obtain ⟨q, -, rfl⟩ := List.mem_map.mp hp
  exact ProviderLike.freeze_freeze q

theorem Frozen.freezeProviderSnapshot_eq {providers : List ProviderLike} (h : Frozen providers) :
    freezeProviderSnapshot providers = providers :=
  (List.map_congr_left h).trans (List.map_id' providers)

theorem frozen_of_live {world : World} {now : Option (Option Instant)}
    {cache : Option AvailabilityCache} {providers : List ProviderLike}
    {capability : Option CapabilityModel} {live : PlanningContext}
    (h : PlanningContext.live world now cache providers capability = .ok live) :
    Frozen live.providers := by
  obtain ⟨t, -, rfl⟩ := Except.map_eq_ok_iff.mp h
  exact frozen_freezeProviderSnapshot providers

theorem frozen_of_replay {text : PyString} {now : Instant} {snapshot : AvailabilitySnapshot}
    {providers : List ProviderLike} {capability : Option PricedCapability}
    (h : PricedContext.replay text now snapshot providers capability = .ok context) :
    Frozen context.providers := by
  rw [PricedContext.replay_eq] at h
  obtain rfl := Except.ok.inj h
  exact frozen_freezeProviderSnapshot providers

/-- No override, removal or addition. The budget may be any. -/
structure CounterfactualScenario.Neutral (scenario : CounterfactualScenario) : Prop where
  price_overrides : scenario.priceOverrides = []
  provider_overrides : scenario.providerOverrides = []
  removed : scenario.removedProviderIds = []
  additional : scenario.additionalProviders = []
  snapshot : scenario.availabilitySnapshot = none
  entries : scenario.availabilityEntries = []
  hints : scenario.hints = none
  observed : scenario.observed = .none
  max_attempts : scenario.maxAttempts = none
  backoff : scenario.backoffBaseS = none

theorem freeze_mutableProvider (p : ProviderLike) :
    ProviderLike.freeze (.mapping (mutableProvider p)) = p.freeze := by
  cases p with
  | model p => exact congrArg ProviderLike.mapping (freezeMapping_thawMapping p.attributes)
  | mapping entries => exact congrArg ProviderLike.mapping (freezeMapping_thawMapping entries)

theorem collectProviders_ok {byId byId' : ProvidersById} {providers : List ProviderLike}
    (h : collectProviders text [] byId providers = .ok byId') :
    byId'.map Prod.snd = byId.map Prod.snd ++ providers.map mutableProvider := by
  induction providers generalizing byId with
  | nil => simp [← Except.ok.inj h]
  | cons p providers ih =>
    unfold collectProviders at h
    obtain ⟨id, -, h⟩ := Except.bind_eq_ok_iff.mp h
    rw [if_neg List.not_mem_nil] at h
    split at h
    · cases h
    · rw [ih h]
      simp

theorem contextForScenario_neutral {replayContext : PricedContext} (hneutral : scenario.Neutral)
    (h : contextForScenario text context scenario = .ok replayContext) :
    replayContext = { context with providers := freezeProviderSnapshot context.providers } := by
  obtain ⟨providers, hproviders, h⟩ := Except.bind_eq_ok_iff.mp h
  obtain ⟨snapshot, hsnapshot, h⟩ := Except.bind_eq_ok_iff.mp h
  have hsame : snapshot = context.availabilitySnapshot := by
    simp only [availabilityForScenario, hneutral.snapshot, hneutral.entries] at hsnapshot
    exact (Except.ok.inj hsnapshot).symm
  have hfrozen : providers = freezeProviderSnapshot context.providers := by
    unfold providersForScenario at hproviders
    rw [hneutral.removed, hneutral.additional, hneutral.provider_overrides, List.append_nil]
      at hproviders
    obtain ⟨byId, hbyId, hproviders⟩ := Except.bind_eq_ok_iff.mp hproviders
    have hcopies : byId.map Prod.snd = context.providers.map mutableProvider :=
      collectProviders_ok hbyId
    rw [overrideProviders, Except.bind_of_ok rfl, Except.pure_eq_ok_iff] at hproviders
    have hmapped : byId.map (fun entry => ProviderLike.mapping entry.2) =
        context.providers.map fun p => .mapping (mutableProvider p) := by
      have hrecords := congrArg (List.map ProviderLike.mapping) hcopies
      simpa only [List.map_map, Function.comp_def] using hrecords
    rw [← hproviders, hmapped, freezeProviderSnapshot, List.map_map]
    exact List.map_congr_left fun p _ => freeze_mutableProvider p
  rw [PricedContext.replay_eq] at h
  rw [← Except.ok.inj h, hsame, hfrozen,
    (frozen_freezeProviderSnapshot context.providers).freezeProviderSnapshot_eq]

end Identity

section TimeMachine
variable {text : FinopsText} {world : World} {context : PricedContext}
  {scenario : CounterfactualScenario} {decisions : List HistoricalRoutingDecision}
  {report : TimeMachineReport}

/-- A decision is that of a plan in the context, with the default options. -/
def Routed (text : FinopsText) (context : PricedContext) (decision : HistoricalRoutingDecision) :
    Prop :=
  ∃ (world : World) (plan : RoutePlan),
    planRouteIn text.toPyString world decision.request none defaultOptions
        (some context.planning) none (none : Option (CacheArgument Unit)) none = .ok plan ∧
      decision.actualProviderId = plan.selectedProviderId ∧
      decision.actualFallbackChain = plan.fallbackChain

theorem val_of_requireNonEmpty {value name : String} {checked : {s : String // s ≠ ""}}
    (h : requireNonEmpty value name = .ok checked) : checked.val = value := by
  unfold requireNonEmpty at h
  split at h
  · rw [← Except.ok.inj h]
  · cases h

theorem val_of_optionalNonEmpty {value : Option String} {name : String}
    {checked : {s : Option String // ∀ id, s = some id → id ≠ ""}}
    (h : optionalNonEmpty value name = .ok checked) : checked.val = value := by
  cases value with
  | none => rw [← Except.ok.inj h]
  | some value =>
    obtain ⟨required, hrequired, h⟩ := Except.bind_eq_ok_iff.mp h
    rw [← Except.pure_eq_ok_iff.mp h]
    exact congrArg some (val_of_requireNonEmpty hrequired)

theorem routed_of_create {workloadId : String} {request : RoutingRequest} {plan : RoutePlan}
    {cost : RawAmount} {payload : EstimatePayload} {decision : HistoricalRoutingDecision}
    (hplan : planRouteIn text.toPyString world request none defaultOptions (some context.planning)
      none (none : Option (CacheArgument Unit)) none = .ok plan)
    (h : HistoricalRoutingDecision.create workloadId request plan.selectedProviderId cost payload
      plan.fallbackChain = .ok decision) : Routed text context decision := by
  obtain ⟨workloadId, -, h⟩ := Except.bind_eq_ok_iff.mp h
  obtain ⟨actual, hactual, h⟩ := Except.bind_eq_ok_iff.mp h
  obtain ⟨cost, -, h⟩ := Except.bind_eq_ok_iff.mp h
  obtain ⟨chain, hchain, h⟩ := Except.bind_eq_ok_iff.mp h
  obtain rfl := Except.pure_eq_ok_iff.mp h
  have hselected := val_of_optionalNonEmpty hactual
  obtain ⟨values, hvalues, hchain⟩ := Except.bind_eq_ok_iff.mp hchain
  rw [Except.pure_eq_ok_iff] at hchain
  have hsame : values.map Subtype.val = plan.fallbackChain := by
    have hkept := List.map_of_mapM_eq_ok (g := id) hvalues fun _ _ _ hchecked =>
      val_of_requireNonEmpty hchecked
    rw [hkept, List.map_id]
  refine ⟨world, plan, hplan, hselected, ?_⟩
  show chain = plan.fallbackChain
  rw [← hchain, hselected]
  cases values with
  | nil =>
    -- a plan without attempts selects nobody
    have hnone : plan.attempts = [] := List.map_eq_nil_iff.mp hsame.symm
    simp [RoutePlan.selectedProviderId, RoutePlan.fallbackChain, hnone]
  | cons value values => exact hsame

theorem projection_of_neutral {decision : HistoricalRoutingDecision} {projection : RouteProjection}
    (hneutral : scenario.Neutral) (hrouted : Routed text context decision)
    (h : projectWorkload text world decision scenario context (replaySimulator context scenario) =
      .ok projection) :
    decision.actualProviderId = projection.plan.selectedProviderId ∧
      decision.actualFallbackChain = projection.plan.fallbackChain := by
  obtain ⟨world', plan, hplan, hselected, hchain⟩ := hrouted
  have hne : context.providers ≠ [] := providers_ne_of_plan hplan
  have hproviders : ¬ context.providers.isEmpty := by simpa using hne
  rw [projectWorkload, if_neg hproviders] at h
  obtain ⟨capability, hcapability, hreplayed⟩ := plan_of_simulate hneutral.price_overrides h
  have hgiven : context.planning.capability = some capability.toCapabilityModel :=
    congrArg (Option.map PricedCapability.toCapabilityModel) hcapability
  rw [hneutral.hints, hneutral.observed, hneutral.max_attempts, hneutral.backoff] at hreplayed
  have hsame : planRouteIn text.toPyString world decision.request none
      { defaultOptions with capability := some capability.toCapabilityModel }
      (some context.planning) none (none : Option (CacheArgument Unit)) none =
        .ok projection.plan := by
    rw [replaySimulator, hneutral.max_attempts, hneutral.backoff] at hreplayed
    exact hreplayed
  rw [planRouteIn_capability world' defaultOptions hgiven] at hsame
  have hplans : plan = projection.plan := Except.ok.inj (hplan.symm.trans hsame)
  rw [hselected, hchain, hplans]
  exact ⟨rfl, rfl⟩

/-- A report over frozen records finds no other route for a decision of the planner under a
scenario that changes nothing. The totals, deltas and counts of any report are those of its
workloads. -/
theorem time_machine_report
    (h : replay text world context scenario decisions = .ok report) :
    (scenario.Neutral → Frozen context.providers →
      (∀ decision ∈ decisions, Routed text context decision) →
        ∀ workload ∈ report.workloads, workload.routedDifferently = false) ∧
    List.Forall₂ Reports report.workloads decisions ∧
    Summarizes report.summary report.workloads := by
  obtain ⟨replayContext, hcontext, h⟩ := Except.bind_eq_ok_iff.mp h
  obtain ⟨workloads, hworkloads, h⟩ := Except.bind_eq_ok_iff.mp h
  obtain ⟨result, hresult, h⟩ := Except.bind_eq_ok_iff.mp h
  obtain rfl := Except.pure_eq_ok_iff.mp h
  have hreports := List.mapM_eq_ok_iff.mp hworkloads
  refine ⟨fun hneutral hfrozen hrouted => ?_, ?_, summarizes_of_summary hresult⟩
  · have hsame : replayContext = context := by
      rw [contextForScenario_neutral hneutral hcontext, hfrozen.freezeProviderSnapshot_eq]
    intro workload hmem
    obtain ⟨decision, hdecision, hreport⟩ := List.mem_of_mapM_eq_ok hworkloads hmem
    obtain ⟨hprojection, hreported⟩ := workloadReport_ok hreport
    rw [hsame] at hprojection
    obtain ⟨hselected, hchain⟩ :=
      projection_of_neutral hneutral (hrouted decision hdecision) hprojection
    rw [hreported.routed_differently, hselected, hchain]
    simp
  · exact (hreports.imp fun _ _ hreport => (workloadReport_ok hreport).2).flip

end TimeMachine

section OneLease

def finopsText (text : PyString) : FinopsText :=
  { text with
    repr := fun s => "'" ++ s ++ "'"
    decimalText := fun _ => "0" }

def leaseCapability : PricedCapability := ⟨⟨"cap_1", "embedding", true⟩, .perSecond, 60000⟩

def contextOf (providers : List ProviderLike) (gpuName : String) : PricedContext :=
  ⟨0, ⟨[⟨⟨"US-KS-2", gpuName, "SECURE", 1⟩, true⟩]⟩, providers, some leaseCapability⟩

def neutralScenario : CounterfactualScenario :=
  ⟨"as-it-was", "", [], [], [], [], none, [], none, .none, none, none, none, none⟩

theorem neutral_neutralScenario : neutralScenario.Neutral :=
  ⟨rfl, rfl, rfl, rfl, rfl, rfl, rfl, rfl, rfl, rfl⟩

def decisionOf (id : String) (hid : id ≠ "") : HistoricalRoutingDecision where
  workloadId := "wkl"
  request := sampleRequest
  actualProviderId := some id
  actualCostUsd := .zero
  payload := []
  actualFallbackChain := [id]
  workloadId_ne := by decide
  actualProviderId_ne := fun _ h => Option.some.inj h ▸ hid

theorem replay_returns_one (text : FinopsText) {context replayContext : PricedContext} {id : String}
    (hid : id ≠ "") {plan : RoutePlan} {costs : List ProviderCostProjection}
    (hcontext : contextForScenario text context neutralScenario = .ok replayContext)
    (hcapability : replayContext.capability = some leaseCapability)
    (hplan : planRouteIn text.toPyString sampleWorld sampleRequest none
      ⟨some leaseCapability.toCapabilityModel, none, none, .none, 3, .ofRat 1⟩
      (some replayContext.planning) none (none : Option (CacheArgument Unit)) none = .ok plan)
    (hcosts : attemptCosts text.toPyString plan leaseCapability [] = .ok costs)
    (hselected : plan.selectedProviderId ≠ some "") :
    ∃ report workload, replay text sampleWorld context neutralScenario [decisionOf id hid] =
        .ok report ∧ report.workloads = [workload] ∧ workload.projection.plan = plan := by
  have hne : replayContext.providers ≠ [] := providers_ne_of_plan hplan
  have hzero : UsdAmount.zero.value = 0 := rfl
  have hsmall : UsdAmount.zero.value +
      ((costs.map ProviderCostProjection.upperBoundUsd).head?.getD .zero).value < 10 ^ 22 := by
    rw [hzero, zero_add]
    exact UsdAmount.small _
  obtain ⟨projection, hprojection, hsame, -⟩ :
      ∃ projection, (replaySimulator replayContext neutralScenario).simulate text sampleWorld
        sampleRequest [] none .none none none = .ok projection ∧ projection.plan = plan ∧ _ :=
    simulate_returns rfl hcapability hplan hcosts hsmall
  have hworkload : projectWorkload text sampleWorld (decisionOf id hid) neutralScenario
      replayContext (replaySimulator replayContext neutralScenario) = .ok projection := by
    rw [projectWorkload, if_neg (by simpa using hne)]
    exact hprojection
  obtain ⟨workload, hreport, hplanned, hactual, hcounterfactual⟩ := workloadReport_returns hworkload
  have hcost := (workloadReport_ok hreport).2.actual_cost
  obtain ⟨result, hresult⟩ : ∃ result, summary [workload] = .ok result := by
    refine summary_returns ?_ ?_ ?_ ?_
    · simpa using workload.actualCostUsd.small
    · simpa using workload.counterfactualCostUsd.small
    · simpa [hactual, decisionOf] using Ne.symm hid
    · simpa [hcounterfactual, hsame, eq_comm] using hselected
  refine ⟨⟨neutralScenario, [workload], result⟩, workload, ?_, rfl, by rw [hplanned, hsame]⟩
  rw [replay, Except.bind_of_ok hcontext, List.mapM_cons, Except.bind_of_ok hreport]
  exact Except.bind_of_ok hresult

def freeLease : ProviderModel :=
  sampleProvider "lease" lease_ne .podLease [("gpu_types", .list [.str "A100"]),
    ("cost", .dict [("kind", .str "per_request"), ("per_request", .str "0")])]

def freeContext : PricedContext := contextOf (freezeProviderSnapshot [.model freeLease]) "A100"

/-- The lease is attempted again. -/
theorem time_machine_report_lease : ∃ report,
    replay (finopsText asciiText) sampleWorld freeContext neutralScenario
      [decisionOf "lease" (by decide)] = .ok report ∧
    report.workloads.map (·.projection.plan.fallbackChain) = [["lease"]] ∧
    (∀ workload ∈ report.workloads, workload.routedDifferently = false) ∧
    Summarizes report.summary report.workloads := by
  have hids : (fun plan => (plan.selectedProviderId, plan.fallbackChain)) <$>
      planRouteIn asciiText sampleWorld sampleRequest none defaultOptions
        (some freeContext.planning) none (none : Option (CacheArgument Unit)) none =
      .ok (some "lease", ["lease"]) := by decide +kernel
  have hpriced : (fun costs : List ProviderCostProjection => costs.length) <$>
      (planRouteIn asciiText sampleWorld sampleRequest none defaultOptions
        (some freeContext.planning) none (none : Option (CacheArgument Unit)) none >>=
        fun plan => attemptCosts asciiText plan leaseCapability []) = .ok 1 := by decide +kernel
  obtain ⟨plan, hplan, hplanned⟩ := Except.map_eq_ok_iff.mp hids
  obtain ⟨hselected, hchain⟩ := Prod.mk.inj hplanned
  rw [Except.bind_of_ok hplan] at hpriced
  obtain ⟨costs, hcosts, -⟩ := Except.map_eq_ok_iff.mp hpriced
  have hcontext : contextForScenario (finopsText asciiText) freeContext neutralScenario =
      .ok freeContext := rfl
  have hgiven : planRouteIn asciiText sampleWorld sampleRequest none
      { defaultOptions with capability := some leaseCapability.toCapabilityModel }
      (some freeContext.planning) none (none : Option (CacheArgument Unit)) none = .ok plan := by
    rw [planRouteIn_capability sampleWorld defaultOptions rfl]
    exact hplan
  obtain ⟨report, workload, hreport, hworkloads, hworkload⟩ := replay_returns_one
    (finopsText asciiText) (show "lease" ≠ "" by decide) hcontext rfl hgiven hcosts
    (by rw [hselected]; decide)
  have hrouted : ∀ decision ∈ [decisionOf "lease" (by decide)],
      Routed (finopsText asciiText) freeContext decision := by
    intro decision hmem
    obtain rfl := List.mem_singleton.mp hmem
    exact ⟨sampleWorld, plan, hplan, hselected.symm, hchain.symm⟩
  obtain ⟨hsame, -, hsummary⟩ := time_machine_report hreport
  refine ⟨report, hreport, ?_, hsame neutral_neutralScenario
    (frozen_freezeProviderSnapshot _) hrouted, hsummary⟩
  rw [hworkloads, List.map_singleton, hworkload, hchain]

def nestedContext : PricedContext := contextOf [.mapping nestedLease.attributes] "['A100']"

/-- The replay freezes the record, asks for another GPU and finds none. -/
theorem nested_routed_differently :
    ¬ ∀ (text : FinopsText) (world : World) (context : PricedContext)
        (scenario : CounterfactualScenario) (decisions : List HistoricalRoutingDecision)
        (report : TimeMachineReport),
      (context.providers.map ProviderLike.idOf).Nodup → scenario.Neutral →
      (∀ decision ∈ decisions, Routed text context decision) →
      replay text world context scenario decisions = .ok report →
      ∀ workload ∈ report.workloads, workload.routedDifferently = false := by
  intro h
  have hids : (fun plan => (plan.selectedProviderId, plan.fallbackChain)) <$>
      planRouteIn nestedText sampleWorld sampleRequest none defaultOptions
        (some nestedContext.planning) none (none : Option (CacheArgument Unit)) none =
      .ok (some "nested", ["nested"]) := by decide +kernel
  obtain ⟨plan, hplan, hplanned⟩ := Except.map_eq_ok_iff.mp hids
  obtain ⟨hselected, hchain⟩ := Prod.mk.inj hplanned
  have hreplayed : RoutePlan.fallbackChain <$>
      planRouteIn nestedText sampleWorld sampleRequest none defaultOptions
        (some (contextOf (freezeProviderSnapshot nestedContext.providers) "['A100']").planning)
        none (none : Option (CacheArgument Unit)) none = .ok [] := by decide +kernel
  obtain ⟨replayed, hreplay, hnone⟩ := Except.map_eq_ok_iff.mp hreplayed
  have hempty : replayed.attempts = [] := List.map_eq_nil_iff.mp hnone
  have hunselected : replayed.selectedProviderId = none := by
    rw [RoutePlan.selectedProviderId, hempty]
    rfl
  have hcosts : attemptCosts nestedText replayed leaseCapability [] = .ok [] := by
    rw [attemptCosts, hempty]
    rfl
  have hcontext : contextForScenario (finopsText nestedText) nestedContext neutralScenario =
      .ok (contextOf (freezeProviderSnapshot nestedContext.providers) "['A100']") := rfl
  have hgiven : planRouteIn nestedText sampleWorld sampleRequest none
      { defaultOptions with capability := some leaseCapability.toCapabilityModel }
      (some (contextOf (freezeProviderSnapshot nestedContext.providers) "['A100']").planning)
      none (none : Option (CacheArgument Unit)) none = .ok replayed := by
    rw [planRouteIn_capability sampleWorld defaultOptions rfl]
    exact hreplay
  obtain ⟨report, workload, hreport, hworkloads, hworkload⟩ := replay_returns_one
    (finopsText nestedText) (show "nested" ≠ "" by decide) hcontext rfl hgiven hcosts
    (by rw [hunselected]; decide)
  have hrouted : ∀ decision ∈ [decisionOf "nested" (by decide)],
      Routed (finopsText nestedText) nestedContext decision := by
    intro decision hmem
    obtain rfl := List.mem_singleton.mp hmem
    exact ⟨sampleWorld, plan, hplan, hselected.symm, hchain.symm⟩
  have hsame := h _ sampleWorld nestedContext neutralScenario _ report (List.nodup_singleton _)
    neutral_neutralScenario hrouted hreport workload (by rw [hworkloads]; simp)
  obtain ⟨-, hreports, -⟩ := time_machine_report hreport
  rw [hworkloads] at hreports
  cases hreports with
  | cons hreported _ =>
    rw [hreported.routed_differently, hworkload, hunselected] at hsame
    simp [decisionOf] at hsame

end OneLease

end Pitwall.Finops
