import Pitwall.Resolver.Service
set_option autoImplicit false

/-!
The providers that the resolver and the planner let through Stages 1 and 2. The two gates
differ in the health they ask for: `healthy` here, anything but `unhealthy` there.
-/

namespace Pitwall.Routing

/-- The providers that come through Stages 1 and 2 of `plan_route`. -/
def stage12Survivors (text : PyString) (request : RoutingRequest) (options : PlanOptions)
    (now : Instant) (providers : List ProviderLike) : Except PyError (List ProviderLike) := do
  let stage1 ← filterHardConstraints text request providers options.capability options.capabilityId
  let _ ← stage1.eliminated.mapM stage1Elimination
  let stage2 ← stage1.passed.mapM (stage2Round text now)
  pure ((stage2.filter fun round => round.2.2.isEmpty).map Prod.fst)

section Survivors
variable {text : PyString} {request : RoutingRequest} {options : PlanOptions} {now : Instant}
  {providers ss : List ProviderLike}

theorem mem_stage12Survivors_iff
    (h : stage12Survivors text request options now providers = .ok ss) (p : ProviderLike) :
    p ∈ ss ↔ p ∈ providers ∧ PassesGates text request options now p := by
  simp only [stage12Survivors, Except.bind_eq_ok_iff, Except.pure_eq_ok_iff] at h
  obtain ⟨stage1, hstage1, -, -, stage2, hstage2, rfl⟩ := h
  exact mem_eligible_iff hstage1 hstage2 p

theorem ranked_iff_survives {σ : Type} {reader : CapacityReader σ} {state : σ} {plan : RoutePlan}
    (h : stage12Survivors text request options now providers = .ok ss)
    (hplan : planRoute text reader state request options now providers = .ok plan)
    (p : ProviderLike) : p ∈ plan.rankedCandidates.map RouteCandidate.provider ↔ p ∈ ss := by
  obtain ⟨st⟩ := planRoute_eq_ok_iff.mp hplan
  rw [mem_stage12Survivors_iff h, mem_ranked_providers_iff st.ranked_eq]
  constructor
  · intro hp
    obtain ⟨c, hc, rfl⟩ := List.mem_map.mp hp
    obtain ⟨hmem, -, hpasses⟩ := st.candidate_passes hc
    exact ⟨hmem, hpasses⟩
  · rintro ⟨hmem, hpasses⟩
    obtain ⟨c, hc, hok⟩ := st.candidate_of_passes hmem hpasses
    exact List.mem_map.mpr ⟨c, hc, (candidateForProvider_eq_ok hok).1⟩

end Survivors

section Resolver
variable {text : PyString} {request : RoutingRequest} {now : Instant}
  {providers : List ProviderModel} {capability : CapabilityModel}

/-- The provider passes Stage 1, is enabled and is not in cooldown. -/
structure PassesButHealth (text : PyString) (request : RoutingRequest)
    (capability : CapabilityModel) (now : Instant) (p : ProviderModel) : Prop where
  constraints : hardConstraintReasons text request (.model p) (some capability)
    (some capability.id) = .ok []
  enabled : p.enabled = true
  cooldown : isInCooldown text now (.model p) = .ok false

theorem isDisabled_model (p : ProviderModel) : isDisabled (.model p) = !p.enabled := by
  have hfield : (ProviderLike.model p).field "enabled" = .bool p.enabled := rfl
  unfold isDisabled
  rw [hfield]
  cases p.enabled <;> rfl

theorem healthStatus_model {p : ProviderModel} (h : p.healthStatus ≠ "") :
    healthStatus text (.model p) = text.lower p.healthStatus := by
  have hfield : (ProviderLike.model p).stringField "health_status" = some p.healthStatus := if_neg h
  rw [healthStatus, hfield, Option.getD_some]

theorem healthStatus_ne {p : ProviderModel} {cooling : Bool}
    (h : isInCooldown text now (.model p) = .ok cooling) : p.healthStatus ≠ "" := by
  intro hempty
  rw [isInCooldown_model, if_pos hempty] at h
  cases h

theorem resolverStage2Reasons_eq_nil_iff {p : ProviderModel} :
    resolverStage2Reasons text now p = .ok [] ↔
      p.enabled = true ∧ text.lower p.healthStatus = "healthy" ∧
        isInCooldown text now (.model p) = .ok false := by
  simp only [resolverStage2Reasons, Except.bind_eq_ok_iff, Except.pure_eq_ok_iff]
  constructor
  · rintro ⟨cooling, hcooling, hreasons⟩
    simp only [List.append_eq_nil_iff] at hreasons
    obtain ⟨⟨henabled, hhealth⟩, hcooldown⟩ := hreasons
    refine ⟨?_, ?_, ?_⟩
    · cases he : p.enabled <;> simp_all
    · by_contra hother
      simp [hother] at hhealth
    · cases cooling <;> simp_all
  · rintro ⟨henabled, hhealth, hcooldown⟩
    exact ⟨false, hcooldown, by simp [henabled, hhealth]⟩

theorem mem_filterMap_model {ps : List ProviderLike} {p : ProviderModel} :
    p ∈ ps.filterMap ProviderLike.model? ↔ ProviderLike.model p ∈ ps := by
  rw [List.mem_filterMap]
  constructor
  · rintro ⟨q, hq, hmodel⟩
    cases q with
    | model q =>
      rw [← Option.some.inj hmodel]
      exact hq
    | mapping entries => cases hmodel
  · exact fun h => ⟨.model p, h, rfl⟩

theorem mem_stage12Rounds_iff {eligible : List ProviderModel} {eliminated : List RouteElimination}
    (h : stage12Rounds text request providers capability now = .ok (eligible, eliminated))
    (p : ProviderModel) : p ∈ eligible ↔ p ∈ providers ∧
      PassesButHealth text request capability now p ∧ text.lower p.healthStatus = "healthy" := by
  simp only [stage12Rounds, Except.bind_eq_ok_iff, Except.pure_eq_ok_iff] at h
  obtain ⟨stage1, hstage1, -, -, rounds, hrounds, rfl, -⟩ := h
  have hmodel : ProviderLike.model p ∈ providers.map ProviderLike.model ↔ p ∈ providers :=
    List.mem_map_of_injective fun a b hab => ProviderLike.model.inj hab
  constructor
  · intro hp
    obtain ⟨round, hround, rfl⟩ := List.mem_map.mp hp
    obtain ⟨hround, hempty⟩ := List.mem_filter.mp hround
    obtain ⟨q, hq, hok⟩ := List.mem_of_mapM_eq_ok hrounds hround
    obtain ⟨reasons, hreasons, rfl⟩ := Except.map_eq_ok_iff.mp hok
    obtain rfl : reasons = [] := List.isEmpty_iff.mp hempty
    obtain ⟨henabled, hhealthy, hcooldown⟩ := resolverStage2Reasons_eq_nil_iff.mp hreasons
    obtain ⟨hmem, hconstraints⟩ := (mem_passed_iff hstage1 _).mp (mem_filterMap_model.mp hq)
    exact ⟨hmodel.mp hmem, ⟨hconstraints, henabled, hcooldown⟩, hhealthy⟩
  · rintro ⟨hmem, hpasses, hhealthy⟩
    have hpassed := (mem_passed_iff hstage1 _).mpr ⟨hmodel.mpr hmem, hpasses.constraints⟩
    obtain ⟨round, hround, hok⟩ :=
      List.exists_mem_of_mapM_eq_ok hrounds (mem_filterMap_model.mpr hpassed)
    obtain ⟨reasons, hreasons, rfl⟩ := Except.map_eq_ok_iff.mp hok
    rw [resolverStage2Reasons_eq_nil_iff.mpr ⟨hpasses.enabled, hhealthy, hpasses.cooldown⟩]
      at hreasons
    refine List.mem_map.mpr ⟨(p, reasons), List.mem_filter.mpr ⟨hround, ?_⟩, rfl⟩
    rw [← Except.ok.inj hreasons]
    rfl

theorem stage12Rounds_returns_iff :
    (∃ result, stage12Rounds text request providers capability now = .ok result) ↔
      ∃ stage1, filterHardConstraints text request (providers.map .model) (some capability) none =
        .ok stage1 ∧ ∀ p ∈ stage1.passed, ∃ cooling, isInCooldown text now p = .ok cooling := by
  simp only [stage12Rounds, Except.bind_eq_ok_iff, Except.pure_eq_ok_iff]
  constructor
  · rintro ⟨-, stage1, hstage1, -, -, rounds, hrounds, -⟩
    refine ⟨stage1, hstage1, fun q hq => ?_⟩
    obtain ⟨p, -, rfl⟩ := List.mem_map.mp ((mem_passed_iff hstage1 q).mp hq).1
    obtain ⟨_, _, hok⟩ := List.exists_mem_of_mapM_eq_ok hrounds (mem_filterMap_model.mpr hq)
    obtain ⟨_, hreasons, -⟩ := Except.map_eq_ok_iff.mp hok
    obtain ⟨cooling, hcooling, -⟩ := Except.bind_eq_ok_iff.mp hreasons
    exact ⟨cooling, hcooling⟩
  · rintro ⟨stage1, hstage1, hcooldown⟩
    obtain ⟨es, hes⟩ : ∃ es, stage1.eliminated.mapM resolverStage1Elimination = .ok es := by
      refine List.exists_mapM_eq_ok fun r hr => ?_
      unfold resolverStage1Elimination
      cases hreasons : r.reasons with
      | nil => exact absurd hreasons (eliminated_reasons hstage1 r hr).1
      | cons first rest => exact ⟨_, rfl⟩
    obtain ⟨rounds, hrounds⟩ : ∃ rounds, (stage1.passed.filterMap ProviderLike.model?).mapM
        (resolverRound text now) = .ok rounds := by
      refine List.exists_mapM_eq_ok fun p hp => ?_
      obtain ⟨cooling, hcooling⟩ := hcooldown _ (mem_filterMap_model.mp hp)
      simp only [resolverRound, Except.map_eq_ok_iff, resolverStage2Reasons, hcooling]
      exact ⟨_, _, rfl, rfl⟩
    exact ⟨_, stage1, hstage1, es, hes, rounds, hrounds, rfl⟩

theorem stage12Survivors_returns_iff {options : PlanOptions} :
    (∃ ss, stage12Survivors text request options now (providers.map .model) = .ok ss) ↔
      ∃ stage1, filterHardConstraints text request (providers.map .model) options.capability
        options.capabilityId = .ok stage1 ∧
          ∀ p ∈ stage1.passed, ∃ cooling, isInCooldown text now p = .ok cooling := by
  simp only [stage12Survivors, Except.bind_eq_ok_iff, Except.pure_eq_ok_iff]
  constructor
  · rintro ⟨-, stage1, hstage1, -, -, rounds, hrounds, -⟩
    refine ⟨stage1, hstage1, fun q hq => ?_⟩
    obtain ⟨_, _, hok⟩ := List.exists_mem_of_mapM_eq_ok hrounds hq
    obtain ⟨cooling, hcooling, -⟩ := Except.bind_eq_ok_iff.mp (stage2Round_eq_ok hok).2.2
    exact ⟨cooling, hcooling⟩
  · rintro ⟨stage1, hstage1, hcooldown⟩
    obtain ⟨es, hes⟩ : ∃ es, stage1.eliminated.mapM stage1Elimination = .ok es :=
      List.exists_mapM_eq_ok fun r hr =>
        stage1Elimination_total (eliminated_reasons hstage1 r hr).1
          (eliminated_reasons hstage1 r hr).2
    obtain ⟨rounds, hrounds⟩ : ∃ rounds, stage1.passed.mapM (stage2Round text now) =
        .ok rounds := by
      refine List.exists_mapM_eq_ok fun q hq => ?_
      obtain ⟨cooling, hcooling⟩ := hcooldown q hq
      obtain ⟨p, -, rfl⟩ := List.mem_map.mp ((mem_passed_iff hstage1 q).mp hq).1
      simp only [stage2Round, ProviderLike.providerId_model, stage2EliminationReasons, hcooling]
      exact ⟨_, rfl⟩
    exact ⟨_, stage1, hstage1, es, hes, rounds, hrounds, rfl⟩

theorem eligibleOf_eq_some_iff {es : List ProviderModel} :
    eligibleOf (selectStage12Provider text request providers capability now) = some es ↔
      ∃ eligible eliminated, stage12Rounds text request providers capability now =
        .ok (eligible, eliminated) ∧ sortedBy priorityLt eligible = es := by
  unfold selectStage12Provider
  cases hrounds : stage12Rounds text request providers capability now with
  | error e => simp [eligibleOf]
  | ok result =>
    obtain ⟨eligible, eliminated⟩ := result
    cases hsorted : sortedBy priorityLt eligible with
    | nil => simp [eligibleOf, hsorted, eq_comm]
    | cons first rest => simp [eligibleOf, hsorted, eq_comm]

/-- The options of a plan for one capability. -/
def PlanOptions.forCapability (options : PlanOptions) (capability : CapabilityModel) :
    PlanOptions :=
  { options with capability := some capability, capabilityId := none }

theorem passesGates_model_iff {options : PlanOptions} {p : ProviderModel} :
    PassesGates text request (options.forCapability capability) now (.model p) ↔
      PassesButHealth text request capability now p ∧
        text.lower p.healthStatus ≠ "unhealthy" := by
  constructor
  · rintro ⟨hconstraints, henabled, hhealthy, hcooldown⟩
    rw [isDisabled_model, Bool.not_eq_false'] at henabled
    rw [healthStatus_model (healthStatus_ne hcooldown)] at hhealthy
    exact ⟨⟨hconstraints, henabled, hcooldown⟩, hhealthy⟩
  · rintro ⟨⟨hconstraints, henabled, hcooldown⟩, hhealthy⟩
    refine ⟨hconstraints, ?_, ?_, hcooldown⟩
    · rw [isDisabled_model, henabled, Bool.not_true]
    · rwa [healthStatus_model (healthStatus_ne hcooldown)]

/-- The resolver and the planner raise together. Where they return, the plan ranks the
survivors of its Stages 1 and 2, and these are the eligible set exactly when each provider that
the other checks pass is `healthy` or `unhealthy`. -/
theorem eligibility_agrees_iff (text : PyString) (request : RoutingRequest)
    (capability : CapabilityModel) (now : Instant) (providers : List ProviderModel)
    (options : PlanOptions) :
    ((∃ es, eligibleOf (selectStage12Provider text request providers capability now) = some es) ↔
      ∃ ss, stage12Survivors text request (options.forCapability capability) now
        (providers.map .model) = .ok ss) ∧
    ∀ es ss, eligibleOf (selectStage12Provider text request providers capability now) = some es →
      stage12Survivors text request (options.forCapability capability) now
        (providers.map .model) = .ok ss →
      (∀ (σ : Type) (reader : CapacityReader σ) state plan,
        planRoute text reader state request (options.forCapability capability) now
          (providers.map .model) = .ok plan →
        ∀ p, p ∈ plan.rankedCandidates.map RouteCandidate.provider ↔ p ∈ ss) ∧
      ((∀ p, p ∈ es.map ProviderLike.model ↔ p ∈ ss) ↔
        ∀ p ∈ providers, PassesButHealth text request capability now p →
          text.lower p.healthStatus = "healthy" ∨ text.lower p.healthStatus = "unhealthy") := by
  constructor
  · rw [stage12Survivors_returns_iff]
    refine Iff.trans ?_ stage12Rounds_returns_iff
    constructor
    · rintro ⟨es, hes⟩
      obtain ⟨eligible, eliminated, hrounds, -⟩ := eligibleOf_eq_some_iff.mp hes
      exact ⟨_, hrounds⟩
    · rintro ⟨⟨eligible, eliminated⟩, hrounds⟩
      exact ⟨_, eligibleOf_eq_some_iff.mpr ⟨eligible, eliminated, hrounds, rfl⟩⟩
  · intro es ss hes hss
    refine ⟨fun σ reader state plan hplan => ranked_iff_survives hss hplan, ?_⟩
    obtain ⟨eligible, eliminated, hrounds, rfl⟩ := eligibleOf_eq_some_iff.mp hes
    have helig : ∀ p, ProviderLike.model p ∈ (sortedBy priorityLt eligible).map .model ↔
        p ∈ providers ∧ PassesButHealth text request capability now p ∧
          text.lower p.healthStatus = "healthy" := fun p => by
      rw [List.mem_map_of_injective fun a b hab => ProviderLike.model.inj hab, mem_sortedBy,
        mem_stage12Rounds_iff hrounds]
    have hsurvives : ∀ p, ProviderLike.model p ∈ ss ↔
        p ∈ providers ∧ PassesButHealth text request capability now p ∧
          text.lower p.healthStatus ≠ "unhealthy" := fun p => by
      rw [mem_stage12Survivors_iff hss, passesGates_model_iff,
        List.mem_map_of_injective fun a b hab => ProviderLike.model.inj hab]
    constructor
    · intro hagree p hp hpasses
      by_contra hother
      obtain ⟨hhealthy, hunhealthy⟩ := not_or.mp hother
      have hmem := (hagree _).mpr ((hsurvives p).mpr ⟨hp, hpasses, hunhealthy⟩)
      exact hhealthy ((helig p).mp hmem).2.2
    · intro hhealth q
      constructor
      · intro hq
        obtain ⟨p, -, rfl⟩ := List.mem_map.mp hq
        obtain ⟨hp, hpasses, hhealthy⟩ := (helig p).mp hq
        refine (hsurvives p).mpr ⟨hp, hpasses, ?_⟩
        rw [hhealthy]
        decide
      · intro hq
        obtain ⟨p, -, rfl⟩ := List.mem_map.mp ((mem_stage12Survivors_iff hss q).mp hq).1
        obtain ⟨hp, hpasses, hunhealthy⟩ := (hsurvives p).mp hq
        exact (helig p).mpr
          ⟨hp, hpasses, (hhealth p hp hpasses).resolve_right hunhealthy⟩

end Resolver

def unknownHealth : ProviderModel :=
  { sampleProvider "prov_a" (by decide) .serverlessQueue [] with healthStatus := "unknown" }

def sampleCapability : CapabilityModel := ⟨"cap_1", "embedding", true⟩

/-- The plan ranks it, the resolver finds no provider. -/
theorem eligibility_differs_on_unknown_health :
    ∃ es ss, eligibleOf (selectStage12Provider asciiText sampleRequest [unknownHealth]
        sampleCapability 0) = some es ∧
      stage12Survivors asciiText sampleRequest (defaultOptions.forCapability sampleCapability) 0
        [.model unknownHealth] = .ok ss ∧
      ¬ ∀ p, p ∈ es.map ProviderLike.model ↔ p ∈ ss := by
  refine ⟨[], [.model unknownHealth], rfl, rfl, fun h => ?_⟩
  have hmem := (h (.model unknownHealth)).mpr (List.mem_singleton.mpr rfl)
  simp at hmem

def gradedProviders : List ProviderModel :=
  [{ sampleProvider "prov_b" (by decide) .serverlessQueue [] with healthStatus := "Unhealthy" },
    sampleProvider "prov_a" (by decide) .serverlessQueue []]

theorem eligibility_agrees_on_graded :
    ∃ es ss, eligibleOf (selectStage12Provider asciiText sampleRequest gradedProviders
        sampleCapability 0) = some es ∧
      stage12Survivors asciiText sampleRequest (defaultOptions.forCapability sampleCapability) 0
        (gradedProviders.map .model) = .ok ss ∧
      es.map ProviderModel.id = ["prov_a"] ∧ ∀ p, p ∈ es.map ProviderLike.model ↔ p ∈ ss := by
  refine ⟨_, _, rfl, rfl, by decide, ?_⟩
  refine ((eligibility_agrees_iff asciiText sampleRequest sampleCapability 0
    gradedProviders defaultOptions).2 _ _ rfl rfl).2.mpr ?_
  intro p hp _
  rcases List.mem_pair.mp hp with rfl | rfl
  · exact .inr (by decide)
  · exact .inl (by decide)

end Pitwall.Routing
