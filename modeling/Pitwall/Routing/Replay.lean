import Pitwall.Routing.Context
import Pitwall.Routing.PlanSafety
set_option autoImplicit false

/-!
Replaying a plan. Over the frozen records, the snapshot of the cache and the same instant,
each stage returns the frozen value of what it returns live, as long as the checks that read a
list by the texts of its items come to the same.
-/

namespace Pitwall.Routing

def HardConstraintFilterResult.freeze (r : HardConstraintFilterResult) :
    HardConstraintFilterResult :=
  { r with passed := r.passed.map ProviderLike.freeze }

def Stage4.freeze (s : Stage4) : Stage4 :=
  { s with available := s.available.map RouteCandidate.freeze }

def RoutePlan.freeze (plan : RoutePlan) : RoutePlan :=
  { plan with
    attempts := plan.attempts.map RouteAttempt.freeze
    rankedCandidates := plan.rankedCandidates.map RouteCandidate.freeze }

section Stages12
variable {text : PyString} {request : RoutingRequest} {p : ProviderLike}

theorem hardConstraintReasons_freeze {capability : Option CapabilityModel}
    {capabilityId : Option String}
    (hcuda : cudaMismatch text request p.freeze = cudaMismatch text request p)
    (hgpu : gpuClassMismatch text request p.freeze = gpuClassMismatch text request p) :
    hardConstraintReasons text request p.freeze capability capabilityId =
      hardConstraintReasons text request p capability capabilityId := by
  simp [hardConstraintReasons, hcuda, hgpu]

section Stage1
variable {providers : List ProviderLike} {capability : Option CapabilityModel}
  {capabilityId : Option String}
  (hcuda : ∀ p ∈ providers, cudaMismatch text request p.freeze = cudaMismatch text request p)
  (hgpu : ∀ p ∈ providers,
    gpuClassMismatch text request p.freeze = gpuClassMismatch text request p)

include hcuda hgpu

theorem stage1Rounds_freeze :
    stage1Rounds text request capability capabilityId (freezeProviderSnapshot providers) =
      List.map (fun r => (r.1.freeze, r.2)) <$>
        stage1Rounds text request capability capabilityId providers :=
  List.mapM_map_of_round fun p hp => by
    simp [evaluateHardConstraints, hardConstraintReasons_freeze (hcuda p hp) (hgpu p hp)]

theorem filterHardConstraints_freeze :
    filterHardConstraints text request (freezeProviderSnapshot providers) capability capabilityId =
      HardConstraintFilterResult.freeze <$>
        filterHardConstraints text request providers capability capabilityId := by
  have hfilter : ∀ ps, filterHardConstraints text request ps capability capabilityId =
      (fun results => (⟨(results.filter fun r => r.2.passed).map Prod.fst,
        (results.map Prod.snd).filter fun r => !r.passed, results.map Prod.snd⟩ :
          HardConstraintFilterResult)) <$>
        stage1Rounds text request capability capabilityId ps := fun _ => rfl
  rw [hfilter, hfilter, stage1Rounds_freeze hcuda hgpu]
  simp [HardConstraintFilterResult.freeze, List.filter_map, Function.comp_def]

end Stage1

theorem stage2Round_freeze (now : Instant) (p : ProviderModel) :
    stage2Round text now (ProviderLike.model p).freeze =
      (fun r => (r.1.freeze, r.2)) <$> stage2Round text now (.model p) := by
  simp [stage2Round, stage2EliminationReasons]

end Stages12

section Stages34
variable {text : PyString} {request : RoutingRequest}

theorem keyed_freeze {c : RouteCandidate} (hmodel : ∃ p, c.provider = .model p) :
    keyed text c.freeze = (fun pair => (pair.1, pair.2.freeze)) <$> keyed text c := by
  obtain ⟨p, hp⟩ := hmodel
  simp [keyed, candidateSortKey_freeze text hp]

theorem rankCandidates_freeze {cs : List RouteCandidate}
    (hmodel : ∀ c ∈ cs, ∃ p, c.provider = .model p) :
    rankCandidates text (cs.map RouteCandidate.freeze) =
      List.map RouteCandidate.freeze <$> rankCandidates text cs := by
  unfold rankCandidates
  rw [List.mapM_map_of_round (f := keyed text)
    (k := fun pair : SortKey × RouteCandidate => (pair.1, pair.2.freeze))]
  · rw [bind_map_left, map_bind]
    refine bind_congr fun pairs => ?_
    have hsorted : sortedBy (fun a b => a.1.rankLt b.1)
        (pairs.map fun pair => (pair.1, pair.2.freeze)) =
        (sortedBy (fun a b => a.1.rankLt b.1) pairs).map fun pair => (pair.1, pair.2.freeze) :=
      sortedBy_map fun _ _ _ _ => rfl
    rw [hsorted, List.zipIdx_map]
    simp [Function.comp_def, RouteCandidate.freeze]
  · exact fun c hc => keyed_freeze (hmodel c hc)

theorem applyStage4Capacity_freeze {σ : Type} {reader : CapacityReader σ} {cs : List RouteCandidate}
    (hkeys : ∀ c ∈ cs, isPodLeaseProvider c.provider = true →
      c.provider.freeze.capacityKeys text request = c.provider.capacityKeys text request) (s : σ) :
    applyStage4Capacity text request reader (cs.map RouteCandidate.freeze) s =
      Stage4.freeze <$> applyStage4Capacity text request reader cs s := by
  induction cs generalizing s with
  | nil => rfl
  | cons c cs ih =>
    have ih := ih fun d hd => hkeys d (by simp [hd])
    have hprovider : c.freeze.provider = c.provider.freeze := rfl
    rw [List.map_cons, applyStage4Capacity, applyStage4Capacity, hprovider,
      isPodLeaseProvider_freeze]
    cases hlease : isPodLeaseProvider c.provider with
    | false => simp [ih, Stage4.freeze]
    | true =>
      have hdecision : capacityDecisionForCandidate text request reader c.freeze s =
          capacityDecisionForCandidate text request reader c s := by
        unfold capacityDecisionForCandidate
        rw [hprovider, hkeys c (by simp) hlease]
        rfl
      simp only [Bool.not_true, Bool.false_eq_true, if_false, hdecision, ih, map_bind,
        bind_map_left]
      refine bind_congr fun decided => bind_congr fun rest => ?_
      by_cases havailable : decided.1.available = some true
      · simp [havailable, Stage4.freeze]
      · simp [havailable, Stage4.freeze, RouteCandidate.freeze]

theorem selectPrimaryCandidate_freeze (first : RouteCandidate) (rest : List RouteCandidate) :
    selectPrimaryCandidate first.freeze (rest.map RouteCandidate.freeze) =
      (selectPrimaryCandidate first rest).freeze := by
  have hlist : first.freeze :: rest.map RouteCandidate.freeze =
      (first :: rest).map RouteCandidate.freeze := rfl
  unfold selectPrimaryCandidate
  simp only [hlist, List.find?_map, List.flatMap_map]
  exact Option.getD_map _ _ _

theorem candidateById_freeze (ranked : List RouteCandidate) (id : String) :
    candidateById (ranked.map RouteCandidate.freeze) id =
      (candidateById ranked id).map RouteCandidate.freeze := by
  unfold candidateById
  rw [← List.map_reverse, List.find?_map]
  rfl

theorem followChain_freeze (ranked : List RouteCandidate) (chain seen : List String) :
    followChain (ranked.map RouteCandidate.freeze) chain seen =
      (followChain ranked chain seen).map RouteCandidate.freeze := by
  induction chain generalizing seen with
  | nil => rfl
  | cons id chain ih =>
    rw [followChain, followChain, candidateById_freeze]
    cases candidateById ranked id with
    | none => exact ih seen
    | some c =>
      change (if c.providerId ∈ seen then _ else c.freeze :: _) = _
      by_cases hseen : c.providerId ∈ seen
      · rw [if_pos hseen, ih]
        simp [hseen]
      · rw [if_neg hseen, ih]
        simp [hseen, RouteCandidate.freeze]

theorem fallbackCandidates_freeze {selected : RouteCandidate} {ranked : List RouteCandidate}
    (hmodel : ∀ c ∈ ranked, ∃ p, c.provider = .model p) :
    fallbackCandidates text selected.freeze (ranked.map RouteCandidate.freeze) =
      List.map RouteCandidate.freeze <$> fallbackCandidates text selected ranked := by
  unfold fallbackCandidates
  have hchain : selected.freeze.explicitFallbackChain = selected.explicitFallbackChain := rfl
  have hid : selected.freeze.providerId = selected.providerId := rfl
  rw [hchain, hid]
  cases selected.explicitFallbackChain.isEmpty with
  | false => simp [followChain_freeze]
  | true =>
    simp only [if_true]
    rw [List.filter_map, List.mapM_map_of_round (f := keyed text)
      (k := fun pair : SortKey × RouteCandidate => (pair.1, pair.2.freeze))]
    · rw [bind_map_left, map_bind]
      refine bind_congr fun pairs => ?_
      have hsorted : sortedBy (fun a b => a.1.fallbackLt b.1)
          (pairs.map fun pair => (pair.1, pair.2.freeze)) =
          (sortedBy (fun a b => a.1.fallbackLt b.1) pairs).map
            fun pair => (pair.1, pair.2.freeze) := sortedBy_map fun _ _ _ _ => rfl
      rw [hsorted]
      simp [Function.comp_def]
    · exact fun c hc => keyed_freeze (hmodel c (List.mem_of_mem_filter hc))

theorem routeAttempts_freeze {maxAttempts : Int} {backoffBaseS : Binary64}
    {cs : List RouteCandidate} (hmodel : ∀ c ∈ cs, ∃ p, c.provider = .model p) :
    routeAttempts text maxAttempts backoffBaseS (cs.map RouteCandidate.freeze) =
      List.map RouteAttempt.freeze <$> routeAttempts text maxAttempts backoffBaseS cs := by
  cases cs with
  | nil => rfl
  | cons first rest =>
    have hfallbacks : fallbackCandidates text (selectPrimaryCandidate first rest).freeze
        (first.freeze :: rest.map RouteCandidate.freeze) = _ := fallbackCandidates_freeze hmodel
    rw [List.map_cons]
    simp only [routeAttempts, selectPrimaryCandidate_freeze]
    rw [hfallbacks, bind_map_left, map_bind]
    refine bind_congr fun fallbacks => ?_
    rw [← List.map_cons, ← List.map_take, List.zipIdx_map]
    exact List.mapM_map_of_round fun pair _ => by
      simp [routeAttempt, RouteAttempt.freeze, RouteCandidate.freeze]

end Stages34

/-- The checks of Stage 1 that read a list by the texts of its items come to the same on the
frozen record, and so do the capacity keys of a pod lease that comes through Stages 1 and 2. -/
structure ReadsAlike (text : PyString) (request : RoutingRequest) (options : PlanOptions)
    (now : Instant) (p : ProviderModel) : Prop where
  cuda : cudaMismatch text request (ProviderLike.model p).freeze =
    cudaMismatch text request (.model p)
  gpuClass : gpuClassMismatch text request (ProviderLike.model p).freeze =
    gpuClassMismatch text request (.model p)
  capacity : PassesGates text request options now (.model p) →
    isPodLeaseProvider (.model p) = true →
      (ProviderLike.model p).freeze.capacityKeys text request =
        (ProviderLike.model p).capacityKeys text request

section Plan
variable {σ : Type} {text : PyString} {reader : CapacityReader σ} {state : σ}
  {request : RoutingRequest} {options : PlanOptions} {now : Instant} {models : List ProviderModel}

theorem planRoute_freeze (halike : ∀ p ∈ models, ReadsAlike text request options now p) :
    planRoute text reader state request options now
        (freezeProviderSnapshot (models.map .model)) =
      RoutePlan.freeze <$> planRoute text reader state request options now
        (models.map .model) := by
  unfold planRoute
  rw [map_bind]
  refine bind_congr fun _ => ?_
  rw [filterHardConstraints_freeze
    (List.forall_mem_map.mpr fun p hp => (halike p hp).cuda)
    (List.forall_mem_map.mpr fun p hp => (halike p hp).gpuClass), bind_map_left, map_bind]
  refine Except.bind_congr fun stage1 hstage1 => ?_
  rw [map_bind]
  refine bind_congr fun elims => ?_
  have hstage2 : stage1.freeze.passed.mapM (stage2Round text now) =
      List.map (fun r => (r.1.freeze, r.2)) <$> stage1.passed.mapM (stage2Round text now) :=
    List.mapM_map_of_round fun q hq => by
      obtain ⟨p, -, rfl⟩ := List.mem_map.mp ((mem_passed_iff hstage1 q).mp hq).1
      exact stage2Round_freeze now p
  rw [hstage2, bind_map_left, map_bind]
  refine Except.bind_congr fun rounds hrounds => ?_
  have heligible : ((rounds.map fun r => (r.1.freeze, r.2)).filter
      fun round => round.2.2.isEmpty).map Prod.fst =
      ((rounds.filter fun round => round.2.2.isEmpty).map Prod.fst).map ProviderLike.freeze := by
    simp [List.filter_map, Function.comp_def]
  dsimp only
  rw [heligible, List.mapM_map_of_round fun p _ => candidateForProvider_freeze text p _ _,
    bind_map_left, map_bind]
  refine Except.bind_congr fun cands hcands => ?_
  have hpasses : ∀ c ∈ cands, ∃ p ∈ models, c.provider = .model p ∧
      PassesGates text request options now (.model p) := fun c hc => by
    obtain ⟨q, hq, hok⟩ := List.mem_of_mapM_eq_ok hcands hc
    obtain ⟨hmem, hgates⟩ := (mem_eligible_iff hstage1 hrounds q).mp hq
    obtain ⟨p, hp, rfl⟩ := List.mem_map.mp hmem
    exact ⟨p, hp, (candidateForProvider_eq_ok hok).1, hgates⟩
  rw [rankCandidates_freeze fun c hc => (hpasses c hc).imp fun p hp => hp.2.1, bind_map_left,
    map_bind]
  refine Except.bind_congr fun ranked hranked => ?_
  have hpasses : ∀ c ∈ ranked, ∃ p ∈ models, c.provider = .model p ∧
      PassesGates text request options now (.model p) := fun c hc => by
    obtain ⟨d, hd, hprovider, -⟩ := exists_candidate_of_ranked hranked hc
    rw [← hprovider]
    exact hpasses d hd
  rw [applyStage4Capacity_freeze, bind_map_left, map_bind]
  · refine Except.bind_congr fun stage4 hstage4 => ?_
    have hsub := (applyStage4Capacity_spec hstage4).sublist.subset
    have hattempts : routeAttempts text options.maxAttempts options.backoffBaseS
        stage4.freeze.available = _ :=
      routeAttempts_freeze fun c hc => (hpasses c (hsub hc)).imp fun p hp => hp.2.1
    rw [hattempts, bind_map_left, map_bind]
    refine bind_congr fun attempts => ?_
    have hstage2 : (rounds.map fun r => (r.1.freeze, r.2)).filterMap stage2Elimination =
        rounds.filterMap stage2Elimination := by
      rw [List.filterMap_map]
      refine List.filterMap_congr fun r _ => ?_
      obtain ⟨q, id, reasons⟩ := r
      cases reasons <;> rfl
    rw [hstage2]
    rfl
  · intro c hc hlease
    obtain ⟨p, hp, hmodel, hgates⟩ := hpasses c hc
    rw [hmodel] at hlease ⊢
    exact (halike p hp).capacity hgates hlease

theorem checks_of_reasons {p : ProviderLike} {capability : Option CapabilityModel}
    {capabilityId : Option String} {reasons : List EliminationReason}
    (h : hardConstraintReasons text request p capability capabilityId = .ok reasons) :
    cudaMismatch text request p = .ok (decide (.cudaMismatch ∈ reasons)) ∧
      gpuClassMismatch text request p = .ok (decide (.gpuClassMismatch ∈ reasons)) := by
  simp only [hardConstraintReasons, Except.bind_eq_ok_iff, Except.pure_eq_ok_iff] at h
  obtain ⟨cuda, hcuda, gpu, hgpu, payload, -, rfl⟩ := h
  rw [hcuda, hgpu]
  constructor
  · cases cuda <;> cases gpu <;> cases payload <;> split <;> split <;> simp
  · cases cuda <;> cases gpu <;> cases payload <;> split <;> split <;> simp

theorem capacityKeys_of_decision {c : RouteCandidate} {s s' : σ} {decision : CapacityDecision}
    (h : capacityDecisionForCandidate text request reader c s = .ok (decision, s')) :
    c.provider.capacityKeys text request = .ok decision.keys := by
  simp only [capacityDecisionForCandidate, Except.bind_eq_ok_iff] at h
  obtain ⟨keys, hkeys, h⟩ := h
  split at h
  next hempty =>
    rw [Except.pure_eq_ok_iff] at h
    cases h
    rw [hkeys, List.isEmpty_iff.mp hempty]
  next =>
    simp only [Except.bind_eq_ok_iff, Except.pure_eq_ok_iff] at h
    obtain ⟨_, _, h⟩ := h
    cases h
    exact hkeys

theorem capacityKeys_of_stage4 {cs : List RouteCandidate} {s s' : σ} {result result' : Stage4}
    (h : applyStage4Capacity text request reader cs s = .ok result)
    (h' : applyStage4Capacity text request reader (cs.map RouteCandidate.freeze) s' = .ok result')
    (hdecisions : result'.decisions = result.decisions) :
    ∀ c ∈ cs, isPodLeaseProvider c.provider = true →
      c.provider.freeze.capacityKeys text request = c.provider.capacityKeys text request := by
  induction cs generalizing s s' result result' with
  | nil => simp
  | cons c cs ih =>
    rw [List.map_cons] at h'
    rw [applyStage4Capacity] at h h'
    have hprovider : c.freeze.provider = c.provider.freeze := rfl
    rw [hprovider, isPodLeaseProvider_freeze] at h'
    cases hlease : isPodLeaseProvider c.provider with
    | false =>
      simp only [hlease, Bool.not_false, if_true, Except.bind_eq_ok_iff,
        Except.pure_eq_ok_iff] at h h'
      obtain ⟨rest, hrest, rfl⟩ := h
      obtain ⟨rest', hrest', rfl⟩ := h'
      refine List.forall_mem_cons.mpr ⟨fun hother => ?_, ih hrest hrest' hdecisions⟩
      rw [hlease] at hother
      cases hother
    | true =>
      simp only [hlease, Bool.not_true, Bool.false_eq_true, if_false, Except.bind_eq_ok_iff,
        Except.pure_eq_ok_iff] at h h'
      obtain ⟨⟨decision, t⟩, hdecision, rest, hrest, rfl⟩ := h
      obtain ⟨⟨decision', t'⟩, hdecision', rest', hrest', rfl⟩ := h'
      have hcons : decision' :: rest'.decisions = decision :: rest.decisions := by
        by_cases ha : decision.available = some true
        · by_cases ha' : decision'.available = some true
          · simpa [ha, ha'] using hdecisions
          · simpa [ha, ha'] using hdecisions
        · by_cases ha' : decision'.available = some true
          · simpa [ha, ha'] using hdecisions
          · simpa [ha, ha'] using hdecisions
      obtain ⟨rfl, hrests⟩ := List.cons.inj hcons
      refine List.forall_mem_cons.mpr ⟨fun _ => ?_, ih hrest hrest' hrests⟩
      rw [capacityKeys_of_decision hdecision]
      exact capacityKeys_of_decision hdecision'

theorem PlanStages.reasons_of_elimination {providers : List ProviderLike} {plan : RoutePlan}
    (st : PlanStages text reader state request options now providers plan)
    {e : RouteElimination} (he : e ∈ plan.eliminated) (hstage : e.stage = 1) :
    ∃ p ∈ providers, ∃ reasons, hardConstraintReasons text request p options.capability
      (expectedCapabilityId request options.capability options.capabilityId) = .ok reasons ∧
      e.providerId = p.idOf ∧ e.reasons = reasons.map .constraint := by
  rw [st.eliminated_eq, List.mem_append, List.mem_append] at he
  rcases he with (he | he) | he
  · obtain ⟨r, hr, hok⟩ := List.mem_of_mapM_eq_ok st.stage1_eq he
    obtain ⟨round, hround, rfl⟩ := List.mem_map.mp (List.mem_of_mem_filter hr)
    obtain ⟨hmem, hevaluate⟩ := st.round_of_mem hround
    obtain ⟨-, hreasons, -⟩ := evaluateHardConstraints_eq_ok hevaluate
    refine ⟨round.1, hmem, _, hreasons, ?_, stage1Elimination_reasons hok⟩
    rw [(stage1Elimination_eq_ok hok).1, st.round_idOf hround]
  · obtain ⟨r, -, hsome⟩ := List.mem_filterMap.mp he
    rw [(stage2Elimination_eq_some hsome).2.2] at hstage
    cases hstage
  · rw [applyStage4Capacity_stage st.stage4_eq e he] at hstage
    cases hstage

theorem PlanStages.elimination_of_reasons {providers : List ProviderLike} {plan : RoutePlan}
    (st : PlanStages text reader state request options now providers plan)
    {p : ProviderLike} (hp : p ∈ providers) : ∃ reasons,
      hardConstraintReasons text request p options.capability
        (expectedCapabilityId request options.capability options.capabilityId) = .ok reasons ∧
      (reasons ≠ [] → ∃ e ∈ plan.eliminated, e.stage = 1 ∧ e.providerId = p.idOf ∧
        e.reasons = reasons.map .constraint) := by
  obtain ⟨round, hround, hok⟩ := List.exists_mem_of_mapM_eq_ok st.rounds_eq hp
  obtain ⟨result, hresult, rfl⟩ := Except.map_eq_ok_iff.mp hok
  obtain ⟨hid, hreasons, hpassed⟩ := evaluateHardConstraints_eq_ok hresult
  refine ⟨result.reasons, hreasons, fun hne => ?_⟩
  have hfailed : result ∈ (st.rounds.map Prod.snd).filter fun r => !r.passed := by
    refine List.mem_filter.mpr ⟨List.mem_map_of_mem hround, ?_⟩
    simpa [hpassed] using hne
  obtain ⟨e, he, helimination⟩ := List.exists_mem_of_mapM_eq_ok st.stage1_eq hfailed
  obtain ⟨heid, -, hstage⟩ := stage1Elimination_eq_ok helimination
  refine ⟨e, ?_, hstage, heid.trans (ProviderLike.idOf_of_providerId hid).symm,
    stage1Elimination_reasons helimination⟩
  rw [st.eliminated_eq]
  exact List.mem_append_left _ (List.mem_append_left _ he)

theorem mem_freezeProviderSnapshot {q : ProviderLike} :
    q ∈ freezeProviderSnapshot (models.map .model) ↔ ∃ p ∈ models, q = (ProviderLike.model p).freeze := by
  simp only [freezeProviderSnapshot, List.map_map, List.mem_map, Function.comp_apply, eq_comm]

theorem idOf_freeze (p : ProviderModel) : (ProviderLike.model p).freeze.idOf = p.id := by
  rw [ProviderLike.idOf, ProviderLike.stringField_freeze]
  exact ProviderLike.idOf_model p

theorem reasons_of_plans {plan : RoutePlan} (hdistinct : (models.map ProviderModel.id).Nodup)
    (h : planRoute text reader state request options now (models.map .model) = .ok plan)
    (h' : planRoute text reader state request options now
      (freezeProviderSnapshot (models.map .model)) = .ok plan.freeze) :
    ∀ p ∈ models, ∃ reasons,
      hardConstraintReasons text request (.model p) options.capability
        (expectedCapabilityId request options.capability options.capabilityId) = .ok reasons ∧
      hardConstraintReasons text request (ProviderLike.model p).freeze options.capability
        (expectedCapabilityId request options.capability options.capabilityId) = .ok reasons := by
  obtain ⟨st⟩ := planRoute_eq_ok_iff.mp h
  obtain ⟨st'⟩ := planRoute_eq_ok_iff.mp h'
  have hinj : Function.Injective (List.map ProviderEliminated.constraint) :=
    List.map_injective_iff.mpr fun a b hab => ProviderEliminated.constraint.inj hab
  have hsame : ∀ p ∈ models, ∀ q ∈ models, p.id = q.id → p = q := fun p hp q hq hid =>
    List.inj_on_of_nodup_map hdistinct hp hq hid
  intro p hp
  obtain ⟨reasons, hreasons, hlive⟩ := st.elimination_of_reasons (List.mem_map_of_mem hp)
  obtain ⟨reasons', hreasons', hreplay⟩ :=
    st'.elimination_of_reasons (mem_freezeProviderSnapshot.mpr ⟨p, hp, rfl⟩)
  refine ⟨reasons, hreasons, ?_⟩
  rw [hreasons']
  refine congrArg Except.ok ?_
  rw [idOf_freeze] at hreplay
  rw [ProviderLike.idOf_model] at hlive
  by_cases hnone : reasons = []
  · by_contra hne
    rw [hnone] at hne
    obtain ⟨e, he, hstage, hid, hlist⟩ := hreplay hne
    obtain ⟨q, hq, rs, hrs, hqid, hqlist⟩ := st.reasons_of_elimination he hstage
    obtain ⟨m, hm, rfl⟩ := List.mem_map.mp hq
    rw [ProviderLike.idOf_model] at hqid
    obtain rfl := hsame p hp m hm (hid.symm.trans hqid)
    rw [hreasons] at hrs
    rw [hlist, ← Except.ok.inj hrs, hnone] at hqlist
    exact hne (hinj hqlist)
  · obtain ⟨e, he, hstage, hid, hlist⟩ := hlive hnone
    obtain ⟨q, hq, rs, hrs, hqid, hqlist⟩ := st'.reasons_of_elimination he hstage
    obtain ⟨m, hm, rfl⟩ := mem_freezeProviderSnapshot.mp hq
    rw [idOf_freeze] at hqid
    obtain rfl := hsame p hp m hm (hid.symm.trans hqid)
    rw [hreasons'] at hrs
    rw [hlist, ← Except.ok.inj hrs] at hqlist
    exact (hinj hqlist).symm

theorem readsAlike_of_plans {plan : RoutePlan} (hdistinct : (models.map ProviderModel.id).Nodup)
    (h : planRoute text reader state request options now (models.map .model) = .ok plan)
    (h' : planRoute text reader state request options now
      (freezeProviderSnapshot (models.map .model)) = .ok plan.freeze) :
    ∀ p ∈ models, ReadsAlike text request options now p := by
  intro p hp
  obtain ⟨reasons, hreasons, hreasons'⟩ := reasons_of_plans hdistinct h h' p hp
  obtain ⟨hcuda, hgpu⟩ := checks_of_reasons hreasons
  obtain ⟨hcuda', hgpu'⟩ := checks_of_reasons hreasons'
  refine ⟨hcuda'.trans hcuda.symm, hgpu'.trans hgpu.symm, fun hgates hlease => ?_⟩
  obtain ⟨st⟩ := planRoute_eq_ok_iff.mp h
  obtain ⟨st'⟩ := planRoute_eq_ok_iff.mp h'
  obtain ⟨d, hd, hok⟩ := st.candidate_of_passes (List.mem_map_of_mem hp) hgates
  have hranked : ProviderLike.model p ∈ plan.rankedCandidates.map RouteCandidate.provider := by
    rw [mem_ranked_providers_iff st.ranked_eq, ← (candidateForProvider_eq_ok hok).1]
    exact List.mem_map_of_mem hd
  obtain ⟨c, hc, hprovider⟩ := List.mem_map.mp hranked
  have hdecisions : st'.stage4.decisions = st.stage4.decisions := by
    rw [← st'.decisions_eq, ← st.decisions_eq]
    rfl
  have hkeys := capacityKeys_of_stage4 st.stage4_eq st'.stage4_eq hdecisions c hc
  rw [hprovider] at hkeys
  exact hkeys hlease

end Plan

section Flat
variable {text : PyString} {request : RoutingRequest} {p : ProviderLike}

def FlatLists (p : ProviderLike) : Prop :=
  ∀ key items, (p.configValue key).sequence? = some items → ∀ v ∈ items, freezeValue v = v

theorem map_freezeValue_of_flat (hflat : FlatLists p) {key : String} {items : List PyValue}
    (h : (p.configValue key).sequence? = some items) : items.map freezeValue = items :=
  (List.map_congr_left (hflat key items h)).trans (List.map_id' items)

theorem itemTexts_of_flat (hflat : FlatLists p) (key : String) :
    itemTexts text (freezeValue (p.configValue key)) = itemTexts text (p.configValue key) := by
  unfold itemTexts
  rw [PyValue.text?_freezeValue, PyValue.sequence?_freezeValue]
  cases hseq : (p.configValue key).sequence? with
  | none => rfl
  | some items => rw [Option.map_some, map_freezeValue_of_flat hflat hseq]

theorem capacityGpuNamesAt_of_flat (hflat : FlatLists p) (key : String) :
    p.freeze.capacityGpuNamesAt text key = p.capacityGpuNamesAt text key := by
  unfold ProviderLike.capacityGpuNamesAt
  simp only [ProviderLike.configValue_freeze, PyValue.text?_freezeValue,
    PyValue.sequence?_freezeValue]
  cases hseq : (p.configValue key).sequence? with
  | none => rfl
  | some items => rw [Option.map_some, map_freezeValue_of_flat hflat hseq]

theorem readsAlike_of_flat {options : PlanOptions} {now : Instant} {p : ProviderModel}
    (hflat : FlatLists (.model p)) : ReadsAlike text request options now p := by
  refine ⟨?_, ?_, fun _ _ => ?_⟩
  · simp [cudaMismatch, PyString.providerCudaVersions, itemTexts_of_flat hflat]
  · simp [gpuClassMismatch, PyString.providerGpuClasses, itemTexts_of_flat hflat]
  · simp [ProviderLike.capacityKeys, ProviderLike.capacityGpuNames,
      capacityGpuNamesAt_of_flat hflat]

end Flat

section Replay
variable (text : PyString) (world : World) (request : RoutingRequest) (options : PlanOptions)
  (now : Instant) (cache : AvailabilityCache) (models : List ProviderModel)

def livePlan (address : Nat) : Except PyError RoutePlan :=
  planRouteIn text world request (some (models.map .model)) options none (some (some now))
    (some (⟨address, .cache cache⟩ : CacheArgument Unit)) none

def replayedPlan (later : World) : Except PyError RoutePlan := do
  let context ← PlanningContext.replay text (some now)
    (some (.fromCache world.monotonic cache)) [] (freezeProviderSnapshot (models.map .model)) none
  planRouteIn text later request none options (some context) none
    (none : Option (CacheArgument Unit)) none

variable {text world request options now cache models}

theorem replayedPlan_eq (later : World) :
    replayedPlan text world request options now cache models later =
      if models.isEmpty then do
        validatePlanOptions options.maxAttempts options.backoffBaseS
        .error (valueError "providers must be supplied directly or through PlanningContext")
      else planRoute text ((AvailabilitySnapshot.fromCache world.monotonic cache).reader text) ()
        request options now (freezeProviderSnapshot (models.map .model)) := by
  have hfrozen : freezeProviderSnapshot (freezeProviderSnapshot (models.map .model)) =
      freezeProviderSnapshot (models.map .model) := by
    simp [freezeProviderSnapshot, ProviderLike.freeze_freeze]
  have hempty : (freezeProviderSnapshot (models.map .model)).isEmpty = models.isEmpty := by
    simp [freezeProviderSnapshot]
  have hcontext : replayedPlan text world request options now cache models later =
      planRouteIn text later request none options
        (some ⟨now, .fromCache world.monotonic cache,
          freezeProviderSnapshot (freezeProviderSnapshot (models.map .model)), none⟩)
        none (none : Option (CacheArgument Unit)) none := rfl
  rw [hcontext, planRouteIn_context text later request options _ rfl, hfrozen, hempty]

/-- The replay returns the frozen plan, or raises what the plan raises, when there is a
provider and each is read alike. Of a plan that returns over distinct ids it returns the frozen
plan only then. -/
theorem replay_reproduces_live (text : PyString) (world later : World) (request : RoutingRequest)
    (options : PlanOptions) (now : Instant) (cache : AvailabilityCache)
    (models : List ProviderModel) (address : Nat) :
    (models ≠ [] → (∀ p ∈ models, ReadsAlike text request options now p) →
      replayedPlan text world request options now cache models later =
        RoutePlan.freeze <$> livePlan text world request options now cache models address) ∧
    ((models.map ProviderModel.id).Nodup →
      ∀ plan, livePlan text world request options now cache models address = .ok plan →
        (replayedPlan text world request options now cache models later = .ok plan.freeze ↔
          models ≠ [] ∧ ∀ p ∈ models, ReadsAlike text request options now p)) := by
  rw [replayedPlan_eq, livePlan, planRouteIn_live]
  constructor
  · intro hne halike
    rw [if_neg (by simpa using hne), planRoute_freeze halike]
  · intro hdistinct plan hlive
    constructor
    · intro hreplay
      by_cases hne : models = []
      · rw [if_pos (by simp [hne]), Except.bind_eq_ok_iff] at hreplay
        obtain ⟨_, -, hraised⟩ := hreplay
        cases hraised
      · rw [if_neg (by simpa using hne)] at hreplay
        exact ⟨hne, readsAlike_of_plans hdistinct hlive hreplay⟩
    · rintro ⟨hne, halike⟩
      rw [if_neg (by simpa using hne), planRoute_freeze halike, hlive]
      rfl

end Replay

def nestedText : PyString :=
  { asciiText with
    str
      | .list [.str s] => some ("['" ++ s ++ "']")
      | .tuple [.str s] => some ("('" ++ s ++ "',)")
      | v => asciiText.str v }

def emptyCache : AvailabilityCache := ⟨[], .ofRat 300, List.nodup_nil⟩

def sampleWorld : World := ⟨0, fun _ => .ofRat 0, emptyCache⟩

def nestedLease : ProviderModel :=
  sampleProvider "nested" (by decide) .podLease [("gpu_types", .list [.list [.str "A100"]])]

def gpuNames (plan : RoutePlan) : List String :=
  plan.capacityDecisions.flatMap fun d => d.keys.map CapacityProbeKey.gpuName

/-- The replay asks for another GPU than the live plan, and does not plan over no provider. -/
theorem replay_differs :
    (∃ plan, livePlan nestedText sampleWorld sampleRequest defaultOptions 0 emptyCache
        [nestedLease] 0 = .ok plan ∧
      replayedPlan nestedText sampleWorld sampleRequest defaultOptions 0 emptyCache
        [nestedLease] sampleWorld ≠ .ok plan.freeze) ∧
    ∃ plan, livePlan nestedText sampleWorld sampleRequest defaultOptions 0 emptyCache [] 0 =
        .ok plan ∧
      replayedPlan nestedText sampleWorld sampleRequest defaultOptions 0 emptyCache [] sampleWorld ≠
        .ok plan.freeze := by
  have hlive : gpuNames <$> livePlan nestedText sampleWorld sampleRequest defaultOptions 0
      emptyCache [nestedLease] 0 = .ok ["['A100']"] := by decide +kernel
  have hreplay : gpuNames <$> replayedPlan nestedText sampleWorld sampleRequest defaultOptions 0
      emptyCache [nestedLease] sampleWorld = .ok ["('A100',)"] := by decide +kernel
  have hnone : gpuNames <$> livePlan nestedText sampleWorld sampleRequest defaultOptions 0
      emptyCache [] 0 = .ok [] := by decide +kernel
  have hraise : gpuNames <$> replayedPlan nestedText sampleWorld sampleRequest defaultOptions 0
      emptyCache [] sampleWorld = .error
        (valueError "providers must be supplied directly or through PlanningContext") := by
    decide +kernel
  constructor
  · obtain ⟨plan, hplan, hnames⟩ := Except.map_eq_ok_iff.mp hlive
    refine ⟨plan, hplan, fun h => ?_⟩
    rw [h] at hreplay
    have hfrozen : gpuNames plan = ["('A100',)"] := Except.ok.inj hreplay
    rw [hnames] at hfrozen
    exact absurd hfrozen (by decide)
  · obtain ⟨plan, hplan, -⟩ := Except.map_eq_ok_iff.mp hnone
    refine ⟨plan, hplan, fun h => ?_⟩
    rw [h] at hraise
    cases hraise

theorem lease_ne : "lease" ≠ "" := by decide

def flatLease : ProviderModel :=
  sampleProvider "lease" lease_ne .podLease [("gpu_types", .list [.str "A100"])]

def sampleCache : AvailabilityCache :=
  ⟨[(⟨"US-KS-2", "A100", "SECURE", 1⟩, ⟨true, .ofRat 0⟩)], .ofRat 300, List.nodup_singleton _⟩

theorem flatLists_flatLease : FlatLists (.model flatLease) := by
  have hread : ∀ key, (ProviderLike.model flatLease).configValue key =
      if key = "gpu_types" then .list [.str "A100"] else .none := by
    intro key
    have hconfig : (ProviderLike.model flatLease).config =
        [("gpu_types", .list [.str "A100"])] := rfl
    unfold ProviderLike.configValue
    rw [hconfig]
    by_cases hkey : key = "gpu_types"
    · rw [if_pos hkey, hkey]
      rfl
    · have hother : ∀ v : PyValue, List.lookup key [("gpu_types", v)] = none := fun v => by
        rw [List.lookup_cons, beq_eq_false_iff_ne.mpr hkey]
        rfl
      rw [if_neg hkey, hother]
      rfl
  intro key items hitems v hv
  rw [hread] at hitems
  split at hitems
  · cases hitems
    rw [List.mem_singleton.mp hv]
    rfl
  · cases hitems

/-- On it the replay reproduces the plan, which attempts the lease. -/
theorem replay_reproduces_lease : ∃ plan,
    livePlan asciiText sampleWorld sampleRequest defaultOptions 0 sampleCache [flatLease] 0 =
      .ok plan ∧
    replayedPlan asciiText sampleWorld sampleRequest defaultOptions 0 sampleCache [flatLease]
      sampleWorld = .ok plan.freeze ∧
    plan.attempts.map RouteAttempt.providerId = ["lease"] := by
  have hlive : (fun plan => plan.attempts.map RouteAttempt.providerId) <$>
      livePlan asciiText sampleWorld sampleRequest defaultOptions 0 sampleCache [flatLease] 0 =
        .ok ["lease"] := by decide +kernel
  obtain ⟨plan, hplan, hids⟩ := Except.map_eq_ok_iff.mp hlive
  refine ⟨plan, hplan, ?_, hids⟩
  refine ((replay_reproduces_live asciiText sampleWorld sampleWorld sampleRequest defaultOptions 0
    sampleCache [flatLease] 0).2 (List.nodup_singleton _) plan hplan).mpr
      ⟨List.cons_ne_nil _ _, fun p hp => ?_⟩
  rw [List.mem_singleton.mp hp]
  exact readsAlike_of_flat flatLists_flatLease

end Pitwall.Routing
