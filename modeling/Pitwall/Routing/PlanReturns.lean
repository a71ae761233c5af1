import Mathlib
import Pitwall.Routing.PlanSafety
set_option autoImplicit false

/-!
When a plan is returned at all: what each stage must be able to read.
-/

namespace Pitwall.Routing

def CapacityReader.Answers {σ : Type} (reader : CapacityReader σ) : Prop :=
  ∀ s key, ∃ answer, reader.isAvailable s key = .ok answer

section Returns
variable {σ : Type} {text : PyString} {request : RoutingRequest} {reader : CapacityReader σ}

theorem probeKeys_returns (hreader : reader.Answers) (sawUnknown : Bool)
    (keys : List CapacityProbeKey) (s : σ) :
    ∃ answer, probeKeys reader sawUnknown keys s = .ok answer := by
  induction keys generalizing sawUnknown s with
  | nil => exact ⟨_, rfl⟩
  | cons key keys ih =>
    obtain ⟨⟨available, s'⟩, hanswer⟩ := hreader s key
    simp only [probeKeys, hanswer]
    rcases available with _ | _ | _
    · exact ih true s'
    · exact ih sawUnknown s'
    · exact ⟨_, rfl⟩

theorem capacityDecisionForCandidate_returns_iff (hreader : reader.Answers) (c : RouteCandidate)
    (s : σ) : (∃ decision, capacityDecisionForCandidate text request reader c s = .ok decision) ↔
      ∃ keys, c.provider.capacityKeys text request = .ok keys := by
  simp only [capacityDecisionForCandidate, Except.bind_eq_ok_iff]
  constructor
  · rintro ⟨decision, keys, hkeys, -⟩
    exact ⟨keys, hkeys⟩
  · rintro ⟨keys, hkeys⟩
    by_cases hempty : keys.isEmpty
    · exact ⟨_, keys, hkeys, if_pos hempty⟩
    · obtain ⟨answer, hanswer⟩ := probeKeys_returns hreader false keys s
      exact ⟨_, keys, hkeys, (if_neg hempty).trans (Except.bind_of_ok hanswer)⟩

theorem applyStage4Capacity_returns_iff (hreader : reader.Answers) (cs : List RouteCandidate)
    (s : σ) : (∃ result, applyStage4Capacity text request reader cs s = .ok result) ↔
      ∀ c ∈ cs, isPodLeaseProvider c.provider = true →
        ∃ keys, c.provider.capacityKeys text request = .ok keys := by
  induction cs generalizing s with
  | nil => simp [applyStage4Capacity]
  | cons c cs ih =>
    rw [List.forall_mem_cons, applyStage4Capacity]
    cases hlease : isPodLeaseProvider c.provider with
    | false =>
      simp only [Bool.not_false, if_true, Except.bind_eq_ok_iff, Except.pure_eq_ok_iff,
        Bool.false_eq_true, false_imp_iff, true_and, ← ih s]
      constructor
      · rintro ⟨-, rest, hrest, -⟩
        exact ⟨rest, hrest⟩
      · rintro ⟨rest, hrest⟩
        exact ⟨_, rest, hrest, rfl⟩
    | true =>
      simp only [Bool.not_true, Bool.false_eq_true, if_false, Except.bind_eq_ok_iff,
        Except.pure_eq_ok_iff, true_imp_iff,
        ← capacityDecisionForCandidate_returns_iff hreader c s]
      constructor
      · rintro ⟨result, ⟨decision, s'⟩, hdecision, rest, hrest, -⟩
        exact ⟨⟨_, hdecision⟩, (ih s').mp ⟨rest, hrest⟩⟩
      · rintro ⟨⟨⟨decision, s'⟩, hdecision⟩, hrest⟩
        obtain ⟨rest, hrest⟩ := (ih s').mpr hrest
        exact ⟨_, _, hdecision, rest, hrest, rfl⟩

theorem keyed_returns_iff (c : RouteCandidate) :
    (∃ pair, keyed text c = .ok pair) ↔ ∃ priority, c.provider.priority text = .ok priority := by
  simp only [keyed, candidateSortKey, Except.map_eq_ok_iff, Except.bind_eq_ok_iff,
    Except.pure_eq_ok_iff]
  constructor
  · rintro ⟨pair, key, ⟨priority, hpriority, -⟩, -⟩
    exact ⟨priority, hpriority⟩
  · rintro ⟨priority, hpriority⟩
    exact ⟨_, _, ⟨priority, hpriority, rfl⟩, rfl⟩

theorem rankCandidates_returns_iff (cs : List RouteCandidate) :
    (∃ ranked, rankCandidates text cs = .ok ranked) ↔
      ∀ c ∈ cs, ∃ priority, c.provider.priority text = .ok priority := by
  simp only [← keyed_returns_iff, ← List.mapM_returns_iff, rankCandidates, Except.bind_eq_ok_iff,
    Except.pure_eq_ok_iff]
  constructor
  · rintro ⟨-, pairs, hpairs, -⟩
    exact ⟨pairs, hpairs⟩
  · rintro ⟨pairs, hpairs⟩
    exact ⟨_, pairs, hpairs, rfl⟩

theorem fallbackCandidates_returns (selected : RouteCandidate) {ranked : List RouteCandidate}
    (hranked : ∀ c ∈ ranked, ∃ priority, c.provider.priority text = .ok priority) :
    ∃ fallbacks, fallbackCandidates text selected ranked = .ok fallbacks := by
  unfold fallbackCandidates
  split
  · obtain ⟨pairs, hpairs⟩ := List.exists_mapM_eq_ok (f := keyed text)
      (l := ranked.filter fun c =>
        selected.providerId ∈ c.fallbackFor && c.providerId ≠ selected.providerId)
      fun c hc => (keyed_returns_iff c).mpr (hranked c (List.mem_of_mem_filter hc))
    exact ⟨_, Except.bind_of_ok hpairs⟩
  · exact ⟨_, rfl⟩

/-- `2 ** 1023` still has a float. -/
theorem backoffBeforeAttempt_returns {attempt : Nat} (backoffBaseS : Binary64)
    (hfew : attempt ≤ 1025) :
    ∃ backoff, backoffBeforeAttempt attempt backoffBaseS = .ok backoff := by
  unfold backoffBeforeAttempt
  by_cases hone : attempt = 1
  · rw [if_pos hone]
    exact ⟨_, rfl⟩
  · rw [if_neg hone, if_neg (by omega)]
    exact ⟨_, rfl⟩

theorem routeAttempts_returns {maxAttempts : Int} (backoffBaseS : Binary64)
    (hfew : maxAttempts ≤ 1025) {ranked : List RouteCandidate}
    (hranked : ∀ c ∈ ranked, ∃ priority, c.provider.priority text = .ok priority) :
    ∃ attempts, routeAttempts text maxAttempts backoffBaseS ranked = .ok attempts := by
  cases ranked with
  | nil => exact ⟨[], rfl⟩
  | cons first rest =>
    obtain ⟨fallbacks, hfallbacks⟩ := fallbackCandidates_returns
      (selectPrimaryCandidate first rest) hranked
    simp only [routeAttempts, hfallbacks]
    refine List.exists_mapM_eq_ok fun pair hpair => ?_
    obtain ⟨c, index⟩ := pair
    have hindex := (List.mem_zipIdx hpair).2.1
    rw [List.length_take] at hindex
    obtain ⟨backoff, hbackoff⟩ := backoffBeforeAttempt_returns backoffBaseS
      (show index ≤ 1025 by omega)
    exact ⟨_, Except.map_eq_ok_iff.mpr ⟨backoff, hbackoff, rfl⟩⟩

end Returns

section Plan
variable {σ : Type} {text : PyString} {reader : CapacityReader σ} {state : σ}
  {request : RoutingRequest} {options : PlanOptions} {now : Instant}
  {providers : List ProviderLike}

structure Plannable (text : PyString) (request : RoutingRequest) (options : PlanOptions)
    (p : ProviderLike) : Prop where
  candidate : ∃ c, candidateForProvider text (options.activeHints request) options.observed p =
    .ok c
  priority : ∃ priority, p.priority text = .ok priority
  capacity : isPodLeaseProvider p = true → ∃ keys, p.capacityKeys text request = .ok keys

def GatesReturn (text : PyString) (request : RoutingRequest) (options : PlanOptions)
    (now : Instant) (providers : List ProviderLike) : Prop :=
  validatePlanOptions options.maxAttempts options.backoffBaseS = .ok () ∧
    ∃ stage1, filterHardConstraints text request providers options.capability
      options.capabilityId = .ok stage1 ∧
      (∃ eliminated, stage1.eliminated.mapM stage1Elimination = .ok eliminated) ∧
      ∃ rounds, stage1.passed.mapM (stage2Round text now) = .ok rounds

theorem planRoute_returns_iff (hreader : reader.Answers) (hfew : options.maxAttempts ≤ 1025) :
    (∃ plan, planRoute text reader state request options now providers = .ok plan) ↔
      GatesReturn text request options now providers ∧
        ∀ p ∈ providers, PassesGates text request options now p →
          Plannable text request options p := by
  constructor
  · rintro ⟨plan, hplan⟩
    obtain ⟨st⟩ := planRoute_eq_ok_iff.mp hplan
    have hranked := (rankCandidates_returns_iff st.candidates).mp ⟨_, st.ranked_eq⟩
    have hstage4 := (applyStage4Capacity_returns_iff hreader plan.rankedCandidates state).mp
      ⟨_, st.stage4_eq⟩
    refine ⟨⟨st.valid, _, filterHardConstraints_eq_ok_iff.mpr ⟨st.rounds, st.rounds_eq, rfl⟩,
      ⟨_, st.stage1_eq⟩, _, st.stage2_eq⟩, fun p hp hpasses => ?_⟩
    obtain ⟨c, hc, hcandidate⟩ := st.candidate_of_passes hp hpasses
    obtain ⟨rfl, -, -⟩ := candidateForProvider_eq_ok hcandidate
    refine ⟨⟨c, hcandidate⟩, hranked c hc, fun hlease => ?_⟩
    obtain ⟨d, hd, hprovider⟩ := List.mem_map.mp
      ((mem_ranked_providers_iff st.ranked_eq _).mpr (List.mem_map_of_mem hc))
    rw [← hprovider] at hlease ⊢
    exact hstage4 d hd hlease
  · rintro ⟨⟨hvalid, stage1, hstage1, ⟨eliminated, heliminated⟩, rounds, hrounds⟩, hplannable⟩
    have heligible : ∀ p ∈ (rounds.filter fun r => r.2.2.isEmpty).map Prod.fst,
        Plannable text request options p := fun p hp =>
      have hpasses := (mem_eligible_iff hstage1 hrounds p).mp hp
      hplannable p hpasses.1 hpasses.2
    obtain ⟨candidates, hcandidates⟩ := List.exists_mapM_eq_ok fun p hp =>
      (heligible p hp).candidate
    have hof : ∀ c ∈ candidates, Plannable text request options c.provider := by
      intro c hc
      obtain ⟨p, hp, hok⟩ := List.mem_of_mapM_eq_ok hcandidates hc
      rw [(candidateForProvider_eq_ok hok).1]
      exact heligible p hp
    obtain ⟨ranked, hranked⟩ := (rankCandidates_returns_iff candidates).mpr fun c hc =>
      (hof c hc).priority
    have hranked' : ∀ c ∈ ranked, Plannable text request options c.provider := by
      intro c hc
      obtain ⟨d, hd, hprovider, -⟩ := exists_candidate_of_ranked hranked hc
      rw [← hprovider]
      exact hof d hd
    obtain ⟨stage4, hstage4⟩ := (applyStage4Capacity_returns_iff hreader ranked state).mpr
      fun c hc => (hranked' c hc).capacity
    obtain ⟨attempts, hattempts⟩ := routeAttempts_returns options.backoffBaseS hfew
      fun c hc => (hranked' c ((applyStage4Capacity_spec hstage4).sublist.subset hc)).priority
    simp only [planRoute, Except.bind_eq_ok_iff, Except.pure_eq_ok_iff]
    exact ⟨_, (), hvalid, _, hstage1, _, heliminated, _, hrounds, _, hcandidates, _, hranked, _,
      hstage4, _, hattempts, rfl⟩

end Plan

end Pitwall.Routing
