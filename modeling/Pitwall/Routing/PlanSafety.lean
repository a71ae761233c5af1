import Mathlib
import Pitwall.Routing.Stages
set_option autoImplicit false

/-!
The safety and the completeness of a route plan: no provider is lost or doubled on the way
through the stages, and what the plan attempts has passed all of them.
-/

namespace Pitwall.Routing

def RoutePlan.survivors (plan : RoutePlan) : List RouteCandidate :=
  plan.rankedCandidates.filter fun c => plan.eliminated.all fun e => e.providerId ≠ c.providerId

/-- The provider passes Stage 1, and Stage 2 has nothing against it. -/
structure PassesGates (text : PyString) (request : RoutingRequest) (options : PlanOptions)
    (now : Instant) (p : ProviderLike) : Prop where
  constraints : hardConstraintReasons text request p options.capability
    (expectedCapabilityId request options.capability options.capabilityId) = .ok []
  enabled : isDisabled p = false
  healthy : healthStatus text p ≠ "unhealthy"
  cooldown : isInCooldown text now p = .ok false

theorem mem_eligible_iff {text : PyString} {request : RoutingRequest} {options : PlanOptions}
    {now : Instant} {providers : List ProviderLike} {stage1 : HardConstraintFilterResult}
    {rounds : List (ProviderLike × String × List ProviderEliminated)}
    (hstage1 : filterHardConstraints text request providers options.capability
      options.capabilityId = .ok stage1)
    (hrounds : stage1.passed.mapM (stage2Round text now) = .ok rounds) (p : ProviderLike) :
    p ∈ (rounds.filter fun r => r.2.2.isEmpty).map Prod.fst ↔
      p ∈ providers ∧ PassesGates text request options now p := by
  constructor
  · intro hp
    obtain ⟨round, hround, rfl⟩ := List.mem_map.mp hp
    obtain ⟨hround, hempty⟩ := List.mem_filter.mp hround
    obtain ⟨q, hq, hok⟩ := List.mem_of_mapM_eq_ok hrounds hround
    obtain ⟨rfl, -, hreasons⟩ := stage2Round_eq_ok hok
    rw [List.isEmpty_iff.mp hempty] at hreasons
    obtain ⟨henabled, hhealthy, hcooldown⟩ := stage2EliminationReasons_eq_nil_iff.mp hreasons
    obtain ⟨hmem, hconstraints⟩ := (mem_passed_iff hstage1 _).mp hq
    exact ⟨hmem, hconstraints, henabled, hhealthy, hcooldown⟩
  · rintro ⟨hmem, hpasses⟩
    have hpassed := (mem_passed_iff hstage1 p).mpr ⟨hmem, hpasses.constraints⟩
    obtain ⟨round, hround, hok⟩ := List.exists_mem_of_mapM_eq_ok hrounds hpassed
    obtain ⟨hfst, -, hreasons⟩ := stage2Round_eq_ok hok
    rw [stage2EliminationReasons_eq_nil_iff.mpr ⟨hpasses.enabled, hpasses.healthy,
      hpasses.cooldown⟩] at hreasons
    refine List.mem_map.mpr ⟨round, List.mem_filter.mpr ⟨hround, ?_⟩, hfst⟩
    rw [← Except.ok.inj hreasons]
    rfl

theorem filter_eq_of_sublist {α β : Type} {f : α → β} {p : α → Bool} {l l' : List α}
    (hsub : l'.Sublist l) (hnodup : (l.map f).Nodup) (hkept : ∀ a ∈ l', p a = true)
    (hother : ∀ a ∈ l, p a = true → f a ∈ l'.map f) : l.filter p = l' := by
  induction hsub with
  | slnil => rfl
  | @cons l₁ l₂ a hsub ih =>
    obtain ⟨hfresh, hnodup⟩ := List.nodup_cons.mp hnodup
    have ha : p a = false := by
      cases hpa : p a with
      | false => rfl
      | true => exact absurd ((hsub.map f).subset (hother a (by simp) hpa)) hfresh
    rw [List.filter_cons_of_neg (by simp [ha])]
    exact ih hnodup hkept fun b hb hpb => hother b (List.mem_cons_of_mem _ hb) hpb
  | @cons_cons l₁ l₂ a hsub ih =>
    obtain ⟨hfresh, hnodup⟩ := List.nodup_cons.mp hnodup
    rw [List.filter_cons_of_pos (hkept a (by simp))]
    congr 1
    refine ih hnodup (fun b hb => hkept b (List.mem_cons_of_mem _ hb)) fun b hb hpb => ?_
    rcases List.mem_cons.mp (hother b (List.mem_cons_of_mem _ hb) hpb) with heq | hmem
    · exact absurd (heq ▸ List.mem_map_of_mem hb) hfresh
    · exact hmem

namespace PlanStages
variable {σ : Type} {text : PyString} {reader : CapacityReader σ} {state : σ}
  {request : RoutingRequest} {options : PlanOptions} {now : Instant}
  {providers : List ProviderLike} {plan : RoutePlan}
  (st : PlanStages text reader state request options now providers plan)

include st

theorem round_of_mem {r : ProviderLike × ConstraintResult} (hr : r ∈ st.rounds) :
    r.1 ∈ providers ∧ evaluateHardConstraints text request r.1 options.capability
      (expectedCapabilityId request options.capability options.capabilityId) = .ok r.2 := by
  obtain ⟨p, hp, hok⟩ := List.mem_of_mapM_eq_ok st.rounds_eq hr
  obtain ⟨result, hresult, rfl⟩ := Except.map_eq_ok_iff.mp hok
  exact ⟨hp, hresult⟩

theorem round_idOf {r : ProviderLike × ConstraintResult} (hr : r ∈ st.rounds) :
    r.1.idOf = r.2.providerId :=
  ProviderLike.idOf_of_providerId (evaluateHardConstraints_eq_ok (st.round_of_mem hr).2).1

theorem rounds_fst : st.rounds.map Prod.fst = providers := by
  have hmap := List.map_of_mapM_eq_ok (g := id) (k := Prod.fst) st.rounds_eq fun p _ r hr => by
    obtain ⟨result, -, rfl⟩ := Except.map_eq_ok_iff.mp hr
    rfl
  rw [hmap, List.map_id]

theorem rounds_ids : st.rounds.map (fun r => r.2.providerId) = providers.map ProviderLike.idOf := by
  have hfst := congrArg (List.map ProviderLike.idOf) st.rounds_fst
  rw [List.map_map] at hfst
  exact (List.map_congr_left fun r hr => (st.round_idOf hr).symm).trans hfst

theorem stage1Eliminated_ids : st.stage1Eliminated.map RouteElimination.providerId =
    (st.rounds.filter fun r => !r.2.passed).map fun r => r.2.providerId := by
  have hmap := List.map_of_mapM_eq_ok (k := RouteElimination.providerId) st.stage1_eq
    fun r _ e he => (stage1Elimination_eq_ok he).1
  rw [hmap, List.filter_map, List.map_map]
  rfl

theorem stage2_fst : st.stage2.map Prod.fst =
    (st.rounds.filter fun r => r.2.passed).map Prod.fst := by
  have hmap := List.map_of_mapM_eq_ok (g := id) (k := Prod.fst) st.stage2_eq
    fun p _ r hr => (stage2Round_eq_ok hr).1
  rw [hmap, List.map_id]

theorem stage2_of_mem {r : ProviderLike × String × List ProviderEliminated} (hr : r ∈ st.stage2) :
    r.1.idOf = r.2.1 ∧ stage2EliminationReasons text now r.1 = .ok r.2.2 := by
  obtain ⟨p, -, hok⟩ := List.mem_of_mapM_eq_ok st.stage2_eq hr
  obtain ⟨rfl, hid, hreasons⟩ := stage2Round_eq_ok hok
  exact ⟨ProviderLike.idOf_of_providerId hid, hreasons⟩

theorem stage2_ids : st.stage2.map (fun r => r.2.1) =
    (st.rounds.filter fun r => r.2.passed).map fun r => r.2.providerId := by
  have hleft : st.stage2.map (fun r => r.2.1) = (st.stage2.map Prod.fst).map ProviderLike.idOf := by
    rw [List.map_map]
    exact List.map_congr_left fun r hr => (st.stage2_of_mem hr).1.symm
  rw [hleft, st.stage2_fst, List.map_map]
  exact List.map_congr_left fun r hr => st.round_idOf (List.mem_of_mem_filter hr)

omit st in
theorem filterMap_stage2Elimination_ids
    (rounds : List (ProviderLike × String × List ProviderEliminated)) :
    (rounds.filterMap stage2Elimination).map RouteElimination.providerId =
      (rounds.filter fun r => !r.2.2.isEmpty).map fun r => r.2.1 := by
  induction rounds with
  | nil => rfl
  | cons r rounds ih =>
    obtain ⟨p, id, reasons⟩ := r
    cases reasons with
    | nil => exact ih
    | cons first rest => exact congrArg (id :: ·) ih

theorem candidates_ids : st.candidates.map RouteCandidate.providerId =
    (st.stage2.filter fun r => r.2.2.isEmpty).map fun r => r.2.1 := by
  have hmap := List.map_of_mapM_eq_ok (k := RouteCandidate.providerId) st.candidates_eq
    fun p _ c hc => (ProviderLike.idOf_of_providerId (candidateForProvider_eq_ok hc).2.1).symm
  rw [hmap, List.map_map]
  exact List.map_congr_left fun r hr => (st.stage2_of_mem (List.mem_of_mem_filter hr)).1

theorem ranked_ids : (plan.rankedCandidates.map RouteCandidate.providerId).Perm
    (st.candidates.map RouteCandidate.providerId) := by
  obtain ⟨order, hperm, hranked⟩ := rankCandidates_eq_ok st.ranked_eq
  rw [hranked, map_zipIdx_rank _ (fun _ _ => rfl)]
  exact hperm.map _

theorem stage4_spec :
    Stage4Spec text request reader state plan.rankedCandidates st.stage4 :=
  applyStage4Capacity_spec st.stage4_eq

theorem partition : (st.stage4.available.map RouteCandidate.providerId ++
    plan.eliminated.map RouteElimination.providerId).Perm (providers.map ProviderLike.idOf) := by
  rw [st.eliminated_eq, ← st.rounds_ids]
  refine List.perm_iff_count.mpr fun id => ?_
  have h1 := ((List.filter_append_perm (fun r => r.2.passed) st.rounds).map
    fun r => r.2.providerId).count_eq id
  have h2 := ((List.filter_append_perm (fun r => r.2.2.isEmpty) st.stage2).map
    fun r => r.2.1).count_eq id
  have h4 := st.stage4_spec.perm.count_eq id
  have h3 := st.ranked_ids.count_eq id
  rw [List.map_append, List.count_append] at h1 h2
  rw [st.stage2_ids, ← st.candidates_ids, ← filterMap_stage2Elimination_ids] at h2
  rw [← st.stage1Eliminated_ids] at h1
  simp only [List.map_append, List.count_append] at h4 ⊢
  omega

theorem ids_nodup (hdistinct : (providers.map ProviderLike.idOf).Nodup) :
    (st.stage4.available.map RouteCandidate.providerId ++
      plan.eliminated.map RouteElimination.providerId).Nodup :=
  st.partition.nodup_iff.mpr hdistinct

theorem ranked_nodup (hdistinct : (providers.map ProviderLike.idOf).Nodup) :
    (plan.rankedCandidates.map RouteCandidate.providerId).Nodup := by
  rw [← st.stage4_spec.perm.nodup_iff]
  refine (st.ids_nodup hdistinct).sublist ?_
  rw [st.eliminated_eq, List.map_append]
  exact (List.Sublist.refl _).append (List.sublist_append_right _ _)

theorem survivors_eq (hdistinct : (providers.map ProviderLike.idOf).Nodup) :
    plan.survivors = st.stage4.available := by
  have hdisjoint := (List.nodup_append.mp (st.ids_nodup hdistinct)).2.2
  refine filter_eq_of_sublist (f := RouteCandidate.providerId) st.stage4_spec.sublist
    (st.ranked_nodup hdistinct) (fun c hc => ?_) (fun c hc hkept => ?_)
  · simp only [List.all_eq_true, decide_eq_true_eq]
    intro e he heq
    exact hdisjoint _ (List.mem_map_of_mem hc) _ (List.mem_map_of_mem he) heq.symm
  · have hin : c.providerId ∈ st.stage4.available.map RouteCandidate.providerId ++
        st.stage4.eliminated.map RouteElimination.providerId :=
      st.stage4_spec.perm.mem_iff.mpr (List.mem_map_of_mem hc)
    rcases List.mem_append.mp hin with hmem | hmem
    · exact hmem
    · obtain ⟨e, he, heq⟩ := List.mem_map.mp hmem
      simp only [List.all_eq_true, decide_eq_true_eq] at hkept
      refine absurd heq (hkept e ?_)
      rw [st.eliminated_eq]
      exact List.mem_append_right _ he

theorem elimination_reasons : ∀ e ∈ plan.eliminated, e.reasons ≠ [] := by
  intro e he
  rw [st.eliminated_eq] at he
  rcases List.mem_append.mp he with he | he
  · rcases List.mem_append.mp he with he | he
    · obtain ⟨r, -, hok⟩ := List.mem_of_mapM_eq_ok st.stage1_eq he
      exact (stage1Elimination_eq_ok hok).2.1
    · obtain ⟨r, -, hsome⟩ := List.mem_filterMap.mp he
      exact (stage2Elimination_eq_some hsome).2.1
  · exact st.stage4_spec.reasons e he

theorem mem_eligible_iff (p : ProviderLike) :
    p ∈ (st.stage2.filter fun r => r.2.2.isEmpty).map Prod.fst ↔
      p ∈ providers ∧ PassesGates text request options now p :=
  Routing.mem_eligible_iff
    (filterHardConstraints_eq_ok_iff.mpr ⟨st.rounds, st.rounds_eq, rfl⟩) st.stage2_eq p

theorem candidate_passes {c : RouteCandidate} (hc : c ∈ st.candidates) :
    c.provider ∈ providers ∧ candidateForProvider text (options.activeHints request)
      options.observed c.provider = .ok c ∧ PassesGates text request options now c.provider := by
  obtain ⟨p, hp, hok⟩ := List.mem_of_mapM_eq_ok st.candidates_eq hc
  obtain ⟨rfl, -, -⟩ := candidateForProvider_eq_ok hok
  obtain ⟨hmem, hpasses⟩ := (st.mem_eligible_iff c.provider).mp hp
  exact ⟨hmem, hok, hpasses⟩

theorem ranked_passes {c : RouteCandidate} (hc : c ∈ plan.rankedCandidates) :
    c.provider ∈ providers ∧ c.provider.providerId = .ok c.providerId ∧
      PassesGates text request options now c.provider := by
  obtain ⟨d, hd, hprovider, hid⟩ := exists_candidate_of_ranked st.ranked_eq hc
  obtain ⟨hmem, hok, hpasses⟩ := st.candidate_passes hd
  rw [hprovider] at hmem hok hpasses
  exact ⟨hmem, by rw [(candidateForProvider_eq_ok hok).2.1, hid], hpasses⟩

theorem candidate_of_passes {p : ProviderLike} (hp : p ∈ providers)
    (hpasses : PassesGates text request options now p) : ∃ c ∈ st.candidates,
      candidateForProvider text (options.activeHints request) options.observed p = .ok c :=
  List.exists_mem_of_mapM_eq_ok st.candidates_eq ((st.mem_eligible_iff p).mpr ⟨hp, hpasses⟩)

omit st in
theorem one_le_maxAttempts
    (h : validatePlanOptions options.maxAttempts options.backoffBaseS = .ok ()) :
    1 ≤ options.maxAttempts := by
  unfold validatePlanOptions at h
  split at h
  · cases h
  · omega

theorem attempts_spec (hdistinct : (providers.map ProviderLike.idOf).Nodup) :
    AttemptsSpec options.maxAttempts options.backoffBaseS st.stage4.available plan.attempts :=
  routeAttempts_spec (one_le_maxAttempts st.valid)
    ((st.ranked_nodup hdistinct).sublist (st.stage4_spec.sublist.map _)) st.attempts_eq

end PlanStages

/-- A plan that loses no provider, attempts none that a stage eliminated, and numbers and
delays its attempts as announced. -/
structure SafePlan {σ : Type} (text : PyString) (reader : CapacityReader σ) (state : σ)
    (request : RoutingRequest) (options : PlanOptions) (now : Instant)
    (providers : List ProviderLike) (plan : RoutePlan) : Prop where
  partition : (plan.survivors.map RouteCandidate.providerId ++
    plan.eliminated.map RouteElimination.providerId).Perm (providers.map ProviderLike.idOf)
  reasons : ∀ e ∈ plan.eliminated, e.reasons ≠ []
  attempted : ∀ a ∈ plan.attempts,
    a.providerId ∈ plan.survivors.map RouteCandidate.providerId ∧ a.provider ∈ providers ∧
    a.provider.providerId = .ok a.providerId ∧
    PassesGates text request options now a.provider ∧
    (isPodLeaseProvider a.provider = true → ∃ keys key,
      a.provider.capacityKeys text request = .ok keys ∧ key ∈ keys ∧ reader.Reported state key)
  distinct : (plan.attempts.map RouteAttempt.providerId).Nodup
  bounded : (plan.attempts.length : Int) ≤ options.maxAttempts
  numbered : plan.attempts.map RouteAttempt.attempt = List.range' 1 plan.attempts.length
  backoff : ∀ a ∈ plan.attempts,
    a.backoffBeforeAttemptS = backoffOf options.backoffBaseS a.attempt
  doubled : ∀ a ∈ plan.attempts, a.attempt ≠ 1 → ∀ q, options.backoffBaseS = .finite q →
    |q.1 * 2 ^ (a.attempt - 2)| < 2 ^ (1024 : ℤ) →
      ∃ x, a.backoffBeforeAttemptS = .finite x ∧ x.1 = q.1 * 2 ^ (a.attempt - 2)
  attempts_iff : plan.attempts ≠ [] ↔ plan.survivors ≠ []

/-- Every plan over providers with distinct ids is safe and complete. -/
theorem plan_route_safe {σ : Type} (text : PyString) (reader : CapacityReader σ) (state : σ)
    (request : RoutingRequest) (options : PlanOptions) (now : Instant)
    (providers : List ProviderLike) (plan : RoutePlan)
    (hdistinct : (providers.map ProviderLike.idOf).Nodup)
    (hplan : planRoute text reader state request options now providers = .ok plan) :
    SafePlan text reader state request options now providers plan := by
  obtain ⟨st⟩ := planRoute_eq_ok_iff.mp hplan
  have hsurvivors := st.survivors_eq hdistinct
  have spec := st.attempts_spec hdistinct
  constructor
  · rw [hsurvivors]
    exact st.partition
  · exact st.elimination_reasons
  · intro a ha
    obtain ⟨c, hc, hid, hprovider, -, -⟩ := spec.from_survivors a ha
    obtain ⟨hmem, hok, hpasses⟩ := st.ranked_passes (st.stage4_spec.sublist.subset hc)
    rw [hprovider, hid, hsurvivors]
    refine ⟨List.mem_map_of_mem hc, hmem, hok, hpasses, fun hlease => ?_⟩
    obtain ⟨keys, key, hkeys, hkey, -, hreported⟩ := st.stage4_spec.capacity c hc hlease
    exact ⟨keys, key, hkeys, hkey, hreported⟩
  · exact spec.nodup
  · exact spec.length_le
  · exact spec.numbered
  · exact fun a ha => (spec.backoff a ha).2
  · intro a ha hone q hbase hlt
    obtain ⟨hfew, hbackoff⟩ := spec.backoff a ha
    rw [hbackoff, backoffOf, if_neg hone, hbase, Binary64.mul_two_pow hfew hlt]
    exact ⟨_, rfl, rfl⟩
  · rw [hsurvivors]
    exact spec.nonempty_iff

def asciiText : PyString where
  lower s := String.ofList (s.toList.map Char.toLower)
  upper s := String.ofList (s.toList.map Char.toUpper)
  isDigit := Char.isDigit
  str
    | .str s => some s
    | .float _ => some "0.0"
    | .int 0 => some "0"
    | _ => none
  parseInt _ := none
  parseFloat _ := none
  parseDecimal s :=
    if s = "0.0" ∨ s = "0" then some (.finite 0)
    else if s = "1e305" then some (.finite (10 ^ 305))
    else none
  fromIsoformat _ := none

theorem cap_1_ne : "cap_1" ≠ "" := by decide

theorem no_errors_nonneg : (0 : ℚ) ≤ 0 := le_rfl

/-- A healthy provider of `cap_1`, with an error rate of 0.0. -/
def sampleProvider (id : String) (id_ne : id ≠ "") (providerType : ProviderType)
    (config : List (String × PyValue)) : ProviderModel where
  id := id
  capabilityId := "cap_1"
  name := id
  providerType := providerType
  runpodEndpointId := none
  runpodTemplateId := none
  region := some "US-KS-2"
  cloudType := none
  config := config
  priority := 1
  enabled := true
  healthStatus := "healthy"
  consecutiveFailures := 0
  cooldownTrips := 0
  coldStartP50Ms := none
  coldStartP95Ms := none
  recentErrorRate := 0
  cooldownUntil := none
  source := .api
  lastAppliedYamlHash := none
  updatedAt := 0
  id_ne := id_ne
  capabilityId_ne := cap_1_ne
  name_ne := id_ne
  recentErrorRate_nonneg := no_errors_nonneg
  recentErrorRate_le := by norm_num

def sampleRequest : RoutingRequest :=
  ⟨"embedding", none, none, none, none, none, some "cap_1", none, none, false⟩

def defaultOptions : PlanOptions := ⟨none, none, none, .none, 3, .ofRat 1⟩

def openCapacity : CapacityReader Unit := ⟨fun s _ => .ok (some true, s)⟩

def leaseAndFallback : List ProviderLike :=
  [.model (sampleProvider "queue" (by decide) .serverlessQueue [("fallback_for", .str "pods")]),
    .model (sampleProvider "pods" (by decide) .podLease [("gpu_name", .str "A100")])]

theorem plan_route_safe_on_lease : ∃ plan,
    planRoute asciiText openCapacity () sampleRequest defaultOptions 0 leaseAndFallback = .ok plan ∧
      SafePlan asciiText openCapacity () sampleRequest defaultOptions 0 leaseAndFallback plan ∧
      plan.attempts.map RouteAttempt.providerId = ["pods", "queue"] := by
  have hchain : (planRoute asciiText openCapacity () sampleRequest defaultOptions 0
      leaseAndFallback).map (fun plan => plan.attempts.map RouteAttempt.providerId) =
        .ok ["pods", "queue"] := by decide +kernel
  cases hplan : planRoute asciiText openCapacity () sampleRequest defaultOptions 0
      leaseAndFallback with
  | error e =>
    rw [hplan] at hchain
    cases hchain
  | ok plan =>
    rw [hplan] at hchain
    exact ⟨plan, rfl, plan_route_safe asciiText openCapacity () sampleRequest defaultOptions 0
      leaseAndFallback plan (by decide) hplan, Except.ok.inj hchain⟩

end Pitwall.Routing
