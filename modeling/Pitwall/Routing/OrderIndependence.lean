import Pitwall.Routing.PlanSafety
set_option autoImplicit false

/-!
Whether a route plan depends on the order of the provider list. The ranking compares scores;
it is a function of the set of providers unless a score is NaN, which is neither less nor
greater than any other and leaves the list as it came.
-/

namespace Pitwall.Routing

structure SamePlan (plan plan' : RoutePlan) : Prop where
  attempts : plan.attempts = plan'.attempts
  ranked : plan.rankedCandidates = plan'.rankedCandidates
  eliminated : ∀ e, e ∈ plan.eliminated ↔ e ∈ plan'.eliminated

/-- The score of the provider is NaN: the sum of its terms overflows and its multiplier is
zero. -/
def Scoreless (text : PyString) (request : RoutingRequest) (options : PlanOptions)
    (p : ProviderLike) : Prop :=
  ∃ metrics e, observedForProvider text p.idOf options.observed = .ok metrics ∧
    explainScore text p (options.activeHints request) metrics = .ok e ∧
    e.scoreBeforeMultiplier.isFinite = false ∧ e.priorityMultiplier = .ofRat 0

namespace SortKey

def rankOrder (k : SortKey) : (ℤ ×ₗ ℚ) ×ₗ ℤ ×ₗ String ×ₗ String :=
  toLex (k.negatedScore.level, toLex (k.priority, toLex (k.name, k.providerId)))

theorem rankLt_iff {a b : SortKey} (ha : a.negatedScore ≠ .nan) (hb : b.negatedScore ≠ .nan) :
    a.rankLt b = true ↔ a.rankOrder < b.rankOrder := by
  simp only [rankLt, rankOrder, Prod.Lex.toLex_lt_toLex]
  by_cases hscore : a.negatedScore = b.negatedScore
  · have heq : b.negatedScore.eq b.negatedScore = true := (Binary64.eq_iff hb).mpr rfl
    simp only [hscore, heq, Bool.not_true, Bool.false_eq_true, if_false, lt_self_iff_false,
      false_or, true_and]
    by_cases hpriority : a.priority = b.priority
    · by_cases hname : a.name = b.name
      · simp [-String.lt_iff_ltb, hpriority, hname]
      · simp [-String.lt_iff_ltb, hpriority, hname]
    · simp [hpriority]
  · have hne : a.negatedScore.eq b.negatedScore = false := by
      rw [← Bool.not_eq_true, Binary64.eq_iff ha]
      exact hscore
    have hlevel : a.negatedScore.level ≠ b.negatedScore.level :=
      fun h => hscore (Binary64.level_injective h)
    simp only [hne, Bool.not_false, if_true, Binary64.lt_iff ha hb, hlevel, false_and, or_false]

theorem rankLt_nan_left {a b : SortKey} (ha : a.negatedScore = .nan) : a.rankLt b = false := by
  simp [rankLt, ha, Binary64.nan_eq, Binary64.nan_lt]

theorem rankLt_nan_right {a b : SortKey} (hb : b.negatedScore = .nan) : a.rankLt b = false := by
  have heq : a.negatedScore.eq .nan = false := by
    cases ha : a.negatedScore <;> simp [Binary64.eq]
  simp [rankLt, hb, heq, Binary64.lt_nan]

end SortKey

def pairLt (a b : SortKey × RouteCandidate) : Bool := a.1.rankLt b.1

theorem rankCandidates_of_keyed {text : PyString} {cs : List RouteCandidate}
    {pairs : List (SortKey × RouteCandidate)} (h : cs.mapM (keyed text) = .ok pairs) :
    rankCandidates text cs = .ok (((sortedBy pairLt pairs).zipIdx 1).map fun (pair, rank) =>
      { pair.2 with rank := rank }) := by
  rw [rankCandidates, h]
  rfl

theorem rankCandidates_perm {text : PyString} {cs cs' ranked : List RouteCandidate}
    (hids : (cs.map RouteCandidate.providerId).Nodup) (hscores : ∀ c ∈ cs, c.score ≠ .nan)
    (hperm : cs.Perm cs') (h : rankCandidates text cs = .ok ranked) :
    rankCandidates text cs' = .ok ranked := by
  have hranked := h
  simp only [rankCandidates, Except.bind_eq_ok_iff] at h
  obtain ⟨pairs, hpairs, -⟩ := h
  obtain ⟨pairs', hpairs', hperm'⟩ := hperm.mapM_eq_ok hpairs
  have hmem : ∀ pair ∈ pairs, pair.2 ∈ cs ∧ pair.1.negatedScore = pair.2.score.neg ∧
      pair.1.providerId = pair.2.providerId := by
    intro pair hpair
    obtain ⟨c, hc, hok⟩ := List.mem_of_mapM_eq_ok hpairs hpair
    obtain ⟨rfl, hscore, hid⟩ := keyed_eq_ok hok
    exact ⟨hc, hscore, hid⟩
  have hnumber : ∀ pair ∈ pairs, pair.1.negatedScore ≠ .nan := by
    intro pair hpair
    obtain ⟨hc, hscore, -⟩ := hmem pair hpair
    rw [hscore, Ne, Binary64.neg_eq_nan_iff]
    exact hscores _ hc
  have hcompares : ComparesBy pairLt (fun pair => pair.1.rankOrder) pairs := fun a ha b hb =>
    SortKey.rankLt_iff (hnumber a ha) (hnumber b hb)
  have hnodup : (pairs.map fun pair => pair.2.providerId).Nodup := by
    have hmap := congrArg (List.map RouteCandidate.providerId) (snd_of_keyed hpairs)
    rw [List.map_map] at hmap
    rw [← hmap] at hids
    exact hids
  have hinj : ∀ a ∈ pairs, ∀ b ∈ pairs, a.1.rankOrder = b.1.rankOrder → a = b := by
    intro a ha b hb heq
    have hid : a.1.providerId = b.1.providerId := by
      simp only [SortKey.rankOrder, toLex_inj, Prod.mk.injEq] at heq
      exact heq.2.2.2
    rw [(hmem a ha).2.2, (hmem b hb).2.2] at hid
    exact List.inj_on_of_nodup_map hnodup ha hb hid
  rw [← hranked, rankCandidates_of_keyed hpairs, rankCandidates_of_keyed hpairs',
    sortedBy_eq_of_perm hcompares hinj hperm']

section Permuted
variable {σ : Type} {text : PyString} {reader : CapacityReader σ} {state : σ}
  {request : RoutingRequest} {options : PlanOptions} {now : Instant}
  {providers providers' : List ProviderLike} {plan : RoutePlan}

theorem planRoute_perm (st : PlanStages text reader state request options now providers plan)
    (hperm : providers.Perm providers')
    (hrank : ∀ cs, st.candidates.Perm cs → rankCandidates text cs = .ok plan.rankedCandidates) :
    ∃ plan', planRoute text reader state request options now providers' = .ok plan' ∧
      SamePlan plan plan' := by
  obtain ⟨rounds, hrounds, hroundsPerm⟩ := hperm.mapM_eq_ok st.rounds_eq
  obtain ⟨elims, helims, helimsPerm⟩ :=
    ((hroundsPerm.map Prod.snd).filter fun r => !r.passed).mapM_eq_ok st.stage1_eq
  obtain ⟨stage2, hstage2, hstage2Perm⟩ :=
    ((hroundsPerm.filter fun r => r.2.passed).map Prod.fst).mapM_eq_ok st.stage2_eq
  obtain ⟨cands, hcands, hcandsPerm⟩ :=
    ((hstage2Perm.filter fun r => r.2.2.isEmpty).map Prod.fst).mapM_eq_ok st.candidates_eq
  set plan' : RoutePlan :=
    { plan with
      eliminated := elims ++ stage2.filterMap stage2Elimination ++ st.stage4.eliminated } with hplan'
  refine ⟨plan', planRoute_eq_ok_iff.mpr ⟨⟨rounds, elims, stage2, cands, st.stage4, st.valid,
    hrounds, helims, hstage2, hcands, hrank cands hcandsPerm, st.stage4_eq, st.attempts_eq,
    st.request_eq, rfl, st.decisions_eq, st.maxAttempts_eq⟩⟩, rfl, rfl, fun e => ?_⟩
  rw [st.eliminated_eq, hplan']
  exact ((helimsPerm.append (hstage2Perm.filterMap stage2Elimination)).append_right
    st.stage4.eliminated).mem_iff

def candidate? (text : PyString) (request : RoutingRequest) (options : PlanOptions)
    (now : Instant) (p : ProviderLike) : Option RouteCandidate :=
  match evaluateHardConstraints text request p options.capability
      (expectedCapabilityId request options.capability options.capabilityId) with
  | .error _ => none
  | .ok result =>
      if result.passed then
        match stage2Round text now p with
        | .error _ => none
        | .ok round =>
            if round.2.2.isEmpty then
              match candidateForProvider text (options.activeHints request) options.observed p with
              | .error _ => none
              | .ok c => some c
            else none
      else none

theorem filter_map_fst {α β : Type} (p : α × β → Bool) (l : List (α × β)) :
    (l.filter p).map Prod.fst = l.filterMap fun r => if p r then some r.1 else none := by
  rw [← List.filterMap_eq_map, List.filterMap_filter]
  rfl

theorem PlanStages.candidates_eq_filterMap
    (st : PlanStages text reader state request options now providers plan) :
    st.candidates = providers.filterMap (candidate? text request options now) := by
  have hcands := List.filterMap_of_mapM_eq_ok (g := some) st.candidates_eq
  have hrounds := List.filterMap_of_mapM_eq_ok
    (g := fun r => if r.2.passed then some r.1 else none) st.rounds_eq
  have hstage2 := List.filterMap_of_mapM_eq_ok
    (g := fun r => if r.2.2.isEmpty then some r.1 else none) st.stage2_eq
  rw [List.filterMap_some, filter_map_fst, hstage2, filter_map_fst, hrounds,
    List.filterMap_filterMap, List.filterMap_filterMap] at hcands
  rw [hcands]
  refine List.filterMap_congr fun p _ => ?_
  unfold candidate?
  cases hevaluate : evaluateHardConstraints text request p options.capability
      (expectedCapabilityId request options.capability options.capabilityId) with
  | error e => rfl
  | ok result =>
    cases hpassed : result.passed with
    | false => simp [Functor.map, Except.map, hpassed]
    | true =>
      cases hround : stage2Round text now p with
      | error e => simp [Functor.map, Except.map, hpassed, hround]
      | ok round =>
        obtain ⟨hfst, -, -⟩ := stage2Round_eq_ok hround
        cases hempty : round.2.2.isEmpty with
        | false =>
          simp only [Functor.map, Except.map, hpassed, hround, hempty, if_true, Option.bind_some,
            Bool.false_eq_true, if_false, Option.bind_none]
        | true =>
          simp only [Functor.map, Except.map, hpassed, hround, hempty, if_true, Option.bind_some,
            hfst]
          cases candidateForProvider text (options.activeHints request) options.observed p <;> rfl

theorem candidate?_eq_some {p : ProviderLike} {c : RouteCandidate}
    (h : candidate? text request options now p = some c) :
    candidateForProvider text (options.activeHints request) options.observed p = .ok c := by
  unfold candidate? at h
  split at h
  · cases h
  · split at h
    · split at h
      · cases h
      · split at h
        · split at h
          · cases h
          · next hok => rw [hok, Option.some.inj h]
        · cases h
    · cases h

theorem PlanStages.exists_order
    (st : PlanStages text reader state request options now providers plan)
    {cs : List RouteCandidate} (hcs : cs.Perm st.candidates) :
    ∃ providers', providers.Perm providers' ∧
      providers'.filterMap (candidate? text request options now) = cs := by
  have hsome : ∀ c ∈ cs, candidate? text request options now c.provider = some c := by
    intro c hc
    have hmem := hcs.mem_iff.mp hc
    rw [st.candidates_eq_filterMap] at hmem
    obtain ⟨p, -, hp⟩ := List.mem_filterMap.mp hmem
    obtain ⟨rfl, -, -⟩ := candidateForProvider_eq_ok (candidate?_eq_some hp)
    exact hp
  have hproviders : st.candidates.map RouteCandidate.provider =
      providers.filter fun p => (candidate? text request options now p).isSome := by
    rw [st.candidates_eq_filterMap]
    clear hcs hsome st
    induction providers with
    | nil => rfl
    | cons p providers ih =>
      cases hp : candidate? text request options now p with
      | none => simp [hp, ih]
      | some c =>
        have hc := (candidateForProvider_eq_ok (candidate?_eq_some hp)).1
        simp [hp, hc, ih]
  refine ⟨cs.map RouteCandidate.provider ++
    providers.filter fun p => !(candidate? text request options now p).isSome, ?_, ?_⟩
  · have hfront := hcs.map RouteCandidate.provider
    rw [hproviders] at hfront
    exact (List.filter_append_perm _ providers).symm.trans (hfront.symm.append_right _)
  · have hback : (providers.filter fun p =>
        !(candidate? text request options now p).isSome).filterMap
          (candidate? text request options now) = [] := by
      rw [List.filterMap_eq_nil_iff]
      intro p hp
      have hnone := List.of_mem_filter hp
      simpa using hnone
    rw [List.filterMap_append, hback, List.append_nil, List.filterMap_map]
    exact (List.filterMap_congr hsome).trans List.filterMap_some

end Permuted

section Orders
variable {σ : Type} {text : PyString} {reader : CapacityReader σ} {state : σ}
  {request : RoutingRequest} {options : PlanOptions} {now : Instant}
  {providers : List ProviderLike} {plan : RoutePlan}

def SortKey.isNan (k : SortKey) : Bool := k.negatedScore = .nan

theorem pairLt_nan (a b : SortKey × RouteCandidate) (h : a.1.isNan = true ∨ b.1.isNan = true) :
    pairLt a b = false := by
  simp only [SortKey.isNan, decide_eq_true_eq] at h
  rcases h with h | h
  · exact SortKey.rankLt_nan_left h
  · exact SortKey.rankLt_nan_right h

theorem pairLt_number (a b : SortKey × RouteCandidate) (ha : a.1.isNan = false)
    (hb : b.1.isNan = false) : pairLt a b = true ↔ a.1.rankOrder < b.1.rankOrder := by
  simp only [SortKey.isNan, decide_eq_false_iff_not] at ha hb
  exact SortKey.rankLt_iff ha hb

theorem PlanStages.exists_ranking
    (st : PlanStages text reader state request options now providers plan)
    {pairs order : List (SortKey × RouteCandidate)}
    (hpairs : st.candidates.mapM (keyed text) = .ok pairs) (horder : order.Perm pairs)
    (hchain : NoDescent pairLt order) :
    ∃ providers', providers.Perm providers' ∧ ∀ plan',
      planRoute text reader state request options now providers' = .ok plan' →
        plan'.rankedCandidates.map RouteCandidate.providerId =
          order.map fun pair => pair.2.providerId := by
  have hsnd : (order.map Prod.snd).Perm st.candidates := by
    rw [← snd_of_keyed hpairs]
    exact horder.map Prod.snd
  obtain ⟨providers', hperm, hcands⟩ := st.exists_order hsnd
  refine ⟨providers', hperm, fun plan' hplan' => ?_⟩
  obtain ⟨st'⟩ := planRoute_eq_ok_iff.mp hplan'
  have hkeyed : (order.map Prod.snd).mapM (keyed text) = .ok order := by
    refine List.mapM_eq_ok_iff.mpr (List.forall₂_map_left_iff.mpr (List.forall₂_same.mpr ?_))
    intro pair hpair
    obtain ⟨c, -, hok⟩ := List.mem_of_mapM_eq_ok hpairs (horder.mem_iff.mp hpair)
    obtain ⟨rfl, -, -⟩ := keyed_eq_ok hok
    exact hok
  have hranked := st'.ranked_eq
  rw [st'.candidates_eq_filterMap, hcands, rankCandidates_of_keyed hkeyed,
    sortedBy_of_noDescent hchain] at hranked
  have hids := map_zipIdx_rank RouteCandidate.providerId (fun _ _ => rfl) (order.map Prod.snd) 1
  rw [List.zipIdx_map, List.map_map, List.map_map, List.map_map] at hids
  rw [← Except.ok.inj hranked, List.map_map]
  exact hids

theorem candidate_score_eq_nan_iff {p : ProviderLike} {c : RouteCandidate}
    (h : candidateForProvider text (options.activeHints request) options.observed p = .ok c) :
    c.score = .nan ↔ Scoreless text request options p := by
  simp only [candidateForProvider, Except.bind_eq_ok_iff, Except.pure_eq_ok_iff] at h
  obtain ⟨id, hid, metrics, hmetrics, e, he, fallbackFor, -, chain, -, rfl⟩ := h
  rw [← ProviderLike.idOf_of_providerId hid] at hmetrics
  have hnan := finalScore_eq_nan_iff he
  constructor
  · intro hscore
    exact ⟨metrics, e, hmetrics, he, hnan.mp hscore⟩
  · rintro ⟨metrics', e', hmetrics', he', hterms⟩
    obtain rfl : metrics = metrics' := Except.ok.inj (hmetrics.symm.trans hmetrics')
    obtain rfl : e = e' := Except.ok.inj (he.symm.trans he')
    exact hnan.mpr hterms

theorem PlanStages.candidates_nodup
    (st : PlanStages text reader state request options now providers plan)
    (hdistinct : (providers.map ProviderLike.idOf).Nodup) :
    (st.candidates.map RouteCandidate.providerId).Nodup :=
  st.ranked_ids.nodup_iff.mp (st.ranked_nodup hdistinct)

/-- The plan is the same for every order of the providers, unless one that passes the gates
beside another has a score that is NaN. -/
theorem plan_order_independent_iff (text : PyString) (reader : CapacityReader σ) (state : σ)
    (request : RoutingRequest) (options : PlanOptions) (now : Instant)
    (providers : List ProviderLike) (plan : RoutePlan)
    (hdistinct : (providers.map ProviderLike.idOf).Nodup)
    (hplan : planRoute text reader state request options now providers = .ok plan) :
    (∀ providers', providers.Perm providers' →
      ∃ plan', planRoute text reader state request options now providers' = .ok plan' ∧
        SamePlan plan plan') ↔
    ∀ p ∈ providers, ∀ q ∈ providers, p.idOf ≠ q.idOf →
      PassesGates text request options now p → PassesGates text request options now q →
        ¬ Scoreless text request options p := by
  obtain ⟨st⟩ := planRoute_eq_ok_iff.mp hplan
  have hnodup := st.candidates_nodup hdistinct
  constructor
  · intro hsame p hp q hq hne hpassesP hpassesQ hscoreless
    obtain ⟨c, hc, hcok⟩ := st.candidate_of_passes hp hpassesP
    obtain ⟨d, hd, hdok⟩ := st.candidate_of_passes hq hpassesQ
    have hranked := st.ranked_eq
    simp only [rankCandidates, Except.bind_eq_ok_iff] at hranked
    obtain ⟨pairs, hpairs, -⟩ := hranked
    have hsnd := snd_of_keyed hpairs
    have hids : (pairs.map fun pair => pair.2.providerId).Nodup := by
      rw [← hsnd, List.map_map] at hnodup
      exact hnodup
    have hlen : 2 ≤ pairs.length := by
      by_contra hshort
      have hlength := congrArg List.length hsnd
      rw [List.length_map] at hlength
      have hcd : c = d := by
        cases hcands : st.candidates with
        | nil => simp [hcands] at hc
        | cons e rest =>
          have hrest : rest = [] := by
            rw [hcands, List.length_cons] at hlength
            exact List.eq_nil_of_length_eq_zero (by omega)
          rw [hcands, hrest, List.mem_singleton] at hc hd
          rw [hc, hd]
      have hpid := ProviderLike.idOf_of_providerId (candidateForProvider_eq_ok hcok).2.1
      have hqid := ProviderLike.idOf_of_providerId (candidateForProvider_eq_ok hdok).2.1
      exact hne (by rw [hpid, hqid, hcd])
    have hnan : ∃ pair ∈ pairs, pair.1.isNan = true := by
      obtain ⟨pair, hpair, hok⟩ := List.exists_mem_of_mapM_eq_ok hpairs hc
      refine ⟨pair, hpair, ?_⟩
      rw [SortKey.isNan, decide_eq_true_eq, (keyed_eq_ok hok).2.1, Binary64.neg_eq_nan_iff]
      exact (candidate_score_eq_nan_iff hcok).mpr hscoreless
    obtain ⟨xs, ys, hxs, hys, hxsChain, hysChain, hdiffer⟩ :=
      two_orders (fun pair => pair.1.rankOrder) pairLt_nan pairLt_number hids hlen hnan
    obtain ⟨providersX, hpermX, hplanX⟩ := st.exists_ranking hpairs hxs hxsChain
    obtain ⟨providersY, hpermY, hplanY⟩ := st.exists_ranking hpairs hys hysChain
    obtain ⟨planX, hokX, hsameX⟩ := hsame providersX hpermX
    obtain ⟨planY, hokY, hsameY⟩ := hsame providersY hpermY
    refine hdiffer ?_
    rw [← hplanX planX hokX, ← hplanY planY hokY, ← hsameX.ranked, ← hsameY.ranked]
  · intro hcondition providers' hperm
    refine planRoute_perm st hperm fun cs hcs => ?_
    by_cases hscores : ∀ c ∈ st.candidates, c.score ≠ .nan
    · exact rankCandidates_perm hnodup hscores hcs st.ranked_eq
    · -- A NaN stands alone, and one candidate has one order.
      simp only [not_forall, not_not] at hscores
      obtain ⟨c, hc, hscore⟩ := hscores
      obtain ⟨hcmem, hcok, hcpasses⟩ := st.candidate_passes hc
      have halone : ∀ d ∈ st.candidates, d = c := by
        intro d hd
        by_contra hdc
        obtain ⟨hdmem, hdok, hdpasses⟩ := st.candidate_passes hd
        refine hcondition c.provider hcmem d.provider hdmem ?_ hcpasses hdpasses
          ((candidate_score_eq_nan_iff hcok).mp hscore)
        rw [ProviderLike.idOf_of_providerId (candidateForProvider_eq_ok hcok).2.1,
          ProviderLike.idOf_of_providerId (candidateForProvider_eq_ok hdok).2.1]
        exact fun heq => hdc (List.inj_on_of_nodup_map hnodup hd hc heq.symm)
      have hreplicate := List.eq_replicate_of_mem halone
      have hcsEq : cs = st.candidates := by
        rw [hreplicate] at hcs ⊢
        exact List.perm_replicate.mp hcs.symm
      rw [hcsEq]
      exact st.ranked_eq

end Orders

def overflowing : ProviderLike :=
  .model (sampleProvider "dear" (by decide) .serverlessQueue
    [("cost_per_second_active", .str "1e305"), ("priority_multiplier", .int 0)])

def plain : ProviderLike := .model (sampleProvider "plain" (by decide) .serverlessQueue [])

def muted : ProviderLike :=
  .model (sampleProvider "muted" (by decide) .serverlessQueue [("priority_multiplier", .int 0)])

def costOptions : PlanOptions := ⟨none, none, some ⟨false, true, none⟩, .none, 3, .ofRat 1⟩

def rankedIds (providers : List ProviderLike) : Except PyError (List String) :=
  (planRoute asciiText openCapacity () sampleRequest costOptions 0 providers).map fun plan =>
    plan.rankedCandidates.map RouteCandidate.providerId

theorem rankedIds_eq_ok (providers : List ProviderLike) (ids : List String)
    (h : rankedIds providers = .ok ids) : ∃ plan,
      planRoute asciiText openCapacity () sampleRequest costOptions 0 providers = .ok plan ∧
        plan.rankedCandidates.map RouteCandidate.providerId = ids := by
  unfold rankedIds at h
  cases hplan : planRoute asciiText openCapacity () sampleRequest costOptions 0 providers with
  | error e =>
    rw [hplan] at h
    cases h
  | ok plan =>
    rw [hplan] at h
    exact ⟨plan, rfl, Except.ok.inj h⟩

theorem not_scoreless {p : ProviderLike}
    (h : (candidateForProvider asciiText (costOptions.activeHints sampleRequest)
      costOptions.observed p).map (fun c => decide (c.score = .nan)) = .ok false) :
    ¬ Scoreless asciiText sampleRequest costOptions p := by
  intro hscoreless
  obtain ⟨c, hc, hscore⟩ := Except.map_eq_ok_iff.mp h
  exact of_decide_eq_false hscore ((candidate_score_eq_nan_iff hc).mpr hscoreless)

/-- Two providers with different scores are planned alike in both orders. -/
theorem plain_plan_order_independent : ∃ plan plan',
    planRoute asciiText openCapacity () sampleRequest costOptions 0 [plain, muted] = .ok plan ∧
      planRoute asciiText openCapacity () sampleRequest costOptions 0 [muted, plain] = .ok plan' ∧
      plan.rankedCandidates.map RouteCandidate.providerId = ["plain", "muted"] ∧
      SamePlan plan plan' := by
  obtain ⟨plan, hplan, hids⟩ := rankedIds_eq_ok [plain, muted] ["plain", "muted"]
    (by decide +kernel)
  have hscored : ∀ p ∈ [plain, muted], ¬ Scoreless asciiText sampleRequest costOptions p := by
    intro p hp
    rcases List.mem_pair.mp hp with rfl | rfl
    · exact not_scoreless (by decide +kernel)
    · exact not_scoreless (by decide +kernel)
  obtain ⟨plan', hplan', hsame⟩ := (plan_order_independent_iff asciiText openCapacity ()
    sampleRequest costOptions 0 [plain, muted] plan (by decide) hplan).mpr
    (fun p hp _ _ _ _ _ => hscored p hp) [muted, plain] (List.Perm.swap muted plain [])
  exact ⟨plan, plan', hplan, hplan', hids, hsame⟩

/-- A score that is NaN keeps the place that its provider has in the list. -/
theorem plan_depends_on_order :
    ¬ ∀ (request : RoutingRequest) (options : PlanOptions) (providers : List ProviderLike)
      (plan : RoutePlan), (providers.map ProviderLike.idOf).Nodup →
      planRoute asciiText openCapacity () request options 0 providers = .ok plan →
      ∀ providers', providers.Perm providers' → ∃ plan',
        planRoute asciiText openCapacity () request options 0 providers' = .ok plan' ∧
          SamePlan plan plan' := by
  intro h
  obtain ⟨plan, hplan, hids⟩ := rankedIds_eq_ok [overflowing, plain] ["dear", "plain"]
    (by decide +kernel)
  obtain ⟨plan', hplan', hids'⟩ := rankedIds_eq_ok [plain, overflowing]
    ["plain", "dear"] (by decide +kernel)
  obtain ⟨planX, hplanX, hsame⟩ := h sampleRequest costOptions [overflowing, plain] plan
    (by decide) hplan [plain, overflowing] (List.Perm.swap plain overflowing [])
  obtain rfl : plan' = planX := Except.ok.inj (hplan'.symm.trans hplanX)
  rw [hsame.ranked, hids'] at hids
  exact absurd hids (by decide)

end Pitwall.Routing
