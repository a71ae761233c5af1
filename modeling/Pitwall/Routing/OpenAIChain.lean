import Pitwall.Routing.OpenAI
import Pitwall.Routing.PlanSafety
set_option autoImplicit false

/-!
The order of the provider chain: the primary, the fallbacks that it names, then the rest of the
candidates, each once and up to the cap.
-/

namespace Pitwall.Routing.OpenAI

/-- The key of `sorted`. -/
def Ranked.key (r : Ranked) : ℤ ×ₗ String ×ₗ String := toLex (r.priority, toLex (r.name, r.id))

theorem rankedLt_iff {a b : Ranked} : rankedLt a b = true ↔ a.key < b.key := by
  simp [rankedLt, Ranked.key, Prod.Lex.toLex_lt_toLex]

section Candidates
variable (text : PyString) (now : Option Instant)

/-- A compatible provider that is enabled, not unhealthy and not in cooldown. -/
def eligible (p : ProviderLike) : Bool :=
  match isCandidate text now p with
  | .ok passed => passed
  | .error _ => false

def DistinctIds (providers : List ProviderLike) : Prop :=
  providers.Pairwise fun p q => ∀ id, providerId p = .ok id → providerId q ≠ .ok id

/-- The candidates, in the order of their keys. -/
structure CandidateOrder (providers : List ProviderLike) (ordered : List Ranked) : Prop where
  perm : (ordered.map Ranked.provider).Perm (providers.filter (eligible text now))
  ranked : ∀ r ∈ ordered, rankedOf text r.provider = .ok r
  sorted : ordered.Pairwise fun a b => a.key < b.key

end Candidates

section Order
variable {text : PyString} {now : Option Instant} {providers providers' : List ProviderLike}
  {ordered : List Ranked}

theorem distinctIds_perm (h : DistinctIds providers) (hperm : providers.Perm providers') :
    DistinctIds providers' := by
  refine hperm.pairwise h (fun {p q} hpq id hq hp => ?_)
  exact hpq id hp hq

theorem nodup_ids (h : DistinctIds providers) {ranked : List Ranked}
    (hperm : (ranked.map Ranked.provider).Perm (providers.filter (eligible text now)))
    (hranked : ∀ r ∈ ranked, rankedOf text r.provider = .ok r) :
    (ranked.map Ranked.id).Nodup := by
  have hfilter : DistinctIds (providers.filter (eligible text now)) := h.sublist List.filter_sublist
  have hprovider := List.pairwise_map.mp (distinctIds_perm hfilter hperm.symm)
  refine List.pairwise_map.mpr (hprovider.imp_of_mem (fun {a b} ha hb hab heq => ?_))
  have hb' := (rankedOf_ok (hranked b hb)).2
  rw [← heq] at hb'
  exact hab a.id (rankedOf_ok (hranked a ha)).2 hb'

theorem eligible_of_checked {checked : List (ProviderLike × Bool)}
    (h : providers.mapM (fun p => (fun passed => (p, passed)) <$> isCandidate text now p) =
      .ok checked) :
    (checked.filter fun c => c.2).map Prod.fst = providers.filter (eligible text now) := by
  have hforall := List.mapM_eq_ok_iff.mp h
  clear h
  induction hforall with
  | nil => rfl
  | @cons p c providers checked hp hforall ih =>
    obtain ⟨passed, hpassed, rfl⟩ := Except.map_eq_ok_iff.mp hp
    have heligible : eligible text now p = passed := by rw [eligible, hpassed]
    cases passed with
    | true => simp [heligible, ih]
    | false => simp [heligible, ih]

theorem key_eq_of_id {a b : Ranked} (h : a.key = b.key) : a.id = b.id := by
  simp only [Ranked.key] at h
  have hpair := congrArg ofLex h
  simp only [ofLex_toLex, Prod.mk.injEq, EmbeddingLike.apply_eq_iff_eq] at hpair
  exact hpair.2.2

theorem eq_of_key {ranked : List Ranked} (hnodup : (ranked.map Ranked.id).Nodup) :
    ∀ a ∈ ranked, ∀ b ∈ ranked, a.key = b.key → a = b := fun _ ha _ hb hkey =>
  List.inj_on_of_nodup_map hnodup ha hb (key_eq_of_id hkey)

theorem rankedLt_compares (ranked : List Ranked) : ComparesBy rankedLt Ranked.key ranked :=
  fun _ _ _ _ => rankedLt_iff

theorem ranked_ok {checked : List (ProviderLike × Bool)} {ranked : List Ranked}
    (hchecked : providers.mapM (fun p => (fun passed => (p, passed)) <$> isCandidate text now p) =
      .ok checked)
    (hranked : ((checked.filter fun c => c.2).map Prod.fst).mapM (rankedOf text) = .ok ranked) :
    ranked.map Ranked.provider = providers.filter (eligible text now) ∧
      ∀ r ∈ ranked, rankedOf text r.provider = .ok r := by
  rw [eligible_of_checked hchecked] at hranked
  have hkeep := List.map_of_mapM_eq_ok (g := id) hranked
    (fun p _ r hr => (rankedOf_ok hr).1)
  refine ⟨by rw [hkeep, List.map_id], fun r hr => ?_⟩
  obtain ⟨p, -, hp⟩ := List.mem_of_mapM_eq_ok hranked hr
  rw [(rankedOf_ok hp).1, hp]

/-- What `sorted` makes of the providers. -/
theorem orderedCandidates_order (hids : DistinctIds providers)
    (h : orderedCandidates text now providers = .ok ordered) :
    CandidateOrder text now providers ordered := by
  simp only [orderedCandidates, Except.bind_eq_ok_iff, Except.pure_eq_ok_iff] at h
  obtain ⟨checked, hchecked, ranked, hranked, rfl⟩ := h
  obtain ⟨hproviders, hok⟩ := ranked_ok hchecked hranked
  have hnodup := nodup_ids hids (List.Perm.of_eq hproviders) hok
  refine ⟨?_, fun r hr => hok r (mem_sortedBy.mp hr), ?_⟩
  · rw [← hproviders]
    exact (sortedBy_perm rankedLt ranked).map Ranked.provider
  · have hsorted := pairwise_sortedBy (rankedLt_compares ranked)
    have hdistinct : (sortedBy rankedLt ranked).Pairwise fun a b => a.id ≠ b.id := by
      refine List.pairwise_map.mp ?_
      exact ((sortedBy_perm rankedLt ranked).map Ranked.id).nodup_iff.mpr hnodup
    refine (hsorted.and hdistinct).imp (fun {a b} hab => ?_)
    exact lt_of_le_of_ne hab.1 fun heq => hab.2 (key_eq_of_id heq)

theorem orderedCandidates_perm (hids : DistinctIds providers) (hperm : providers.Perm providers')
    (h : orderedCandidates text now providers = .ok ordered) :
    orderedCandidates text now providers' = .ok ordered := by
  simp only [orderedCandidates, Except.bind_eq_ok_iff, Except.pure_eq_ok_iff] at h ⊢
  obtain ⟨checked, hchecked, ranked, hranked, rfl⟩ := h
  obtain ⟨hproviders, hok⟩ := ranked_ok hchecked hranked
  have hnodup := nodup_ids hids (List.Perm.of_eq hproviders) hok
  obtain ⟨checked', hchecked', hpermChecked⟩ := hperm.mapM_eq_ok hchecked
  obtain ⟨ranked', hranked', hpermRanked⟩ :=
    ((hpermChecked.filter _).map Prod.fst).mapM_eq_ok hranked
  exact ⟨checked', hchecked', ranked', hranked',
    (sortedBy_eq_of_perm (rankedLt_compares ranked) (eq_of_key hnodup) hpermRanked).symm⟩

theorem orderedOpenaiProviders_perm (hids : DistinctIds providers)
    (hperm : providers.Perm providers') {primaryProviderId : Option String} {maxAttempts : Int}
    {chain : List ProviderLike}
    (h : orderedOpenaiProviders text providers primaryProviderId maxAttempts now = .ok chain) :
    orderedOpenaiProviders text providers' primaryProviderId maxAttempts now = .ok chain := by
  obtain ⟨limit, hlimit, h⟩ := Except.bind_eq_ok_iff.mp h
  obtain ⟨ordered, hordered, h⟩ := Except.bind_eq_ok_iff.mp h
  rw [orderedOpenaiProviders, Except.bind_of_ok hlimit,
    Except.bind_of_ok (orderedCandidates_perm hids hperm hordered)]
  exact h

end Order

section Fill
variable {ordered : List Ranked}

theorem candidateById_eq_some (hnodup : (ordered.map Ranked.id).Nodup) {r : Ranked}
    (hr : r ∈ ordered) : candidateById ordered r.id = some r := by
  cases hfind : candidateById ordered r.id with
  | none =>
    have hne := List.find?_eq_none.mp hfind r (List.mem_reverse.mpr hr)
    simp at hne
  | some other =>
    have hid : other.id = r.id := by simpa using List.find?_some hfind
    rw [List.inj_on_of_nodup_map hnodup (candidateById_mem hfind) hr hid]

theorem candidateById_id {id : String} {r : Ranked} (h : candidateById ordered id = some r) :
    r.id = id := by
  simpa using List.find?_some h

theorem fallback_ids (hnodup : (ordered.map Ranked.id).Nodup) (fallbacks : List String) :
    (fallbacks.filterMap (candidateById ordered)).map Ranked.id =
      fallbacks.filter fun id => id ∈ ordered.map Ranked.id := by
  induction fallbacks with
  | nil => rfl
  | cons id fallbacks ih =>
    by_cases hmem : id ∈ ordered.map Ranked.id
    · obtain ⟨r, hr, rfl⟩ := List.mem_map.mp hmem
      rw [List.filterMap_cons_some (candidateById_eq_some hnodup hr), List.map_cons, ih,
        List.filter_cons_of_pos (by simpa using hmem)]
    · have hnone : candidateById ordered id = none := by
        cases hfind : candidateById ordered id with
        | none => rfl
        | some r =>
          exact absurd (List.mem_map.mpr ⟨r, candidateById_mem hfind, candidateById_id hfind⟩) hmem
      rw [List.filterMap_cons_none hnone, ih, List.filter_cons_of_neg (by simpa using hmem)]

/-- The ids of a chain: the primary, its fallbacks in listed order, all candidates in the order
of their keys, each where it is mentioned first and up to the cap. -/
theorem fillChain_ids (hnodup : (ordered.map Ranked.id).Nodup) (limit : Nat) (primary : Ranked)
    (fallbacks : List String) :
    (fillChain limit primary ordered fallbacks).map Ranked.id =
      ((primary.id :: fallbacks.filter fun id => id ∈ ordered.map Ranked.id) ++
        ordered.map Ranked.id).eraseDups.take limit := by
  have hall : fillChain limit primary ordered fallbacks =
      appendAllFresh Ranked.id limit []
        ((primary :: fallbacks.filterMap (candidateById ordered)) ++ ordered) := by
    rw [fillChain]
    simp only [appendAllFresh, List.foldl_append, List.foldl_cons]
  rw [hall, map_appendAllFresh (by simp) (Nat.zero_le _), List.nil_append, List.map_append,
    List.map_cons, fallback_ids hnodup]

theorem fillChain_length (hnodup : (ordered.map Ranked.id).Nodup) (limit : Nat) {primary : Ranked}
    (hprimary : primary ∈ ordered) (fallbacks : List String) :
    (fillChain limit primary ordered fallbacks).length = min limit ordered.length := by
  have hids := congrArg List.length (fillChain_ids hnodup limit primary fallbacks)
  rw [List.length_map, List.length_take] at hids
  rw [hids, length_eraseDups_of_mem_iff hnodup, List.length_map]
  intro id
  simp only [List.cons_append, List.mem_cons, List.mem_append, List.mem_filter, decide_eq_true_eq]
  constructor
  · rintro (rfl | ⟨-, hmem⟩ | hmem)
    · exact List.mem_map.mpr ⟨primary, hprimary, rfl⟩
    · exact hmem
    · exact hmem
  · exact fun hmem => .inr (.inr hmem)

end Fill

/-- The primary: the one that is asked for, else the first of the candidates. -/
def IsPrimary (primaryProviderId : Option String) (ordered : List Ranked) (primary : Ranked) :
    Prop :=
  primary ∈ ordered ∧
    match primaryProviderId with
    | some id => primary.id = id
    | none => ordered.head? = some primary

theorem resolvePrimaryProvider_isPrimary {first primary : Ranked} {rest : List Ranked}
    {primaryProviderId : Option String}
    (h : resolvePrimaryProvider first (first :: rest) primaryProviderId = .ok primary) :
    IsPrimary primaryProviderId (first :: rest) primary := by
  refine ⟨resolvePrimaryProvider_mem List.mem_cons_self h, ?_⟩
  cases primaryProviderId with
  | none =>
    obtain rfl := Except.ok.inj h
    rfl
  | some id =>
    unfold resolvePrimaryProvider at h
    cases hid : candidateById (first :: rest) id with
    | none => simp [hid] at h
    | some r =>
      simp only [hid, Except.ok.injEq] at h
      subst h
      exact candidateById_id hid

section Chain
variable {text : PyString} {now : Option Instant} {providers : List ProviderLike}
  {primaryProviderId : Option String} {maxAttempts : Int} {chain : List ProviderLike}

theorem eligible_iff {p : ProviderLike} : eligible text now p = true ↔
    isOpenaiCompatibleProvider p = true ∧ providerEnabled p = true ∧
      providerUnhealthy text p = false ∧ providerInCooldown text p now = .ok false := by
  rw [← isCandidate_iff, eligible]
  cases isCandidate text now p with
  | ok passed => simp
  | error e => simp

theorem CandidateOrder.nodup {ordered : List Ranked} (hids : DistinctIds providers)
    (h : CandidateOrder text now providers ordered) : (ordered.map Ranked.id).Nodup :=
  nodup_ids hids h.perm h.ranked

theorem CandidateOrder.mem {ordered : List Ranked} (h : CandidateOrder text now providers ordered)
    {r : Ranked} (hr : r ∈ ordered) : r.provider ∈ providers ∧ eligible text now r.provider = true :=
  List.mem_filter.mp (h.perm.mem_iff.mp (List.mem_map.mpr ⟨r, hr, rfl⟩))

theorem CandidateOrder.providerId_eq {ordered : List Ranked}
    (h : CandidateOrder text now providers ordered) {chosen : List Ranked}
    (hchosen : ∀ r ∈ chosen, r ∈ ordered) :
    (chosen.map Ranked.provider).map providerId = (chosen.map Ranked.id).map .ok := by
  rw [List.map_map, List.map_map]
  refine List.map_congr_left (fun r hr => ?_)
  exact (rankedOf_ok (h.ranked r (hchosen r hr))).2

/-- The chain of a list of providers with distinct ids, in any order. -/
theorem orderedOpenaiProviders_chain (hids : DistinctIds providers)
    (h : orderedOpenaiProviders text providers primaryProviderId maxAttempts now = .ok chain) :
    ∃ limit ordered, effectiveMaxAttempts maxAttempts = .ok limit ∧
      CandidateOrder text now providers ordered ∧
      (∀ p ∈ chain, p ∈ providers ∧ isOpenaiCompatibleProvider p = true ∧
        providerEnabled p = true ∧ providerUnhealthy text p = false ∧
        providerInCooldown text p now = .ok false) ∧
      (chain.map providerId).Nodup ∧
      chain.length = min limit (providers.filter (eligible text now)).length ∧
      (ordered ≠ [] → ∃ primary fallbacks, IsPrimary primaryProviderId ordered primary ∧
        primary.provider.explicitFallbackChain = .ok fallbacks ∧
        chain.map providerId =
          (((primary.id :: fallbacks.filter fun id => id ∈ ordered.map Ranked.id) ++
            ordered.map Ranked.id).eraseDups.take limit).map .ok) ∧
      ∀ providers' : List ProviderLike, providers'.Perm providers →
        orderedOpenaiProviders text providers' primaryProviderId maxAttempts now = .ok chain := by
  have hperm : ∀ providers' : List ProviderLike, providers'.Perm providers →
      orderedOpenaiProviders text providers' primaryProviderId maxAttempts now = .ok chain :=
    fun providers' hp => orderedOpenaiProviders_perm hids hp.symm h
  obtain ⟨limit, hlimit, h⟩ := Except.bind_eq_ok_iff.mp h
  obtain ⟨ordered, hordered, h⟩ := Except.bind_eq_ok_iff.mp h
  have horder := orderedCandidates_order hids hordered
  have hcount : ordered.length = (providers.filter (eligible text now)).length := by
    rw [← horder.perm.length_eq, List.length_map]
  cases ordered with
  | nil =>
    obtain rfl := Except.pure_eq_ok_iff.mp h
    refine ⟨limit, [], hlimit, horder, by simp, List.nodup_nil, ?_, fun hne => absurd rfl hne,
      hperm⟩
    rw [← hcount]
    simp
  | cons first rest =>
    obtain ⟨primary, hprimary, h⟩ := Except.bind_eq_ok_iff.mp h
    obtain ⟨fallbacks, hfallbacks, h⟩ := Except.bind_eq_ok_iff.mp h
    obtain rfl := Except.pure_eq_ok_iff.mp h
    have hisPrimary := resolvePrimaryProvider_isPrimary hprimary
    have hnodup := horder.nodup hids
    have hmem : ∀ r ∈ fillChain limit primary (first :: rest) fallbacks, r ∈ first :: rest :=
      fun r hr => mem_fillChain hisPrimary.1 hr
    have hproviderIds := horder.providerId_eq hmem
    refine ⟨limit, first :: rest, hlimit, horder, ?_, ?_, ?_, fun _ =>
      ⟨primary, fallbacks, hisPrimary, hfallbacks, ?_⟩, hperm⟩
    · intro p hp
      obtain ⟨r, hr, rfl⟩ := List.mem_map.mp hp
      obtain ⟨hprovider, heligible⟩ := horder.mem (hmem r hr)
      exact ⟨hprovider, eligible_iff.mp heligible⟩
    · rw [hproviderIds]
      exact (fillChain_nodup _ _ _ _).map fun _ _ heq => Except.ok.inj heq
    · rw [List.length_map, fillChain_length hnodup limit hisPrimary.1, hcount]
    · rw [hproviderIds, fillChain_ids hnodup]

end Chain

theorem distinctIds_of_nodup {providers : List ProviderLike}
    (h : (providers.map providerId).Nodup) : DistinctIds providers :=
  (List.pairwise_map.mp h).imp fun hne _ hp hq => hne (hp.trans hq.symm)

def chainProvider (id : String) (fallbacks : List String) : ProviderLike :=
  .mapping [("id", .str id), ("fallback_chain", .list (fallbacks.map .str))]

def threeProviders : List ProviderLike :=
  [chainProvider "c" [], chainProvider "a" ["c", "a", "x"], chainProvider "b" []]

theorem threeProviders_chain : orderedOpenaiProviders asciiText threeProviders none 3 none =
    .ok [chainProvider "a" ["c", "a", "x"], chainProvider "c" [], chainProvider "b" []] := rfl

theorem orderedOpenaiProviders_chain_of_three : ∃ limit ordered,
    effectiveMaxAttempts 3 = .ok limit ∧ CandidateOrder asciiText none threeProviders ordered ∧
      3 = min limit (threeProviders.filter (eligible asciiText none)).length ∧
      ∀ providers' : List ProviderLike, providers'.Perm threeProviders →
        orderedOpenaiProviders asciiText providers' none 3 none =
          .ok [chainProvider "a" ["c", "a", "x"], chainProvider "c" [], chainProvider "b" []] := by
  have hids : DistinctIds threeProviders := distinctIds_of_nodup (by decide +kernel)
  obtain ⟨limit, ordered, hlimit, horder, -, -, hlength, -, hperm⟩ :=
    orderedOpenaiProviders_chain hids threeProviders_chain
  exact ⟨limit, ordered, hlimit, horder, hlength, hperm⟩

end Pitwall.Routing.OpenAI
