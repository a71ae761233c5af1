import Pitwall.Routing.Planner
set_option autoImplicit false

/-!
What the stages of `plan_route` return when they do, one lemma for each, and the plan as a
whole in terms of them.
-/

namespace Pitwall.Routing

namespace ProviderLike

def idOf (p : ProviderLike) : String := (p.stringField "id").getD ""

theorem providerId_eq_ok {p : ProviderLike} {id : String} (h : p.providerId = .ok id) :
    p.stringField "id" = some id := by
  unfold providerId at h
  split at h
  · next found hfound =>
    cases h
    exact hfound
  · cases h

theorem idOf_of_providerId {p : ProviderLike} {id : String} (h : p.providerId = .ok id) :
    p.idOf = id := by
  rw [idOf, providerId_eq_ok h, Option.getD_some]

theorem providerId_model (p : ProviderModel) : (ProviderLike.model p).providerId = .ok p.id := by
  have hid : (ProviderLike.model p).stringField "id" = some p.id := if_neg p.id_ne
  rw [providerId, hid]

theorem idOf_model (p : ProviderModel) : (ProviderLike.model p).idOf = p.id :=
  idOf_of_providerId (providerId_model p)

end ProviderLike

section Stage1
variable {text : PyString} {request : RoutingRequest} {p : ProviderLike}
  {capability : Option CapabilityModel} {capabilityId : Option String} {r : ConstraintResult}

theorem evaluateHardConstraints_eq_ok
    (h : evaluateHardConstraints text request p capability capabilityId = .ok r) :
    p.providerId = .ok r.providerId ∧
      hardConstraintReasons text request p capability capabilityId = .ok r.reasons ∧
      r.passed = r.reasons.isEmpty := by
  simp only [evaluateHardConstraints, Except.bind_eq_ok_iff, Except.pure_eq_ok_iff] at h
  obtain ⟨reasons, hreasons, id, hid, rfl⟩ := h
  exact ⟨hid, hreasons, rfl⟩

def stage1Rounds (text : PyString) (request : RoutingRequest)
    (capability : Option CapabilityModel) (capabilityId : Option String)
    (providers : List ProviderLike) : Except PyError (List (ProviderLike × ConstraintResult)) :=
  providers.mapM fun p =>
    (fun result => (p, result)) <$> evaluateHardConstraints text request p capability
      (expectedCapabilityId request capability capabilityId)

theorem filterHardConstraints_eq_ok_iff {providers : List ProviderLike}
    {result : HardConstraintFilterResult} :
    filterHardConstraints text request providers capability capabilityId = .ok result ↔
      ∃ rounds, stage1Rounds text request capability capabilityId providers = .ok rounds ∧
        result = ⟨(rounds.filter fun r => r.2.passed).map Prod.fst,
          (rounds.map Prod.snd).filter fun r => !r.passed, rounds.map Prod.snd⟩ := by
  simp only [filterHardConstraints, stage1Rounds, Except.bind_eq_ok_iff, Except.pure_eq_ok_iff]
  exact exists_congr fun rounds => and_congr_right fun _ => eq_comm

theorem mem_passed_iff {providers : List ProviderLike} {result : HardConstraintFilterResult}
    (h : filterHardConstraints text request providers capability capabilityId = .ok result)
    (p : ProviderLike) : p ∈ result.passed ↔ p ∈ providers ∧
      hardConstraintReasons text request p capability
        (expectedCapabilityId request capability capabilityId) = .ok [] := by
  obtain ⟨rounds, hrounds, rfl⟩ := filterHardConstraints_eq_ok_iff.mp h
  constructor
  · intro hp
    obtain ⟨round, hround, rfl⟩ := List.mem_map.mp hp
    obtain ⟨hround, hpassed⟩ := List.mem_filter.mp hround
    obtain ⟨q, hq, hok⟩ := List.mem_of_mapM_eq_ok hrounds hround
    obtain ⟨r, hr, rfl⟩ := Except.map_eq_ok_iff.mp hok
    obtain ⟨-, hreasons, hempty⟩ := evaluateHardConstraints_eq_ok hr
    rw [hpassed, eq_comm, List.isEmpty_iff] at hempty
    rw [hempty] at hreasons
    exact ⟨hq, hreasons⟩
  · rintro ⟨hp, hreasons⟩
    obtain ⟨round, hround, hok⟩ := List.exists_mem_of_mapM_eq_ok hrounds hp
    obtain ⟨r, hr, rfl⟩ := Except.map_eq_ok_iff.mp hok
    obtain ⟨-, hreasons', hempty⟩ := evaluateHardConstraints_eq_ok hr
    rw [hreasons] at hreasons'
    rw [← Except.ok.inj hreasons'] at hempty
    exact List.mem_map.mpr ⟨(p, r), List.mem_filter.mpr ⟨hround, hempty⟩, rfl⟩

theorem eliminated_reasons {providers : List ProviderLike} {result : HardConstraintFilterResult}
    (h : filterHardConstraints text request providers capability capabilityId = .ok result) :
    ∀ r ∈ result.eliminated, r.reasons ≠ [] ∧ r.providerId ≠ "" := by
  obtain ⟨rounds, hrounds, rfl⟩ := filterHardConstraints_eq_ok_iff.mp h
  intro r hr
  obtain ⟨hr, hfailed⟩ := List.mem_filter.mp hr
  obtain ⟨round, hround, rfl⟩ := List.mem_map.mp hr
  obtain ⟨q, -, hok⟩ := List.mem_of_mapM_eq_ok hrounds hround
  obtain ⟨result, hresult, rfl⟩ := Except.map_eq_ok_iff.mp hok
  obtain ⟨hid, -, hempty⟩ := evaluateHardConstraints_eq_ok hresult
  constructor
  · intro hnone
    change result.reasons = [] at hnone
    rw [hnone] at hempty
    simp [hempty] at hfailed
  · intro hblank
    exact ne_empty_of_nonEmpty (ProviderLike.providerId_eq_ok hid) hblank

theorem stage1Elimination_total {r : ConstraintResult} (hreasons : r.reasons ≠ [])
    (hid : r.providerId ≠ "") : ∃ e, stage1Elimination r = .ok e := by
  unfold stage1Elimination
  rw [if_neg hid]
  cases h : r.reasons with
  | nil => exact absurd h hreasons
  | cons first rest => exact ⟨_, rfl⟩

theorem stage1Elimination_eq_ok {e : RouteElimination} (h : stage1Elimination r = .ok e) :
    e.providerId = r.providerId ∧ e.reasons ≠ [] ∧ e.stage = 1 := by
  unfold stage1Elimination at h
  split at h
  · cases h
  · split at h
    · cases h
    · cases h
      exact ⟨rfl, List.cons_ne_nil _ _, rfl⟩

theorem stage1Elimination_reasons {e : RouteElimination} (h : stage1Elimination r = .ok e) :
    e.reasons = r.reasons.map .constraint := by
  unfold stage1Elimination at h
  split at h
  · cases h
  · split at h
    · cases h
    next first rest hreasons =>
      cases h
      exact hreasons.symm

end Stage1

section Stage2
variable {text : PyString} {now : Instant} {p : ProviderLike}
  {round : ProviderLike × String × List ProviderEliminated}

theorem stage2Round_eq_ok (h : stage2Round text now p = .ok round) :
    round.1 = p ∧ p.providerId = .ok round.2.1 ∧
      stage2EliminationReasons text now p = .ok round.2.2 := by
  simp only [stage2Round, Except.bind_eq_ok_iff, Except.pure_eq_ok_iff] at h
  obtain ⟨id, hid, reasons, hreasons, rfl⟩ := h
  exact ⟨rfl, hid, hreasons⟩

theorem stage2EliminationReasons_eq_nil_iff :
    stage2EliminationReasons text now p = .ok [] ↔
      isDisabled p = false ∧ healthStatus text p ≠ "unhealthy" ∧
        isInCooldown text now p = .ok false := by
  simp only [stage2EliminationReasons, Except.bind_eq_ok_iff, Except.pure_eq_ok_iff]
  constructor
  · rintro ⟨cooling, hcooling, hreasons⟩
    simp only [List.append_eq_nil_iff] at hreasons
    obtain ⟨⟨hdisabled, hhealth⟩, hcooldown⟩ := hreasons
    refine ⟨?_, ?_, ?_⟩
    · cases hd : isDisabled p <;> simp_all
    · intro hunhealthy
      simp [hunhealthy] at hhealth
    · cases cooling <;> simp_all
  · rintro ⟨hdisabled, hhealth, hcooldown⟩
    exact ⟨false, hcooldown, by simp [hdisabled, hhealth]⟩

theorem stage2Elimination_eq_some {e : RouteElimination} (h : stage2Elimination round = some e) :
    e.providerId = round.2.1 ∧ e.reasons ≠ [] ∧ e.stage = 2 := by
  obtain ⟨p, id, reasons⟩ := round
  cases reasons with
  | nil => cases h
  | cons first rest =>
    cases h
    exact ⟨rfl, List.cons_ne_nil _ _, rfl⟩

end Stage2

section Stage3
variable {text : PyString} {hints : Hints} {observed : Observed} {p : ProviderLike}
  {c : RouteCandidate}

theorem candidateForProvider_eq_ok (h : candidateForProvider text hints observed p = .ok c) :
    c.provider = p ∧ p.providerId = .ok c.providerId ∧ c.rank = 0 := by
  simp only [candidateForProvider, Except.bind_eq_ok_iff, Except.pure_eq_ok_iff] at h
  obtain ⟨id, hid, metrics, -, explanation, -, fallbackFor, -, chain, -, rfl⟩ := h
  exact ⟨rfl, hid, rfl⟩

theorem keyed_eq_ok {pair : SortKey × RouteCandidate} (h : keyed text c = .ok pair) :
    pair.2 = c ∧ pair.1.negatedScore = c.score.neg ∧ pair.1.providerId = c.providerId := by
  simp only [keyed, candidateSortKey, Except.map_eq_ok_iff, Except.bind_eq_ok_iff,
    Except.pure_eq_ok_iff] at h
  obtain ⟨key, ⟨priority, -, rfl⟩, rfl⟩ := h
  exact ⟨rfl, rfl, rfl⟩

theorem snd_of_keyed {cs : List RouteCandidate} {pairs : List (SortKey × RouteCandidate)}
    (h : cs.mapM (keyed text) = .ok pairs) : pairs.map Prod.snd = cs := by
  have hmap := List.map_of_mapM_eq_ok (g := id) h fun c _ pair hpair => (keyed_eq_ok hpair).1
  rw [hmap, List.map_id]

theorem rankCandidates_eq_ok {candidates ranked : List RouteCandidate}
    (h : rankCandidates text candidates = .ok ranked) :
    ∃ order : List RouteCandidate, order.Perm candidates ∧
      ranked = (order.zipIdx 1).map fun pair => { pair.1 with rank := pair.2 } := by
  simp only [rankCandidates, Except.bind_eq_ok_iff, Except.pure_eq_ok_iff] at h
  obtain ⟨pairs, hpairs, rfl⟩ := h
  refine ⟨(sortedBy (fun a b => a.1.rankLt b.1) pairs).map Prod.snd, ?_, ?_⟩
  · rw [← snd_of_keyed hpairs]
    exact (sortedBy_perm _ pairs).map Prod.snd
  · rw [List.zipIdx_map, List.map_map]
    rfl

theorem map_zipIdx_rank {γ : Type} (f : RouteCandidate → γ)
    (hf : ∀ c rank, f { c with rank := rank } = f c) (order : List RouteCandidate) (n : Nat) :
    ((order.zipIdx n).map fun pair => { pair.1 with rank := pair.2 }).map f = order.map f := by
  rw [List.map_map, ← List.zipIdx_map_fst n order, List.map_map, List.zipIdx_map_fst]
  exact List.map_congr_left fun pair _ => hf pair.1 pair.2

theorem exists_candidate_of_ranked {candidates ranked : List RouteCandidate}
    (h : rankCandidates text candidates = .ok ranked) {c : RouteCandidate} (hc : c ∈ ranked) :
    ∃ d ∈ candidates, d.provider = c.provider ∧ d.providerId = c.providerId := by
  obtain ⟨order, hperm, hranked⟩ := rankCandidates_eq_ok h
  have hmem : (c.provider, c.providerId) ∈ ranked.map fun c => (c.provider, c.providerId) :=
    List.mem_map_of_mem hc
  rw [hranked, map_zipIdx_rank _ (fun _ _ => rfl), (hperm.map _).mem_iff] at hmem
  obtain ⟨d, hd, heq⟩ := List.mem_map.mp hmem
  exact ⟨d, hd, (Prod.mk.inj heq).1, (Prod.mk.inj heq).2⟩

theorem mem_ranked_providers_iff {candidates ranked : List RouteCandidate}
    (h : rankCandidates text candidates = .ok ranked) (p : ProviderLike) :
    p ∈ ranked.map RouteCandidate.provider ↔ p ∈ candidates.map RouteCandidate.provider := by
  obtain ⟨order, hperm, hranked⟩ := rankCandidates_eq_ok h
  rw [hranked, map_zipIdx_rank _ (fun _ _ => rfl), (hperm.map _).mem_iff]

end Stage3

section Stage4
variable {σ : Type} {text : PyString} {request : RoutingRequest} {reader : CapacityReader σ}

inductive CapacityReader.Reaches (reader : CapacityReader σ) : σ → σ → Prop where
  | refl (s : σ) : reader.Reaches s s
  | ask {s s' s'' : σ} {key : CapacityProbeKey} {available : Option Bool} :
      reader.Reaches s s' → reader.isAvailable s' key = .ok (available, s'') → reader.Reaches s s''

/-- The reader, asked for the key on the way from `s`, reported it available. -/
def CapacityReader.Reported (reader : CapacityReader σ) (s : σ) (key : CapacityProbeKey) : Prop :=
  ∃ s' s'', reader.Reaches s s' ∧ reader.isAvailable s' key = .ok (some true, s'')

theorem CapacityReader.Reaches.trans {s s' s'' : σ} (h : reader.Reaches s s')
    (h' : reader.Reaches s' s'') : reader.Reaches s s'' := by
  induction h' with
  | refl => exact h
  | ask _ hask ih => exact ih.ask hask

theorem CapacityReader.Reported.mono {s s' : σ} {key : CapacityProbeKey}
    (h : reader.Reported s' key) (hreach : reader.Reaches s s') : reader.Reported s key := by
  obtain ⟨t, t', ht, hask⟩ := h
  exact ⟨t, t', hreach.trans ht, hask⟩

/-- The loop over the keys ends in a state that it came to by asking, and an available answer
selects a key that the reader reported. -/
theorem probeKeys_eq_ok {sawUnknown : Bool} {keys : List CapacityProbeKey} {s s' : σ}
    {available : Option Bool} {selected : Option CapacityProbeKey}
    (h : probeKeys reader sawUnknown keys s = .ok ((available, selected), s')) :
    reader.Reaches s s' ∧
      (available = some true → ∃ key ∈ keys, selected = some key ∧ reader.Reported s key) := by
  induction keys generalizing sawUnknown s with
  | nil =>
    simp only [probeKeys, Except.ok.injEq, Prod.mk.injEq] at h
    obtain ⟨⟨rfl, -⟩, rfl⟩ := h
    refine ⟨.refl s, fun htrue => ?_⟩
    cases sawUnknown <;> cases htrue
  | cons key keys ih =>
    simp only [probeKeys, Except.bind_eq_ok_iff] at h
    obtain ⟨⟨answer, t⟩, hask, h⟩ := h
    have hstep : reader.Reaches s t := (CapacityReader.Reaches.refl s).ask hask
    have hlater : ∀ {saw : Bool}, probeKeys reader saw keys t = .ok ((available, selected), s') →
        reader.Reaches s s' ∧ (available = some true →
          ∃ k ∈ key :: keys, selected = some k ∧ reader.Reported s k) := by
      intro saw h
      obtain ⟨hreach, hselected⟩ := ih h
      refine ⟨hstep.trans hreach, fun htrue => ?_⟩
      obtain ⟨k, hk, hsel, hreported⟩ := hselected htrue
      exact ⟨k, List.mem_cons_of_mem _ hk, hsel, hreported.mono hstep⟩
    cases answer with
    | none => exact hlater h
    | some b =>
      cases b with
      | false => exact hlater h
      | true =>
        rw [Except.pure_eq_ok_iff] at h
        cases h
        exact ⟨hstep, fun _ => ⟨key, by simp, rfl, s, _, .refl s, hask⟩⟩

def HasCapacity (text : PyString) (request : RoutingRequest) (reader : CapacityReader σ) (s : σ)
    (c : RouteCandidate) (decisions : List CapacityDecision) : Prop :=
  ∃ keys key, c.provider.capacityKeys text request = .ok keys ∧ key ∈ keys ∧
    ⟨c.providerId, some true, "available", keys, some key⟩ ∈ decisions ∧ reader.Reported s key

theorem capacityDecisionForCandidate_eq_ok {c : RouteCandidate} {s s' : σ}
    {decision : CapacityDecision}
    (h : capacityDecisionForCandidate text request reader c s = .ok (decision, s')) :
    reader.Reaches s s' ∧ decision.providerId = c.providerId ∧
      (decision.available = some true →
        HasCapacity text request reader s c [decision]) := by
  simp only [capacityDecisionForCandidate, Except.bind_eq_ok_iff] at h
  obtain ⟨keys, hkeys, h⟩ := h
  split at h
  · rw [Except.pure_eq_ok_iff] at h
    cases h
    exact ⟨.refl s, rfl, fun htrue => nomatch htrue⟩
  · simp only [Except.bind_eq_ok_iff, Except.pure_eq_ok_iff] at h
    obtain ⟨⟨⟨available, selected⟩, t⟩, hprobe, h⟩ := h
    cases h
    obtain ⟨hreach, hselected⟩ := probeKeys_eq_ok hprobe
    refine ⟨hreach, rfl, fun htrue => ?_⟩
    obtain rfl : available = some true := htrue
    obtain ⟨key, hkey, rfl, hreported⟩ := hselected rfl
    exact ⟨keys, key, hkeys, hkey, List.mem_singleton.mpr rfl, hreported⟩

structure Stage4Spec (text : PyString) (request : RoutingRequest) (reader : CapacityReader σ)
    (s : σ) (cs : List RouteCandidate) (result : Stage4) : Prop where
  sublist : result.available.Sublist cs
  perm : (result.available.map RouteCandidate.providerId ++
    result.eliminated.map RouteElimination.providerId).Perm (cs.map RouteCandidate.providerId)
  reasons : ∀ e ∈ result.eliminated, e.reasons ≠ []
  capacity : ∀ c ∈ result.available, isPodLeaseProvider c.provider = true →
    HasCapacity text request reader s c result.decisions

theorem HasCapacity.mono {s s' : σ} {c : RouteCandidate} {decisions decisions' : List CapacityDecision}
    (h : HasCapacity text request reader s' c decisions) (hreach : reader.Reaches s s')
    (hsub : ∀ d ∈ decisions, d ∈ decisions') : HasCapacity text request reader s c decisions' := by
  obtain ⟨keys, key, hkeys, hkey, hmem, hreported⟩ := h
  exact ⟨keys, key, hkeys, hkey, hsub _ hmem, hreported.mono hreach⟩

theorem applyStage4Capacity_stage {cs : List RouteCandidate} {s : σ} {result : Stage4}
    (h : applyStage4Capacity text request reader cs s = .ok result) :
    ∀ e ∈ result.eliminated, e.stage = 4 := by
  induction cs generalizing s result with
  | nil =>
    cases h
    simp
  | cons c cs ih =>
    rw [applyStage4Capacity] at h
    split at h
    · simp only [Except.bind_eq_ok_iff, Except.pure_eq_ok_iff] at h
      obtain ⟨rest, hrest, rfl⟩ := h
      exact fun e he => ih hrest e he
    · simp only [Except.bind_eq_ok_iff, Except.pure_eq_ok_iff] at h
      obtain ⟨⟨decision, t⟩, -, rest, hrest, rfl⟩ := h
      split
      · exact fun e he => ih hrest e he
      · exact List.forall_mem_cons.mpr ⟨rfl, ih hrest⟩

theorem applyStage4Capacity_spec {cs : List RouteCandidate} {s : σ} {result : Stage4}
    (h : applyStage4Capacity text request reader cs s = .ok result) :
    Stage4Spec text request reader s cs result := by
  induction cs generalizing s result with
  | nil =>
    cases h
    exact ⟨List.Sublist.refl _, List.Perm.refl _, by simp, by simp⟩
  | cons c cs ih =>
    simp only [applyStage4Capacity] at h
    split at h
    · next hpod =>
      simp only [Except.bind_eq_ok_iff, Except.pure_eq_ok_iff] at h
      obtain ⟨rest, hrest, rfl⟩ := h
      have spec := ih hrest
      refine ⟨spec.sublist.cons_cons c, spec.perm.cons c.providerId, spec.reasons, ?_⟩
      intro d hd hlease
      rcases List.mem_cons.mp hd with rfl | hd
      · simp [hlease] at hpod
      · exact spec.capacity d hd hlease
    · simp only [Except.bind_eq_ok_iff, Except.pure_eq_ok_iff] at h
      obtain ⟨⟨decision, s'⟩, hdecision, rest, hrest, rfl⟩ := h
      obtain ⟨hreach, -, hcapacity⟩ := capacityDecisionForCandidate_eq_ok hdecision
      have spec := ih hrest
      have hold : ∀ d ∈ rest.available, isPodLeaseProvider d.provider = true →
          HasCapacity text request reader s d (decision :: rest.decisions) := fun d hd hlease =>
        (spec.capacity d hd hlease).mono hreach fun _ hmem => List.mem_cons_of_mem _ hmem
      split
      · next htrue =>
        refine ⟨spec.sublist.cons_cons c, spec.perm.cons c.providerId, spec.reasons, ?_⟩
        intro d hd hlease
        rcases List.mem_cons.mp hd with rfl | hd
        · exact (hcapacity htrue).mono (.refl s) (by simp)
        · exact hold d hd hlease
      · refine ⟨spec.sublist.cons c, ?_, ?_, hold⟩
        · exact List.perm_middle.trans (spec.perm.cons c.providerId)
        · intro e he
          rcases List.mem_cons.mp he with rfl | he
          · exact List.cons_ne_nil _ _
          · exact spec.reasons e he

end Stage4

section Attempts
variable {text : PyString} {first : RouteCandidate} {rest : List RouteCandidate}

theorem selectPrimaryCandidate_mem : selectPrimaryCandidate first rest ∈ first :: rest := by
  simp only [selectPrimaryCandidate]
  cases hfind : (first :: rest).find? _ with
  | none => simp
  | some c => exact List.mem_of_find?_eq_some hfind

theorem candidateById_eq_some {ranked : List RouteCandidate} {id : String} {c : RouteCandidate}
    (h : candidateById ranked id = some c) : c ∈ ranked ∧ c.providerId = id := by
  have hmem := List.mem_of_find?_eq_some h
  have hid := List.find?_some h
  exact ⟨List.mem_reverse.mp hmem, by simpa using hid⟩

theorem followChain_spec (ranked : List RouteCandidate) (chain seen : List String) :
    (∀ c ∈ followChain ranked chain seen, c ∈ ranked) ∧
    ((followChain ranked chain seen).map RouteCandidate.providerId).Nodup ∧
    ∀ c ∈ followChain ranked chain seen, c.providerId ∉ seen := by
  induction chain generalizing seen with
  | nil => simp [followChain]
  | cons id chain ih =>
    simp only [followChain]
    split
    · next c hc =>
      split
      · exact ih seen
      · next hseen =>
        obtain ⟨hmem, hnodup, hfresh⟩ := ih (c.providerId :: seen)
        refine ⟨?_, ?_, ?_⟩
        · intro d hd
          rcases List.mem_cons.mp hd with rfl | hd
          · exact (candidateById_eq_some hc).1
          · exact hmem d hd
        · refine List.nodup_cons.mpr ⟨fun hin => ?_, hnodup⟩
          obtain ⟨d, hd, heq⟩ := List.mem_map.mp hin
          exact hfresh d hd (by simp [heq])
        · intro d hd
          rcases List.mem_cons.mp hd with rfl | hd
          · exact hseen
          · exact fun hin => hfresh d hd (List.mem_cons_of_mem _ hin)
    · exact ih seen

theorem fallbackCandidates_spec {selected : RouteCandidate} {ranked fallbacks : List RouteCandidate}
    (hranked : (ranked.map RouteCandidate.providerId).Nodup)
    (h : fallbackCandidates text selected ranked = .ok fallbacks) :
    (∀ c ∈ fallbacks, c ∈ ranked) ∧ (fallbacks.map RouteCandidate.providerId).Nodup ∧
      selected.providerId ∉ fallbacks.map RouteCandidate.providerId := by
  unfold fallbackCandidates at h
  split at h
  · simp only [Except.bind_eq_ok_iff, Except.pure_eq_ok_iff] at h
    obtain ⟨pairs, hpairs, rfl⟩ := h
    have hperm : ((sortedBy (fun a b => a.1.fallbackLt b.1) pairs).map Prod.snd).Perm
        (pairs.map Prod.snd) := (sortedBy_perm _ pairs).map Prod.snd
    rw [snd_of_keyed hpairs] at hperm
    refine ⟨fun c hc => List.mem_of_mem_filter (hperm.mem_iff.mp hc), ?_, ?_⟩
    · rw [(hperm.map RouteCandidate.providerId).nodup_iff]
      exact hranked.sublist (List.filter_sublist.map _)
    · intro hin
      obtain ⟨c, hc, heq⟩ := List.mem_map.mp hin
      have hrelated := List.of_mem_filter (hperm.mem_iff.mp hc)
      simp [heq] at hrelated
  · cases h
    have hchain := followChain_spec ranked selected.explicitFallbackChain [selected.providerId]
    refine ⟨hchain.1, hchain.2.1, fun hin => ?_⟩
    obtain ⟨c, hc, heq⟩ := List.mem_map.mp hin
    exact hchain.2.2 c hc (by simp [heq])

def backoffOf (backoffBaseS : Binary64) (attempt : Nat) : Binary64 :=
  if attempt = 1 then .ofRat 0 else backoffBaseS.mul (.ofRat (2 ^ (attempt - 2)))

/-- What `_route_attempts` makes of the survivors: a chain of distinct ones, numbered from 1. -/
structure AttemptsSpec (maxAttempts : Int) (backoffBaseS : Binary64) (survivors : List RouteCandidate)
    (attempts : List RouteAttempt) : Prop where
  from_survivors : ∀ a ∈ attempts, ∃ c ∈ survivors, a.providerId = c.providerId ∧
    a.provider = c.provider ∧ a.score = c.score ∧ a.scoreExplanation = c.scoreExplanation
  nodup : (attempts.map RouteAttempt.providerId).Nodup
  length_le : (attempts.length : Int) ≤ maxAttempts
  numbered : attempts.map RouteAttempt.attempt = List.range' 1 attempts.length
  backoff : ∀ a ∈ attempts, a.attempt - 2 < 1024 ∧
    a.backoffBeforeAttemptS = backoffOf backoffBaseS a.attempt
  nonempty_iff : attempts ≠ [] ↔ survivors ≠ []

theorem routeAttempt_eq_ok {backoffBaseS : Binary64} {pair : RouteCandidate × Nat} {a : RouteAttempt}
    (h : routeAttempt backoffBaseS pair = .ok a) :
    a.providerId = pair.1.providerId ∧ a.provider = pair.1.provider ∧ a.score = pair.1.score ∧
      a.scoreExplanation = pair.1.scoreExplanation ∧ a.attempt = pair.2 ∧
      pair.2 - 2 < 1024 ∧ a.backoffBeforeAttemptS = backoffOf backoffBaseS pair.2 := by
  obtain ⟨c, index⟩ := pair
  simp only [routeAttempt, Except.map_eq_ok_iff] at h
  obtain ⟨backoff, hbackoff, rfl⟩ := h
  refine ⟨rfl, rfl, rfl, rfl, rfl, ?_⟩
  unfold backoffBeforeAttempt at hbackoff
  unfold backoffOf
  split at hbackoff
  · next hone =>
    cases hbackoff
    exact ⟨by omega, (if_pos hone).symm⟩
  · next hone =>
    split at hbackoff
    · cases hbackoff
    · next hfew =>
      cases hbackoff
      exact ⟨by omega, (if_neg hone).symm⟩

theorem routeAttempts_spec {maxAttempts : Int} {backoffBaseS : Binary64}
    {survivors : List RouteCandidate} {attempts : List RouteAttempt} (hmax : 1 ≤ maxAttempts)
    (hsurvivors : (survivors.map RouteCandidate.providerId).Nodup)
    (h : routeAttempts text maxAttempts backoffBaseS survivors = .ok attempts) :
    AttemptsSpec maxAttempts backoffBaseS survivors attempts := by
  cases survivors with
  | nil =>
    cases h
    exact ⟨by simp, by simp, by simp; omega, by simp, by simp, by simp⟩
  | cons first rest =>
    simp only [routeAttempts, Except.bind_eq_ok_iff] at h
    obtain ⟨fallbacks, hfallbacks, hattempts⟩ := h
    obtain ⟨hmem, hnodup, hother⟩ := fallbackCandidates_spec hsurvivors hfallbacks
    set selected := selectPrimaryCandidate first rest with hselected
    set chain := (selected :: fallbacks).take maxAttempts.toNat with hchain
    have hids : attempts.map RouteAttempt.providerId = chain.map RouteCandidate.providerId := by
      have hmap := List.map_of_mapM_eq_ok (g := fun pair => pair.1.providerId)
        (k := RouteAttempt.providerId) hattempts fun pair _ a ha => (routeAttempt_eq_ok ha).1
      rw [hmap, ← List.zipIdx_map_fst 1 chain, List.map_map, List.zipIdx_map_fst]
      rfl
    have hlength : attempts.length = chain.length := by
      simpa using congrArg List.length hids
    refine ⟨?_, ?_, ?_, ?_, ?_, ?_⟩
    · intro a ha
      obtain ⟨pair, hpair, hok⟩ := List.mem_of_mapM_eq_ok hattempts ha
      obtain ⟨hid, hprovider, hscore, hexplanation, -⟩ := routeAttempt_eq_ok hok
      have hin : pair.1 ∈ selected :: fallbacks := by
        have hfst : pair.1 ∈ (chain.zipIdx 1).map Prod.fst := List.mem_map_of_mem hpair
        rw [List.zipIdx_map_fst] at hfst
        exact List.mem_of_mem_take hfst
      refine ⟨pair.1, ?_, hid, hprovider, hscore, hexplanation⟩
      rcases List.mem_cons.mp hin with heq | hin
      · rw [heq]
        exact selectPrimaryCandidate_mem
      · exact hmem _ hin
    · rw [hids]
      have hall : ((selected :: fallbacks).map RouteCandidate.providerId).Nodup :=
        List.nodup_cons.mpr ⟨hother, hnodup⟩
      exact hall.sublist ((List.take_sublist _ _).map _)
    · rw [hlength, hchain, List.length_take]
      omega
    · have hmap := List.map_of_mapM_eq_ok (g := fun pair : RouteCandidate × Nat => pair.2)
        (k := RouteAttempt.attempt) hattempts
        fun pair _ a ha => (routeAttempt_eq_ok ha).2.2.2.2.1
      rw [hmap, hlength]
      exact List.zipIdx_map_snd 1 chain
    · intro a ha
      obtain ⟨pair, -, hok⟩ := List.mem_of_mapM_eq_ok hattempts ha
      obtain ⟨-, -, -, -, hindex, hfew, hbackoff⟩ := routeAttempt_eq_ok hok
      rw [hbackoff, hindex]
      exact ⟨hfew, rfl⟩
    · have hpos : attempts.length ≠ 0 := by
        rw [hlength, hchain, List.length_take, List.length_cons]
        omega
      simp only [ne_eq, ← List.length_eq_zero_iff, hpos, not_false_eq_true, List.length_cons,
        Nat.add_one_ne_zero]

end Attempts

section Plan
variable {σ : Type} {text : PyString} {reader : CapacityReader σ} {state : σ}
  {request : RoutingRequest} {options : PlanOptions} {now : Instant}
  {providers : List ProviderLike} {plan : RoutePlan}

structure PlanStages (text : PyString) (reader : CapacityReader σ) (state : σ)
    (request : RoutingRequest) (options : PlanOptions) (now : Instant)
    (providers : List ProviderLike) (plan : RoutePlan) where
  rounds : List (ProviderLike × ConstraintResult)
  stage1Eliminated : List RouteElimination
  stage2 : List (ProviderLike × String × List ProviderEliminated)
  candidates : List RouteCandidate
  stage4 : Stage4
  valid : validatePlanOptions options.maxAttempts options.backoffBaseS = .ok ()
  rounds_eq : stage1Rounds text request options.capability options.capabilityId providers =
    .ok rounds
  stage1_eq : (((rounds.map Prod.snd).filter fun r => !r.passed).mapM stage1Elimination) =
    .ok stage1Eliminated
  stage2_eq : (((rounds.filter fun r => r.2.passed).map Prod.fst).mapM (stage2Round text now)) =
    .ok stage2
  candidates_eq : (((stage2.filter fun r => r.2.2.isEmpty).map Prod.fst).mapM
    (candidateForProvider text (options.activeHints request) options.observed)) = .ok candidates
  ranked_eq : rankCandidates text candidates = .ok plan.rankedCandidates
  stage4_eq : applyStage4Capacity text request reader plan.rankedCandidates state = .ok stage4
  attempts_eq : routeAttempts text options.maxAttempts options.backoffBaseS stage4.available =
    .ok plan.attempts
  request_eq : plan.request = request
  eliminated_eq : plan.eliminated =
    stage1Eliminated ++ stage2.filterMap stage2Elimination ++ stage4.eliminated
  decisions_eq : plan.capacityDecisions = stage4.decisions
  maxAttempts_eq : plan.maxAttempts = options.maxAttempts

theorem planRoute_eq_ok_iff :
    planRoute text reader state request options now providers = .ok plan ↔
      Nonempty (PlanStages text reader state request options now providers plan) := by
  simp only [planRoute, Except.bind_eq_ok_iff, Except.pure_eq_ok_iff,
    filterHardConstraints_eq_ok_iff]
  constructor
  · rintro ⟨⟨⟩, hvalid, stage1, ⟨rounds, hrounds, rfl⟩, elims, helims, stage2, hstage2, cands,
      hcands, ranked, hranked, stage4, hstage4, attempts, hattempts, rfl⟩
    exact ⟨⟨rounds, elims, stage2, cands, stage4, hvalid, hrounds, helims, hstage2, hcands,
      hranked, hstage4, hattempts, rfl, rfl, rfl, rfl⟩⟩
  · rintro ⟨st⟩
    refine ⟨(), st.valid, _, ⟨st.rounds, st.rounds_eq, rfl⟩, _, st.stage1_eq, _, st.stage2_eq, _,
      st.candidates_eq, _, st.ranked_eq, _, st.stage4_eq, _, st.attempts_eq, ?_⟩
    exact RoutePlan.ext st.request_eq.symm rfl rfl st.eliminated_eq.symm st.decisions_eq.symm
      st.maxAttempts_eq.symm

end Plan

end Pitwall.Routing
