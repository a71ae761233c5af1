import Pitwall.Library.Fresh
import Pitwall.Library.Sorting
import Pitwall.Routing.Planner
set_option autoImplicit false

/-!
The provider chain of the OpenAI proxy: which providers can take part, in which order, and
under which base URL.
-/

namespace Pitwall.Routing.OpenAI

/-- `DEFAULT_OPENAI_MAX_ATTEMPTS`. -/
def defaultMaxAttempts : Nat := 3

/-- `OPENAI_PROVIDER_TYPES`. -/
def openaiProviderTypes : List String :=
  [ProviderType.serverlessQueue, .serverlessLb, .publicEndpoint].map ProviderType.value

section Provider
variable (text : PyString) (p : ProviderLike)

/-- `_provider_id`. -/
def providerId : Except PyError String :=
  match nonEmptyString (p.field "id") with
  | some id => .ok id
  | none => .error (valueError "provider must include a non-empty id")

/-- `_provider_name`. -/
def providerName : String := (nonEmptyString (p.field "name")).getD ""

/-- `_provider_priority`. -/
def providerPriority : Except PyError Int :=
  match p.field "priority" with
  | .none => .ok 0
  | .bool _ => .error (valueError "provider priority must be an integer")
  | value => text.intOf value

/-- `_provider_type`. -/
def providerType : Option String := nonEmptyString (p.field "provider_type")

/-- `_provider_enabled`. -/
def providerEnabled : Bool :=
  match p.field "enabled" with
  | .bool false => false
  | _ => true

/-- `_provider_unhealthy`. -/
def providerUnhealthy : Bool :=
  (nonEmptyString (p.field "health_status")).any fun status =>
    decide (text.lower status = "unhealthy")

/-- `_provider_in_cooldown`. -/
def providerInCooldown (now : Option Instant) : Except PyError Bool :=
  match now with
  | none => .ok false
  | some now => isInCooldown text now p

/-- `is_openai_compatible_provider`. -/
def isOpenaiCompatibleProvider : Bool :=
  (providerType p).all fun kind => decide (kind ∈ openaiProviderTypes)

/-- `str.rstrip("/")`. -/
def stripSlashes (s : String) : String := String.ofList (s.toList.rdropWhile (· = '/'))

/-- `openai_base_url_for_provider`. -/
def openaiBaseUrlForProvider : Option String :=
  match nonEmptyString (p.configValue "openai_base_url") with
  | some configured => some (stripSlashes configured)
  | none =>
      let endpointId := (nonEmptyString (p.field "runpod_endpoint_id")).or
        ((nonEmptyString (p.configValue "runpod_endpoint_id")).or
          (nonEmptyString (p.configValue "endpoint_id")))
      match endpointId, providerType p with
      | none, _ => none
      | some endpointId, none => some s!"https://api.runpod.ai/v2/{endpointId}/openai/v1"
      | some endpointId, some kind =>
          if kind = ProviderType.serverlessLb.value then
            some s!"https://{endpointId}.api.runpod.ai/openai/v1"
          else if kind = ProviderType.serverlessQueue.value ∨
              kind = ProviderType.publicEndpoint.value then
            some s!"https://api.runpod.ai/v2/{endpointId}/openai/v1"
          else none

end Provider

/-- A candidate under the key that it is ordered by. -/
structure Ranked where
  priority : Int
  name : String
  id : String
  provider : ProviderLike

/-- The order of the tuples that `_provider_order_key` returns. -/
def rankedLt (a b : Ranked) : Bool :=
  decide (a.priority < b.priority) || decide (a.priority = b.priority) &&
    (decide (a.name < b.name) || decide (a.name = b.name) && decide (a.id < b.id))

section Chain
variable (text : PyString)

def isCandidate (now : Option Instant) (p : ProviderLike) : Except PyError Bool :=
  if isOpenaiCompatibleProvider p && providerEnabled p && !providerUnhealthy text p then
    (fun cooling => !cooling) <$> providerInCooldown text p now
  else .ok false

def rankedOf (p : ProviderLike) : Except PyError Ranked := do
  let priority ← providerPriority text p
  let id ← providerId p
  pure ⟨priority, providerName p, id, p⟩

def orderedCandidates (now : Option Instant) (providers : List ProviderLike) :
    Except PyError (List Ranked) := do
  let checked ← providers.mapM fun p => (fun passed => (p, passed)) <$> isCandidate text now p
  let ranked ← ((checked.filter fun c => c.2).map Prod.fst).mapM (rankedOf text)
  pure (sortedBy rankedLt ranked)

/-- `by_id.get(id)`: of two candidates with one id the dict keeps the later. -/
def candidateById (ordered : List Ranked) (id : String) : Option Ranked :=
  ordered.reverse.find? fun r => decide (r.id = id)

/-- `_resolve_primary_provider`. -/
def resolvePrimaryProvider (first : Ranked) (ordered : List Ranked)
    (primaryProviderId : Option String) : Except PyError Ranked :=
  match primaryProviderId with
  | none => .ok first
  | some id =>
      match candidateById ordered id with
      | some primary => .ok primary
      | none => .error (valueError s!"primary_provider_id '{id}' is not available")

/-- `_effective_max_attempts`. -/
def effectiveMaxAttempts (maxAttempts : Int) : Except PyError Nat :=
  if maxAttempts < 1 then .error (valueError "max_attempts must be a positive integer")
  else .ok (min maxAttempts.toNat defaultMaxAttempts)

def fillChain (limit : Nat) (primary : Ranked) (ordered : List Ranked) (fallbacks : List String) :
    List Ranked :=
  let named := appendAllFresh Ranked.id limit (appendFresh Ranked.id limit [] primary)
    (fallbacks.filterMap (candidateById ordered))
  appendAllFresh Ranked.id limit named ordered

/-- `ordered_openai_providers`. -/
def orderedOpenaiProviders (providers : List ProviderLike) (primaryProviderId : Option String)
    (maxAttempts : Int) (now : Option Instant) : Except PyError (List ProviderLike) := do
  let limit ← effectiveMaxAttempts maxAttempts
  let ordered ← orderedCandidates text now providers
  match ordered with
  | [] => pure []
  | first :: _ =>
      let primary ← resolvePrimaryProvider first ordered primaryProviderId
      let fallbacks ← primary.provider.explicitFallbackChain
      pure ((fillChain limit primary ordered fallbacks).map Ranked.provider)

variable {text} {now : Option Instant} {providers : List ProviderLike}

theorem isCandidate_iff {p : ProviderLike} : isCandidate text now p = .ok true ↔
    isOpenaiCompatibleProvider p = true ∧ providerEnabled p = true ∧
      providerUnhealthy text p = false ∧ providerInCooldown text p now = .ok false := by
  unfold isCandidate
  split
  · rename_i hgate
    simp only [Bool.and_eq_true, Bool.not_eq_true'] at hgate
    obtain ⟨⟨hcompatible, henabled⟩, hhealth⟩ := hgate
    simp [hcompatible, henabled, hhealth, Except.map_eq_ok_iff]
  · rename_i hgate
    simp only [Bool.and_eq_true, Bool.not_eq_true', not_and, Bool.not_eq_false] at hgate
    refine iff_of_false (by simp) (fun h => ?_)
    have hunhealthy := hgate ⟨h.1, h.2.1⟩
    rw [h.2.2.1] at hunhealthy
    cases hunhealthy

theorem rankedOf_ok {p : ProviderLike} {r : Ranked} (h : rankedOf text p = .ok r) :
    r.provider = p ∧ providerId p = .ok r.id := by
  simp only [rankedOf, Except.bind_eq_ok_iff, Except.pure_eq_ok_iff] at h
  obtain ⟨priority, -, id, hid, rfl⟩ := h
  exact ⟨rfl, hid⟩

theorem mem_orderedCandidates {ordered : List Ranked}
    (h : orderedCandidates text now providers = .ok ordered) {r : Ranked} (hr : r ∈ ordered) :
    r.provider ∈ providers ∧ isCandidate text now r.provider = .ok true ∧
      rankedOf text r.provider = .ok r := by
  simp only [orderedCandidates, Except.bind_eq_ok_iff, Except.pure_eq_ok_iff] at h
  obtain ⟨checked, hchecked, ranked, hranked, rfl⟩ := h
  obtain ⟨p, hp, hok⟩ := List.mem_of_mapM_eq_ok hranked (mem_sortedBy.mp hr)
  obtain ⟨⟨p', passed⟩, hmem, rfl⟩ := List.mem_map.mp hp
  obtain ⟨hmem, hpassed⟩ := List.mem_filter.mp hmem
  obtain ⟨q, hq, hcheck⟩ := List.mem_of_mapM_eq_ok hchecked hmem
  obtain ⟨b, hb, heq⟩ := Except.map_eq_ok_iff.mp hcheck
  cases heq
  obtain ⟨hprovider, -⟩ := rankedOf_ok hok
  rw [hprovider]
  dsimp only at hpassed
  subst hpassed
  exact ⟨hq, hb, hok⟩

theorem candidateById_mem {ordered : List Ranked} {id : String} {r : Ranked}
    (h : candidateById ordered id = some r) : r ∈ ordered :=
  List.mem_reverse.mp (List.mem_of_find?_eq_some h)

theorem mem_fillChain {limit : Nat} {primary r : Ranked} {ordered : List Ranked}
    {fallbacks : List String} (hprimary : primary ∈ ordered)
    (h : r ∈ fillChain limit primary ordered fallbacks) : r ∈ ordered := by
  rcases mem_appendAllFresh h with hnamed | hordered
  · rcases mem_appendAllFresh hnamed with hfirst | hfallback
    · rcases mem_appendFresh hfirst with hnil | rfl
      · cases hnil
      · exact hprimary
    · obtain ⟨id, -, hid⟩ := List.mem_filterMap.mp hfallback
      exact candidateById_mem hid
  · exact hordered

theorem fillChain_nodup (limit : Nat) (primary : Ranked) (ordered : List Ranked)
    (fallbacks : List String) :
    ((fillChain limit primary ordered fallbacks).map Ranked.id).Nodup :=
  appendAllFresh_nodup (appendAllFresh_nodup (appendFresh_nodup List.nodup_nil))

theorem fillChain_length_le (limit : Nat) (primary : Ranked) (ordered : List Ranked)
    (fallbacks : List String) : (fillChain limit primary ordered fallbacks).length ≤ limit :=
  appendAllFresh_length_le (appendAllFresh_length_le (appendFresh_length_le (Nat.zero_le _)))

theorem resolvePrimaryProvider_mem {first primary : Ranked} {ordered : List Ranked}
    {primaryProviderId : Option String} (hfirst : first ∈ ordered)
    (h : resolvePrimaryProvider first ordered primaryProviderId = .ok primary) :
    primary ∈ ordered := by
  cases primaryProviderId with
  | none =>
    obtain rfl := Except.ok.inj h
    exact hfirst
  | some id =>
    unfold resolvePrimaryProvider at h
    cases hid : candidateById ordered id with
    | none => simp [hid] at h
    | some r =>
      simp only [hid, Except.ok.injEq] at h
      subst h
      exact candidateById_mem hid

theorem orderedOpenaiProviders_ok {primaryProviderId : Option String} {maxAttempts : Int}
    {chain : List ProviderLike}
    (h : orderedOpenaiProviders text providers primaryProviderId maxAttempts now = .ok chain) :
    ∃ ranked : List Ranked, chain = ranked.map Ranked.provider ∧ (ranked.map Ranked.id).Nodup ∧
      ranked.length ≤ defaultMaxAttempts ∧ ∀ r ∈ ranked, r.provider ∈ providers ∧
        isCandidate text now r.provider = .ok true ∧ providerId r.provider = .ok r.id := by
  simp only [orderedOpenaiProviders, Except.bind_eq_ok_iff] at h
  obtain ⟨limit, hlimit, ordered, hordered, h⟩ := h
  cases ordered with
  | nil =>
    obtain rfl := Except.pure_eq_ok_iff.mp h
    exact ⟨[], rfl, List.nodup_nil, Nat.zero_le _, fun r hr => nomatch hr⟩
  | cons first rest =>
    simp only [Except.bind_eq_ok_iff, Except.pure_eq_ok_iff] at h
    obtain ⟨primary, hprimary, fallbacks, -, rfl⟩ := h
    have hmem := resolvePrimaryProvider_mem List.mem_cons_self hprimary
    have hmax : limit ≤ defaultMaxAttempts := by
      unfold effectiveMaxAttempts at hlimit
      split at hlimit
      · cases hlimit
      · rw [← Except.ok.inj hlimit]
        exact Nat.min_le_right _ _
    refine ⟨_, rfl, fillChain_nodup _ _ _ _, le_trans (fillChain_length_le _ _ _ _) hmax, ?_⟩
    intro r hr
    obtain ⟨hp, hcandidate, hranked⟩ := mem_orderedCandidates hordered (mem_fillChain hmem hr)
    exact ⟨hp, hcandidate, (rankedOf_ok hranked).2⟩

end Chain

end Pitwall.Routing.OpenAI
