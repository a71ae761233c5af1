import Mathlib
import Pitwall.Routing.DemandForecast
import Pitwall.Routing.Prewarm
set_option autoImplicit false

/-!
The warm targets that the prewarm planner recommends for a forecast, in exact arithmetic.
-/

namespace Pitwall.Routing

structure PrewarmRecommendation where
  capabilityId : String
  providerId : String
  providerType : String
  targetKind : PrewarmTargetKind
  targetCount : Int
  currentWarmCount : Int
  requestsPerWarmUnit : Int
  forecastRequests : Int
  startAt : Instant
  readyBy : Instant
  expiresAt : Instant
  reason : String
  target : List (String × PyValue)
  rank : ℕ

structure PrewarmPlan where
  now : Instant
  forecasts : List DemandForecast
  recommendations : List PrewarmRecommendation

/-- `_SUPPORTED_PREWARM_TYPES`. -/
def supportedPrewarmTypes : List String :=
  [ProviderType.serverlessLb.value, ProviderType.serverlessQueue.value, ProviderType.podLease.value]

/-- `_positive_int`. -/
def positiveInt (text : PyString) (value : PyValue) (fieldName : String) : Except PyError Int :=
  match value with
  | .bool _ => .error (valueError s!"{fieldName} must be a positive integer")
  | value => do
      let result ← text.intOf value
      if result < 1 then .error (valueError s!"{fieldName} must be >= 1") else pure result

/-- `_non_negative_float`. -/
def nonNegativeFloat (text : PyString) (value : PyValue) (fieldName : String) : Except PyError ℚ :=
  match value with
  | .bool _ => .error (valueError s!"{fieldName} must be a non-negative number")
  | value => do
      match ← text.floatOf value with
      | .finite result =>
          if result < 0 then
            .error (valueError s!"{fieldName} must be a finite non-negative number")
          else pure result
      | _ => .error (valueError s!"{fieldName} must be a finite non-negative number")

/-- `bool(value)`. -/
def PyValue.isTruthy : PyValue → Bool
  | .none => false
  | .bool b => b
  | .int n => n ≠ 0
  | .float (.finite q) => q ≠ 0
  | .float _ => true
  | .str s => s ≠ ""
  | .list items | .tuple items => !items.isEmpty
  | .dict entries | .mappingProxy entries => !entries.isEmpty
  | .datetime _ | .other _ => true

namespace ProviderLike
variable (p : ProviderLike)

/-- `_string_field` of the prewarm planner, which strips. -/
def strippedField (key : String) : Option String := nonEmptyString (p.field key)

/-- `_provider_id`. -/
def prewarmId : Except PyError String :=
  match p.strippedField "id" with
  | some id => .ok id
  | none => .error (valueError "provider must include a non-empty id")

/-- `_capability_id`. -/
def prewarmCapabilityId : Except PyError String :=
  match p.strippedField "capability_id" with
  | some id => .ok id
  | none => .error (valueError "provider must include a non-empty capability_id")

/-- `_capacity_gpu_name`, of the keys that may name several. -/
def capacityGpuNameOf : List String → Option String
  | [] => none
  | key :: keys =>
      let raw := p.configValue key
      match raw.text?, raw.sequence? with
      | some s, _ => if s ≠ "availability" then nonEmptyString raw else capacityGpuNameOf keys
      | none, some items => (items.findSome? nonEmptyString).or (capacityGpuNameOf keys)
      | none, none => capacityGpuNameOf keys

/-- `_capacity_gpu_name`. -/
def capacityGpuName : Option String :=
  (p.firstConfigOrFieldString ["gpu_name", "gpu_type", "gpu_type_id", "gpu_class"]).or
    (p.capacityGpuNameOf
      ["gpu_names", "gpu_types", "gpuTypeIds", "gpu_classes", "gpu_type_priority"])

/-- `_target_payload`. -/
def targetPayload (text : PyString) : PrewarmTargetKind → Except PyError (List (String × PyValue))
  | .endpointWorkers =>
      .ok (match p.strippedField "runpod_endpoint_id" with
        | some endpointId => [("runpod_endpoint_id", .str endpointId)]
        | none => [])
  | .podLease => do
      let gpuCount ← p.capacityGpuCount text
      let entry (key : String) (value : Option String) : List (String × PyValue) :=
        match value with
        | some s => [(key, .str s)]
        | none => []
      pure (entry "runpod_template_id" (p.strippedField "runpod_template_id") ++
        entry "datacenter" p.capacityDatacenter ++ entry "gpu_name" p.capacityGpuName ++
        (match gpuCount with
          | some n => [("gpu_count", .int n)]
          | none => []) ++
        [("cloud_type", .str (p.capacityCloudType text))])

end ProviderLike

/-- The keys of `_requests_per_warm_unit`. -/
def requestsPerWarmUnitKeys : PrewarmTargetKind → List String
  | .podLease => ["requests_per_warm_pod", "requests_per_warm_pod_per_window",
      "requests_per_warm_unit", "requests_per_warm_unit_per_window"]
  | .endpointWorkers => ["requests_per_warm_worker", "requests_per_warm_worker_per_window",
      "requests_per_warm_unit", "requests_per_warm_unit_per_window"]

structure ProviderSortKey where
  priority : Int
  name : String
  providerId : String
  deriving DecidableEq

/-- The comparison of `(priority, name, id)`. -/
def ProviderSortKey.lt (a b : ProviderSortKey) : Bool :=
  if a.priority ≠ b.priority then decide (a.priority < b.priority)
  else if a.name ≠ b.name then decide (a.name < b.name)
  else decide (a.providerId < b.providerId)

section Plan
variable (text : PyString) (now : Instant) (policy : PrewarmPolicy)

/-- `_is_prewarm_eligible`. -/
def isPrewarmEligible (p : ProviderLike) : Except PyError Bool :=
  if isDisabled p then .ok false
  else if text.lower ((p.strippedField "health_status").getD "unknown") = "unhealthy" then
    .ok false
  else do
    let cooling ← isInCooldown text now p
    pure (!cooling && ((p.strippedField "provider_type").any fun providerType =>
      supportedPrewarmTypes.contains providerType))

/-- `_provider_sort_key`. -/
def providerSortKey (p : ProviderLike) : Except PyError ProviderSortKey := do
  let priority ← p.priority text
  let providerId ← p.prewarmId
  pure ⟨priority, (p.strippedField "name").getD "", providerId⟩

/-- A round of the loop of `_eligible_providers_by_capability`. -/
def groupProvider (grouped : List (String × List ProviderLike)) (p : ProviderLike) :
    Except PyError (List (String × List ProviderLike)) := do
  if ← isPrewarmEligible text now p then
    let capabilityId ← p.prewarmCapabilityId
    pure (setEntry capabilityId ((grouped.lookup capabilityId).getD [] ++ [p]) grouped)
  else pure grouped

/-- `sorted(items, key=_provider_sort_key)`. -/
def sortedProviders (items : List ProviderLike) : Except PyError (List ProviderLike) := do
  let keyed ← items.mapM fun p => (fun key => (key, p)) <$> providerSortKey text p
  pure ((sortedBy (fun a b => a.1.lt b.1) keyed).map Prod.snd)

/-- `_eligible_providers_by_capability`. -/
def eligibleProvidersByCapability (providers : List ProviderLike) :
    Except PyError (List (String × List ProviderLike)) := do
  let grouped ← providers.foldlM (groupProvider text now) []
  (sortedItems grouped).mapM fun (capabilityId, items) =>
    (fun sorted => (capabilityId, sorted)) <$> sortedProviders text items

/-- `_requests_per_warm_unit`. -/
def requestsPerWarmUnit (p : ProviderLike) (targetKind : PrewarmTargetKind) : Except PyError Int :=
  let found := (requestsPerWarmUnitKeys targetKind).findSome? fun key =>
    let value := PyValue.firstPresent [p.prewarmValue key, p.configValue key]
    if value.isNone then none else some (key, value)
  match found with
  | some (key, value) => positiveInt text value key
  | none => .ok policy.defaultRequestsPerWarmUnit

/-- `_provider_lead_time`. -/
def providerLeadTime (p : ProviderLike) : Except PyError Int :=
  let leadTimeS :=
    PyValue.firstPresent [p.prewarmValue "lead_time_s", p.configValue "prewarm_lead_time_s"]
  if leadTimeS.isTruthy then do
    let seconds ← nonNegativeFloat text leadTimeS "lead_time_s"
    timedeltaTimes 1 (roundHalfEven (seconds * 1000000))
  else
    match p.field "cold_start_p95_ms" with
    | .none => .ok 0
    | coldStart => do
        let milliseconds ← nonNegativeFloat text coldStart "cold_start_p95_ms"
        timedeltaTimes 1 (roundHalfEven (milliseconds * 1000))

/-- `_recommendation_start_at`. -/
def recommendationStartAt (p : ProviderLike) (readyBy : Instant) : Except PyError Instant := do
  let leadTime ← providerLeadTime text p
  let startAt ← datetimeAt (readyBy - max policy.defaultLeadTime leadTime)
  pure (if startAt < now then now else startAt)

/-- `_recommendation_for_provider`. -/
def recommendationForProvider (forecast : DemandForecast) (p : ProviderLike) (rank : ℕ) :
    Except PyError (Option PrewarmRecommendation) :=
  match p.strippedField "provider_type" with
  | none => .ok none
  | some providerType =>
      match targetKindForProviderType providerType with
      | none => .ok none
      | some targetKind => do
          let requestsPerUnit ← requestsPerWarmUnit text policy p targetKind
          let targetCount := ⌈(forecast.projectedRequests : ℚ) / requestsPerUnit⌉
          let current ← currentWarmCount text p targetKind
          if targetCount ≤ current then pure none
          else
            let providerId ← p.prewarmId
            let startAt ← recommendationStartAt text now policy p forecast.windowStart
            let expiresAt ← datetimeAt (forecast.windowEnd + policy.recommendationTtl)
            let target ← p.targetPayload text targetKind
            pure (some
              { capabilityId := forecast.capabilityId
                providerId := providerId
                providerType := providerType
                targetKind := targetKind
                targetCount := targetCount
                currentWarmCount := current
                requestsPerWarmUnit := requestsPerUnit
                forecastRequests := forecast.projectedRequests
                startAt := startAt
                readyBy := forecast.windowStart
                expiresAt := expiresAt
                reason := "forecast_exceeds_warm_capacity"
                target := target
                rank := rank })

def recommendationsFor (byCapability : List (String × List ProviderLike))
    (forecast : DemandForecast) : Except PyError (List PrewarmRecommendation) :=
  if forecast.projectedRequests < policy.minForecastRequests then .ok []
  else
    let eligible := (byCapability.lookup forecast.capabilityId).getD []
    List.reduceOption <$>
      ((eligible.take policy.maxTargetsPerCapability).zipIdx 1).mapM fun (p, rank) =>
        recommendationForProvider text now policy forecast p rank

/-- `plan_prewarm`. -/
def planPrewarm (history : List DemandSample) (providers : List ProviderLike) :
    Except PyError PrewarmPlan := do
  let forecasts ← forecastDemand history now policy
  let byCapability ← eligibleProvidersByCapability text now providers
  let recommendations ← forecasts.mapM (recommendationsFor text now policy byCapability)
  pure ⟨now, forecasts, recommendations.flatten⟩

end Plan

structure WarmUnits where
  current : Int
  perUnit : Int
  current_nonneg : 0 ≤ current
  perUnit_pos : 1 ≤ perUnit

section Sizing
variable {text : PyString} {now : Instant} {policy : PrewarmPolicy} {p : ProviderLike}
  {targetKind : PrewarmTargetKind}

theorem requestsPerWarmUnit_pos {n : Int}
    (h : requestsPerWarmUnit text policy p targetKind = .ok n) : 1 ≤ n := by
  unfold requestsPerWarmUnit at h
  dsimp only at h
  split at h
  · unfold positiveInt at h
    split at h
    · cases h
    · obtain ⟨result, -, h⟩ := Except.bind_eq_ok_iff.mp h
      split at h
      · cases h
      · rename_i hpos
        obtain rfl := Except.pure_eq_ok_iff.mp h
        exact not_lt.mp hpos
  · obtain rfl := Except.ok.inj h
    exact_mod_cast policy.defaultRequestsPerWarmUnit_pos

theorem currentWarmCount_nonneg {n : Int} (h : currentWarmCount text p targetKind = .ok n) :
    0 ≤ n := by
  unfold currentWarmCount nonNegativeCount at h
  split at h
  · exact (Except.ok.inj h).le
  · cases h
  · obtain ⟨result, -, h⟩ := Except.bind_eq_ok_iff.mp h
    split at h
    · cases h
    · rename_i hnonneg
      obtain rfl := Except.pure_eq_ok_iff.mp h
      exact not_lt.mp hnonneg

theorem one_unit_pos : (1 : Int) ≤ 1 := le_rfl

variable (text policy) in
/-- The warm units that a provider has; one of another type has none. -/
def warmUnits (p : ProviderLike) : Except PyError WarmUnits :=
  match (p.strippedField "provider_type").bind targetKindForProviderType with
  | none => .ok ⟨0, 1, le_rfl, one_unit_pos⟩
  | some targetKind =>
      match hunit : requestsPerWarmUnit text policy p targetKind,
        hcurrent : currentWarmCount text p targetKind with
      | .ok perUnit, .ok current =>
          .ok ⟨current, perUnit, currentWarmCount_nonneg hcurrent, requestsPerWarmUnit_pos hunit⟩
      | .error e, _ => .error e
      | .ok _, .error e => .error e

structure Sized (forecast : DemandForecast) (units : WarmUnits) (rank : ℕ)
    (r : PrewarmRecommendation) : Prop where
  capabilityId : r.capabilityId = forecast.capabilityId
  rank_eq : r.rank = rank
  current : r.currentWarmCount = units.current
  perUnit : r.requestsPerWarmUnit = units.perUnit
  short : units.current * units.perUnit < forecast.projectedRequests
  enough : forecast.projectedRequests ≤ r.targetCount * units.perUnit
  least : (r.targetCount - 1) * units.perUnit < forecast.projectedRequests

theorem sized_of_ceil {demand perUnit : Int} (h : 1 ≤ perUnit) :
    demand ≤ ⌈(demand : ℚ) / perUnit⌉ * perUnit ∧
      ∀ n : Int, n < ⌈(demand : ℚ) / perUnit⌉ → n * perUnit < demand := by
  have hpos : (0 : ℚ) < perUnit := by exact_mod_cast h
  constructor
  · have hle := (div_le_iff₀ hpos).mp (Int.le_ceil ((demand : ℚ) / perUnit))
    exact_mod_cast hle
  · intro n hn
    have hlt := (lt_div_iff₀ hpos).mp (Int.lt_ceil.mp hn)
    exact_mod_cast hlt

/-- A recommendation is made for a provider that is short of the forecast, of the least number of
units with which it covers the forecast. -/
theorem recommendationForProvider_sized {forecast : DemandForecast} {rank : ℕ}
    {r : PrewarmRecommendation}
    (h : recommendationForProvider text now policy forecast p rank = .ok (some r)) :
    ∃ units, warmUnits text policy p = .ok units ∧ Sized forecast units rank r := by
  unfold recommendationForProvider at h
  split at h
  · cases h
  · rename_i providerType htype
    split at h
    · cases h
    · rename_i targetKind hkind
      obtain ⟨perUnit, hunit, h⟩ := Except.bind_eq_ok_iff.mp h
      obtain ⟨current, hcurrent, h⟩ := Except.bind_eq_ok_iff.mp h
      split at h
      · cases h
      · rename_i hmore
        obtain ⟨providerId, -, h⟩ := Except.bind_eq_ok_iff.mp h
        obtain ⟨startAt, -, h⟩ := Except.bind_eq_ok_iff.mp h
        obtain ⟨expiresAt, -, h⟩ := Except.bind_eq_ok_iff.mp h
        obtain ⟨target, -, h⟩ := Except.bind_eq_ok_iff.mp h
        obtain rfl := Option.some.inj (Except.pure_eq_ok_iff.mp h)
        have hpos := requestsPerWarmUnit_pos hunit
        obtain ⟨henough, hleast⟩ := @sized_of_ceil forecast.projectedRequests _ hpos
        refine ⟨⟨current, perUnit, currentWarmCount_nonneg hcurrent, hpos⟩, ?_, ?_⟩
        · unfold warmUnits
          rw [htype, Option.bind_some, hkind]
          dsimp only
          split
          · rename_i hunit' hcurrent'
            obtain rfl := Except.ok.inj (hunit.symm.trans hunit')
            obtain rfl := Except.ok.inj (hcurrent.symm.trans hcurrent')
            rfl
          · rename_i hunit'
            rw [hunit] at hunit'
            cases hunit'
          · rename_i hcurrent'
            rw [hcurrent] at hcurrent'
            cases hcurrent'
        · exact ⟨rfl, rfl, rfl, rfl, hleast _ (not_le.mp hmore), henough,
            hleast _ (sub_one_lt _)⟩

end Sizing

section Capacity
variable {demand : Int} {units : List WarmUnits} {recommendations : List PrewarmRecommendation}

/-- The warm capacity of the providers, where those at the given ranks are raised to their
targets. -/
def capacityAfter (units : List WarmUnits) (recommendations : List PrewarmRecommendation) : Int :=
  ((units.zipIdx 1).map fun (u, rank) =>
    ((recommendations.find? fun r => r.rank = rank).elim u.current
      PrewarmRecommendation.targetCount) * u.perUnit).sum

/-- Nothing is recommended where the warm capacity is enough, and nothing that is not needed. -/
def NotOverProvisioned (demand : Int) (units : List WarmUnits)
    (recommendations : List PrewarmRecommendation) : Prop :=
  recommendations ≠ [] → capacityAfter units [] < demand ∧ ∀ r ∈ recommendations,
    capacityAfter units (recommendations.filter fun other => other.rank ≠ r.rank) < demand

def CoversAlone (demand : Int) (units : List WarmUnits) (r : PrewarmRecommendation) : Prop :=
  ∃ u, (u, r.rank) ∈ units.zipIdx 1 ∧ 0 ≤ r.targetCount ∧ demand ≤ r.targetCount * u.perUnit

theorem le_capacityAfter (h : ∀ r ∈ recommendations, CoversAlone demand units r)
    (hne : recommendations ≠ []) : demand ≤ capacityAfter units recommendations := by
  obtain ⟨r, hr⟩ := List.exists_mem_of_ne_nil _ hne
  obtain ⟨u, hu, -, -⟩ := h r hr
  have hfind : ∃ other, recommendations.find? (fun other => other.rank = r.rank) = some other := by
    rw [← Option.isSome_iff_exists, List.find?_isSome]
    exact ⟨r, hr, by simp⟩
  obtain ⟨other, hother⟩ := hfind
  have hrank : other.rank = r.rank := by simpa using List.find?_some hother
  obtain ⟨u', hu', -, hcovers⟩ := h other (List.mem_of_find?_eq_some hother)
  obtain rfl : u' = u := by
    have hget := (List.mem_zipIdx_iff_le_and_getElem?_sub.mp hu).2
    have hget' := (List.mem_zipIdx_iff_le_and_getElem?_sub.mp hu').2
    dsimp only at hget hget'
    rw [hrank, hget] at hget'
    exact (Option.some.inj hget').symm
  refine hcovers.trans ?_
  refine List.single_le_sum ?_ _ ?_
  · intro x hx
    obtain ⟨⟨v, rank⟩, -, rfl⟩ := List.mem_map.mp hx
    refine mul_nonneg ?_ (by have := v.perUnit_pos; omega)
    cases hv : recommendations.find? fun r => r.rank = rank with
    | none => exact v.current_nonneg
    | some raised =>
      obtain ⟨-, -, hnonneg, -⟩ := h raised (List.mem_of_find?_eq_some hv)
      exact hnonneg
  · refine List.mem_map.mpr ⟨(u', r.rank), hu, ?_⟩
    dsimp only
    rw [hother]
    rfl

theorem notOverProvisioned_iff (h : ∀ r ∈ recommendations, CoversAlone demand units r)
    (hranks : (recommendations.map PrewarmRecommendation.rank).Nodup) :
    NotOverProvisioned demand units recommendations ↔
      recommendations = [] ∨ recommendations.length = 1 ∧ capacityAfter units [] < demand := by
  unfold NotOverProvisioned
  cases recommendations with
  | nil => simp
  | cons first rest =>
    cases rest with
    | nil => simp
    | cons second rest =>
      refine iff_of_false ?_ (by simp)
      intro hnot
      have hne : second.rank ≠ first.rank := by
        intro hsame
        exact (List.nodup_cons.mp hranks).1 (by simp [hsame])
      have hlt := (hnot (by simp)).2 first (by simp)
      refine absurd hlt (not_lt.mpr (le_capacityAfter ?_ ?_))
      · exact fun r hr => h r (List.mem_of_mem_filter hr)
      · exact List.ne_nil_of_mem (List.mem_filter.mpr ⟨List.mem_cons_of_mem _ List.mem_cons_self,
          by simpa using hne⟩)

end Capacity

section Eligible
variable {text : PyString} {now : Instant} {providers : List ProviderLike}
  {grouped : List (String × List ProviderLike)} {capabilityId : String}

def eligibleFor (text : PyString) (now : Instant) (capabilityId : String) (p : ProviderLike) :
    Bool :=
  match isPrewarmEligible text now p with
  | .ok true => p.strippedField "capability_id" = some capabilityId
  | _ => false

def groupOf (grouped : List (String × List ProviderLike)) (capabilityId : String) :
    List ProviderLike := (grouped.lookup capabilityId).getD []

theorem groupOf_groupProvider {grouped' : List (String × List ProviderLike)} {p : ProviderLike}
    (h : groupProvider text now grouped p = .ok grouped') :
    groupOf grouped' capabilityId =
      groupOf grouped capabilityId ++ [p].filter (eligibleFor text now capabilityId) := by
  obtain ⟨eligible, heligible, h⟩ := Except.bind_eq_ok_iff.mp h
  cases eligible with
  | false =>
    obtain rfl := Except.pure_eq_ok_iff.mp h
    have hno : eligibleFor text now capabilityId p = false := by
      unfold eligibleFor
      rw [heligible]
    simp [hno]
  | true =>
    obtain ⟨id, hid, h⟩ := Except.bind_eq_ok_iff.mp h
    obtain rfl := Except.pure_eq_ok_iff.mp h
    have hfield : p.strippedField "capability_id" = some id := by
      unfold ProviderLike.prewarmCapabilityId at hid
      split at hid
      · rename_i id' hid'
        obtain rfl := Except.ok.inj hid
        exact hid'
      · cases hid
    have hyes : eligibleFor text now capabilityId p = decide (id = capabilityId) := by
      unfold eligibleFor
      rw [heligible, hfield]
      simp
    unfold groupOf
    rw [lookup_setEntry]
    by_cases hsame : capabilityId = id
    · rw [if_pos hsame, hsame]
      rw [hsame] at hyes
      simp [hyes]
    · rw [if_neg hsame]
      have hno : eligibleFor text now capabilityId p = false := by
        rw [hyes]
        exact decide_eq_false (Ne.symm hsame)
      simp [hno]

theorem nodup_groupProvider {grouped' : List (String × List ProviderLike)} {p : ProviderLike}
    (hkeys : (grouped.map Prod.fst).Nodup) (h : groupProvider text now grouped p = .ok grouped') :
    (grouped'.map Prod.fst).Nodup := by
  obtain ⟨eligible, -, h⟩ := Except.bind_eq_ok_iff.mp h
  cases eligible with
  | false =>
    obtain rfl := Except.pure_eq_ok_iff.mp h
    exact hkeys
  | true =>
    obtain ⟨id, -, h⟩ := Except.bind_eq_ok_iff.mp h
    obtain rfl := Except.pure_eq_ok_iff.mp h
    exact nodup_keys_setEntry hkeys

theorem groupOf_foldlM {grouped' : List (String × List ProviderLike)}
    (hkeys : (grouped.map Prod.fst).Nodup)
    (h : providers.foldlM (groupProvider text now) grouped = .ok grouped') :
    (grouped'.map Prod.fst).Nodup ∧ groupOf grouped' capabilityId =
      groupOf grouped capabilityId ++ providers.filter (eligibleFor text now capabilityId) := by
  induction providers generalizing grouped with
  | nil =>
    obtain rfl := Except.pure_eq_ok_iff.mp h
    exact ⟨hkeys, (List.append_nil _).symm⟩
  | cons p providers ih =>
    rw [List.foldlM_cons] at h
    obtain ⟨next, hnext, h⟩ := Except.bind_eq_ok_iff.mp h
    obtain ⟨hkeys', hgroup⟩ := ih (nodup_groupProvider hkeys hnext) h
    refine ⟨hkeys', ?_⟩
    rw [hgroup, groupOf_groupProvider hnext, List.append_assoc]
    congr 1
    exact (List.filter_append [p] providers).symm

theorem sortedProviders_perm {items sorted : List ProviderLike}
    (h : sortedProviders text items = .ok sorted) : sorted.Perm items := by
  obtain ⟨keyed, hkeyed, h⟩ := Except.bind_eq_ok_iff.mp h
  obtain rfl := Except.pure_eq_ok_iff.mp h
  have hitems : keyed.map Prod.snd = items.map id := by
    refine List.map_of_mapM_eq_ok hkeyed (fun p _ pair hpair => ?_)
    obtain ⟨key, -, rfl⟩ := Except.map_eq_ok_iff.mp hpair
    rfl
  rw [List.map_id] at hitems
  rw [← hitems]
  exact (sortedBy_perm _ keyed).map Prod.snd

theorem eligibleProviders_perm {byCapability : List (String × List ProviderLike)}
    (h : eligibleProvidersByCapability text now providers = .ok byCapability) :
    (groupOf byCapability capabilityId).Perm
      (providers.filter (eligibleFor text now capabilityId)) := by
  obtain ⟨grouped, hgrouped, h⟩ := Except.bind_eq_ok_iff.mp h
  obtain ⟨hkeys, hgroup⟩ := @groupOf_foldlM text now providers [] capabilityId grouped
    List.nodup_nil hgrouped
  have hsorted : (sortedItems grouped).Perm grouped := sortedBy_perm _ grouped
  have hkeys' : byCapability.map Prod.fst = (sortedItems grouped).map Prod.fst := by
    refine List.map_of_mapM_eq_ok h (fun item _ pair hpair => ?_)
    obtain ⟨sorted, -, rfl⟩ := Except.map_eq_ok_iff.mp hpair
    rfl
  have hnodup : ((sortedItems grouped).map Prod.fst).Nodup :=
    (hsorted.map Prod.fst).nodup_iff.mpr hkeys
  have hgroup' : groupOf grouped capabilityId =
      providers.filter (eligibleFor text now capabilityId) := hgroup
  rw [← hgroup']
  unfold groupOf
  cases hlookup : grouped.lookup capabilityId with
  | none =>
    have hnone : byCapability.lookup capabilityId = none := by
      rw [List.lookup_eq_none_iff] at hlookup ⊢
      intro pair hpair
      obtain ⟨item, hitem, heq⟩ := List.mem_of_mapM_eq_ok h hpair
      obtain ⟨sorted, -, rfl⟩ := Except.map_eq_ok_iff.mp heq
      exact hlookup item (hsorted.mem_iff.mp hitem)
    rw [hnone]
  | some items =>
    have hitem : (capabilityId, items) ∈ sortedItems grouped :=
      hsorted.mem_iff.mpr (mem_of_lookup hlookup)
    obtain ⟨pair, hpair, heq⟩ := List.exists_mem_of_mapM_eq_ok h hitem
    obtain ⟨sorted, hsort, rfl⟩ := Except.map_eq_ok_iff.mp heq
    rw [lookup_of_mem (hkeys' ▸ hnodup) hpair]
    exact sortedProviders_perm hsort

end Eligible

section Runs
variable {text : PyString} {now : Instant} {policy : PrewarmPolicy} {history : List DemandSample}
  {providers : List ProviderLike} {byCapability : List (String × List ProviderLike)}
  {plan : PrewarmPlan}

theorem recommendationsFor_ranked {forecast : DemandForecast} {rs : List PrewarmRecommendation}
    (h : recommendationsFor text now policy byCapability forecast = .ok rs) :
    (rs.map PrewarmRecommendation.rank).Nodup ∧ ∀ r ∈ rs, r.rank ≤ policy.maxTargetsPerCapability ∧
      ∃ p units, (p, r.rank) ∈ (groupOf byCapability forecast.capabilityId).zipIdx 1 ∧
        warmUnits text policy p = .ok units ∧ Sized forecast units r.rank r := by
  unfold recommendationsFor at h
  split at h
  · obtain rfl := Except.ok.inj h
    exact ⟨List.nodup_nil, by simp⟩
  · obtain ⟨found, hfound, rfl⟩ := Except.map_eq_ok_iff.mp h
    constructor
    · have hranks : (found.reduceOption.map PrewarmRecommendation.rank).Sublist
          ((((groupOf byCapability forecast.capabilityId).take
            policy.maxTargetsPerCapability).zipIdx 1).map Prod.snd) := by
        refine List.map_reduceOption_sublist hfound ?_
        rintro ⟨p, rank⟩ r hr
        obtain ⟨units, -, hsized⟩ := recommendationForProvider_sized hr
        exact hsized.rank_eq
      refine List.Nodup.sublist hranks ?_
      rw [List.zipIdx_map_snd]
      exact List.nodup_range'
    · intro r hr
      obtain ⟨⟨p, rank⟩, hpair, hr⟩ :=
        List.mem_of_mapM_eq_ok hfound (List.reduceOption_mem_iff.mp hr)
      obtain ⟨units, hunits, hsized⟩ := recommendationForProvider_sized hr
      obtain ⟨hlow, hget⟩ := List.mem_zipIdx_iff_le_and_getElem?_sub.mp hpair
      dsimp only at hlow hget hsized
      rw [hsized.rank_eq]
      rw [List.getElem?_take] at hget
      split at hget
      · refine ⟨by omega, p, units, ?_, hunits, hsized⟩
        exact List.mem_zipIdx_iff_le_and_getElem?_sub.mpr ⟨hlow, hget⟩
      · cases hget

theorem capabilityId_of_recommendationsFor {forecast : DemandForecast}
    {rs : List PrewarmRecommendation}
    (h : recommendationsFor text now policy byCapability forecast = .ok rs) :
    ∀ r ∈ rs, r.capabilityId = forecast.capabilityId := by
  intro r hr
  obtain ⟨-, p, units, -, -, hsized⟩ := (recommendationsFor_ranked h).2 r hr
  exact hsized.capabilityId

structure PlannedFor (text : PyString) (now : Instant) (policy : PrewarmPolicy)
    (history : List DemandSample) (eligible : List ProviderLike) (forecast : DemandForecast)
    (recommendations : List PrewarmRecommendation) : Prop where
  window : forecast.sourceWindowEnd = now
  conserved : forecast.observedCounts.sum =
    demandIn forecast.sourceWindowStart now forecast.capabilityId history
  sized : ∀ r ∈ recommendations, r.rank ≤ policy.maxTargetsPerCapability ∧ ∃ p units,
    (p, r.rank) ∈ eligible.zipIdx 1 ∧ warmUnits text policy p = .ok units ∧
      Sized forecast units r.rank r
  provisioned : ∀ units, eligible.mapM (warmUnits text policy) = .ok units →
    (NotOverProvisioned forecast.projectedRequests units recommendations ↔
      recommendations = [] ∨ recommendations.length = 1 ∧
        capacityAfter units [] < forecast.projectedRequests)

theorem coversAlone_of_sized {eligible : List ProviderLike} {units : List WarmUnits}
    {forecast : DemandForecast} {r : PrewarmRecommendation} {u : WarmUnits}
    (hunits : eligible.mapM (warmUnits text policy) = .ok units)
    (hp : ∃ p, (p, r.rank) ∈ eligible.zipIdx 1 ∧ warmUnits text policy p = .ok u)
    (hsized : Sized forecast u r.rank r) : CoversAlone forecast.projectedRequests units r := by
  obtain ⟨p, hp, hu⟩ := hp
  obtain ⟨hlow, hget⟩ := List.mem_zipIdx_iff_le_and_getElem?_sub.mp hp
  dsimp only at hlow hget
  have hforall := List.mapM_eq_ok_iff.mp hunits
  obtain ⟨hbound, hget⟩ := List.getElem?_eq_some_iff.mp hget
  have hlength := hforall.length_eq
  have hmeasured := hforall.get (i := r.rank - 1) hbound (by omega)
  rw [List.get_eq_getElem, List.get_eq_getElem, hget, hu] at hmeasured
  refine ⟨u, ?_, ?_, hsized.enough⟩
  · refine List.mem_zipIdx_iff_le_and_getElem?_sub.mpr ⟨hlow, ?_⟩
    rw [List.getElem?_eq_some_iff]
    exact ⟨by omega, (Except.ok.inj hmeasured).symm⟩
  · have hwarm : 0 ≤ u.current * u.perUnit :=
      mul_nonneg u.current_nonneg (zero_le_one.trans u.perUnit_pos)
    have hpos : 0 < r.targetCount * u.perUnit :=
      hwarm.trans_lt (hsized.short.trans_le hsized.enough)
    exact (pos_of_mul_pos_left hpos (zero_le_one.trans u.perUnit_pos)).le

theorem plannedFor {forecast : DemandForecast} {forecasts : List DemandForecast}
    {rs : List PrewarmRecommendation}
    (hforecasts : forecastDemand history now policy = .ok forecasts)
    (hforecast : forecast ∈ forecasts)
    (h : recommendationsFor text now policy byCapability forecast = .ok rs) :
    PlannedFor text now policy history (groupOf byCapability forecast.capabilityId) forecast
      rs := by
  obtain ⟨hwindow, hconserved⟩ := sum_observedCounts hforecasts hforecast
  obtain ⟨hranks, hranked⟩ := recommendationsFor_ranked h
  refine ⟨hwindow, hconserved, hranked, fun units hunits => ?_⟩
  refine notOverProvisioned_iff (fun r hr => ?_) hranks
  obtain ⟨-, p, u, hp, hu, hsized⟩ := hranked r hr
  exact coversAlone_of_sized hunits ⟨p, hp, hu⟩ hsized

end Runs

/-- A plan counts each request in the window once, whatever the order of the samples, and raises a
provider that is short of the forecast by itself to the least number of units that covers it; over
all eligible providers it does not over-provision exactly when it recommends nothing, or one raise
where their warm capacity is short. -/
theorem prewarm_plan_sized {text : PyString} {now : Instant} {policy : PrewarmPolicy}
    {history : List DemandSample} {providers : List ProviderLike} {plan : PrewarmPlan}
    (h : planPrewarm text now policy history providers = .ok plan) :
    (∀ history', history.Perm history' →
      planPrewarm text now policy history' providers = .ok plan) ∧
    (∀ r ∈ plan.recommendations, ∃ forecast ∈ plan.forecasts,
      r.capabilityId = forecast.capabilityId) ∧
    ∃ byCapability, eligibleProvidersByCapability text now providers = .ok byCapability ∧
      ∀ forecast ∈ plan.forecasts,
        (groupOf byCapability forecast.capabilityId).Perm
            (providers.filter (eligibleFor text now forecast.capabilityId)) ∧
          PlannedFor text now policy history (groupOf byCapability forecast.capabilityId) forecast
            (plan.recommendations.filter fun r => r.capabilityId = forecast.capabilityId) := by
  refine ⟨?_, ?_⟩
  · intro history' hperm
    unfold planPrewarm at h ⊢
    rw [← forecastDemand_perm hperm]
    exact h
  · obtain ⟨forecasts, hforecasts, h⟩ := Except.bind_eq_ok_iff.mp h
    obtain ⟨byCapability, hgroups, h⟩ := Except.bind_eq_ok_iff.mp h
    obtain ⟨rows, hrows, h⟩ := Except.bind_eq_ok_iff.mp h
    obtain rfl := Except.pure_eq_ok_iff.mp h
    refine ⟨?_, byCapability, hgroups, fun forecast hforecast =>
      ⟨eligibleProviders_perm hgroups, ?_⟩⟩
    · intro r hr
      obtain ⟨rs, hrs, hr⟩ := List.mem_flatten.mp hr
      obtain ⟨forecast, hforecast, hmade⟩ := List.mem_of_mapM_eq_ok hrows hrs
      exact ⟨forecast, hforecast, capabilityId_of_recommendationsFor hmade r hr⟩
    · exact plannedFor hforecasts hforecast (List.filter_flatten_of_mapM hrows
        (fun forecast rs hrs => capabilityId_of_recommendationsFor hrs)
        (nodup_forecasts hforecasts) hforecast)

theorem one_target_pos : 1 ≤ 1 := le_rfl

def quarterPolicy : PrewarmPolicy where
  lookback := 900000000
  sampleWindow := 300000000
  forecastWindow := 300000000
  forecastHorizon := 300000000
  headroom := 1
  defaultRequestsPerWarmUnit := 10
  minForecastRequests := 1
  maxTargetsPerCapability := 1
  defaultLeadTime := 300000000
  recommendationTtl := 900000000
  sampleWindow_pos := by decide
  forecastWindow_pos := by decide
  forecastHorizon_nonneg := by decide
  defaultLeadTime_nonneg := by decide
  recommendationTtl_nonneg := by decide
  sampleWindow_le_lookback := by decide
  one_le_headroom := le_rfl
  defaultRequestsPerWarmUnit_pos := le_rfl.trans (by decide)
  maxTargetsPerCapability_pos := one_target_pos

def twentyRequests : List DemandSample := [⟨"cap_1", 3540000000, 20, cap_1_ne⟩]

theorem three_targets_pos : 1 ≤ 3 := by decide

def threeTargets : PrewarmPolicy :=
  { quarterPolicy with
    maxTargetsPerCapability := 3
    maxTargetsPerCapability_pos := three_targets_pos }

theorem cap_2_ne : "cap_2" ≠ "" := by decide

def growingDemand : List DemandSample :=
  [⟨"cap_1", 3540000000, 20, cap_1_ne⟩, ⟨"cap_1", 3000000000, 9, cap_1_ne⟩,
    ⟨"cap_2", 3540000000, 0, cap_2_ne⟩]

def threeProviders : List ProviderLike :=
  [serverless "warm" (by decide) [("workers_min", .int 10)], serverless "cold" (by decide) [],
    serverless "half" (by decide) [("workers_min", .int 1)]]

theorem prewarm_plan_sized_on_three : ∃ plan,
    planPrewarm asciiText 3600000000 threeTargets growingDemand threeProviders = .ok plan ∧
      planPrewarm asciiText 3600000000 threeTargets growingDemand.reverse threeProviders =
        .ok plan ∧
      plan.recommendations.map (fun r => (r.currentWarmCount, r.targetCount)) = [(0, 3), (1, 3)] ∧
      ∀ r ∈ plan.recommendations, ∃ forecast ∈ plan.forecasts, ∃ p ∈ threeProviders, ∃ units,
        warmUnits asciiText threeTargets p = .ok units ∧ Sized forecast units r.rank r := by
  have hcounts : (planPrewarm asciiText 3600000000 threeTargets growingDemand
      threeProviders).map (fun plan => plan.recommendations.map fun r =>
        (r.currentWarmCount, r.targetCount)) = .ok [(0, 3), (1, 3)] := by decide +kernel
  obtain ⟨plan, hplan, hcounts⟩ := Except.map_eq_ok_iff.mp hcounts
  obtain ⟨hpermuted, hforecasts, byCapability, -, hplanned⟩ := prewarm_plan_sized hplan
  refine ⟨plan, hplan, hpermuted _ growingDemand.reverse_perm.symm, hcounts, fun r hr => ?_⟩
  obtain ⟨forecast, hforecast, hid⟩ := hforecasts r hr
  obtain ⟨hgroup, hfor⟩ := hplanned forecast hforecast
  obtain ⟨-, p, units, hp, hunits, hsized⟩ :=
    hfor.sized r (List.mem_filter.mpr ⟨hr, decide_eq_true hid⟩)
  have hmem := hgroup.mem_iff.mp (List.fst_mem_of_mem_zipIdx hp)
  exact ⟨forecast, hforecast, p, (List.mem_filter.mp hmem).1, units, hunits, hsized⟩

def coldAndWarm : List ProviderLike :=
  [serverless "cold" (by decide) [], serverless "warm" (by decide) [("workers_min", .int 10)]]

/-- A provider is raised for twenty requests though another one is warm for a hundred. -/
theorem raised_beside_warm : ∃ plan forecast byCapability units,
    planPrewarm asciiText 3600000000 quarterPolicy twentyRequests coldAndWarm = .ok plan ∧
      plan.forecasts = [forecast] ∧
      eligibleProvidersByCapability asciiText 3600000000 coldAndWarm = .ok byCapability ∧
      (groupOf byCapability forecast.capabilityId).mapM (warmUnits asciiText quarterPolicy) =
        .ok units ∧
      capacityAfter units [] = 100 ∧ forecast.projectedRequests = 30 ∧
      ¬NotOverProvisioned forecast.projectedRequests units
        (plan.recommendations.filter fun r => r.capabilityId = forecast.capabilityId) := by
  have hplan : (planPrewarm asciiText 3600000000 quarterPolicy twentyRequests coldAndWarm).map
      (fun plan => (plan.forecasts.map fun f => (f.capabilityId, f.projectedRequests),
        plan.recommendations.map PrewarmRecommendation.capabilityId)) =
        .ok ([("cap_1", 30)], ["cap_1"]) := by decide +kernel
  have hunits : ((eligibleProvidersByCapability asciiText 3600000000 coldAndWarm).bind
      fun byCapability => (groupOf byCapability "cap_1").mapM
        (warmUnits asciiText quarterPolicy)).map (capacityAfter · []) = .ok 100 := by
    decide +kernel
  obtain ⟨plan, hok, hplan⟩ := Except.map_eq_ok_iff.mp hplan
  obtain ⟨units, hunits, hcapacity⟩ := Except.map_eq_ok_iff.mp hunits
  obtain ⟨byCapability, hgroups, hunits⟩ := Except.bind_eq_ok_iff.mp hunits
  obtain ⟨hforecasts, hrecommendations⟩ := Prod.mk.inj hplan
  obtain ⟨forecast, hsingle, hforecast⟩ := List.map_eq_singleton_iff.mp hforecasts
  obtain ⟨r, hr, hid⟩ := List.map_eq_singleton_iff.mp hrecommendations
  obtain ⟨hcapability, hprojected⟩ := Prod.mk.inj hforecast
  refine ⟨plan, forecast, byCapability, units, hok, hsingle, hgroups, hcapability ▸ hunits,
    hcapacity, hprojected, ?_⟩
  intro hnot
  have hsome : plan.recommendations.filter (fun r => r.capabilityId = forecast.capabilityId) ≠
      [] := by
    rw [hr]
    simp [hid, hcapability]
  have hlt := (hnot hsome).1
  rw [hcapacity, hprojected] at hlt
  exact absurd hlt (by decide)

end Pitwall.Routing
