import Pitwall.Routing.Planner
set_option autoImplicit false

/-!
Frozen provider records: lists become tuples and dictionaries become mapping proxies. What
the accessors of the router read of a frozen record is the frozen value of what they read of
the record.
-/

namespace Pitwall.Routing

mutual
/-- `_freeze_value`. -/
def freezeValue : PyValue → PyValue
  | .list items => .tuple (freezeItems items)
  | .tuple items => .tuple (freezeItems items)
  | .dict entries => .mappingProxy (freezeMapping entries)
  | .mappingProxy entries => .mappingProxy (freezeMapping entries)
  | value => value

def freezeItems : List PyValue → List PyValue
  | [] => []
  | v :: vs => freezeValue v :: freezeItems vs

/-- `_freeze_mapping`. -/
def freezeMapping : List (String × PyValue) → List (String × PyValue)
  | [] => []
  | (key, v) :: entries => (key, freezeValue v) :: freezeMapping entries
end

mutual
theorem freezeValue_freezeValue : ∀ v, freezeValue (freezeValue v) = freezeValue v
  | .list items => by simp [freezeValue, freezeItems_freezeItems items]
  | .tuple items => by simp [freezeValue, freezeItems_freezeItems items]
  | .dict entries => by simp [freezeValue, freezeMapping_freezeMapping entries]
  | .mappingProxy entries => by simp [freezeValue, freezeMapping_freezeMapping entries]
  | .none | .bool _ | .int _ | .float _ | .str _ | .datetime _ | .other _ => rfl

theorem freezeItems_freezeItems : ∀ items, freezeItems (freezeItems items) = freezeItems items
  | [] => rfl
  | v :: vs => by simp [freezeItems, freezeValue_freezeValue v, freezeItems_freezeItems vs]

theorem freezeMapping_freezeMapping :
    ∀ entries, freezeMapping (freezeMapping entries) = freezeMapping entries
  | [] => rfl
  | (key, v) :: entries => by
      simp [freezeMapping, freezeValue_freezeValue v, freezeMapping_freezeMapping entries]
end

theorem freezeItems_eq_map (items : List PyValue) : freezeItems items = items.map freezeValue := by
  induction items with
  | nil => rfl
  | cons v vs ih => rw [freezeItems, ih, List.map_cons]

theorem lookup_freezeMapping (entries : List (String × PyValue)) (key : String) :
    (freezeMapping entries).lookup key = (entries.lookup key).map freezeValue := by
  induction entries with
  | nil => rfl
  | cons entry entries ih =>
    obtain ⟨k, v⟩ := entry
    rw [freezeMapping, List.lookup_cons, List.lookup_cons, ih]
    cases key == k <;> rfl

namespace PyValue
variable (v : PyValue)

@[simp] theorem text?_freezeValue : (freezeValue v).text? = v.text? := by
  cases v <;> rfl

@[simp] theorem isNone_freezeValue : (freezeValue v).isNone = v.isNone := by
  cases v <;> rfl

@[simp] theorem mapping?_freezeValue :
    (freezeValue v).mapping? = v.mapping?.map freezeMapping := by
  cases v <;> rfl

@[simp] theorem sequence?_freezeValue :
    (freezeValue v).sequence? = v.sequence?.map (List.map freezeValue) := by
  cases v <;> simp [freezeValue, sequence?, freezeItems_eq_map]

theorem freezeValue_firstPresent (vs : List PyValue) :
    freezeValue (firstPresent vs) = firstPresent (vs.map freezeValue) := by
  induction vs with
  | nil => rfl
  | cons v vs ih =>
    rw [List.map_cons, firstPresent, firstPresent, isNone_freezeValue, ← ih]
    exact apply_ite freezeValue _ _ _

theorem getD_map_freezeValue (found : Option PyValue) :
    (found.map freezeValue).getD .none = freezeValue (found.getD .none) := by
  cases found <;> rfl

end PyValue

namespace ProviderLike
variable (p : ProviderLike)

/-- `_freeze_provider`. The entries of a dumped model are its attributes. -/
def freeze : ProviderLike → ProviderLike
  | .model p => .mapping (freezeMapping p.attributes)
  | .mapping entries => .mapping (freezeMapping entries)

theorem freeze_freeze : p.freeze.freeze = p.freeze := by
  cases p <;> exact congrArg ProviderLike.mapping (freezeMapping_freezeMapping _)

theorem attribute?_freeze (key : String) :
    p.freeze.attribute? key = (p.attribute? key).map freezeValue := by
  cases p <;> exact lookup_freezeMapping _ key

@[simp] theorem field_freeze (key : String) : p.freeze.field key = freezeValue (p.field key) := by
  rw [field, attribute?_freeze, PyValue.getD_map_freezeValue]
  rfl

@[simp] theorem stringField_freeze (key : String) :
    p.freeze.stringField key = p.stringField key := by
  simp [stringField]

@[simp] theorem config_freeze : p.freeze.config = freezeMapping p.config := by
  rw [config, config, field_freeze, PyValue.mapping?_freezeValue]
  cases (p.field "config").mapping? <;> rfl

@[simp] theorem configValue_freeze (key : String) :
    p.freeze.configValue key = freezeValue (p.configValue key) := by
  unfold configValue
  rw [config_freeze, lookup_freezeMapping, lookup_freezeMapping]
  cases p.config.lookup key with
  | some v => rfl
  | none =>
    cases p.config.lookup "constraints" with
    | none => rfl
    | some v =>
      simp only [Option.map_none, Option.map_some, Option.bind_some, PyValue.mapping?_freezeValue]
      cases v.mapping? with
      | none => rfl
      | some constraints =>
        simp only [Option.map_some, lookup_freezeMapping, PyValue.getD_map_freezeValue]

@[simp] theorem providerId_freeze : p.freeze.providerId = p.providerId := by
  simp [providerId]

@[simp] theorem providerType_freeze : p.freeze.providerType = p.providerType := by
  simp [providerType]

/-! What Stage 1 reads. -/

@[simp] theorem firstConfigString_freeze (keys : List String) :
    p.freeze.firstConfigString keys = p.firstConfigString keys := by
  induction keys with
  | nil => rfl
  | cons key keys ih => simp [firstConfigString, ih]

@[simp] theorem configVolumeId_freeze : p.freeze.configVolumeId = p.configVolumeId := by
  simp [configVolumeId]

/-! What the scorer reads. -/

@[simp] theorem scoreConfig_freeze (key : String) :
    p.freeze.scoreConfig key = freezeValue (p.scoreConfig key) := by
  rw [scoreConfig, config_freeze, lookup_freezeMapping, PyValue.getD_map_freezeValue]
  rfl

@[simp] theorem costValue_freeze (key : String) :
    p.freeze.costValue key = freezeValue (p.costValue key) := by
  have hentry : ∀ v : PyValue, ((freezeValue v).mapping?).bind (List.lookup key) =
      (v.mapping?.bind (List.lookup key)).map freezeValue := fun v => by
    rw [PyValue.mapping?_freezeValue]
    cases v.mapping? with
    | none => rfl
    | some entries => exact lookup_freezeMapping entries key
  unfold costValue
  rw [field_freeze, scoreConfig_freeze, hentry, hentry]
  cases (p.field "cost").mapping?.bind (List.lookup key) with
  | none => exact PyValue.getD_map_freezeValue _
  | some v => rfl

@[simp] theorem coldStartValue_freeze :
    p.freeze.coldStartValue = freezeValue p.coldStartValue := by
  simp [coldStartValue, PyValue.freezeValue_firstPresent]

@[simp] theorem warmWorkersValue_freeze :
    p.freeze.warmWorkersValue = freezeValue p.warmWorkersValue := by
  simp [warmWorkersValue, PyValue.freezeValue_firstPresent]

@[simp] theorem costPerSecondValue_freeze :
    p.freeze.costPerSecondValue = freezeValue p.costPerSecondValue := by
  simp [costPerSecondValue, PyValue.freezeValue_firstPresent]

@[simp] theorem recentErrorRateValue_freeze (observed : ObservedMetrics) :
    p.freeze.recentErrorRateValue observed = freezeValue (p.recentErrorRateValue observed) := by
  simp [recentErrorRateValue, PyValue.freezeValue_firstPresent, freezeValue]

@[simp] theorem priorityMultiplierValue_freeze :
    p.freeze.priorityMultiplierValue = freezeValue p.priorityMultiplierValue := by
  simp [priorityMultiplierValue, PyValue.freezeValue_firstPresent]

@[simp] theorem name_freeze : p.freeze.name = p.name := by
  simp [name]

/-! What the planner reads of the fallbacks and of the capacity. -/

theorem stringTuple_freezeValue (v : PyValue) : stringTuple (freezeValue v) = stringTuple v := by
  cases v with
  | list items | tuple items =>
    simp [freezeValue, stringTuple, PyValue.sequence?, freezeItems_eq_map, Function.comp_def]
  | none | bool _ | int _ | float _ | str _ | dict _ | mappingProxy _ | datetime _ | other _ => rfl

@[simp] theorem fallbackFor_freeze : p.freeze.fallbackFor = p.fallbackFor := by
  have hvalues : [p.freeze.field "fallback_for", p.freeze.configValue "fallback_for"] =
      [p.field "fallback_for", p.configValue "fallback_for"].map freezeValue := by simp
  rw [fallbackFor, hvalues, ← PyValue.freezeValue_firstPresent, stringTuple_freezeValue]
  rfl

@[simp] theorem explicitFallbackChain_freeze :
    p.freeze.explicitFallbackChain = p.explicitFallbackChain := by
  have hvalues : [p.freeze.field "fallback_chain", p.freeze.configValue "fallback_chain",
      p.freeze.configValue "fallback_provider_ids", p.freeze.configValue "fallbacks"] =
      [p.field "fallback_chain", p.configValue "fallback_chain",
        p.configValue "fallback_provider_ids", p.configValue "fallbacks"].map freezeValue := by simp
  rw [explicitFallbackChain, hvalues, ← PyValue.freezeValue_firstPresent, stringTuple_freezeValue]
  rfl

@[simp] theorem nonEmptyString_freezeValue (v : PyValue) :
    nonEmptyString (freezeValue v) = nonEmptyString v := by
  simp [nonEmptyString]

@[simp] theorem firstConfigOrFieldString_freeze (keys : List String) :
    p.freeze.firstConfigOrFieldString keys = p.firstConfigOrFieldString keys := by
  induction keys with
  | nil => rfl
  | cons key keys ih => simp [firstConfigOrFieldString, ih]

@[simp] theorem providerVolumeId_freeze : p.freeze.providerVolumeId = p.providerVolumeId := by
  simp [providerVolumeId]

@[simp] theorem capacityCloudType_freeze (text : PyString) :
    p.freeze.capacityCloudType text = p.capacityCloudType text := by
  simp [capacityCloudType]

@[simp] theorem capacityDatacenter_freeze : p.freeze.capacityDatacenter = p.capacityDatacenter := by
  have hids : PyValue.firstPresent
      [p.freeze.configValue "dataCenterIds", p.freeze.configValue "data_center_ids"] =
      freezeValue (.firstPresent
        [p.configValue "dataCenterIds", p.configValue "data_center_ids"]) := by
    simp [PyValue.freezeValue_firstPresent]
  unfold capacityDatacenter
  simp only [hids, PyValue.text?_freezeValue, PyValue.sequence?_freezeValue,
    nonEmptyString_freezeValue, firstConfigOrFieldString_freeze]
  generalize PyValue.firstPresent [_, _] = ids
  cases ids.text? with
  | some s => rfl
  | none =>
    cases ids.sequence? with
    | none => rfl
    | some items => simp [List.findSome?_map, Function.comp_def]

theorem intOf_freezeValue (text : PyString) (v : PyValue) :
    text.intOf (freezeValue v) = text.intOf v ∨
      ∃ e e', text.intOf (freezeValue v) = .error e ∧ text.intOf v = .error e' ∧
        e.type = "TypeError" ∧ e'.type = "TypeError" := by
  cases v with
  | list items | tuple items | dict entries | mappingProxy entries =>
    exact .inr ⟨_, _, rfl, rfl, rfl, rfl⟩
  | none | bool _ | int _ | float _ | str _ | datetime _ | other _ => exact .inl rfl

@[simp] theorem capacityGpuCount_freeze (text : PyString) :
    p.freeze.capacityGpuCount text = p.capacityGpuCount text := by
  have hraw : PyValue.firstPresent [p.freeze.field "gpu_count", p.freeze.field "gpuCount",
      p.freeze.configValue "gpu_count", p.freeze.configValue "gpuCount"] =
      freezeValue (.firstPresent [p.field "gpu_count", p.field "gpuCount",
        p.configValue "gpu_count", p.configValue "gpuCount"]) := by
    simp [PyValue.freezeValue_firstPresent]
  unfold capacityGpuCount
  rw [hraw]
  generalize PyValue.firstPresent [_, _, _, _] = raw
  rcases intOf_freezeValue text raw with heq | ⟨e, e', hfrozen, hraw, htype, htype'⟩
  · cases raw <;> simp_all [freezeValue]
  · cases raw <;> simp_all [freezeValue]

end ProviderLike

/-! The stages on a frozen record, but for the checks that read a list by the texts of its
items. -/

section Frozen
variable (text : PyString) (request : RoutingRequest) (p : ProviderLike)

@[simp] theorem decimalOf_freezeValue (v : PyValue) :
    text.decimalOf (freezeValue v) = text.decimalOf v := by
  cases v <;> rfl

@[simp] theorem capabilityMismatch_freeze (capability : Option CapabilityModel)
    (capabilityId : Option String) : capabilityMismatch request p.freeze capability capabilityId =
      capabilityMismatch request p capability capabilityId := by
  simp [capabilityMismatch]

@[simp] theorem regionMismatch_freeze :
    regionMismatch request p.freeze = regionMismatch request p := by
  simp [regionMismatch]

@[simp] theorem payloadTooLarge_freeze :
    payloadTooLarge text request p.freeze = payloadTooLarge text request p := by
  simp [payloadTooLarge, PyString.providerPayloadLimitMb]

@[simp] theorem isDisabled_freeze : isDisabled p.freeze = isDisabled p := by
  unfold isDisabled
  rw [ProviderLike.field_freeze]
  cases p.field "enabled" <;> rfl

@[simp] theorem healthStatus_freeze : healthStatus text p.freeze = healthStatus text p := by
  simp [healthStatus]

@[simp] theorem nonNegativeNumber_freezeValue (v : PyValue) (name : String) (default : Binary64) :
    nonNegativeNumber text (freezeValue v) name default =
      nonNegativeNumber text v name default := by
  cases v <;> rfl

@[simp] theorem explainScore_freeze (hints : Hints) (observed : ObservedMetrics) :
    explainScore text p.freeze hints observed = explainScore text p hints observed := by
  simp [explainScore, latencyTerms, costTerm, recentErrorRate, priorityMultiplier, coldStartP50Ms,
    warmWorkers, costPerSecondActive, regionBonus]

@[simp] theorem datetimeField_freeze (key : String) :
    datetimeField text p.freeze key = datetimeField text p key := by
  unfold datetimeField
  rw [ProviderLike.field_freeze]
  cases p.field key <;> rfl

@[simp] theorem strField_freeze (key default : String) :
    strField p.freeze key default = strField p key default := by
  unfold strField
  rw [ProviderLike.field_freeze]
  cases p.field key <;> rfl

@[simp] theorem isInCooldown_freeze (now : Instant) (p : ProviderModel) :
    isInCooldown text now (ProviderLike.model p).freeze = isInCooldown text now (.model p) := by
  have hfailures : intField text (ProviderLike.model p).freeze "consecutive_failures" 0 =
      intField text (.model p) "consecutive_failures" 0 := rfl
  have htrips : intField text (ProviderLike.model p).freeze "cooldown_trips" 0 =
      intField text (.model p) "cooldown_trips" 0 := rfl
  simp [isInCooldown, stateFromProvider, hfailures, htrips]

@[simp] theorem priority_freeze (p : ProviderModel) :
    (ProviderLike.model p).freeze.priority text = (ProviderLike.model p).priority text := rfl

@[simp] theorem isPodLeaseProvider_freeze : isPodLeaseProvider p.freeze = isPodLeaseProvider p := by
  simp [isPodLeaseProvider]

/-- The candidate of a frozen record is the candidate of the record, frozen. -/
def RouteCandidate.freeze (c : RouteCandidate) : RouteCandidate :=
  { c with provider := c.provider.freeze }

def RouteAttempt.freeze (a : RouteAttempt) : RouteAttempt :=
  { a with provider := a.provider.freeze }

theorem candidateForProvider_freeze (hints : Hints) (observed : Observed) :
    candidateForProvider text hints observed p.freeze =
      RouteCandidate.freeze <$> candidateForProvider text hints observed p := by
  simp [candidateForProvider, RouteCandidate.freeze]

@[simp] theorem candidateSortKey_freeze {c : RouteCandidate} {p : ProviderModel}
    (h : c.provider = .model p) : candidateSortKey text c.freeze = candidateSortKey text c := by
  simp [candidateSortKey, RouteCandidate.freeze, h]

end Frozen

end Pitwall.Routing
