import Pitwall.Resolver.Eligibility
import Pitwall.Resolver.Registry
set_option autoImplicit false

/-!
When the resolver finds the provider that the whole registry has to offer. The repository cuts
the list of providers before their health and constraints are looked at.
-/

namespace Pitwall.Routing
open Pricing

section Select
variable {text : PyString} {request : RoutingRequest} {now : Instant}
  {providers : List ProviderModel} {capability : CapabilityModel}

def Resolvable (text : PyString) (request : RoutingRequest) (capability : CapabilityModel)
    (now : Instant) (p : ProviderModel) : Prop :=
  PassesButHealth text request capability now p ∧ text.lower p.healthStatus = "healthy"

def ChecksReturn (text : PyString) (request : RoutingRequest) (capability : CapabilityModel)
    (p : ProviderModel) : Prop :=
  ∃ reasons, hardConstraintReasons text request (.model p) (some capability)
    (some capability.id) = .ok reasons ∧ (reasons = [] → p.healthStatus ≠ "")

/-- `p` is least by priority, name and id among the providers in `P`. -/
def LeastOf (P : ProviderModel → Prop) (p : ProviderModel) : Prop :=
  P p ∧ ∀ q, P q → priorityLt q p = false

def priorityKey (p : ProviderModel) : ℕ ×ₗ String ×ₗ String :=
  toLex (p.priority, toLex (p.name, p.id))

theorem priorityLt_iff (p q : ProviderModel) :
    priorityLt p q = true ↔ priorityKey p < priorityKey q := by
  unfold priorityLt priorityKey
  rw [Prod.Lex.toLex_lt_toLex, Prod.Lex.toLex_lt_toLex]
  by_cases hpriority : p.priority = q.priority
  · by_cases hname : p.name = q.name
    · simp [hpriority, hname, -String.lt_iff_ltb]
    · simp [hpriority, hname, -String.lt_iff_ltb]
  · simp [hpriority, -String.lt_iff_ltb]

theorem comparesBy_priority (ps : List ProviderModel) : ComparesBy priorityLt priorityKey ps :=
  fun p _ q _ => priorityLt_iff p q

theorem least_of_sorted {ps rest : List ProviderModel} {first : ProviderModel}
    (h : sortedBy priorityLt ps = first :: rest) : LeastOf (· ∈ ps) first := by
  have hpairwise := pairwise_sortedBy (comparesBy_priority ps)
  have hmem : ∀ q, q ∈ ps ↔ q ∈ first :: rest := fun q => by
    rw [← h]
    exact mem_sortedBy.symm
  rw [h] at hpairwise
  refine ⟨(hmem first).mpr (by simp), fun q hq => ?_⟩
  rw [← Bool.not_eq_true, priorityLt_iff, not_lt]
  rcases List.mem_cons.mp ((hmem q).mp hq) with rfl | hrest
  · exact le_rfl
  · exact List.rel_of_pairwise_cons hpairwise hrest

theorem LeastOf.id_eq {P : ProviderModel → Prop} {p q : ProviderModel} (hp : LeastOf P p)
    (hq : LeastOf P q) : p.id = q.id := by
  have hpq := hq.2 p hp.1
  have hqp := hp.2 q hq.1
  rw [← Bool.not_eq_true, priorityLt_iff, not_lt] at hpq hqp
  have hkey : priorityKey p = priorityKey q := le_antisymm hqp hpq
  exact congrArg (fun key => (ofLex (ofLex key).2).2) hkey

theorem rounds_return_iff : (∃ result, stage12Rounds text request providers capability now =
    .ok result) ↔ ∀ p ∈ providers, ChecksReturn text request capability p := by
  rw [stage12Rounds_returns_iff]
  constructor
  · rintro ⟨stage1, hstage1, hcooling⟩ p hp
    obtain ⟨rounds, hrounds, hresult⟩ := filterHardConstraints_eq_ok_iff.mp hstage1
    obtain ⟨round, hround, hok⟩ := List.exists_mem_of_mapM_eq_ok hrounds
      (List.mem_map_of_mem hp)
    obtain ⟨r, hr, rfl⟩ := Except.map_eq_ok_iff.mp hok
    obtain ⟨-, hreasons, -⟩ := evaluateHardConstraints_eq_ok hr
    refine ⟨r.reasons, hreasons, fun hempty => ?_⟩
    rw [hempty] at hreasons
    have hpassed := (mem_passed_iff hstage1 (.model p)).mpr ⟨List.mem_map_of_mem hp, hreasons⟩
    obtain ⟨cooling, hcool⟩ := hcooling _ hpassed
    exact healthStatus_ne hcool
  · intro h
    obtain ⟨rounds, hrounds⟩ : ∃ rounds, stage1Rounds text request (some capability) none
        (providers.map .model) = .ok rounds := by
      refine List.exists_mapM_eq_ok fun q hq => ?_
      obtain ⟨p, hp, rfl⟩ := List.mem_map.mp hq
      obtain ⟨reasons, hreasons, -⟩ := h p hp
      refine ⟨_, Except.map_eq_ok_iff.mpr ⟨⟨p.id, reasons.isEmpty, reasons.head?, reasons⟩, ?_, rfl⟩⟩
      simp only [evaluateHardConstraints, Except.bind_eq_ok_iff, Except.pure_eq_ok_iff]
      exact ⟨reasons, hreasons, p.id, ProviderLike.providerId_model p, rfl⟩
    refine ⟨_, filterHardConstraints_eq_ok_iff.mpr ⟨rounds, hrounds, rfl⟩, fun q hq => ?_⟩
    have hstage1 := filterHardConstraints_eq_ok_iff.mpr ⟨rounds, hrounds, rfl⟩
    obtain ⟨hmem, hempty⟩ := (mem_passed_iff hstage1 q).mp hq
    obtain ⟨p, hp, rfl⟩ := List.mem_map.mp hmem
    obtain ⟨reasons, hreasons, hhealth⟩ := h p hp
    rw [isInCooldown_model, if_neg (hhealth (Except.ok.inj (hreasons.symm.trans hempty)))]
    exact ⟨_, rfl⟩

theorem selectStage12Provider_ok_iff {p : ProviderModel}
    (hids : ∀ p ∈ providers, ∀ q ∈ providers, p.id = q.id → p = q) :
    (∃ resolution, selectStage12Provider text request providers capability now = .ok resolution ∧
        resolution.provider = p) ↔
      (∀ q ∈ providers, ChecksReturn text request capability q) ∧
        LeastOf (fun q => q ∈ providers ∧ Resolvable text request capability now q) p := by
  rw [← rounds_return_iff]
  unfold selectStage12Provider
  cases hrounds : stage12Rounds text request providers capability now with
  | error e => simp
  | ok result =>
    obtain ⟨eligible, eliminated⟩ := result
    have hmem := mem_stage12Rounds_iff hrounds
    cases hsorted : sortedBy priorityLt eligible with
    | nil =>
      have hnone : ¬ p ∈ eligible := fun hp => by
        have hsort : p ∈ sortedBy priorityLt eligible := mem_sortedBy.mpr hp
        rw [hsorted] at hsort
        cases hsort
      refine iff_of_false (by simp [hsorted]) (fun h => hnone ((hmem p).mpr ?_))
      exact ⟨h.2.1.1, h.2.1.2⟩
    | cons first rest =>
      have hleast := least_of_sorted hsorted
      have hleast' : LeastOf (fun q => q ∈ providers ∧ Resolvable text request capability now q)
          first := ⟨(hmem first).mp hleast.1, fun q hq => hleast.2 q ((hmem q).mpr hq)⟩
      dsimp only
      rw [hsorted]
      constructor
      · rintro ⟨resolution, hok, rfl⟩
        obtain rfl := Except.ok.inj hok
        exact ⟨⟨_, rfl⟩, hleast'⟩
      · rintro ⟨-, hp⟩
        exact ⟨_, rfl, hids _ hleast'.1.1 _ hp.1.1 (hleast'.id_eq hp)⟩

theorem selectStage12Provider_sound {resolution : Stage12Resolution}
    (h : selectStage12Provider text request providers capability now = .ok resolution) :
    resolution.provider ∈ providers ∧
      Resolvable text request capability now resolution.provider := by
  unfold selectStage12Provider at h
  cases hrounds : stage12Rounds text request providers capability now with
  | error e => simp [hrounds] at h
  | ok result =>
    obtain ⟨eligible, eliminated⟩ := result
    rw [hrounds] at h
    dsimp only at h
    cases hsorted : sortedBy priorityLt eligible with
    | nil => simp [hsorted] at h
    | cons first rest =>
      rw [hsorted] at h
      obtain rfl := Except.ok.inj h
      have hfirst := (mem_stage12Rounds_iff hrounds first).mp (least_of_sorted hsorted).1
      exact ⟨hfirst.1, hfirst.2.1, hfirst.2.2⟩

end Select

section Complete
variable (registry : Registry) (text : PyString) (order : RowOrder) (payloadBytes : Int)
  (now : Instant) (capability : PricedCapability)

def resolvedRequest (capability : PricedCapability) (payloadBytes : Int) : RoutingRequest :=
  { Registry.inferenceRequest capability.id payloadBytes with capabilityName := capability.name }

def Offered (p : ProviderModel) : Prop :=
  p ∈ registry.providers ∧ p.capabilityId = capability.id ∧
    Resolvable text (resolvedRequest capability payloadBytes) capability.toCapabilityModel now p

/-- A provider is found where there is one, and it is the least of them. -/
def ResolvesCompletely (capabilityName : String) : Prop :=
  ((∃ p, Offered registry text payloadBytes now capability p) → ∃ resolution,
    registry.resolveInferenceTarget text order capabilityName none payloadBytes now =
      .ok resolution) ∧
  ∀ resolution, registry.resolveInferenceTarget text order capabilityName none payloadBytes now =
    .ok resolution → LeastOf (Offered registry text payloadBytes now capability)
      resolution.provider

def listedProviders : List ProviderModel :=
  registry.listProviders order capability.id Registry.inferenceProviderLimit

/-- Where the capability has a provider that passes, it is enabled, the least of them is listed,
and no check raises on any that is. -/
def LeastListed : Prop :=
  (∃ p, Offered registry text payloadBytes now capability p) →
    capability.enabled = true ∧
    (∀ q ∈ listedProviders registry order capability, ChecksReturn text
      (resolvedRequest capability payloadBytes) capability.toCapabilityModel q) ∧
    ∃ p ∈ listedProviders registry order capability,
      LeastOf (Offered registry text payloadBytes now capability) p

variable {registry text order payloadBytes now capability} {capabilityName : String}

theorem resolveInferenceTarget_eq
    (hcapability : registry.resolveCapabilityRecord capabilityName = .ok capability)
    (henabled : capability.enabled = true) :
    registry.resolveInferenceTarget text order capabilityName none payloadBytes now =
      selectStage12Provider text (resolvedRequest capability payloadBytes)
        (listedProviders registry order capability) capability.toCapabilityModel now := by
  unfold Registry.resolveInferenceTarget Registry.resolveCapability
  rw [hcapability]
  change (if capability.enabled = true then _ else _) = _
  rw [if_pos henabled]
  rfl

theorem providersForRequest_mem {providerId : Option String} {limit : Nat}
    {providers : List ProviderModel}
    (h : registry.providersForRequest order capability.toCapabilityModel providerId limit =
      .ok providers) {p : ProviderModel} (hp : p ∈ providers) : p ∈ registry.providers := by
  unfold Registry.providersForRequest at h
  cases providerId with
  | none =>
    obtain rfl := Except.ok.inj h
    exact (mem_listProviders hp).1
  | some id =>
    cases hid : registry.provider id with
    | none => simp [hid] at h
    | some q =>
      simp only [hid, Except.ok.injEq] at h
      subst h
      rw [List.mem_singleton.mp hp]
      exact (provider_some hid).1

theorem resolveInferenceTarget_sound {providerId : Option String} {resolution : Stage12Resolution}
    (h : registry.resolveInferenceTarget text order capabilityName providerId payloadBytes now =
      .ok resolution) :
    ∃ capability, registry.resolveCapabilityRecord capabilityName = .ok capability ∧
      capability.enabled = true ∧ resolution.provider ∈ registry.providers ∧
      Resolvable text (resolvedRequest capability payloadBytes) capability.toCapabilityModel now
        resolution.provider := by
  unfold Registry.resolveInferenceTarget Registry.resolveCapability at h
  obtain ⟨capability, hcapability, hrest⟩ := Except.bind_eq_ok_iff.mp h
  split at hrest
  · rename_i henabled
    obtain ⟨providers, hproviders, hselect⟩ := Except.bind_eq_ok_iff.mp hrest
    obtain ⟨hmem, hresolvable⟩ := selectStage12Provider_sound hselect
    exact ⟨capability, hcapability, henabled, providersForRequest_mem hproviders hmem, hresolvable⟩
  · cases hrest

theorem enabled_of_resolved {resolution : Stage12Resolution}
    (hcapability : registry.resolveCapabilityRecord capabilityName = .ok capability)
    (hok : registry.resolveInferenceTarget text order capabilityName none payloadBytes now =
      .ok resolution) : capability.enabled = true := by
  obtain ⟨capability', hcapability', henabled, -, -⟩ := resolveInferenceTarget_sound hok
  obtain rfl := Except.ok.inj (hcapability.symm.trans hcapability')
  exact henabled

theorem resolves_iff
    (hcapability : registry.resolveCapabilityRecord capabilityName = .ok capability)
    (henabled : capability.enabled = true) (p : ProviderModel) :
    (∃ resolution, registry.resolveInferenceTarget text order capabilityName none payloadBytes
        now = .ok resolution ∧ resolution.provider = p) ↔
      (∀ q ∈ listedProviders registry order capability, ChecksReturn text
        (resolvedRequest capability payloadBytes) capability.toCapabilityModel q) ∧
      LeastOf (fun q => q ∈ listedProviders registry order capability ∧ Resolvable text
        (resolvedRequest capability payloadBytes) capability.toCapabilityModel now q) p := by
  rw [resolveInferenceTarget_eq hcapability henabled]
  refine selectStage12Provider_ok_iff (fun p hp q hq => ?_)
  exact provider_eq_of_id (mem_listProviders hp).1 (mem_listProviders hq).1

theorem offered_of_listed {p : ProviderModel}
    (h : p ∈ listedProviders registry order capability ∧ Resolvable text
      (resolvedRequest capability payloadBytes) capability.toCapabilityModel now p) :
    Offered registry text payloadBytes now capability p :=
  ⟨(mem_listProviders h.1).1, (mem_listProviders h.1).2.1, h.2⟩

theorem resolves_completely_of_least
    (hcapability : registry.resolveCapabilityRecord capabilityName = .ok capability)
    (h : LeastListed registry text order payloadBytes now capability) :
    ResolvesCompletely registry text order payloadBytes now capability capabilityName := by
  have hselect : (∃ p, Offered registry text payloadBytes now capability p) →
      ∃ resolution, registry.resolveInferenceTarget text order capabilityName none payloadBytes
        now = .ok resolution ∧ LeastOf (Offered registry text payloadBytes now capability)
          resolution.provider := by
    intro hoffered
    obtain ⟨henabled, hchecks, p, hp, hleast⟩ := h hoffered
    obtain ⟨resolution, hok, rfl⟩ := (resolves_iff hcapability henabled p).mpr
      ⟨hchecks, ⟨hp, hleast.1.2.2⟩, fun q hq => hleast.2 q (offered_of_listed hq)⟩
    exact ⟨resolution, hok, hleast⟩
  refine ⟨fun hoffered => ?_, fun resolution hok => ?_⟩
  · obtain ⟨resolution, hok, -⟩ := hselect hoffered
    exact ⟨resolution, hok⟩
  · have henabled := enabled_of_resolved hcapability hok
    have hlisted := (resolves_iff hcapability henabled _).mp ⟨resolution, hok, rfl⟩
    obtain ⟨resolution', hok', hleast⟩ := hselect ⟨_, offered_of_listed hlisted.2.1⟩
    obtain rfl := Except.ok.inj (hok.symm.trans hok')
    exact hleast

/-- The resolver is complete exactly when, where a provider passes, the capability is enabled,
the row limit keeps the least one and no provider within the limit makes a check raise. -/
theorem resolver_complete_iff (registry : Registry) (text : PyString) (order : RowOrder)
    (payloadBytes : Int) (now : Instant) (capabilityName : String) (capability : PricedCapability)
    (hcapability : registry.resolveCapabilityRecord capabilityName = .ok capability) :
    ResolvesCompletely registry text order payloadBytes now capability capabilityName ↔
      LeastListed registry text order payloadBytes now capability := by
  refine ⟨fun h hoffered => ?_, resolves_completely_of_least hcapability⟩
  obtain ⟨resolution, hok⟩ := h.1 hoffered
  have henabled := enabled_of_resolved hcapability hok
  obtain ⟨hchecks, hleast⟩ := (resolves_iff hcapability henabled _).mp ⟨resolution, hok, rfl⟩
  exact ⟨henabled, hchecks, resolution.provider, hleast.1.1, h.2 resolution hok⟩

def codePointOrder : RowOrder where
  sort := sortedBy priorityLt
  collates a b := !decide (b < a)
  perm := sortedBy_perm priorityLt
  sorted := fun ps => (pairwise_sortedBy (comparesBy_priority ps)).imp fun {p q} hkey => by
    rcases Prod.Lex.le_iff.mp hkey with hpriority | ⟨hpriority, hrest⟩
    · exact .inl hpriority
    · refine .inr ⟨hpriority, ?_⟩
      have hname : p.name ≤ q.name := by
        rcases Prod.Lex.le_iff.mp hrest with hlt | ⟨heq, -⟩
        · exact le_of_lt hlt
        · exact le_of_eq heq
      simpa [-String.lt_iff_ltb] using hname

def embeddingCapability : PricedCapability := ⟨sampleCapability, .perSecond, 1000⟩

theorem gpuName_ne (i : Nat) : "gpu_".push (Char.ofNat (97 + i)) ≠ "" := fun h => by
  simpa using congrArg String.length h

def gpuProvider (i priority : Nat) (healthStatus : String) : ProviderModel :=
  { sampleProvider ("gpu_".push (Char.ofNat (97 + i))) (gpuName_ne i) .serverlessQueue [] with
    priority := priority
    healthStatus := healthStatus }

def healthyGpu : ProviderModel := gpuProvider 10 2 "healthy"

theorem healthyGpu_resolvable : Resolvable asciiText (resolvedRequest embeddingCapability 0)
    embeddingCapability.toCapabilityModel 0 healthyGpu :=
  ⟨⟨by rfl, rfl, by rfl⟩, by decide⟩

def crowdedProviders : List ProviderModel :=
  (List.range 10).map (gpuProvider · 1 "unknown") ++ [healthyGpu]

theorem crowdedIds_nodup : (crowdedProviders.map ProviderModel.id).Nodup := by decide

theorem embeddingIds_nodup : ([embeddingCapability].map fun c => c.id).Nodup := by decide

theorem embeddingNames_nodup : ([embeddingCapability].map fun c => c.name).Nodup := by decide

def crowdedRegistry : Registry :=
  ⟨[embeddingCapability], crowdedProviders, embeddingIds_nodup, embeddingNames_nodup,
    crowdedIds_nodup⟩

def mixedProviders : List ProviderModel :=
  [gpuProvider 1 3 "healthy", gpuProvider 2 1 "unhealthy", healthyGpu]

theorem mixedIds_nodup : (mixedProviders.map ProviderModel.id).Nodup := by decide

def mixedRegistry : Registry :=
  ⟨[embeddingCapability], mixedProviders, embeddingIds_nodup, embeddingNames_nodup, mixedIds_nodup⟩

/-- The healthy provider is the eleventh row: the resolver does not see it, and raises. -/
theorem resolver_incomplete : ∃ registry payloadBytes capabilityName,
    registry.resolveCapabilityRecord capabilityName = .ok embeddingCapability ∧
    ¬ ResolvesCompletely registry asciiText codePointOrder payloadBytes 0 embeddingCapability
      capabilityName := by
  refine ⟨crowdedRegistry, 0, "embedding", rfl, fun h => ?_⟩
  have hmem : healthyGpu ∈ crowdedRegistry.providers := by
    simp [crowdedRegistry, crowdedProviders]
  obtain ⟨resolution, hok⟩ := h.1 ⟨healthyGpu, hmem, rfl, healthyGpu_resolvable⟩
  have hraises : (crowdedRegistry.resolveInferenceTarget asciiText codePointOrder "embedding" none
      0 0).isOk = false := by decide +kernel
  rw [hok] at hraises
  cases hraises

theorem resolver_complete_of_mixed :
    ∃ resolution, mixedRegistry.resolveInferenceTarget asciiText codePointOrder "embedding" none
      0 0 = .ok resolution ∧ resolution.provider = healthyGpu := by
  have hmem : ∀ q ∈ mixedRegistry.providers, q = gpuProvider 1 3 "healthy" ∨
      q = gpuProvider 2 1 "unhealthy" ∨ q = healthyGpu := by
    simp [mixedRegistry, mixedProviders]
  have hoffered : Offered mixedRegistry asciiText 0 0 embeddingCapability healthyGpu :=
    ⟨by simp [mixedRegistry, mixedProviders], rfl, healthyGpu_resolvable⟩
  have hlisted : healthyGpu ∈ listedProviders mixedRegistry codePointOrder embeddingCapability := by
    unfold listedProviders Registry.listProviders
    rw [List.take_of_length_le ((codePointOrder.perm _).length_eq.trans_le (by decide))]
    exact (codePointOrder.perm _).mem_iff.mpr (List.mem_filter.mpr ⟨hoffered.1, by decide⟩)
  have hcomplete : ResolvesCompletely mixedRegistry asciiText codePointOrder 0 0
      embeddingCapability "embedding" := by
    refine (resolver_complete_iff mixedRegistry asciiText codePointOrder 0 0 "embedding"
      embeddingCapability rfl).mpr fun _ => ⟨rfl, fun q hq => ?_, healthyGpu, hlisted,
        hoffered, fun q hq => ?_⟩
    · rcases hmem q (mem_listProviders hq).1 with rfl | rfl | rfl
      · exact ⟨[], rfl, fun _ => by decide⟩
      · exact ⟨[], rfl, fun _ => by decide⟩
      · exact ⟨[], rfl, fun _ => by decide⟩
    · rcases hmem q hq.1 with rfl | rfl | rfl
      · decide +kernel
      · exact absurd hq.2.2.2 (by decide)
      · decide +kernel
  obtain ⟨resolution, hok⟩ := hcomplete.1 ⟨_, hoffered⟩
  obtain ⟨hpasses, hleast⟩ := hcomplete.2 resolution hok
  refine ⟨resolution, hok, ?_⟩
  rcases hmem _ hpasses.1 with hdear | hunhealthy | hhealthy
  · have hbehind := hleast healthyGpu hoffered
    rw [hdear] at hbehind
    exact absurd hbehind (by decide +kernel)
  · have hstatus := hpasses.2.2.2
    rw [hunhealthy] at hstatus
    exact absurd hstatus (by decide)
  · exact hhealthy

end Complete

end Pitwall.Routing
