import Pitwall.Gitops.SecondPlan
set_option autoImplicit false

/-!
When the plan on what an apply leaves is empty.
-/

namespace Pitwall.Gitops
open Routing (CapabilitySource)

section Operations
variable {S E : Type} [Snapshot S] {current desired : List S} {snapshotOf : E → S}
  {yamlOwned : E → Bool} {entities : List E} {op : Operation S}

theorem id_of_desired (h : op ∈ desiredOperations current desired ++
    deleteOperations snapshotOf yamlOwned entities desired) {s : S} (hs : op.desired = some s) :
    Snapshot.id s = op.entityId := by
  rcases List.mem_append.mp h with h | h
  · obtain ⟨s', -, ⟨-, rfl⟩ | ⟨existing, -, -, rfl⟩⟩ := mem_desiredOperations.mp h
    · cases hs
      rfl
    · cases hs
      rfl
  · obtain ⟨e, -, -, -, snapshot, -, rfl⟩ := mem_deleteOperations.mp h
    cases hs

end Operations

section Kinds
variable {text : PlanText} {desired : DesiredState} {db : Database}
  {capabilities capabilities' listedCapabilities : List CapabilityModel}
  {providers providers' listedProviders : List ProviderModel}
  {dc : List CapabilitySnapshot} {dp : List ProviderSnapshot}

abbrev RelistedCapabilities (text : PlanText) (desired : DesiredState) (db : Database)
    (capabilities capabilities' listing : List CapabilityModel) (dc : List CapabilitySnapshot) :
    Prop :=
  Relisted text "capability" "cap" desired.capabilities DesiredCapabilitySpec.key
    CapabilityModel.key CapabilityModel.snapshot (capabilityEffects db) CapabilitySnapshot.owned
    capabilities capabilities' listing dc

abbrev RelistedProviders (text : PlanText) (desired : DesiredState) (db : Database)
    (providers providers' listing : List ProviderModel) (dp : List ProviderSnapshot) : Prop :=
  Relisted text "provider" "prov" desired.providers DesiredProviderSpec.key
    ProviderModel.key ProviderModel.snapshot (providerEffects db) ProviderSnapshot.owned
    providers providers' listing dp

/-- A reference is found by more than the name of a capability that was declared anew. -/
def StaysResolved (capabilities : List CapabilityModel) (dc : List CapabilitySnapshot)
    (ref : NonEmptyString) : Prop :=
  (∃ s ∈ dc, s.id = ref ∨ s.name = ref) ∨ (∃ c ∈ capabilities, c.id = ref) ∨
    ∀ c ∈ capabilities, c.name = ref → ∀ s ∈ dc, s.id ≠ c.id

theorem named_again
    (h : RelistedCapabilities text desired db capabilities capabilities' listedCapabilities dc)
    (hnames : (capabilities.map CapabilityModel.name).Nodup) {c : CapabilityModel}
    (hc : c ∈ capabilities) {ref id : NonEmptyString} (hname : c.name = ref)
    (hnot : ∀ s ∈ dc, s.name ≠ ref) :
    (∃ last, lastBy CapabilityModel.name listedCapabilities ref = some last ∧ last.id = id) ↔
      (∀ s ∈ dc, s.id ≠ c.id) ∧ c.id = id := by
  have hsame : ∀ c' ∈ listedCapabilities, c'.name = ref → c'.id = c.id ∧ ∀ s ∈ dc, s.id ≠ c.id := by
    intro c' hc' hname'
    rcases h.key_cases hc' with ⟨s, hs, -, hsname⟩ | ⟨hundeclared, c₁, hc₁, hkey⟩
    · exact absurd (hsname.trans hname') (hnot s hs)
    · have hc₁name : c₁.name = ref := (congrArg Prod.snd hkey).trans hname'
      have hsame : c₁ = c := List.inj_on_of_nodup_map hnames hc₁ hc (hc₁name.trans hname.symm)
      have hid : c'.id = c.id := by
        rw [← hsame]
        exact (congrArg Prod.fst hkey).symm
      exact ⟨hid, fun s hs => by rw [← hid]; exact hundeclared s hs⟩
  constructor
  · rintro ⟨last, hlast, rfl⟩
    obtain ⟨hid, hundeclared⟩ := hsame last (mem_of_lastBy hlast) (key_of_lastBy hlast)
    exact ⟨hundeclared, hid.symm⟩
  · rintro ⟨hundeclared, rfl⟩
    obtain ⟨c', hc', hkey⟩ := h.exists_kept hc hundeclared
    have hname' : c'.name = ref := (congrArg Prod.snd hkey).trans hname
    obtain ⟨last, hlast⟩ := exists_lastBy hc' hname'
    exact ⟨last, hlast, (hsame last (mem_of_lastBy hlast) (key_of_lastBy hlast)).1⟩

theorem resolve_again
    (h : RelistedCapabilities text desired db capabilities capabilities' listedCapabilities dc)
    (hnames : (capabilities.map CapabilityModel.name).Nodup) {ref id id' : NonEmptyString}
    (hresolved : resolveCapabilityId dc capabilities ref = .ok id) :
    resolveCapabilityId dc listedCapabilities ref = .ok id' ↔
      StaysResolved capabilities dc ref ∧ id = id' := by
  unfold resolveCapabilityId at hresolved ⊢
  cases hdesired : lastBy CapabilitySnapshot.id dc ref with
  | some s =>
    rw [hdesired] at hresolved
    cases hresolved
    have hstays : StaysResolved capabilities dc ref :=
      .inl ⟨s, mem_of_lastBy hdesired, .inl (key_of_lastBy hdesired)⟩
    simp [hstays]
  | none =>
    rw [hdesired] at hresolved
    have hnot : ∀ s ∈ dc, s.id ≠ ref := lastBy_eq_none_iff.mp hdesired
    cases hcurrent : lastBy CapabilityModel.id capabilities ref with
    | some c =>
      rw [hcurrent] at hresolved
      cases hresolved
      have hid : c.id = ref := key_of_lastBy hcurrent
      have hstays : StaysResolved capabilities dc ref :=
        .inr (.inl ⟨c, mem_of_lastBy hcurrent, hid⟩)
      obtain ⟨c', hc', hkey⟩ := h.exists_kept (mem_of_lastBy hcurrent)
        fun s hs => by rw [show c.key.1 = ref from hid]; exact hnot s hs
      have hid' : c'.id = ref := (congrArg Prod.fst hkey).trans hid
      obtain ⟨last, hlast⟩ := exists_lastBy hc' hid'
      have hlastId : last.id = ref := key_of_lastBy hlast
      rw [hlast]
      simp [hstays, hid, hlastId]
    | none =>
      rw [hcurrent] at hresolved
      have habsent : ∀ c ∈ capabilities, c.id ≠ ref := lastBy_eq_none_iff.mp hcurrent
      have hlisted : lastBy CapabilityModel.id listedCapabilities ref = none := by
        refine lastBy_eq_none_iff.mpr fun c' hc' hid => ?_
        rcases h.key_cases hc' with ⟨s, hs, hsid, -⟩ | ⟨-, c, hc, hkey⟩
        · exact hnot s hs (hsid.trans hid)
        · exact habsent c hc ((congrArg Prod.fst hkey).trans hid)
      rw [hlisted]
      cases hname : lastBy CapabilitySnapshot.name dc ref with
      | some s =>
        rw [hname] at hresolved
        cases hresolved
        have hstays : StaysResolved capabilities dc ref :=
          .inl ⟨s, mem_of_lastBy hname, .inr (key_of_lastBy hname)⟩
        simp [hstays]
      | none =>
        rw [hname] at hresolved
        have hnot' : ∀ s ∈ dc, s.name ≠ ref := lastBy_eq_none_iff.mp hname
        cases hcurrent' : lastBy CapabilityModel.name capabilities ref with
        | none =>
          rw [hcurrent'] at hresolved
          cases hresolved
        | some c =>
          rw [hcurrent'] at hresolved
          cases hresolved
          have hc : c ∈ capabilities := mem_of_lastBy hcurrent'
          have hcname : c.name = ref := key_of_lastBy hcurrent'
          have hstays : StaysResolved capabilities dc ref ↔ ∀ s ∈ dc, s.id ≠ c.id := by
            constructor
            · rintro (⟨s, hs, hsid | hsname⟩ | ⟨c₁, hc₁, hid⟩ | hkept)
              · exact absurd hsid (hnot s hs)
              · exact absurd hsname (hnot' s hs)
              · exact absurd hid (habsent c₁ hc₁)
              · exact hkept c hc hcname
            · refine fun hkept => .inr (.inr fun c₁ hc₁ hc₁name => ?_)
              have hsame : c₁ = c := List.inj_on_of_nodup_map hnames hc₁ hc
                (hc₁name.trans hcname.symm)
              rwa [hsame]
          rw [hstays, ← named_again h hnames hc hcname hnot']
          cases lastBy CapabilityModel.name listedCapabilities ref with
          | none => simp
          | some last => simp

theorem capability_again
    (h : RelistedCapabilities text desired db capabilities capabilities' listedCapabilities dc)
    (hforemost : Foremost desired.capabilities DesiredCapabilitySpec.key CapabilityModel.key
      listedCapabilities dc) {spec : DesiredCapabilitySpec} (hspec : spec ∈ desired.capabilities)
    {s s' : CapabilitySnapshot} (hs : s ∈ dc)
    (hfirst : desiredCapabilitySnapshot text capabilities spec = .ok s) :
    desiredCapabilitySnapshot text listedCapabilities spec = .ok s' ↔ spec.id ≠ some "" ∧ s = s' := by
  obtain ⟨id, hid, hfirst⟩ := Except.bind_eq_ok_iff.mp hfirst
  cases hfirst
  have hby : (lastBy CapabilityModel.name listedCapabilities spec.name).map CapabilityModel.id =
    some id := h.lastBy_name hforemost hspec hs rfl
  unfold desiredCapabilitySnapshot
  rw [hby, Except.bind_eq_ok_iff]
  simp only [declaredId_again hid]
  constructor
  · rintro ⟨_, ⟨hne, rfl⟩, hs'⟩
    exact ⟨hne, Except.ok.inj hs'⟩
  · rintro ⟨hne, rfl⟩
    exact ⟨id, ⟨hne, rfl⟩, rfl⟩

def StaysDeclared (capabilities : List CapabilityModel) (dc : List CapabilitySnapshot)
    (spec : DesiredProviderSpec) : Prop :=
  spec.id ≠ some "" ∧ ∀ ref, spec.capabilityRef = .ok ref → StaysResolved capabilities dc ref

theorem provider_again
    (hcaps : RelistedCapabilities text desired db capabilities capabilities' listedCapabilities dc)
    (hnames : (capabilities.map CapabilityModel.name).Nodup)
    (h : RelistedProviders text desired db providers providers' listedProviders dp)
    (hforemost : Foremost desired.providers DesiredProviderSpec.key ProviderModel.key
      listedProviders dp) {spec : DesiredProviderSpec} (hspec : spec ∈ desired.providers)
    {s s' : ProviderSnapshot} (hs : s ∈ dp)
    (hfirst : desiredProviderSnapshot text dc capabilities providers spec = .ok s) :
    desiredProviderSnapshot text dc listedCapabilities listedProviders spec = .ok s' ↔
      StaysDeclared capabilities dc spec ∧ s = s' := by
  obtain ⟨id, hid, hfirst⟩ := Except.bind_eq_ok_iff.mp hfirst
  obtain ⟨ref, href, hfirst⟩ := Except.bind_eq_ok_iff.mp hfirst
  obtain ⟨capabilityId, hresolved, hfirst⟩ := Except.bind_eq_ok_iff.mp hfirst
  cases hfirst
  have hby : (lastBy ProviderModel.name listedProviders spec.name).map ProviderModel.id =
    some id := h.lastBy_name hforemost hspec hs rfl
  unfold desiredProviderSnapshot
  rw [hby]
  constructor
  · intro hsecond
    obtain ⟨id', hid', hsecond⟩ := Except.bind_eq_ok_iff.mp hsecond
    obtain ⟨ref', href', hsecond⟩ := Except.bind_eq_ok_iff.mp hsecond
    obtain ⟨capabilityId', hresolved', hsecond⟩ := Except.bind_eq_ok_iff.mp hsecond
    obtain ⟨hne, rfl⟩ := (declaredId_again hid).mp hid'
    obtain rfl := Except.ok.inj (href.symm.trans href')
    obtain ⟨hstays, rfl⟩ := (resolve_again hcaps hnames hresolved).mp hresolved'
    refine ⟨⟨hne, fun ref' href' => ?_⟩, Except.ok.inj hsecond⟩
    obtain rfl := Except.ok.inj (href.symm.trans href')
    exact hstays
  · rintro ⟨⟨hne, hstays⟩, rfl⟩
    refine Except.bind_eq_ok_iff.mpr ⟨id, (declaredId_again hid).mpr ⟨hne, rfl⟩, ?_⟩
    refine Except.bind_eq_ok_iff.mpr ⟨ref, href, ?_⟩
    exact Except.bind_eq_ok_iff.mpr ⟨capabilityId,
      (resolve_again hcaps hnames hresolved).mpr ⟨hstays ref href, rfl⟩, rfl⟩

end Kinds

section Plans
variable {text : PlanText} {desired : DesiredState} {context : ApplyContext}
  {registry : Registry} {tables' listing : Tables} {plan : ReconcilePlan}
  {dc : List CapabilitySnapshot} {dp : List ProviderSnapshot}

theorem ran_of_plan {result : GitOpsApplyResult}
    (happly : applyPlan context ⟨planOperations dc dp registry.capabilities registry.providers⟩
      false true registry.toTables = .ok (result, tables')) :
    Ran context.db (planOperations dc dp registry.capabilities registry.providers)
      registry.toTables tables' := by
  have hown : OwnSnapshots (planOperations dc dp registry.capabilities registry.providers) := by
    refine ⟨?_, ?_⟩
    · intro op hop s hs
      rw [filterMap_capability] at hop
      exact id_of_desired hop hs
    · intro op hop s hs
      rw [filterMap_provider] at hop
      exact id_of_desired hop hs
  exact ran_of_applyPlan rfl registry.keys.capabilityIds registry.keys.providerIds hown happly

namespace Declared

theorem source_capability
    (h : Declared text desired registry.capabilities registry.providers dc dp) :
    ∀ s ∈ dc, s.source = .yaml := by
  intro s hs
  obtain ⟨hmap, -⟩ := desiredSnapshots_eq_ok_iff.mp h.ofCapabilities
  obtain ⟨spec, -, hspec⟩ := List.mem_of_mapM_eq_ok hmap hs
  obtain ⟨id, -, hspec⟩ := Except.bind_eq_ok_iff.mp hspec
  cases hspec
  rfl

theorem source_provider
    (h : Declared text desired registry.capabilities registry.providers dc dp) :
    ∀ s ∈ dp, s.source = .yaml := by
  intro s hs
  obtain ⟨hmap, -⟩ := desiredSnapshots_eq_ok_iff.mp h.ofProviders
  obtain ⟨spec, -, hspec⟩ := List.mem_of_mapM_eq_ok hmap hs
  obtain ⟨id, -, hspec⟩ := Except.bind_eq_ok_iff.mp hspec
  obtain ⟨ref, -, hspec⟩ := Except.bind_eq_ok_iff.mp hspec
  obtain ⟨capabilityId, -, hspec⟩ := Except.bind_eq_ok_iff.mp hspec
  cases hspec
  rfl

theorem relistedCapabilities
    (h : Declared text desired registry.capabilities registry.providers dc dp)
    (hran : Ran context.db (planOperations dc dp registry.capabilities registry.providers)
      registry.toTables tables') (hlisted : listing.capabilities.Perm tables'.capabilities) :
    RelistedCapabilities text desired context.db registry.capabilities tables'.capabilities
      listing.capabilities dc where
  first := h.capabilityKind
  passed :=
    { lawful := capabilityEffects_lawful context.db
      key_eq := fun _ => rfl
      ids := registry.keys.capabilityIds
      desiredIds := h.nodup_capabilities
      desiredNames := h.nodup_names
      desiredSource := h.source_capability
      run := by
        have hrun := hran.capabilities
        rw [filterMap_capability] at hrun
        exact hrun }
  listed := hlisted

theorem relistedProviders
    (h : Declared text desired registry.capabilities registry.providers dc dp)
    (hran : Ran context.db (planOperations dc dp registry.capabilities registry.providers)
      registry.toTables tables') (hlisted : listing.providers.Perm tables'.providers) :
    RelistedProviders text desired context.db registry.providers tables'.providers
      listing.providers dp where
  first := h.providerKind
  passed :=
    { lawful := providerEffects_lawful context.db
      key_eq := fun _ => rfl
      ids := registry.keys.providerIds
      desiredIds := h.nodup_providers
      desiredNames := (desiredSnapshots_eq_ok_iff.mp h.ofProviders).2.2
      desiredSource := h.source_provider
      run := by
        have hrun := hran.providers
        rw [filterMap_provider] at hrun
        exact hrun }
  listed := hlisted

end Declared

section Found
variable {E S : Type} {key : E → NonEmptyString} {entities : List E} {i : NonEmptyString}

theorem exists_found_iff (hids : (entities.map key).Nodup) (snapshotOf : E → S) (P : S → Prop) :
    (∃ current, (lastBy key entities i).map snapshotOf = some current ∧ P current) ↔
      ∃ e ∈ entities, key e = i ∧ P (snapshotOf e) := by
  simp only [Option.map_eq_some_iff, lastBy_eq_some_iff hids]
  constructor
  · rintro ⟨_, ⟨e, ⟨he, hid⟩, rfl⟩, hp⟩
    exact ⟨e, he, hid, hp⟩
  · rintro ⟨e, he, hid, hp⟩
    exact ⟨_, ⟨e, ⟨he, hid⟩, rfl⟩, hp⟩

theorem forall_found_iff (hids : (entities.map key).Nodup) (snapshotOf : E → S) (P : S → Prop) :
    (∀ current, (lastBy key entities i).map snapshotOf = some current → P current) ↔
      ∀ e ∈ entities, key e = i → P (snapshotOf e) := by
  simp only [Option.map_eq_some_iff, lastBy_eq_some_iff hids]
  constructor
  · exact fun h e he hid => h _ ⟨e, ⟨he, hid⟩, rfl⟩
  · rintro h _ ⟨e, ⟨he, hid⟩, rfl⟩
    exact h e he hid

end Found

/-- The declarations are such that a write settles them, the listing has no other provider behind
a declared one of its name, and nothing has to be deleted. -/
structure Converges (db : Database) (desired : DesiredState) (registry listing : Tables)
    (dc : List CapabilitySnapshot) (dp : List ProviderSnapshot) : Prop where
  capabilityIds : ∀ spec ∈ desired.capabilities, spec.id ≠ some ""
  declared : ∀ spec ∈ desired.providers, StaysDeclared registry.capabilities dc spec
  capabilities : ∀ s ∈ dc, (∃ c ∈ registry.capabilities, c.id = s.id ∧ OnlyEnabled c.snapshot s) ∨
    CapabilityKept db s
  providers : ∀ s ∈ dp, (∃ p ∈ registry.providers, p.id = s.id ∧ OnlyEnabled p.snapshot s) ∨
    (ProviderKept db s ∧ ∀ p ∈ registry.providers, p.id = s.id → p.capabilityId = s.capabilityId)
  capabilityOwners : ∀ c ∈ registry.capabilities, c.yamlOwned = true → ∃ s ∈ dc, s.id = c.id
  providerOwners : ∀ p ∈ registry.providers, p.yamlOwned = true → ∃ s ∈ dp, s.id = p.id
  foremost : Foremost desired.providers DesiredProviderSpec.key ProviderModel.key listing.providers
    dp

theorem planOperations_eq_nil_iff {capabilities : List CapabilityModel}
    {providers : List ProviderModel} :
    planOperations dc dp capabilities providers = [] ↔
      desiredOperations (capabilities.map CapabilityModel.snapshot) dc = [] ∧
      desiredOperations (providers.map ProviderModel.snapshot) dp = [] ∧
      deleteOperations ProviderModel.snapshot ProviderModel.yamlOwned providers dp = [] ∧
      deleteOperations CapabilityModel.snapshot CapabilityModel.yamlOwned capabilities dc = [] := by
  simp [planOperations]

theorem declared_again_iff {db : Database}
    (hcaps : RelistedCapabilities text desired db registry.capabilities tables'.capabilities
      listing.capabilities dc)
    (hprovs : RelistedProviders text desired db registry.providers tables'.providers
      listing.providers dp)
    (h : Declared text desired registry.capabilities registry.providers dc dp)
    {dc' : List CapabilitySnapshot} {dp' : List ProviderSnapshot}
    (hforemost : Foremost desired.providers DesiredProviderSpec.key ProviderModel.key
      listing.providers dp) :
    Declared text desired listing.capabilities listing.providers dc' dp' ↔
      ((∀ spec ∈ desired.capabilities, spec.id ≠ some "") ∧ dc = dc') ∧
        (∀ spec ∈ desired.providers, StaysDeclared registry.capabilities dc spec) ∧ dp = dp' := by
  have hcapsForemost := hcaps.foremost_of_nodup registry.keys.capabilityNames
  have hcapabilities : desiredSnapshots (desiredCapabilitySnapshot text listing.capabilities)
      desired.capabilities = .ok dc' ↔
        (∀ spec ∈ desired.capabilities, spec.id ≠ some "") ∧ dc = dc' :=
    desiredSnapshots_again h.ofCapabilities fun spec hspec s hs hfirst s' =>
      capability_again hcaps hcapsForemost hspec hs hfirst
  have hproviders : desiredSnapshots (desiredProviderSnapshot text dc listing.capabilities
      listing.providers) desired.providers = .ok dp' ↔
        (∀ spec ∈ desired.providers, StaysDeclared registry.capabilities dc spec) ∧ dp = dp' :=
    desiredSnapshots_again h.ofProviders fun spec hspec s hs hfirst s' =>
      provider_again hcaps registry.keys.capabilityNames hprovs hforemost hspec hs hfirst
  constructor
  · rintro ⟨hc, hp⟩
    obtain ⟨hids, rfl⟩ := hcapabilities.mp hc
    exact ⟨⟨hids, rfl⟩, hproviders.mp hp⟩
  · rintro ⟨⟨hids, rfl⟩, hp⟩
    exact ⟨hcapabilities.mpr ⟨hids, rfl⟩, hproviders.mpr hp⟩

/-- A plan on what an apply leaves is empty exactly when the declarations can settle and nothing
has to be deleted. -/
theorem converges_iff (context : ApplyContext) (text : PlanText) (desired : DesiredState)
    (registry : Registry) (plan : ReconcilePlan) (result : GitOpsApplyResult)
    (tables' listing : Tables)
    (hplan : buildReconcilePlan text desired registry.capabilities registry.providers = .ok plan)
    (happly : applyPlan context plan false true registry.toTables = .ok (result, tables'))
    (hcapabilities : listing.capabilities.Perm tables'.capabilities)
    (hproviders : listing.providers.Perm tables'.providers) :
    ∃ dc dp, Declared text desired registry.capabilities registry.providers dc dp ∧
      (buildReconcilePlan text desired listing.capabilities listing.providers = .ok ⟨[]⟩ ↔
        Converges context.db desired registry.toTables listing dc dp) := by
  obtain ⟨dc, dp, hdeclared, rfl⟩ := buildReconcilePlan_eq_ok_iff.mp hplan
  have hran := ran_of_plan happly
  have hcaps := hdeclared.relistedCapabilities hran hcapabilities
  have hprovs := hdeclared.relistedProviders hran hproviders
  refine ⟨dc, dp, hdeclared, ?_⟩
  have hsettles : desiredOperations (listing.capabilities.map CapabilityModel.snapshot) dc = [] ↔
      ∀ s ∈ dc, (∃ c ∈ registry.capabilities, c.id = s.id ∧ OnlyEnabled c.snapshot s) ∨
        CapabilityKept context.db s := by
    refine hcaps.desiredOperations_eq_nil_iff.trans (forall₂_congr fun s _ => ?_)
    rw [settles_capability_iff]
    exact or_congr_left (exists_found_iff registry.keys.capabilityIds _ (OnlyEnabled · s))
  have hsettles' : desiredOperations (listing.providers.map ProviderModel.snapshot) dp = [] ↔
      ∀ s ∈ dp, (∃ p ∈ registry.providers, p.id = s.id ∧ OnlyEnabled p.snapshot s) ∨
        (ProviderKept context.db s ∧
          ∀ p ∈ registry.providers, p.id = s.id → p.capabilityId = s.capabilityId) := by
    refine hprovs.desiredOperations_eq_nil_iff.trans (forall₂_congr fun s _ => ?_)
    rw [settles_provider_iff]
    exact or_congr (exists_found_iff registry.keys.providerIds _ (OnlyEnabled · s))
      (and_congr_right fun _ => forall_found_iff registry.keys.providerIds _
        (fun p : ProviderSnapshot => p.capabilityId = s.capabilityId))
  constructor
  · intro hempty
    obtain ⟨dc', dp', hdeclared', hnil⟩ := buildReconcilePlan_eq_ok_iff.mp hempty
    obtain ⟨hcreate, hcreate', hdelete', hdelete⟩ :=
      planOperations_eq_nil_iff.mp (ReconcilePlan.mk.inj hnil).symm
    have hforemost := hprovs.foremost_of_deletes hdeclared'.providerKind hdelete'
    obtain ⟨⟨hids, rfl⟩, hstays, rfl⟩ :=
      (declared_again_iff hcaps hprovs hdeclared hforemost).mp hdeclared'
    exact ⟨hids, hstays, hsettles.mp hcreate, hsettles'.mp hcreate',
      hcaps.deleteOperations_eq_nil_iff.mp hdelete, hprovs.deleteOperations_eq_nil_iff.mp hdelete',
      hforemost⟩
  · intro h
    refine buildReconcilePlan_eq_ok_iff.mpr ⟨dc, dp, ?_, congrArg _ (Eq.symm ?_)⟩
    · exact (declared_again_iff hcaps hprovs hdeclared h.foremost).mpr
        ⟨⟨h.capabilityIds, rfl⟩, h.declared, rfl⟩
    · exact planOperations_eq_nil_iff.mpr ⟨hsettles.mpr h.capabilities, hsettles'.mpr h.providers,
        hprovs.deleteOperations_eq_nil_iff.mpr h.providerOwners,
        hcaps.deleteOperations_eq_nil_iff.mpr h.capabilityOwners⟩

def exampleContext : ApplyContext where
  db := ⟨.ok, fun _ => .ok (), fun _ => .ok ()⟩
  pool := true
  clock _ := 0
  audit _ := .ok ()

/-- A capability is created, and the next plan is empty. -/
theorem converges_of_creation :
    let spec : DesiredCapabilitySpec := { exampleSpec ⟨"b", by decide⟩ with id := some "cap_b" }
    let desired : DesiredState := ⟨[spec], [], by simp, by simp, by simp [spec], by simp⟩
    let registry : Registry := ⟨⟨[], []⟩, by simp, by simp, by simp⟩
    ∃ plan result tables',
      buildReconcilePlan ⟨id, id⟩ desired registry.capabilities registry.providers = .ok plan ∧
      applyPlan exampleContext plan false true registry.toTables = .ok (result, tables') ∧
      tables'.capabilities.length = 1 ∧
      buildReconcilePlan ⟨id, id⟩ desired tables'.capabilities tables'.providers = .ok ⟨[]⟩ := by
  intro spec desired registry
  obtain ⟨plan, hplan, result, tables', happly, hlength⟩ : ∃ plan,
      buildReconcilePlan ⟨id, id⟩ desired registry.capabilities registry.providers = .ok plan ∧
      ∃ result tables', applyPlan exampleContext plan false true registry.toTables =
        .ok (result, tables') ∧ tables'.capabilities.length = 1 := ⟨_, rfl, _, _, rfl, rfl⟩
  refine ⟨plan, result, tables', hplan, happly, hlength, ?_⟩
  obtain ⟨dc, dp, hdeclared, hiff⟩ := converges_iff _ _ _ _ _ _ _ tables' hplan happly
    (List.Perm.refl _) (List.Perm.refl _)
  obtain ⟨s, hs, hkept⟩ : ∃ s, desiredSnapshots (desiredCapabilitySnapshot ⟨id, id⟩ [])
      desired.capabilities = .ok [s] ∧ CapabilityKept exampleContext.db s := by
    have hhash : optionalString (some "h") = some "h" := by decide
    have hempty : (Json.obj []).pyEq (.obj []) = true := by simp [Json.pyEq, Json.pyEqFields]
    exact ⟨_, rfl, rfl, ⟨[], rfl, hempty⟩, ⟨[], rfl, hempty⟩, hhash⟩
  obtain rfl := Except.ok.inj (hs.symm.trans hdeclared.ofCapabilities)
  have hdp : dp = [] := (Except.ok.inj hdeclared.ofProviders).symm
  subst hdp
  refine hiff.mpr ⟨?_, ?_, ?_, ?_, ?_, ?_, ?_⟩
  · simp [desired, spec]
  · simp [desired]
  · exact fun s' hs' => .inr (List.mem_singleton.mp hs' ▸ hkept)
  · simp
  · simp [registry]
  · simp [registry]
  · simp [Foremost, desired]

/-- A capability that is declared no more is disabled by the plan, and deleted by the next one
again. -/
theorem deletes_again :
    ¬ ∀ (context : ApplyContext) (text : PlanText) (desired : DesiredState) (registry : Registry)
      (plan : ReconcilePlan) (result : GitOpsApplyResult) (tables' : Tables),
      buildReconcilePlan text desired registry.capabilities registry.providers = .ok plan →
      applyPlan context plan false true registry.toTables = .ok (result, tables') →
      buildReconcilePlan text desired tables'.capabilities tables'.providers = .ok ⟨[]⟩ := by
  intro h
  let owned : CapabilityModel := { exampleCapability with source := .yaml }
  have hempty := h exampleContext ⟨id, id⟩ ⟨[], [], by simp, by simp, by simp, by simp⟩
    ⟨⟨[owned], []⟩, by simp, by simp, by simp⟩ _ _ _ rfl rfl
  obtain ⟨op, ops, hnil⟩ : ∃ op ops, Except.ok (ReconcilePlan.mk (op :: ops)) =
    (Except.ok ⟨[]⟩ : Except PyError ReconcilePlan) := ⟨_, _, hempty⟩
  cases hnil

end Plans

end Pitwall.Gitops
