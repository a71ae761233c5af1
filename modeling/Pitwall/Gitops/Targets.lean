import Pitwall.Gitops.Plans
set_option autoImplicit false

/-!
Which entities the updates of a plan are for, and which capabilities its providers refer to.
-/

namespace Pitwall.Gitops

section Targeted
variable {S : Type} (declared : List (Option String × NonEmptyString))
  (entities : List (NonEmptyString × NonEmptyString))

structure Targeted (operations : List (Operation S)) : Prop where
  update : ∀ op ∈ operations, op.action = .update → ∃ d ∈ declared, d.2 = op.name ∧
    ∃ e ∈ entities, e.1 = op.entityId ∧
      match d.1 with
      | some id => e.1.1 = id
      | none => e.2 = d.2
  fresh : ∀ d ∈ declared, given d.1 = none → (∀ e ∈ entities, e.2 ≠ d.2) →
    ∀ op ∈ operations, op.action = .update → op.name ≠ d.2

def FreshIds (text : PlanText) (pre : String) : Prop :=
  ∀ d ∈ declared, given d.1 = none → (∀ e ∈ entities, e.2 ≠ d.2) →
    ∀ id, idFromName text pre d.2 = .ok id → ∀ e ∈ entities, e.1 ≠ id

end Targeted

theorem eq_of_given {id : Option String} {i : NonEmptyString} (h : given id = some i) :
    id = some i.1 := by
  cases id with
  | none => cases h
  | some s =>
    by_cases hs : s = ""
    · simp [given, hs] at h
    · simp only [given, dif_neg hs, Option.some.injEq] at h
      rw [← h]

theorem given_val (i : NonEmptyString) : given (some i.1) = some i := by
  simp only [given, dif_neg i.2]

theorem declaredId_cases {text : PlanText} {kind pre : String} {id : Option String}
    {name : NonEmptyString} {currentByName : Option NonEmptyString} {i : NonEmptyString}
    (h : declaredId text kind pre id name currentByName = .ok i) :
    id = some i.1 ∨ (id = none ∧ currentByName = some i) ∨
      (given id = none ∧ currentByName = none ∧ idFromName text pre name = .ok i) := by
  cases id with
  | none =>
    cases currentByName with
    | none => exact .inr (.inr ⟨rfl, rfl, h⟩)
    | some current =>
      cases h
      exact .inr (.inl ⟨rfl, rfl⟩)
  | some id =>
    cases currentByName with
    | none =>
      cases hgiven : given (some id) with
      | none =>
        rw [declaredId, hgiven] at h
        · exact .inr (.inr ⟨rfl, rfl, h⟩)
        · simp
      | some j =>
        rw [declaredId, hgiven] at h
        · cases h
          exact .inl (eq_of_given hgiven)
        · simp
    | some current =>
      rw [declaredId] at h
      split at h
      · cases h
      · rename_i hsame
        have hcurrent : current.1 = id := not_not.mp hsame
        cases hgiven : given (some id) with
        | none =>
          rw [hgiven] at h
          cases h
          exact .inl (congrArg some hcurrent.symm)
        | some j =>
          rw [hgiven] at h
          cases h
          exact .inl (eq_of_given hgiven)

section Kinds
variable {S Spec E : Type} [Snapshot S]

structure Kind (text : PlanText) (kind pre : String) (specs : List Spec) (entities : List E)
    (declared : Spec → Option String × NonEmptyString)
    (key : E → NonEmptyString × NonEmptyString) (snapshotOf : E → S)
    (desired : List S) : Prop where
  keys : ∀ e, (Snapshot.id (snapshotOf e), Snapshot.name (snapshotOf e)) = key e
  names : (specs.map fun spec => (declared spec).2).Nodup
  snapshots : List.Forall₂ (fun spec s => (declared spec).2 = Snapshot.name s ∧
    declaredId text kind pre (declared spec).1 (declared spec).2
      ((lastBy (fun e => (key e).2) entities (declared spec).2).map fun e => (key e).1) =
        .ok (Snapshot.id s)) specs desired
  changed : ∀ a b : S, changes a b = [] → Snapshot.name a = Snapshot.name b

variable {text : PlanText} {kind pre : String} {specs : List Spec} {entities : List E}
  {declared : Spec → Option String × NonEmptyString} {key : E → NonEmptyString × NonEmptyString}
  {snapshotOf : E → S} {desired : List S}

theorem exists_spec {s : S} (h : Kind text kind pre specs entities declared key snapshotOf desired)
    (hs : s ∈ desired) : ∃ spec ∈ specs, (declared spec).2 = Snapshot.name s ∧
      declaredId text kind pre (declared spec).1 (declared spec).2
        ((lastBy (fun e => (key e).2) entities (declared spec).2).map fun e => (key e).1) =
          .ok (Snapshot.id s) := by
  obtain ⟨i, hi, rfl⟩ := List.getElem_of_mem hs
  have hlength := h.snapshots.length_eq
  exact ⟨specs.get ⟨i, by omega⟩, List.get_mem _ _, h.snapshots.get _ _⟩

theorem exists_snapshot {spec : Spec}
    (h : Kind text kind pre specs entities declared key snapshotOf desired)
    (hspec : spec ∈ specs) : ∃ s ∈ desired, (declared spec).2 = Snapshot.name s ∧
      declaredId text kind pre (declared spec).1 (declared spec).2
        ((lastBy (fun e => (key e).2) entities (declared spec).2).map fun e => (key e).1) =
          .ok (Snapshot.id s) := by
  obtain ⟨i, hi, rfl⟩ := List.getElem_of_mem hspec
  have hlength := h.snapshots.length_eq
  exact ⟨desired.get ⟨i, by omega⟩, List.get_mem _ _, h.snapshots.get _ _⟩

theorem targeted_iff (yamlOwned : E → Bool)
    (h : Kind text kind pre specs entities declared key snapshotOf desired) :
    Targeted (specs.map declared) (entities.map key)
        (desiredOperations (entities.map snapshotOf) desired ++
          deleteOperations snapshotOf yamlOwned entities desired) ↔
      FreshIds (specs.map declared) (entities.map key) text pre := by
  have hid : ∀ e, Snapshot.id (snapshotOf e) = (key e).1 := fun e => congrArg Prod.fst (h.keys e)
  have hname : ∀ e, Snapshot.name (snapshotOf e) = (key e).2 :=
    fun e => congrArg Prod.snd (h.keys e)
  constructor
  · intro htargeted d hd hgiven hnew i hi e he hcollides
    obtain ⟨spec, hspec, rfl⟩ := List.mem_map.mp hd
    obtain ⟨entity, hentity, rfl⟩ := List.mem_map.mp he
    obtain ⟨s, hs, hsname, hdeclared⟩ := exists_snapshot h hspec
    -- without an entity of the name the id of the snapshot is the generated one
    have hnone : lastBy (fun e => (key e).2) entities (declared spec).2 = none :=
      lastBy_eq_none_iff.mpr fun e he => hnew (key e) (List.mem_map_of_mem he)
    rw [hnone] at hdeclared
    have hsid : Snapshot.id s = i := by
      have hgenerated : declaredId text kind pre (declared spec).1 (declared spec).2 none =
          idFromName text pre (declared spec).2 := by
        rw [declaredId, hgiven]
        · rfl
        · simp
      rw [Option.map_none, hgenerated, hi] at hdeclared
      exact (Except.ok.inj hdeclared).symm
    have hsame : Snapshot.id (snapshotOf entity) = Snapshot.id s := by
      rw [hid, hcollides, hsid]
    obtain ⟨existing, hexisting⟩ := exists_lastBy (List.mem_map_of_mem hentity) hsame
    obtain ⟨other, hother, rfl⟩ := List.mem_map.mp (mem_of_lastBy hexisting)
    have hchanges : changes (snapshotOf other) s ≠ [] := by
      intro hnil
      refine hnew (key other) (List.mem_map_of_mem hother) ?_
      rw [← hname, h.changed _ _ hnil, hsname]
    refine htargeted.fresh (declared spec) hd hgiven hnew (updateOperation (snapshotOf other) s) ?_ rfl
      hsname.symm
    exact List.mem_append_left _
      (mem_desiredOperations.mpr ⟨s, hs, .inr ⟨_, hexisting, hchanges, rfl⟩⟩)
  · intro hfresh
    have hupdate : ∀ op ∈ desiredOperations (entities.map snapshotOf) desired ++
        deleteOperations snapshotOf yamlOwned entities desired, op.action = .update →
        ∃ s ∈ desired, ∃ e ∈ entities, (key e).1 = op.entityId ∧ Snapshot.id s = op.entityId ∧
          Snapshot.name s = op.name := by
      intro op hop haction
      rcases List.mem_append.mp hop with hop | hop
      · obtain ⟨s, hs, ⟨-, rfl⟩ | ⟨existing, hexisting, -, rfl⟩⟩ := mem_desiredOperations.mp hop
        · cases haction
        · obtain ⟨e, he, rfl⟩ := List.mem_map.mp (mem_of_lastBy hexisting)
          exact ⟨s, hs, e, he, by rw [← hid]; exact key_of_lastBy hexisting, rfl, rfl⟩
      · rw [(not_desired_of_mem hop).1] at haction
        cases haction
    refine ⟨?_, ?_⟩
    · intro op hop haction
      obtain ⟨s, hs, e, he, hkey, hsid, hsname⟩ := hupdate op hop haction
      obtain ⟨spec, hspec, hspecname, hdeclared⟩ := exists_spec h hs
      refine ⟨declared spec, List.mem_map_of_mem hspec, hspecname.trans hsname, ?_⟩
      rcases declaredId_cases hdeclared with hgivenId | ⟨hnone, hby⟩ | ⟨hgiven, hby, hgenerated⟩
      · refine ⟨key e, List.mem_map_of_mem he, hkey, ?_⟩
        rw [hgivenId, hkey, ← hsid]
      · obtain ⟨other, hother, hotherid⟩ := Option.map_eq_some_iff.mp hby
        refine ⟨key other, List.mem_map_of_mem (mem_of_lastBy hother), hotherid.trans hsid, ?_⟩
        have hnamed := key_of_lastBy hother
        rw [hnone]
        exact hnamed
      · have hnew : ∀ e' ∈ entities.map key, e'.2 ≠ (declared spec).2 := by
          intro e' he'
          obtain ⟨entity, hentity, rfl⟩ := List.mem_map.mp he'
          exact lastBy_eq_none_iff.mp (Option.map_eq_none_iff.mp hby) entity hentity
        exact absurd (hkey.trans hsid.symm) (hfresh (declared spec) (List.mem_map_of_mem hspec) hgiven
          hnew _ hgenerated (key e) (List.mem_map_of_mem he))
    · intro d hd hgiven hnew op hop haction hopname
      obtain ⟨s, hs, e, he, hkey, hsid, hsname⟩ := hupdate op hop haction
      obtain ⟨spec, hspec, rfl⟩ := List.mem_map.mp hd
      obtain ⟨spec', hspec', hspecname, hdeclared⟩ := exists_spec h hs
      have hsame : spec' = spec := List.inj_on_of_nodup_map h.names hspec' hspec
        (hspecname.trans (hsname.trans hopname))
      subst hsame
      rcases declaredId_cases hdeclared with hgivenId | ⟨-, hby⟩ | ⟨-, -, hgenerated⟩
      · rw [hgivenId, given_val] at hgiven
        cases hgiven
      · obtain ⟨other, hother, -⟩ := Option.map_eq_some_iff.mp hby
        have hnamed := key_of_lastBy hother
        have hmem : other ∈ entities := mem_of_lastBy hother
        exact hnew (key other) (List.mem_map_of_mem hmem) hnamed
      · exact hfresh (declared spec') hd hgiven hnew _ hgenerated (key e) (List.mem_map_of_mem he)
          (hkey.trans hsid.symm)

end Kinds

section Plans
variable {text : PlanText} {desired : DesiredState} {capabilities : List CapabilityModel}
  {providers : List ProviderModel} {plan : ReconcilePlan} {dc : List CapabilitySnapshot}
  {dp : List ProviderSnapshot}

theorem name_of_unchanged_capability {a b : CapabilitySnapshot} (h : changes a b = []) :
    a.name = b.name := by
  have hname := changes_eq_nil_iff.mp h (("name", .str a.name), ("name", .str b.name))
    (by simp [Snapshot.fields])
  refine Subtype.ext ?_
  simpa [Json.pyEq] using hname

theorem name_of_unchanged_provider {a b : ProviderSnapshot} (h : changes a b = []) :
    a.name = b.name := by
  have hname := changes_eq_nil_iff.mp h (("name", .str a.name), ("name", .str b.name))
    (by simp [Snapshot.fields])
  refine Subtype.ext ?_
  simpa [Json.pyEq] using hname

def DesiredCapabilitySpec.key (spec : DesiredCapabilitySpec) : Option String × NonEmptyString :=
  (spec.id, spec.name)

def DesiredProviderSpec.key (spec : DesiredProviderSpec) : Option String × NonEmptyString :=
  (spec.id, spec.name)

def CapabilityModel.key (capability : CapabilityModel) : NonEmptyString × NonEmptyString :=
  (capability.id, capability.name)

def ProviderModel.key (provider : ProviderModel) : NonEmptyString × NonEmptyString :=
  (provider.id, provider.name)

namespace Declared

theorem capabilityKind (h : Declared text desired capabilities providers dc dp) :
    Kind text "capability" "cap" desired.capabilities capabilities DesiredCapabilitySpec.key
      CapabilityModel.key CapabilityModel.snapshot dc where
  keys _ := rfl
  names := desired.capabilityNames
  snapshots := by
    obtain ⟨hmap, -⟩ := desiredSnapshots_eq_ok_iff.mp h.ofCapabilities
    refine (List.mapM_eq_ok_iff.mp hmap).imp fun spec s hs => ?_
    obtain ⟨id, hid, hs⟩ := Except.bind_eq_ok_iff.mp hs
    cases hs
    exact ⟨rfl, hid⟩
  changed _ _ := name_of_unchanged_capability

theorem providerKind (h : Declared text desired capabilities providers dc dp) :
    Kind text "provider" "prov" desired.providers providers DesiredProviderSpec.key
      ProviderModel.key ProviderModel.snapshot dp where
  keys _ := rfl
  names := desired.providerNames
  snapshots := by
    obtain ⟨hmap, -⟩ := desiredSnapshots_eq_ok_iff.mp h.ofProviders
    refine (List.mapM_eq_ok_iff.mp hmap).imp fun spec s hs => ?_
    obtain ⟨id, hid, hs⟩ := Except.bind_eq_ok_iff.mp hs
    obtain ⟨ref, -, hs⟩ := Except.bind_eq_ok_iff.mp hs
    obtain ⟨capabilityId, -, hs⟩ := Except.bind_eq_ok_iff.mp hs
    cases hs
    exact ⟨rfl, hid⟩
  changed _ _ := name_of_unchanged_provider

end Declared

/-- What a plan should be for: the declared entities, and capabilities that stay for the enabled
providers. -/
structure Targets (desired : DesiredState) (capabilities : List CapabilityModel)
    (providers : List ProviderModel) (dc : List CapabilitySnapshot) (plan : ReconcilePlan) :
    Prop where
  capabilityUpdates : Targeted (desired.capabilities.map DesiredCapabilitySpec.key)
    (capabilities.map CapabilityModel.key) (plan.operations.filterMap PlanOperation.capability?)
  providerUpdates : Targeted (desired.providers.map DesiredProviderSpec.key)
    (providers.map ProviderModel.key) (plan.operations.filterMap PlanOperation.provider?)
  references : ∀ spec ∈ desired.providers, spec.enabled = true → ∀ ref id,
    spec.capabilityRef = .ok ref → resolveCapabilityId dc capabilities ref = .ok id →
      ∀ op ∈ plan.operations.filterMap PlanOperation.capability?, op.action = .delete →
        op.entityId ≠ id

/-- A capability that an enabled provider refers to is not a declared one that is declared no
more. -/
def KeptReferences (desired : DesiredState) (capabilities : List CapabilityModel)
    (dc : List CapabilitySnapshot) : Prop :=
  ∀ spec ∈ desired.providers, spec.enabled = true → ∀ ref id, spec.capabilityRef = .ok ref →
    resolveCapabilityId dc capabilities ref = .ok id → ∀ c ∈ capabilities, c.id = id →
      c.yamlOwned = true → ∃ s ∈ dc, s.id = id

theorem deleted_iff {id : NonEmptyString} :
    (∃ op ∈ desiredOperations (capabilities.map CapabilityModel.snapshot) dc ++
      deleteOperations CapabilityModel.snapshot CapabilityModel.yamlOwned capabilities dc,
      op.action = .delete ∧ op.entityId = id) ↔
    ∃ c ∈ capabilities, c.id = id ∧ c.yamlOwned = true ∧ ∀ s ∈ dc, s.id ≠ id := by
  constructor
  · rintro ⟨op, hop, haction, rfl⟩
    rcases List.mem_append.mp hop with hop | hop
    · exact absurd haction (desired_of_mem hop).1
    · obtain ⟨c, hc, hnot, howned, snapshot, hsnapshot, rfl⟩ := mem_deleteOperations.mp hop
      have hid : Snapshot.id snapshot = c.id := key_of_lastBy hsnapshot
      refine ⟨c, hc, hid.symm, howned, fun s hs => ?_⟩
      change s.id ≠ Snapshot.id snapshot
      rw [hid]
      exact hnot s hs
  · rintro ⟨c, hc, rfl, howned, hnot⟩
    obtain ⟨snapshot, hsnapshot⟩ :
        ∃ s, lastBy Snapshot.id (capabilities.map CapabilityModel.snapshot) c.id = some s :=
      exists_lastBy (List.mem_map_of_mem hc) rfl
    have hid := key_of_lastBy hsnapshot
    exact ⟨deleteOperation snapshot, List.mem_append_right _ (mem_deleteOperations.mpr
      ⟨c, hc, hnot, howned, snapshot, hsnapshot, rfl⟩), rfl, hid⟩

/-- The plan is for the right entities exactly when every generated id is new and no enabled
provider refers to a capability that was declared and is not declared any more. -/
theorem targets_iff (text : PlanText) (desired : DesiredState)
    (capabilities : List CapabilityModel) (providers : List ProviderModel) (plan : ReconcilePlan)
    (hplan : buildReconcilePlan text desired capabilities providers = .ok plan) :
    ∃ dc, desiredSnapshots (desiredCapabilitySnapshot text capabilities) desired.capabilities =
        .ok dc ∧
      (Targets desired capabilities providers dc plan ↔
        FreshIds (desired.capabilities.map DesiredCapabilitySpec.key)
          (capabilities.map CapabilityModel.key) text "cap" ∧
        FreshIds (desired.providers.map DesiredProviderSpec.key)
          (providers.map ProviderModel.key) text "prov" ∧
        KeptReferences desired capabilities dc) := by
  obtain ⟨dc, dp, hdeclared, rfl⟩ := buildReconcilePlan_eq_ok_iff.mp hplan
  refine ⟨dc, hdeclared.ofCapabilities, ?_⟩
  have hcapabilities := targeted_iff CapabilityModel.yamlOwned hdeclared.capabilityKind
  have hproviders := targeted_iff ProviderModel.yamlOwned hdeclared.providerKind
  constructor
  · rintro ⟨hc, hp, hrefs⟩
    rw [filterMap_capability] at hc hrefs
    rw [filterMap_provider] at hp
    refine ⟨hcapabilities.mp hc, hproviders.mp hp, ?_⟩
    intro spec hspec henabled ref id href hid c hc' hcid howned
    by_contra hnot
    push Not at hnot
    obtain ⟨op, hop, haction, hopid⟩ := deleted_iff.mpr ⟨c, hc', hcid, howned, hnot⟩
    exact hrefs spec hspec henabled ref id href hid op hop haction hopid
  · rintro ⟨hc, hp, hkept⟩
    refine ⟨?_, ?_, ?_⟩
    · rw [filterMap_capability]
      exact hcapabilities.mpr hc
    · rw [filterMap_provider]
      exact hproviders.mpr hp
    · rw [filterMap_capability]
      intro spec hspec henabled ref id href hid op hop haction hopid
      obtain ⟨c, hc', hcid, howned, hnot⟩ := deleted_iff.mp ⟨op, hop, haction, hopid⟩
      obtain ⟨s, hs, hsid⟩ := hkept spec hspec henabled ref id href hid c hc' hcid howned
      exact hnot s hs hsid

def exampleSpec (name : NonEmptyString) : DesiredCapabilitySpec where
  id := none
  name := name
  version := ⟨"1.0.0", by decide⟩
  capabilityClass := .llm
  description := none
  inputSchema := []
  outputSchema := []
  defaults := ⟨60000, 300000, .sync⟩
  costMode := .perSecond
  hintsSupported := []
  enabled := true
  yamlHash := "h"

def exampleState (name : NonEmptyString) : DesiredState where
  capabilities := [exampleSpec name]
  providers := []
  capabilityNames := List.nodup_singleton _
  providerNames := List.nodup_nil
  capabilityIds := by simp [exampleSpec]
  providerIds := List.nodup_nil

def exampleCapability : CapabilityModel where
  id := ⟨"cap_llm_a", by decide⟩
  name := ⟨"llm-a", by decide⟩
  version := ⟨"1.0.0", by decide⟩
  capabilityClass := .llm
  description := none
  inputSchema := []
  outputSchema := []
  defaults := ⟨60000, 300000, .sync⟩
  costMode := .perSecond
  hintsSupported := []
  source := .api
  lastAppliedYamlHash := none
  enabled := true
  createdAt := 0
  updatedAt := 0

/-- A new capability beside one with another name and another id. -/
theorem targets_of_new_name :
    ∃ plan dc, buildReconcilePlan ⟨id, id⟩ (exampleState ⟨"llm.b", by decide⟩) [exampleCapability]
        [] = .ok plan ∧
      Targets (exampleState ⟨"llm.b", by decide⟩) [exampleCapability] [] dc plan := by
  obtain ⟨plan, hplan⟩ : ∃ plan, buildReconcilePlan ⟨id, id⟩ (exampleState ⟨"llm.b", by decide⟩)
      [exampleCapability] [] = .ok plan := ⟨_, rfl⟩
  obtain ⟨dc, -, hiff⟩ := targets_iff _ _ _ _ _ hplan
  refine ⟨plan, dc, hplan, hiff.mpr ⟨?_, ?_, ?_⟩⟩
  · intro d hd _ _ generated hgenerated e he
    obtain rfl := List.mem_singleton.mp hd
    obtain rfl := List.mem_singleton.mp he
    have hid : idFromName ⟨id, id⟩ "cap" "llm.b" = .ok ⟨"cap_llm_b", by decide⟩ := rfl
    obtain rfl := Except.ok.inj (hid.symm.trans hgenerated)
    decide
  · intro d hd
    cases hd
  · intro spec hspec
    cases hspec

/-- The id generated for the new name `llm.a` is that of the capability `llm-a`. -/
theorem generated_id_takes_over :
    ¬ ∀ (text : PlanText) (desired : DesiredState) (capabilities : List CapabilityModel)
      (providers : List ProviderModel) (plan : ReconcilePlan) (dc : List CapabilitySnapshot),
      buildReconcilePlan text desired capabilities providers = .ok plan →
      desiredSnapshots (desiredCapabilitySnapshot text capabilities) desired.capabilities = .ok dc →
      Targets desired capabilities providers dc plan := by
  intro h
  obtain ⟨s, hs, hid, hname⟩ : ∃ s, desiredSnapshots
      (desiredCapabilitySnapshot ⟨id, id⟩ [exampleCapability])
      (exampleState ⟨"llm.a", by decide⟩).capabilities = .ok [s] ∧ s.id = exampleCapability.id ∧
      s.name.1 = "llm.a" := ⟨_, rfl, rfl, rfl⟩
  have hdeclared : Declared ⟨id, id⟩ (exampleState ⟨"llm.a", by decide⟩) [exampleCapability] []
      [s] [] := ⟨hs, rfl⟩
  have htargets := h _ _ _ _ _ [s] (buildReconcilePlan_eq_ok_iff.mpr ⟨_, _, hdeclared, rfl⟩) hs
  have hchanges : changes exampleCapability.snapshot s ≠ [] := by
    intro hnil
    have hsame := congrArg Subtype.val (name_of_unchanged_capability hnil)
    rw [hname] at hsame
    exact absurd hsame (by decide)
  have hfound : lastBy Snapshot.id ([exampleCapability].map CapabilityModel.snapshot)
      (Snapshot.id s) = some exampleCapability.snapshot := by
    change lastBy _ _ s.id = _
    rw [hid]
    rfl
  refine htargets.capabilityUpdates.fresh (none, ⟨"llm.a", by decide⟩) (List.mem_singleton.mpr rfl)
    rfl ?_ (updateOperation exampleCapability.snapshot s) ?_ rfl (Subtype.ext hname)
  · intro e he
    obtain rfl := List.mem_singleton.mp he
    decide
  · rw [filterMap_capability]
    exact List.mem_append_left _ (mem_desiredOperations.mpr
      ⟨s, List.mem_singleton.mpr rfl, .inr ⟨_, hfound, hchanges, rfl⟩⟩)

end Plans

end Pitwall.Gitops
