import Pitwall.Gitops.Differ
import Pitwall.Library.Traversal
set_option autoImplicit false

/-!
What a reconcile plan consists of, and that it depends on the sets of declarations and entities
alone.
-/

namespace Pitwall.Gitops
open Routing (CapabilitySource)

theorem nodup_map_concat {α β : Type} {f : α → β} {xs : List α} {x : α} (h : (xs.map f).Nodup)
    (hx : f x ∉ xs.map f) : ((xs ++ [x]).map f).Nodup := by
  rw [List.map_append, List.map_singleton, ← List.concat_eq_append]
  exact h.concat hx

section Snapshots
variable {S Spec : Type} [Snapshot S] {snapshotOf : Spec → Except PyError S} {specs : List Spec}
  {snapshots snapshots' : List S} {snapshot : S}

theorem addSnapshot_eq_ok_iff :
    addSnapshot snapshots snapshot = .ok snapshots' ↔
      Snapshot.id snapshot ∉ snapshots.map Snapshot.id ∧
      Snapshot.name snapshot ∉ snapshots.map Snapshot.name ∧
      snapshots' = snapshots ++ [snapshot] := by
  unfold addSnapshot
  dsimp only
  split
  · rename_i hid
    have hmem : Snapshot.id snapshot ∈ snapshots.map Snapshot.id := by simpa using hid
    simp [hmem]
  · rename_i hid
    have hnot : Snapshot.id snapshot ∉ snapshots.map Snapshot.id := by simpa using hid
    cases hname : lastBy Snapshot.name snapshots (Snapshot.name snapshot) with
    | some existing =>
      have hmem : Snapshot.name snapshot ∈ snapshots.map Snapshot.name :=
        List.mem_map.mpr ⟨existing, mem_of_lastBy hname, key_of_lastBy hname⟩
      simp [hmem]
    | none =>
      have hfresh : Snapshot.name snapshot ∉ snapshots.map Snapshot.name := by
        simpa using lastBy_eq_none_iff.mp hname
      simp only [Except.ok.injEq, hnot, hfresh, not_false_eq_true, true_and]
      exact eq_comm

theorem desiredSnapshots_eq_ok_iff :
    desiredSnapshots snapshotOf specs = .ok snapshots ↔
      specs.mapM snapshotOf = .ok snapshots ∧ (snapshots.map Snapshot.id).Nodup ∧
        (snapshots.map Snapshot.name).Nodup := by
  have hloop : ∀ (specs : List Spec) (before : List S), (before.map Snapshot.id).Nodup →
      (before.map Snapshot.name).Nodup →
      (specs.foldlM (fun snapshots spec => snapshotOf spec >>= addSnapshot snapshots) before =
          .ok snapshots ↔
        ∃ added, specs.mapM snapshotOf = .ok added ∧ snapshots = before ++ added ∧
          (snapshots.map Snapshot.id).Nodup ∧ (snapshots.map Snapshot.name).Nodup) := by
    intro specs
    induction specs with
    | nil =>
      intro before hids hnames
      simp only [List.foldlM_nil, List.mapM_nil, Except.pure_eq_ok_iff]
      constructor
      · rintro rfl
        exact ⟨[], rfl, by simp, hids, hnames⟩
      · rintro ⟨added, rfl, rfl, -⟩
        simp
    | cons spec specs ih =>
      intro before hids hnames
      simp only [List.foldlM_cons, List.mapM_cons, Except.bind_eq_ok_iff, Except.pure_eq_ok_iff]
      constructor
      · rintro ⟨next, ⟨snapshot, hsnapshot, hadd⟩, hrest⟩
        obtain ⟨hid, hname, rfl⟩ := addSnapshot_eq_ok_iff.mp hadd
        have hnext := ih (before ++ [snapshot]) (nodup_map_concat hids hid)
          (nodup_map_concat hnames hname)
        obtain ⟨added, hadded, rfl, hids', hnames'⟩ := hnext.mp hrest
        exact ⟨snapshot :: added, ⟨snapshot, hsnapshot, added, hadded, rfl⟩, by simp, hids', hnames'⟩
      · rintro ⟨_, ⟨snapshot, hsnapshot, added, hadded, rfl⟩, rfl, hids', hnames'⟩
        have hid : Snapshot.id snapshot ∉ before.map Snapshot.id := by
          intro hmem
          rw [List.map_append, List.nodup_append] at hids'
          exact hids'.2.2 _ hmem _ (by simp) rfl
        have hname : Snapshot.name snapshot ∉ before.map Snapshot.name := by
          intro hmem
          rw [List.map_append, List.nodup_append] at hnames'
          exact hnames'.2.2 _ hmem _ (by simp) rfl
        refine ⟨before ++ [snapshot],
          ⟨snapshot, hsnapshot, addSnapshot_eq_ok_iff.mpr ⟨hid, hname, rfl⟩⟩, ?_⟩
        exact (ih (before ++ [snapshot]) (nodup_map_concat hids hid)
          (nodup_map_concat hnames hname)).mpr ⟨added, hadded, by simp, hids', hnames'⟩
  refine (hloop specs [] List.nodup_nil List.nodup_nil).trans ?_
  constructor
  · rintro ⟨added, hadded, rfl, hids, hnames⟩
    exact ⟨hadded, hids, hnames⟩
  · rintro ⟨hadded, hids, hnames⟩
    exact ⟨snapshots, hadded, rfl, hids, hnames⟩

theorem desiredSnapshots_perm {specs' : List Spec} (hperm : specs.Perm specs')
    (h : desiredSnapshots snapshotOf specs = .ok snapshots) :
    ∃ snapshots', desiredSnapshots snapshotOf specs' = .ok snapshots' ∧
      snapshots.Perm snapshots' := by
  obtain ⟨hmap, hids, hnames⟩ := desiredSnapshots_eq_ok_iff.mp h
  obtain ⟨snapshots', hmap', hperm'⟩ := hperm.mapM_eq_ok hmap
  exact ⟨snapshots', desiredSnapshots_eq_ok_iff.mpr ⟨hmap', (hperm'.map _).nodup_iff.mp hids,
    (hperm'.map _).nodup_iff.mp hnames⟩, hperm'⟩

end Snapshots

section Operations
variable {S E : Type} [Snapshot S] {snapshotOf : E → S} {yamlOwned : E → Bool}
  {current current' desired desired' : List S} {entities entities' : List E} {op : Operation S}

theorem comparesBy_id {α : Type} (id : α → NonEmptyString) (l : List α) :
    ComparesBy (fun a b => idBefore (id a) (id b)) (fun a => (id a).1) l :=
  fun _ _ _ _ => decide_eq_true_iff

theorem sortedBy_id_of_perm {α : Type} {id : α → NonEmptyString} {l l' : List α}
    (hnodup : (l.map id).Nodup) (hperm : l.Perm l') :
    sortedBy (fun a b => idBefore (id a) (id b)) l =
      sortedBy (fun a b => idBefore (id a) (id b)) l' :=
  sortedBy_eq_of_perm (comparesBy_id id l)
    (fun _ ha _ hb hab => List.inj_on_of_nodup_map hnodup ha hb (Subtype.ext hab)) hperm

theorem mem_desiredOperations :
    op ∈ desiredOperations current desired ↔ ∃ snapshot ∈ desired,
      (lastBy Snapshot.id current (Snapshot.id snapshot) = none ∧
        op = createOperation snapshot) ∨
      ∃ existing, lastBy Snapshot.id current (Snapshot.id snapshot) = some existing ∧
        changes existing snapshot ≠ [] ∧ op = updateOperation existing snapshot := by
  unfold desiredOperations
  simp only [List.mem_filterMap, mem_sortedBy]
  refine exists_congr fun snapshot => and_congr_right fun _ => ?_
  cases lastBy Snapshot.id current (Snapshot.id snapshot) with
  | none => simp [@eq_comm _ op]
  | some existing =>
    by_cases hchanges : changes existing snapshot = []
    · simp [hchanges]
    · simp [hchanges, @eq_comm _ op]

theorem mem_deleteOperations :
    op ∈ deleteOperations snapshotOf yamlOwned entities desired ↔ ∃ entity ∈ entities,
      (∀ s ∈ desired, Snapshot.id s ≠ Snapshot.id (snapshotOf entity)) ∧
      yamlOwned entity = true ∧ ∃ snapshot,
        lastBy Snapshot.id (entities.map snapshotOf) (Snapshot.id (snapshotOf entity)) =
          some snapshot ∧ op = deleteOperation snapshot := by
  unfold deleteOperations
  simp only [List.mem_filterMap, mem_sortedBy]
  refine exists_congr fun entity => and_congr_right fun _ => ?_
  split
  · rename_i h
    obtain ⟨hnot, howned⟩ : (∀ s ∈ desired, Snapshot.id s ≠ Snapshot.id (snapshotOf entity)) ∧
        yamlOwned entity = true := by simpa using h
    simp only [Option.map_eq_some_iff, howned, true_and]
    constructor
    · rintro ⟨snapshot, hsnapshot, rfl⟩
      exact ⟨hnot, snapshot, hsnapshot, rfl⟩
    · rintro ⟨-, snapshot, hsnapshot, rfl⟩
      exact ⟨snapshot, hsnapshot, rfl⟩
  · rename_i h
    constructor
    · rintro ⟨⟩
    · rintro ⟨hnot, howned, -⟩
      exact absurd (by simpa [howned] using hnot) h

theorem desiredOperations_of_perm (hcurrent : (current.map Snapshot.id).Nodup)
    (hdesired : (desired.map Snapshot.id).Nodup) (hperm : current.Perm current')
    (hperm' : desired.Perm desired') :
    desiredOperations current desired = desiredOperations current' desired' := by
  unfold desiredOperations
  rw [sortedBy_id_of_perm hdesired hperm', lastBy_of_perm hcurrent hperm]

theorem deleteOperations_of_perm
    (hentities : (entities.map fun e => Snapshot.id (snapshotOf e)).Nodup)
    (hperm : entities.Perm entities') (hperm' : desired.Perm desired') :
    deleteOperations snapshotOf yamlOwned entities desired =
      deleteOperations snapshotOf yamlOwned entities' desired' := by
  unfold deleteOperations
  have hnodup : ((entities.map snapshotOf).map Snapshot.id).Nodup := by
    rw [List.map_map]
    exact hentities
  have hany : ∀ e, desired.any (fun s => decide (Snapshot.id s = Snapshot.id (snapshotOf e))) =
      desired'.any fun s => decide (Snapshot.id s = Snapshot.id (snapshotOf e)) :=
    fun e => hperm'.any_eq
  dsimp only
  rw [sortedBy_id_of_perm hentities hperm, lastBy_of_perm hnodup (hperm.map snapshotOf)]
  simp only [hany]

theorem nodup_desiredOperations (hdesired : (desired.map Snapshot.id).Nodup) :
    ((desiredOperations current desired).map Operation.entityId).Nodup := by
  unfold desiredOperations
  refine (List.map_filterMap_sublist ?_ _).nodup
    (((sortedBy_perm _ desired).map Snapshot.id).nodup_iff.mpr hdesired)
  intro snapshot op hop
  split at hop
  · cases hop
    rfl
  · split at hop
    · cases hop
    · cases hop
      rfl

theorem nodup_deleteOperations
    (hentities : (entities.map fun e => Snapshot.id (snapshotOf e)).Nodup) :
    ((deleteOperations snapshotOf yamlOwned entities desired).map Operation.entityId).Nodup := by
  unfold deleteOperations
  refine (List.map_filterMap_sublist ?_ _).nodup
    (((sortedBy_perm _ entities).map fun e => Snapshot.id (snapshotOf e)).nodup_iff.mpr hentities)
  intro entity op hop
  dsimp only at hop
  split at hop
  · obtain ⟨snapshot, hsnapshot, rfl⟩ := Option.map_eq_some_iff.mp hop
    have hid : Snapshot.id snapshot = Snapshot.id (snapshotOf entity) := key_of_lastBy hsnapshot
    exact hid
  · cases hop

theorem desired_of_mem (h : op ∈ desiredOperations current desired) :
    op.action ≠ .delete ∧ ∃ s ∈ desired, Snapshot.id s = op.entityId := by
  obtain ⟨snapshot, hmem, ⟨-, rfl⟩ | ⟨existing, -, -, rfl⟩⟩ := mem_desiredOperations.mp h
  · exact ⟨by simp [createOperation], snapshot, hmem, rfl⟩
  · exact ⟨by simp [updateOperation], snapshot, hmem, rfl⟩

theorem not_desired_of_mem (h : op ∈ deleteOperations snapshotOf yamlOwned entities desired) :
    op.action = .delete ∧ ∀ s ∈ desired, Snapshot.id s ≠ op.entityId := by
  obtain ⟨entity, -, hnot, -, snapshot, hsnapshot, rfl⟩ := mem_deleteOperations.mp h
  refine ⟨rfl, fun s hs => ?_⟩
  have hid : Snapshot.id snapshot = Snapshot.id (snapshotOf entity) := key_of_lastBy hsnapshot
  change Snapshot.id s ≠ Snapshot.id snapshot
  rw [hid]
  exact hnot s hs

theorem nodup_operations (hdesired : (desired.map Snapshot.id).Nodup)
    (hentities : (entities.map fun e => Snapshot.id (snapshotOf e)).Nodup) :
    ((desiredOperations current desired ++
      deleteOperations snapshotOf yamlOwned entities desired).map Operation.entityId).Nodup := by
  rw [List.map_append, List.nodup_append]
  refine ⟨nodup_desiredOperations hdesired, nodup_deleteOperations hentities, ?_⟩
  intro a ha b hb hab
  obtain ⟨op, hop, rfl⟩ := List.mem_map.mp ha
  obtain ⟨op', hop', rfl⟩ := List.mem_map.mp hb
  obtain ⟨-, s, hs, hid⟩ := desired_of_mem hop
  exact (not_desired_of_mem hop').2 s hs (hid.trans hab)

/-- Nothing is done to an entity that is as desired, nor to one that is neither desired nor owned
by a declaration. -/
def Untouched (snapshot : S) (owned : Bool) (desired : List S) : Prop :=
  (∃ s ∈ desired, Snapshot.id s = Snapshot.id snapshot ∧
    ∀ pair ∈ (Snapshot.fields snapshot).zip (Snapshot.fields s), pair.1.2.pyEq pair.2.2 = true) ∨
  (owned = false ∧ ∀ s ∈ desired, Snapshot.id s ≠ Snapshot.id snapshot)

theorem changes_eq_nil_iff {S : Type} [Snapshot S] {current desired : S} :
    changes current desired = [] ↔
      ∀ pair ∈ (Snapshot.fields current).zip (Snapshot.fields desired),
        pair.1.2.pyEq pair.2.2 = true := by
  unfold changes
  rw [List.filterMap_eq_nil_iff]
  refine forall₂_congr fun pair _ => ?_
  cases hsame : pair.1.2.pyEq pair.2.2 with
  | true => simp
  | false => simp

theorem no_operation_of_untouched (hdesired : (desired.map Snapshot.id).Nodup)
    (hentities : (entities.map fun e => Snapshot.id (snapshotOf e)).Nodup) {entity : E}
    (hentity : entity ∈ entities) (h : Untouched (snapshotOf entity) (yamlOwned entity) desired)
    (hop : op ∈ desiredOperations (entities.map snapshotOf) desired ++
      deleteOperations snapshotOf yamlOwned entities desired) :
    op.entityId ≠ Snapshot.id (snapshotOf entity) := by
  intro hid
  have hnodup : ((entities.map snapshotOf).map Snapshot.id).Nodup := by
    rw [List.map_map]
    exact hentities
  rcases List.mem_append.mp hop with hop | hop
  · obtain ⟨snapshot, hmem, hcase⟩ := mem_desiredOperations.mp hop
    rcases h with ⟨s, hs, hsid, hsame⟩ | ⟨-, hnot⟩
    · rcases hcase with ⟨hnone, rfl⟩ | ⟨existing, hexisting, hchanges, rfl⟩
      · exact lastBy_eq_none_iff.mp hnone _ (List.mem_map_of_mem hentity) hid.symm
      · have hsnapshot : snapshot = s :=
          List.inj_on_of_nodup_map hdesired hmem hs (hid.trans hsid.symm)
        have hcurrent : existing = snapshotOf entity :=
          List.inj_on_of_nodup_map hnodup (mem_of_lastBy hexisting)
            (List.mem_map_of_mem hentity) ((key_of_lastBy hexisting).trans hid)
        subst hsnapshot hcurrent
        exact hchanges (changes_eq_nil_iff.mpr hsame)
    · obtain ⟨-, s, hs, hsid⟩ := desired_of_mem hop
      exact hnot s hs (hsid.trans hid)
  · have hnot := (not_desired_of_mem hop).2
    rcases h with ⟨s, hs, hsid, -⟩ | ⟨howned, -⟩
    · exact hnot s hs (hsid.trans hid.symm)
    · obtain ⟨entity', hentity', -, howned', snapshot, hsnapshot, rfl⟩ :=
        mem_deleteOperations.mp hop
      have hsame : entity' = entity :=
        List.inj_on_of_nodup_map hentities hentity' hentity
          ((key_of_lastBy hsnapshot).symm.trans hid)
      subst hsame
      rw [howned] at howned'
      cases howned'

end Operations

namespace PlanOperation

def entity : PlanOperation → String × NonEmptyString
  | .capability op => (Snapshot.entityType CapabilitySnapshot, op.entityId)
  | .provider op => (Snapshot.entityType ProviderSnapshot, op.entityId)

@[simp] def capability? : PlanOperation → Option (Operation CapabilitySnapshot)
  | .capability op => some op
  | .provider _ => none

@[simp] def provider? : PlanOperation → Option (Operation ProviderSnapshot)
  | .capability _ => none
  | .provider op => some op

def isProvider : PlanOperation → Bool
  | .capability _ => false
  | .provider _ => true

def setsCapability : PlanOperation → Bool
  | .capability op => op.action ≠ .delete
  | .provider _ => false

def deletesCapability : PlanOperation → Bool
  | .capability op => op.action = .delete
  | .provider _ => false

def deletesProvider : PlanOperation → Bool
  | .capability _ => false
  | .provider op => op.action = .delete

end PlanOperation

/-- An entity has one operation at most; capabilities are set before anything is done to a
provider, and deleted after the providers. -/
structure SafelyOrdered (operations : List PlanOperation) : Prop where
  once : (operations.map PlanOperation.entity).Nodup
  capabilitiesFirst : operations.Pairwise fun a b =>
    ¬ (a.isProvider = true ∧ b.setsCapability = true)
  providersGoFirst : operations.Pairwise fun a b =>
    ¬ (a.deletesCapability = true ∧ b.deletesProvider = true)

structure DistinctKeys (capabilities : List CapabilityModel) (providers : List ProviderModel) :
    Prop where
  capabilityIds : (capabilities.map CapabilityModel.id).Nodup
  capabilityNames : (capabilities.map CapabilityModel.name).Nodup
  providerIds : (providers.map ProviderModel.id).Nodup
  providerNames : (providers.map ProviderModel.name).Nodup

theorem DistinctKeys.capabilitySnapshots {capabilities : List CapabilityModel}
    {providers : List ProviderModel} (h : DistinctKeys capabilities providers) :
    (capabilities.map fun c => Snapshot.id c.snapshot).Nodup := h.capabilityIds

theorem DistinctKeys.providerSnapshots {capabilities : List CapabilityModel}
    {providers : List ProviderModel} (h : DistinctKeys capabilities providers) :
    (providers.map fun p => Snapshot.id p.snapshot).Nodup := h.providerIds

section Plans
variable {text : PlanText} {desired desired' : DesiredState}
  {capabilities capabilities' : List CapabilityModel} {providers providers' : List ProviderModel}
  {plan : ReconcilePlan}

structure Declared (text : PlanText) (desired : DesiredState) (capabilities : List CapabilityModel)
    (providers : List ProviderModel) (desiredCapabilities : List CapabilitySnapshot)
    (desiredProviders : List ProviderSnapshot) : Prop where
  ofCapabilities : desiredSnapshots (desiredCapabilitySnapshot text capabilities)
    desired.capabilities = .ok desiredCapabilities
  ofProviders : desiredSnapshots
    (desiredProviderSnapshot text desiredCapabilities capabilities providers) desired.providers =
      .ok desiredProviders

theorem buildReconcilePlan_eq_ok_iff :
    buildReconcilePlan text desired capabilities providers = .ok plan ↔
      ∃ dc dp, Declared text desired capabilities providers dc dp ∧
        plan = ⟨planOperations dc dp capabilities providers⟩ := by
  simp only [buildReconcilePlan, Except.bind_eq_ok_iff, Except.pure_eq_ok_iff]
  constructor
  · rintro ⟨dc, hdc, dp, hdp, rfl⟩
    exact ⟨dc, dp, ⟨hdc, hdp⟩, rfl⟩
  · rintro ⟨dc, dp, ⟨hdc, hdp⟩, rfl⟩
    exact ⟨dc, hdc, dp, hdp, rfl⟩

namespace Declared
variable {dc : List CapabilitySnapshot} {dp : List ProviderSnapshot}

theorem nodup_capabilities (h : Declared text desired capabilities providers dc dp) :
    (dc.map CapabilitySnapshot.id).Nodup :=
  (desiredSnapshots_eq_ok_iff.mp h.ofCapabilities).2.1

theorem nodup_names (h : Declared text desired capabilities providers dc dp) :
    (dc.map CapabilitySnapshot.name).Nodup :=
  (desiredSnapshots_eq_ok_iff.mp h.ofCapabilities).2.2

theorem nodup_providers (h : Declared text desired capabilities providers dc dp) :
    (dp.map ProviderSnapshot.id).Nodup :=
  (desiredSnapshots_eq_ok_iff.mp h.ofProviders).2.1

end Declared

theorem resolveCapabilityId_of_perm {dc dc' : List CapabilitySnapshot}
    (hids : (dc.map CapabilitySnapshot.id).Nodup) (hnames : (dc.map CapabilitySnapshot.name).Nodup)
    (hperm : dc.Perm dc') (hkeys : DistinctKeys capabilities providers)
    (hperm' : capabilities.Perm capabilities') :
    resolveCapabilityId dc capabilities = resolveCapabilityId dc' capabilities' := by
  funext ref
  simp only [resolveCapabilityId, lastBy_of_perm hids hperm, lastBy_of_perm hnames hperm,
    lastBy_of_perm hkeys.capabilityIds hperm', lastBy_of_perm hkeys.capabilityNames hperm']

theorem build_of_perm (hkeys : DistinctKeys capabilities providers)
    (hcapabilities : desired.capabilities.Perm desired'.capabilities)
    (hproviders : desired.providers.Perm desired'.providers)
    (hcurrent : capabilities.Perm capabilities') (hcurrent' : providers.Perm providers')
    (h : buildReconcilePlan text desired capabilities providers = .ok plan) :
    buildReconcilePlan text desired' capabilities' providers' = .ok plan := by
  obtain ⟨dc, dp, hdeclared, rfl⟩ := buildReconcilePlan_eq_ok_iff.mp h
  have hsame : desiredCapabilitySnapshot text capabilities' =
      desiredCapabilitySnapshot text capabilities := by
    funext spec
    simp only [desiredCapabilitySnapshot, lastBy_of_perm hkeys.capabilityNames hcurrent]
  obtain ⟨dc', hdc', hperm⟩ := desiredSnapshots_perm hcapabilities hdeclared.ofCapabilities
  have hresolve := resolveCapabilityId_of_perm hdeclared.nodup_capabilities hdeclared.nodup_names
    hperm hkeys hcurrent
  have hsame' : desiredProviderSnapshot text dc' capabilities' providers' =
      desiredProviderSnapshot text dc capabilities providers := by
    funext spec
    simp only [desiredProviderSnapshot, hresolve, lastBy_of_perm hkeys.providerNames hcurrent']
  obtain ⟨dp', hdp', hperm'⟩ := desiredSnapshots_perm hproviders hdeclared.ofProviders
  refine buildReconcilePlan_eq_ok_iff.mpr ⟨dc', dp', ⟨?_, ?_⟩, ?_⟩
  · rw [hsame]
    exact hdc'
  · rw [hsame']
    exact hdp'
  · have hids := hkeys.capabilitySnapshots
    have hids' := hkeys.providerSnapshots
    simp only [planOperations]
    rw [desiredOperations_of_perm (by rwa [List.map_map]) hdeclared.nodup_capabilities
        (hcurrent.map _) hperm,
      desiredOperations_of_perm (by rwa [List.map_map]) hdeclared.nodup_providers
        (hcurrent'.map _) hperm',
      deleteOperations_of_perm hids' hcurrent' hperm', deleteOperations_of_perm hids hcurrent hperm]

theorem nodup_entities {ops ops' : List (Operation CapabilitySnapshot)}
    {pops pops' : List (Operation ProviderSnapshot)}
    (h : ((ops ++ ops').map Operation.entityId).Nodup)
    (h' : ((pops ++ pops').map Operation.entityId).Nodup) :
    ((ops.map PlanOperation.capability ++ pops.map PlanOperation.provider ++
      pops'.map PlanOperation.provider ++ ops'.map PlanOperation.capability).map
        PlanOperation.entity).Nodup := by
  have hperm : (ops.map PlanOperation.capability ++ pops.map PlanOperation.provider ++
      pops'.map PlanOperation.provider ++ ops'.map PlanOperation.capability).Perm
      ((ops ++ ops').map PlanOperation.capability ++
        (pops ++ pops').map PlanOperation.provider) := by
    rw [List.map_append, List.map_append, List.append_assoc, List.append_assoc, List.append_assoc]
    refine List.Perm.append_left _ ?_
    rw [← List.append_assoc]
    exact List.perm_append_comm
  refine ((hperm.map PlanOperation.entity).nodup_iff).mpr ?_
  have hmap : (ops ++ ops').map (fun op => PlanOperation.entity (.capability op)) =
      ((ops ++ ops').map Operation.entityId).map (Prod.mk "capability") := by
    rw [List.map_map]
    rfl
  have hmap' : (pops ++ pops').map (fun op => PlanOperation.entity (.provider op)) =
      ((pops ++ pops').map Operation.entityId).map (Prod.mk "provider") := by
    rw [List.map_map]
    rfl
  rw [List.map_append, List.map_map, List.map_map, List.nodup_append]
  refine ⟨?_, ?_, ?_⟩
  · change (List.map (fun op => PlanOperation.entity (.capability op)) _).Nodup
    rw [hmap]
    exact h.map (Prod.mk_right_injective _)
  · change (List.map (fun op => PlanOperation.entity (.provider op)) _).Nodup
    rw [hmap']
    exact h'.map (Prod.mk_right_injective _)
  · intro a ha b hb hab
    obtain ⟨op, -, rfl⟩ := List.mem_map.mp ha
    obtain ⟨op', -, rfl⟩ := List.mem_map.mp hb
    have hkind : "capability" = "provider" := congrArg Prod.fst hab
    exact absurd hkind (by decide)

theorem safelyOrdered_plan {dc : List CapabilitySnapshot} {dp : List ProviderSnapshot}
    (hdc : (dc.map CapabilitySnapshot.id).Nodup) (hdp : (dp.map ProviderSnapshot.id).Nodup)
    (hkeys : DistinctKeys capabilities providers) :
    SafelyOrdered (planOperations dc dp capabilities providers) := by
  have hkept : ∀ op ∈ deleteOperations CapabilityModel.snapshot CapabilityModel.yamlOwned
      capabilities dc, op.action = .delete := fun op hop => (not_desired_of_mem hop).1
  unfold planOperations
  refine ⟨?_, ?_, ?_⟩
  · exact nodup_entities (nodup_operations hdc hkeys.capabilitySnapshots)
      (nodup_operations hdp hkeys.providerSnapshots)
  · rw [List.append_assoc, List.append_assoc, List.pairwise_append]
    refine ⟨?_, ?_, ?_⟩
    · refine List.pairwise_of_forall_mem_list fun a ha b hb => ?_
      obtain ⟨op, -, rfl⟩ := List.mem_map.mp ha
      simp [PlanOperation.isProvider]
    · -- behind the first loop no operation sets a capability
      refine List.pairwise_of_forall_mem_list fun a ha b hb => ?_
      rintro ⟨-, hsets⟩
      rcases List.mem_append.mp hb with hb | hb
      · obtain ⟨op, -, rfl⟩ := List.mem_map.mp hb
        cases hsets
      · rcases List.mem_append.mp hb with hb | hb
        · obtain ⟨op, -, rfl⟩ := List.mem_map.mp hb
          cases hsets
        · obtain ⟨op, hop, rfl⟩ := List.mem_map.mp hb
          simp [PlanOperation.setsCapability, hkept op hop] at hsets
    · intro a ha b hb
      obtain ⟨op, -, rfl⟩ := List.mem_map.mp ha
      simp [PlanOperation.isProvider]
  · rw [List.pairwise_append]
    have hnone : ∀ a ∈ (desiredOperations (capabilities.map CapabilityModel.snapshot) dc).map
          PlanOperation.capability ++
        (desiredOperations (providers.map ProviderModel.snapshot) dp).map PlanOperation.provider ++
        (deleteOperations ProviderModel.snapshot ProviderModel.yamlOwned providers dp).map
          PlanOperation.provider,
        a.deletesCapability = false := by
      intro a ha
      rcases List.mem_append.mp ha with ha | ha
      · rcases List.mem_append.mp ha with ha | ha
        · obtain ⟨op, hop, rfl⟩ := List.mem_map.mp ha
          simp [PlanOperation.deletesCapability, (desired_of_mem hop).1]
        · obtain ⟨op, -, rfl⟩ := List.mem_map.mp ha
          rfl
      · obtain ⟨op, -, rfl⟩ := List.mem_map.mp ha
        rfl
    refine ⟨?_, ?_, ?_⟩
    · exact List.pairwise_of_forall_mem_list fun a ha b _ => by simp [hnone a ha]
    · refine List.pairwise_of_forall_mem_list fun a _ b hb => ?_
      obtain ⟨op, -, rfl⟩ := List.mem_map.mp hb
      simp [PlanOperation.deletesProvider]
    · exact fun a ha b _ => by simp [hnone a ha]

theorem filterMap_capability {dc : List CapabilitySnapshot} {dp : List ProviderSnapshot} :
    (planOperations dc dp capabilities providers).filterMap PlanOperation.capability? =
      desiredOperations (capabilities.map CapabilityModel.snapshot) dc ++
        deleteOperations CapabilityModel.snapshot CapabilityModel.yamlOwned capabilities dc := by
  simp [planOperations, List.filterMap_append, List.filterMap_map, Function.comp_def]

theorem filterMap_provider {dc : List CapabilitySnapshot} {dp : List ProviderSnapshot} :
    (planOperations dc dp capabilities providers).filterMap PlanOperation.provider? =
      desiredOperations (providers.map ProviderModel.snapshot) dp ++
        deleteOperations ProviderModel.snapshot ProviderModel.yamlOwned providers dp := by
  simp [planOperations, List.filterMap_append, List.filterMap_map, Function.comp_def]

/-- A plan does not depend on the order of the declarations and of the entities, is safely
ordered, and leaves alone what is as desired and what is neither desired nor declared. -/
theorem plan_of_sets (text : PlanText) (desired : DesiredState)
    (capabilities : List CapabilityModel) (providers : List ProviderModel)
    (hkeys : DistinctKeys capabilities providers) :
    (∀ (desired' : DesiredState) (capabilities' : List CapabilityModel)
      (providers' : List ProviderModel), desired.capabilities.Perm desired'.capabilities →
      desired.providers.Perm desired'.providers → capabilities.Perm capabilities' →
      providers.Perm providers' → ∀ plan,
        buildReconcilePlan text desired capabilities providers = .ok plan ↔
          buildReconcilePlan text desired' capabilities' providers' = .ok plan) ∧
    ∀ plan, buildReconcilePlan text desired capabilities providers = .ok plan →
      SafelyOrdered plan.operations ∧
      ∃ dc dp, Declared text desired capabilities providers dc dp ∧
        (∀ c ∈ capabilities, Untouched c.snapshot c.yamlOwned dc →
          ∀ op, .capability op ∈ plan.operations → op.entityId ≠ c.id) ∧
        ∀ p ∈ providers, Untouched p.snapshot p.yamlOwned dp →
          ∀ op, .provider op ∈ plan.operations → op.entityId ≠ p.id := by
  refine ⟨?_, ?_⟩
  · intro desired' capabilities' providers' hdc hdp hc hp plan
    refine ⟨build_of_perm hkeys hdc hdp hc hp, build_of_perm ?_ hdc.symm hdp.symm hc.symm hp.symm⟩
    exact ⟨(hc.map _).nodup_iff.mp hkeys.capabilityIds, (hc.map _).nodup_iff.mp hkeys.capabilityNames,
      (hp.map _).nodup_iff.mp hkeys.providerIds, (hp.map _).nodup_iff.mp hkeys.providerNames⟩
  · intro plan hplan
    obtain ⟨dc, dp, hdeclared, rfl⟩ := buildReconcilePlan_eq_ok_iff.mp hplan
    refine ⟨safelyOrdered_plan hdeclared.nodup_capabilities hdeclared.nodup_providers hkeys, dc, dp,
      hdeclared, ?_, ?_⟩
    · intro c hc huntouched op hop
      refine no_operation_of_untouched hdeclared.nodup_capabilities hkeys.capabilitySnapshots hc
        huntouched ?_
      rw [← filterMap_capability]
      exact List.mem_filterMap.mpr ⟨_, hop, rfl⟩
    · intro p hp huntouched op hop
      refine no_operation_of_untouched hdeclared.nodup_providers hkeys.providerSnapshots hp
        huntouched ?_
      rw [← filterMap_provider]
      exact List.mem_filterMap.mpr ⟨_, hop, rfl⟩

def declaredCapability (name : NonEmptyString) : DesiredCapabilitySpec where
  id := some name.1
  name := name
  version := ⟨"2.0.0", by decide⟩
  capabilityClass := .llm
  description := none
  inputSchema := []
  outputSchema := []
  defaults := ⟨60000, 300000, .sync⟩
  costMode := .perSecond
  hintsSupported := []
  enabled := true
  yamlHash := "h"

def ownedCapability (name : NonEmptyString) : CapabilityModel :=
  let spec := declaredCapability name
  { id := name, name, version := spec.version, capabilityClass := spec.capabilityClass
    description := none, inputSchema := [], outputSchema := [], defaults := spec.defaults
    costMode := spec.costMode, hintsSupported := [], source := .yaml
    lastAppliedYamlHash := some spec.yamlHash, enabled := true, createdAt := 0, updatedAt := 0 }

def declaredProvider (name capability : NonEmptyString) : DesiredProviderSpec where
  id := some name.1
  capability := some capability.1
  capabilityId := none
  capabilityName := none
  name := name
  providerType := .serverlessQueue
  runpodEndpointId := none
  runpodTemplateId := none
  region := none
  cloudType := none
  config := []
  priority := 0
  enabled := true
  yamlHash := "h"
  singleReference := rfl

def embed : NonEmptyString := ⟨"embed", by decide⟩
def rerank : NonEmptyString := ⟨"rerank", by decide⟩
def vision : NonEmptyString := ⟨"vision", by decide⟩
def gpu : NonEmptyString := ⟨"gpu", by decide⟩

def declaredState : DesiredState where
  capabilities := [declaredCapability embed, declaredCapability rerank]
  providers := [declaredProvider gpu embed]
  capabilityNames := by decide
  providerNames := List.nodup_singleton _
  capabilityIds := by decide
  providerIds := List.nodup_singleton _

def reversedState : DesiredState where
  capabilities := [declaredCapability rerank, declaredCapability embed]
  providers := [declaredProvider gpu embed]
  capabilityNames := by decide
  providerNames := List.nodup_singleton _
  capabilityIds := by decide
  providerIds := List.nodup_singleton _

theorem plan_of_sets_reversed :
    ∃ plan, buildReconcilePlan ⟨id, id⟩ declaredState
        [ownedCapability rerank, ownedCapability vision] [] = .ok plan ∧
      buildReconcilePlan ⟨id, id⟩ reversedState
        [ownedCapability vision, ownedCapability rerank] [] = .ok plan ∧
      plan.operations.map PlanOperation.entity =
        [("capability", embed), ("provider", gpu), ("capability", vision)] ∧
      SafelyOrdered plan.operations ∧
      ∀ op, .capability op ∈ plan.operations → op.entityId ≠ rerank := by
  obtain ⟨plan, hplan, hentities⟩ : ∃ plan, buildReconcilePlan ⟨id, id⟩ declaredState
      [ownedCapability rerank, ownedCapability vision] [] = .ok plan ∧
      plan.operations.map PlanOperation.entity =
        [("capability", embed), ("provider", gpu), ("capability", vision)] := ⟨_, rfl, by decide⟩
  have hkeys : DistinctKeys [ownedCapability rerank, ownedCapability vision] [] :=
    ⟨by decide, by decide, List.nodup_nil, List.nodup_nil⟩
  obtain ⟨hpermuted, hordered⟩ := plan_of_sets ⟨id, id⟩ declaredState _ _ hkeys
  obtain ⟨hsafe, dc, dp, hdeclared, huntouched, -⟩ := hordered plan hplan
  refine ⟨plan, hplan, (hpermuted reversedState _ _ (.swap _ _ _) (.refl _) (.swap _ _ _)
    (.refl _) plan).mp hplan, hentities, hsafe, huntouched (ownedCapability rerank) (by simp) ?_⟩
  have hdc : dc = [(ownedCapability embed).snapshot, (ownedCapability rerank).snapshot] :=
    Except.ok.inj (hdeclared.ofCapabilities.symm.trans rfl)
  exact .inl ⟨(ownedCapability rerank).snapshot, by simp [hdc], rfl, by decide⟩

end Plans

end Pitwall.Gitops
