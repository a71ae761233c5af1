import Pitwall.Gitops.Plans
import Pitwall.Gitops.Reconcile
set_option autoImplicit false

/-!
What an apply leaves of every entity.
-/

namespace Pitwall.Gitops
open Routing (CapabilitySource)

section Effects
variable {E S : Type}

/-- What the proofs read of a kind of entity: the source of its snapshots, how they are switched on
and off, and what a write of one leaves over an existing one. -/
structure Effects (S : Type) where
  source : S → CapabilitySource
  enabled : S → Bool
  setEnabled : Bool → S → S
  Written : S → Option S → S → Prop

def writes (op : Operation S) : Bool := op.action = .create || hasNonEnabledChange op

def Effects.Effect (effects : Effects S) (op : Operation S) (existing : Option S) (after : S) :
    Prop :=
  (op.action = .delete ∧ ∃ s, existing = some s ∧ after = effects.setEnabled false s) ∨
  (op.action ≠ .delete ∧ ∃ desired base, op.desired = some desired ∧
    (if writes op then effects.Written desired existing base else existing = some base) ∧
    after = effects.setEnabled (effects.enabled desired) base)

structure Repository.Does [Snapshot S] (repo : Repository E S) (effects : Effects S)
    (snapshotOf : E → S) : Prop where
  id_snapshot : ∀ e, repo.id e = Snapshot.id (snapshotOf e)
  enabled_desired : ∀ s, repo.desiredEnabled s = effects.enabled s
  enabled_snapshot : ∀ e, repo.enabled e = effects.enabled (snapshotOf e)
  withEnabled : ∀ b now e, snapshotOf (repo.withEnabled b now e) = effects.setEnabled b (snapshotOf e)
  id_setEnabled : ∀ b s, Snapshot.id (effects.setEnabled b s) = Snapshot.id s
  setEnabled_self : ∀ s, effects.setEnabled (effects.enabled s) s = s
  store : ∀ rows s now row,
    repo.store rows (repo.fromSnapshot s now (lastBy repo.id rows (Snapshot.id s))) = .ok row →
      repo.id row = Snapshot.id s ∧
      effects.Written s ((lastBy repo.id rows (Snapshot.id s)).map snapshotOf) (snapshotOf row) ∧
      (repo.enabled row = ((lastBy repo.id rows (Snapshot.id s)).map repo.enabled).getD true ∨
        repo.enabled row = effects.enabled s)

variable [Snapshot S] {repo : Repository E S} {effects : Effects S} {snapshotOf : E → S}
  {rows rows' : List E} {op : Operation S} {now : Instant}

omit [Snapshot S] in
theorem setEnabled_eq_ok {id : NonEmptyString} {b : Bool}
    (h : repo.setEnabled rows id b now = .ok rows') :
    ∃ e, lastBy repo.id rows id = some e ∧
      rows' = putBy repo.id rows (repo.withEnabled b now e) := by
  unfold Repository.setEnabled at h
  cases hfound : lastBy repo.id rows id with
  | none =>
    rw [hfound] at h
    cases h
  | some e =>
    rw [hfound] at h
    cases h
    exact ⟨e, rfl, rfl⟩

theorem id_withEnabled (hdoes : repo.Does effects snapshotOf) (b : Bool) (now : Instant) (e : E) :
    repo.id (repo.withEnabled b now e) = repo.id e := by
  rw [hdoes.id_snapshot, hdoes.withEnabled, hdoes.id_setEnabled, ← hdoes.id_snapshot]

theorem putBy_of_switch (hdoes : repo.Does effects snapshotOf) {b : E} {s : S} {current : Bool}
    (hbase : lastBy repo.id rows (repo.id b) = some b) (hnodup : (rows.map repo.id).Nodup)
    (hcurrent : repo.enabled b = current ∨ repo.enabled b = effects.enabled s)
    (h : repo.switch now rows (repo.id b) (repo.desiredEnabled s) current = .ok rows') :
    ∃ row, repo.id row = repo.id b ∧
      snapshotOf row = effects.setEnabled (effects.enabled s) (snapshotOf b) ∧
      rows' = putBy repo.id rows row := by
  unfold Repository.switch at h
  split at h
  · obtain ⟨e, he, rfl⟩ := setEnabled_eq_ok h
    rw [hbase] at he
    cases he
    refine ⟨_, id_withEnabled hdoes _ now b, ?_, rfl⟩
    rw [hdoes.withEnabled, hdoes.enabled_desired]
  · rename_i hsame
    cases h
    refine ⟨b, rfl, ?_, (putBy_of_lastBy hnodup hbase).symm⟩
    have henabled : effects.enabled s = effects.enabled (snapshotOf b) := by
      rw [← hdoes.enabled_snapshot]
      rcases hcurrent with hcurrent | hcurrent
      · rw [hcurrent, ← not_not.mp hsame, hdoes.enabled_desired]
      · exact hcurrent.symm
    rw [henabled, hdoes.setEnabled_self]

omit [Snapshot S] in
theorem body_of_applyOperation {s : S} (hdelete : op.action ≠ .delete)
    (hdesired : op.desired = some s) (h : repo.applyOperation now rows op = .ok rows') :
    (writes op = false → ∃ e, lastBy repo.id rows op.entityId = some e) ∧
    ∃ rows₁, repo.upsert now rows op s (lastBy repo.id rows op.entityId) = .ok rows₁ ∧
      repo.switch now rows₁ op.entityId (repo.desiredEnabled s)
        (((lastBy repo.id rows op.entityId).map repo.enabled).getD true) = .ok rows' := by
  unfold Repository.applyOperation at h
  rw [hdesired] at h
  cases haction : op.action with
  | delete => exact absurd haction hdelete
  | create =>
    rw [haction] at h
    refine ⟨fun hwrites => ?_, Except.bind_eq_ok_iff.mp h⟩
    simp [writes, haction] at hwrites
  | update =>
    rw [haction] at h
    dsimp only at h
    split at h
    · cases h
    · rename_i hmissing
      refine ⟨fun _ => ?_, Except.bind_eq_ok_iff.mp h⟩
      refine Option.ne_none_iff_exists'.mp ?_
      simpa using hmissing

theorem putBy_of_applyOperation (hdoes : repo.Does effects snapshotOf)
    (hop : ∀ s, op.desired = some s → Snapshot.id s = op.entityId)
    (hnodup : (rows.map repo.id).Nodup) (h : repo.applyOperation now rows op = .ok rows') :
    ∃ row, repo.id row = op.entityId ∧
      effects.Effect op ((lastBy repo.id rows op.entityId).map snapshotOf) (snapshotOf row) ∧
      rows' = putBy repo.id rows row := by
  by_cases hdelete : op.action = .delete
  · have hset : repo.setEnabled rows op.entityId false now = .ok rows' := by
      unfold Repository.applyOperation at h
      rw [hdelete] at h
      exact h
    obtain ⟨e, he, rfl⟩ := setEnabled_eq_ok hset
    have hid : repo.id e = op.entityId := key_of_lastBy he
    refine ⟨_, (id_withEnabled hdoes false now e).trans hid, .inl ⟨hdelete, snapshotOf e, ?_, ?_⟩, rfl⟩
    · rw [he, Option.map_some]
    · rw [hdoes.withEnabled]
  · cases hdesired : op.desired with
    | none =>
      unfold Repository.applyOperation at h
      rw [hdesired] at h
      split at h <;> simp_all
    | some s =>
      have hid := hop s hdesired
      obtain ⟨hexists, rows₁, hupsert, hswitch⟩ := body_of_applyOperation hdelete hdesired h
      unfold Repository.upsert at hupsert
      by_cases hwrites : writes op = true
      · rw [if_pos (by exact hwrites)] at hupsert
        obtain ⟨base, hstore, hput⟩ := Except.bind_eq_ok_iff.mp hupsert
        cases Except.pure_eq_ok_iff.mp hput
        rw [← hid] at hstore
        obtain ⟨hbaseId, hwritten, henabled⟩ := hdoes.store rows s now base hstore
        rw [hid] at hbaseId hwritten henabled
        have hbase : lastBy repo.id (putBy repo.id rows base) (repo.id base) = some base := by
          rw [lastBy_putBy, if_pos rfl]
        rw [← hbaseId] at hswitch
        obtain ⟨row, hrowId, hrow, rfl⟩ := putBy_of_switch hdoes hbase (nodup_putBy hnodup)
          (by rwa [hbaseId]) hswitch
        refine ⟨row, hrowId.trans hbaseId, .inr ⟨hdelete, s, snapshotOf base, hdesired, ?_, hrow⟩,
          putBy_putBy base row hrowId⟩
        rwa [if_pos hwrites]
      · rw [if_neg (by exact hwrites)] at hupsert
        cases hupsert
        obtain ⟨e, he⟩ := hexists (by simpa using hwrites)
        have heId : repo.id e = op.entityId := key_of_lastBy he
        have hbase : lastBy repo.id rows (repo.id e) = some e := by rw [heId, he]
        rw [← heId, hbase] at hswitch
        obtain ⟨row, hrowId, hrow, rfl⟩ := putBy_of_switch hdoes hbase hnodup (.inl rfl) hswitch
        refine ⟨row, hrowId.trans heId, .inr ⟨hdelete, s, snapshotOf e, hdesired, ?_, hrow⟩, rfl⟩
        rw [if_neg hwrites, he, Option.map_some]

end Effects

section Kinds
variable (db : Database)

def CapabilitySnapshot.written (s : CapabilitySnapshot) (inputSchema outputSchema : JsonObject)
    (enabled : Bool) : CapabilitySnapshot :=
  { s with
    description := optionalString s.description
    inputSchema
    outputSchema
    enabled
    lastAppliedYamlHash := optionalString s.lastAppliedYamlHash }

def capabilityEffects : Effects CapabilitySnapshot where
  source := CapabilitySnapshot.source
  enabled := CapabilitySnapshot.enabled
  setEnabled enabled s := { s with enabled }
  Written s _ base := ∃ inputSchema outputSchema enabled,
    db.jsonb s.inputSchema = .ok inputSchema ∧ db.jsonb s.outputSchema = .ok outputSchema ∧
      base = s.written inputSchema outputSchema enabled

def ProviderSnapshot.written (s : ProviderSnapshot) (existing : Option ProviderSnapshot)
    (config : JsonObject) (enabled : Bool) : ProviderSnapshot :=
  { s with
    capabilityId := (existing.map ProviderSnapshot.capabilityId).getD s.capabilityId
    runpodEndpointId := optionalString s.runpodEndpointId
    runpodTemplateId := optionalString s.runpodTemplateId
    region := optionalString s.region
    cloudType := optionalString s.cloudType
    config
    enabled
    lastAppliedYamlHash := optionalString s.lastAppliedYamlHash }

def providerEffects : Effects ProviderSnapshot where
  source := ProviderSnapshot.source
  enabled := ProviderSnapshot.enabled
  setEnabled enabled s := { s with enabled }
  Written s existing base := ∃ config enabled, db.jsonb s.config = .ok config ∧
    base = s.written existing config enabled

theorem capabilityRepository_does :
    (capabilityRepository db).Does (capabilityEffects db) CapabilityModel.snapshot where
  id_snapshot _ := rfl
  enabled_desired _ := rfl
  enabled_snapshot _ := rfl
  withEnabled _ _ _ := rfl
  id_setEnabled _ _ := rfl
  setEnabled_self _ := rfl
  store rows s now row h := by
    obtain ⟨inputSchema, hinput, h⟩ := Except.bind_eq_ok_iff.mp h
    obtain ⟨outputSchema, houtput, h⟩ := Except.bind_eq_ok_iff.mp h
    obtain ⟨-, -, h⟩ := Except.bind_eq_ok_iff.mp h
    split at h
    · cases h
    · cases h
      exact ⟨rfl, ⟨inputSchema, outputSchema, _, hinput, houtput, rfl⟩, .inl rfl⟩

theorem storeProvider_eq_ok {db : Database} {capabilities : List CapabilityModel}
    {rows : List ProviderModel} {provider row : ProviderModel}
    (h : storeProvider db capabilities rows provider = .ok row) :
    ∃ config, db.jsonb provider.config = .ok config ∧ row = { provider with
      config
      capabilityId := ((lastBy ProviderModel.id rows provider.id).map
        ProviderModel.capabilityId).getD provider.capabilityId
      enabled := ((lastBy ProviderModel.id rows provider.id).map ProviderModel.enabled).getD
        provider.enabled } := by
  obtain ⟨config, hconfig, h⟩ := Except.bind_eq_ok_iff.mp h
  obtain ⟨-, -, h⟩ := Except.bind_eq_ok_iff.mp h
  split at h
  · cases h
  · exact ⟨config, hconfig, (Except.ok.inj h).symm⟩

theorem providerRepository_does (capabilities : List CapabilityModel) :
    (providerRepository db capabilities).Does (providerEffects db) ProviderModel.snapshot where
  id_snapshot _ := rfl
  enabled_desired _ := rfl
  enabled_snapshot _ := rfl
  withEnabled _ _ _ := rfl
  id_setEnabled _ _ := rfl
  setEnabled_self _ := rfl
  store rows s now row h := by
    have hstore : storeProvider db capabilities rows
        (providerFromSnapshot s now (lastBy ProviderModel.id rows s.id)) = .ok row := h
    obtain ⟨config, hconfig, hrow⟩ := storeProvider_eq_ok hstore
    have hread : lastBy ProviderModel.id rows
        (providerFromSnapshot s now (lastBy ProviderModel.id rows s.id)).id =
          lastBy ProviderModel.id rows s.id := rfl
    rw [hread] at hrow
    change row.id = s.id ∧ (∃ config enabled, db.jsonb s.config = .ok config ∧ row.snapshot =
        s.written ((lastBy ProviderModel.id rows s.id).map ProviderModel.snapshot) config enabled) ∧
      (row.enabled = ((lastBy ProviderModel.id rows s.id).map ProviderModel.enabled).getD true ∨
        row.enabled = s.enabled)
    refine ⟨by rw [hrow]; rfl, ⟨config, row.enabled, hconfig, ?_⟩, ?_⟩
    · rw [hrow]
      cases lastBy ProviderModel.id rows s.id <;> rfl
    · rw [hrow]
      cases lastBy ProviderModel.id rows s.id with
      | none => exact .inr rfl
      | some existing => exact .inl rfl

end Kinds

section Runs
variable {context : ApplyContext} {operations : List PlanOperation} {tables tables' : Tables}

def CapabilityEffect (db : Database) (op : Operation CapabilitySnapshot)
    (existing : Option CapabilityModel) (row : CapabilityModel) : Prop :=
  (capabilityEffects db).Effect op (existing.map CapabilityModel.snapshot) row.snapshot

def ProviderEffect (db : Database) (op : Operation ProviderSnapshot)
    (existing : Option ProviderModel) (row : ProviderModel) : Prop :=
  (providerEffects db).Effect op (existing.map ProviderModel.snapshot) row.snapshot

structure Ran (db : Database) (operations : List PlanOperation) (tables tables' : Tables) :
    Prop where
  capabilities : PutRun CapabilityModel.id Operation.entityId (CapabilityEffect db)
    tables.capabilities (operations.filterMap PlanOperation.capability?) tables'.capabilities
  providers : PutRun ProviderModel.id Operation.entityId (ProviderEffect db)
    tables.providers (operations.filterMap PlanOperation.provider?) tables'.providers

structure OwnSnapshots (operations : List PlanOperation) : Prop where
  capability : ∀ op ∈ operations.filterMap PlanOperation.capability?, ∀ s,
    op.desired = some s → Snapshot.id s = op.entityId
  provider : ∀ op ∈ operations.filterMap PlanOperation.provider?, ∀ s,
    op.desired = some s → Snapshot.id s = op.entityId

theorem ran_of_applyOperations (hkeys : (tables.capabilities.map CapabilityModel.id).Nodup)
    (hkeys' : (tables.providers.map ProviderModel.id).Nodup) (hown : OwnSnapshots operations)
    (h : applyOperations context operations tables = .ok tables') :
    Ran context.db operations tables tables' := by
  induction operations generalizing tables with
  | nil =>
    cases Except.pure_eq_ok_iff.mp h
    exact ⟨.nil _, .nil _⟩
  | cons op operations ih =>
    obtain ⟨tables₁, hop, hrest⟩ := Except.bind_eq_ok_iff.mp h
    obtain ⟨tables₂, happly, hop⟩ := Except.bind_eq_ok_iff.mp hop
    obtain ⟨-, -, hop⟩ := Except.bind_eq_ok_iff.mp hop
    cases Except.pure_eq_ok_iff.mp hop
    cases op with
    | capability op =>
      obtain ⟨capabilities, hcapabilities, hput⟩ := Except.bind_eq_ok_iff.mp happly
      cases Except.pure_eq_ok_iff.mp hput
      obtain ⟨row, hid, heffect, rfl⟩ := putBy_of_applyOperation
        (capabilityRepository_does context.db) (hown.capability op (by simp)) hkeys hcapabilities
      have hown' : OwnSnapshots operations := ⟨fun op' hop' => hown.capability op' (by simp [hop']),
        fun op' hop' => hown.provider op' (by simpa using hop')⟩
      have hran := @ih { tables with
        capabilities := putBy CapabilityModel.id tables.capabilities row } (nodup_putBy hkeys) hkeys'
        hown' hrest
      exact ⟨.cons hid heffect hran.capabilities, hran.providers⟩
    | provider op =>
      obtain ⟨providers, hproviders, hput⟩ := Except.bind_eq_ok_iff.mp happly
      cases Except.pure_eq_ok_iff.mp hput
      obtain ⟨row, hid, heffect, rfl⟩ := putBy_of_applyOperation
        (providerRepository_does context.db tables.capabilities) (hown.provider op (by simp)) hkeys'
        hproviders
      have hown' : OwnSnapshots operations := ⟨fun op' hop' => hown.capability op' (by
        simpa using hop'), fun op' hop' => hown.provider op' (by simp [hop'])⟩
      have hran := @ih { tables with providers := putBy ProviderModel.id tables.providers row }
        hkeys (nodup_putBy hkeys') hown' hrest
      exact ⟨hran.capabilities, .cons hid heffect hran.providers⟩

theorem ran_of_applyPlan {plan : ReconcilePlan} {result : GitOpsApplyResult}
    {dryRun allowDelete : Bool} (hdry : dryRun = false)
    (hkeys : (tables.capabilities.map CapabilityModel.id).Nodup)
    (hkeys' : (tables.providers.map ProviderModel.id).Nodup)
    (hown : OwnSnapshots plan.operations)
    (h : applyPlan context plan dryRun allowDelete tables = .ok (result, tables')) :
    Ran context.db plan.operations tables tables' := by
  unfold applyPlan at h
  rw [hdry, if_neg (by decide)] at h
  split at h
  · cases h
  · split at h
    · cases h
    · obtain ⟨last, hlast, hresult⟩ := Except.bind_eq_ok_iff.mp h
      cases Except.pure_eq_ok_iff.mp hresult
      exact ran_of_applyOperations hkeys hkeys' hown hlast

end Runs

end Pitwall.Gitops
