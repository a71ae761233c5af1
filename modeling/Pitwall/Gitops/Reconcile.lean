import Pitwall.Core.Text
import Pitwall.Gitops.Differ
import Pitwall.Library.Puts
set_option autoImplicit false

/-!
`apply_plan`, and the statements of the repositories that it runs.
-/

namespace Pitwall.Gitops

structure Tables where
  capabilities : List CapabilityModel
  providers : List ProviderModel

structure Tables.Keys (tables : Tables) : Prop where
  capabilityIds : (tables.capabilities.map CapabilityModel.id).Nodup
  capabilityNames : (tables.capabilities.map CapabilityModel.name).Nodup
  providerIds : (tables.providers.map ProviderModel.id).Nodup

structure Registry extends Tables where
  keys : toTables.Keys

/-- What the database makes of the values of a row: an object that goes through a `jsonb` column,
and the checks of a row beyond its keys. -/
structure Database where
  jsonb : JsonObject → Except PyError JsonObject
  checkCapability : CapabilityModel → Except PyError Unit
  checkProvider : ProviderModel → Except PyError Unit

def uniqueViolation (constraint : String) : PyError :=
  ⟨"UniqueViolationError", s!"duplicate key value violates unique constraint \"{constraint}\""⟩

def foreignKeyViolation (table constraint : String) : PyError :=
  ⟨"ForeignKeyViolationError",
    s!"insert or update on table \"{table}\" violates foreign key constraint \"{constraint}\""⟩

/-- `_optional_string`. -/
def optionalString : Option String → Option String
  | none => none
  | some value => if strip value = "" then none else some (strip value)

/-- `_capability_from_snapshot`. -/
def capabilityFromSnapshot (snapshot : CapabilitySnapshot) (now : Instant)
    (existing : Option CapabilityModel) : CapabilityModel where
  id := snapshot.id
  name := snapshot.name
  version := snapshot.version
  capabilityClass := snapshot.capabilityClass
  description := optionalString snapshot.description
  inputSchema := snapshot.inputSchema
  outputSchema := snapshot.outputSchema
  defaults := snapshot.defaults
  costMode := snapshot.costMode
  hintsSupported := snapshot.hintsSupported
  source := snapshot.source
  lastAppliedYamlHash := optionalString snapshot.lastAppliedYamlHash
  enabled := snapshot.enabled
  createdAt := (existing.map CapabilityModel.createdAt).getD now
  updatedAt := now

def ProviderHealth.unknown : ProviderHealth := ⟨"unknown", 0, 0, none, none, .finite 0, none⟩

/-- `_provider_from_snapshot`. -/
def providerFromSnapshot (snapshot : ProviderSnapshot) (now : Instant)
    (existing : Option ProviderModel) : ProviderModel where
  id := snapshot.id
  capabilityId := snapshot.capabilityId
  name := snapshot.name
  providerType := snapshot.providerType
  runpodEndpointId := optionalString snapshot.runpodEndpointId
  runpodTemplateId := optionalString snapshot.runpodTemplateId
  region := optionalString snapshot.region
  cloudType := optionalString snapshot.cloudType
  config := snapshot.config
  priority := snapshot.priority
  enabled := snapshot.enabled
  health := (existing.map ProviderModel.health).getD .unknown
  source := snapshot.source
  lastAppliedYamlHash := optionalString snapshot.lastAppliedYamlHash
  updatedAt := now

/-- The row that `CapabilityRepository.create` leaves. An insert enables it; on a conflict of the
ids `enabled` and `created_at` stay as they are. -/
def storeCapability (db : Database) (rows : List CapabilityModel) (capability : CapabilityModel) :
    Except PyError CapabilityModel := do
  let inputSchema ← db.jsonb capability.inputSchema
  let outputSchema ← db.jsonb capability.outputSchema
  let existing := lastBy CapabilityModel.id rows capability.id
  let row := { capability with
    inputSchema
    outputSchema
    enabled := (existing.map CapabilityModel.enabled).getD true
    createdAt := (existing.map CapabilityModel.createdAt).getD capability.createdAt }
  db.checkCapability row
  if rows.any fun c => c.name = row.name && c.id ≠ row.id then
    .error (uniqueViolation "capabilities_name_key")
  else return row

/-- The row that `ProviderRepository.create` leaves. On a conflict of the ids `capability_id` and
`enabled` stay as they are. -/
def storeProvider (db : Database) (capabilities : List CapabilityModel)
    (rows : List ProviderModel) (provider : ProviderModel) : Except PyError ProviderModel := do
  let config ← db.jsonb provider.config
  let existing := lastBy ProviderModel.id rows provider.id
  let row := { provider with
    config
    capabilityId := (existing.map ProviderModel.capabilityId).getD provider.capabilityId
    enabled := (existing.map ProviderModel.enabled).getD provider.enabled }
  db.checkProvider row
  if existing.isNone && !(capabilities.any fun c => c.id = row.capabilityId) then
    .error (foreignKeyViolation "providers" "providers_capability_id_fkey")
  else return row

/-- A repository with what `apply_plan` needs to know of its kind of entity. -/
structure Repository (E S : Type) where
  entityType : String
  id : E → NonEmptyString
  enabled : E → Bool
  desiredEnabled : S → Bool
  fromSnapshot : S → Instant → Option E → E
  store : List E → E → Except PyError E
  withEnabled : Bool → Instant → E → E

def capabilityRepository (db : Database) : Repository CapabilityModel CapabilitySnapshot where
  entityType := "capability"
  id := CapabilityModel.id
  enabled := CapabilityModel.enabled
  desiredEnabled := CapabilitySnapshot.enabled
  fromSnapshot := capabilityFromSnapshot
  store := storeCapability db
  withEnabled enabled now capability := { capability with enabled, updatedAt := now }

def providerRepository (db : Database) (capabilities : List CapabilityModel) :
    Repository ProviderModel ProviderSnapshot where
  entityType := "provider"
  id := ProviderModel.id
  enabled := ProviderModel.enabled
  desiredEnabled := ProviderSnapshot.enabled
  fromSnapshot := providerFromSnapshot
  store := storeProvider db capabilities
  withEnabled enabled now provider := { provider with enabled, updatedAt := now }

/-- `_has_non_enabled_change`. -/
def hasNonEnabledChange {S : Type} (operation : Operation S) : Bool :=
  operation.changes.any fun change => change.1 ≠ "enabled"

def PlanAction.value : PlanAction → String
  | .create => "create"
  | .update => "update"
  | .delete => "delete"

namespace Repository
variable {E S : Type} (repo : Repository E S)

/-- `create`. -/
def create (rows : List E) (entity : E) : Except PyError (List E) := do
  let row ← repo.store rows entity
  return putBy repo.id rows row

/-- `_enable_capability`, `_disable_capability` and their like for providers. -/
def setEnabled (rows : List E) (id : NonEmptyString) (enabled : Bool) (now : Instant) :
    Except PyError (List E) :=
  match lastBy repo.id rows id with
  | some entity => .ok (putBy repo.id rows (repo.withEnabled enabled now entity))
  | none =>
      let verb := if enabled then "enable" else "disable"
      .error (gitOpsConfigError s!"cannot {verb} missing {repo.entityType}: {id.1}")

/-- The write, for a creation or where more than `enabled` changes. -/
def upsert (now : Instant) (rows : List E) (operation : Operation S) (desired : S)
    (existing : Option E) : Except PyError (List E) :=
  if operation.action = .create || hasNonEnabledChange operation then
    repo.create rows (repo.fromSnapshot desired now existing)
  else .ok rows

def switch (now : Instant) (rows : List E) (id : NonEmptyString) (desired current : Bool) :
    Except PyError (List E) :=
  if desired ≠ current then repo.setEnabled rows id desired now else .ok rows

/-- `_apply_capability_operation` and `_apply_provider_operation`. -/
def applyOperation (now : Instant) (rows : List E) (operation : Operation S) :
    Except PyError (List E) :=
  match operation.action, operation.desired with
  | .delete, _ => repo.setEnabled rows operation.entityId false now
  | action, none => .error (gitOpsConfigError
      s!"{action.value} {repo.entityType} {operation.entityId.1} has no desired snapshot")
  | action, some desired => do
      let existing := lastBy repo.id rows operation.entityId
      if action = .update && existing.isNone then
        .error (gitOpsConfigError
          s!"cannot update missing {repo.entityType}: {operation.entityId.1}")
      else do
        let rows ← repo.upsert now rows operation desired existing
        repo.switch now rows operation.entityId (repo.desiredEnabled desired)
          ((existing.map repo.enabled).getD true)

end Repository

/-- `_apply_operation`. -/
def applyPlanOperation (db : Database) (now : Instant) (tables : Tables) :
    PlanOperation → Except PyError Tables
  | .capability operation => do
      let capabilities ← (capabilityRepository db).applyOperation now tables.capabilities operation
      return { tables with capabilities }
  | .provider operation => do
      let providers ← (providerRepository db tables.capabilities).applyOperation now
        tables.providers operation
      return { tables with providers }

def PlanOperation.isDestructive : PlanOperation → Bool
  | .capability operation => operation.action = .delete || operation.destructive
  | .provider operation => operation.action = .delete || operation.destructive

/-- `has_destructive_changes`. -/
def ReconcilePlan.hasDestructiveChanges (plan : ReconcilePlan) : Bool :=
  plan.operations.any PlanOperation.isDestructive

def PlanOperation.label : PlanOperation → String
  | .capability operation => s!"{operation.action.value}:capability:{operation.entityId.1}"
  | .provider operation => s!"{operation.action.value}:provider:{operation.entityId.1}"

structure GitOpsApplyResult where
  plan : ReconcilePlan
  dryRun : Bool
  applied : Bool
  appliedOperations : List String

/-- What an apply is given besides the plan: the pool, if any, the clock of each operation, and
the audit writer. -/
structure ApplyContext where
  db : Database
  pool : Bool
  clock : PlanOperation → Instant
  audit : PlanOperation → Except PyError Unit

def applyOperations (context : ApplyContext) (operations : List PlanOperation) (tables : Tables) :
    Except PyError Tables :=
  operations.foldlM (fun tables operation => do
    let tables ← applyPlanOperation context.db (context.clock operation) tables operation
    context.audit operation
    return tables) tables

/-- `apply_plan`, with the tables where it completes. -/
def applyPlan (context : ApplyContext) (plan : ReconcilePlan) (dryRun allowDelete : Bool)
    (tables : Tables) : Except PyError (GitOpsApplyResult × Tables) :=
  if dryRun then .ok (⟨plan, true, false, []⟩, tables)
  else if plan.hasDestructiveChanges && !allowDelete then
    .error ⟨"GitOpsDestructiveChangeError",
      "plan contains delete operations; pass allow_delete=True to apply"⟩
  else if !context.pool then
    .error (gitOpsConfigError "pool is required when applying a GitOps plan")
  else do
    let tables ← applyOperations context plan.operations tables
    return (⟨plan, false, true, plan.operations.map PlanOperation.label⟩, tables)

end Pitwall.Gitops
