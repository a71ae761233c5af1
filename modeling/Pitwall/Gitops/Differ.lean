import Pitwall.Gitops.Models
import Pitwall.Library.Dictionary
import Pitwall.Library.Sorting
set_option autoImplicit false

/-!
`build_reconcile_plan`: the desired state against the current models of the registry.
-/

namespace Pitwall.Gitops
open Routing (CapabilitySource)
open Pricing (CostMode)

/-- `str.lower`, and `repr` of a text. -/
structure PlanText where
  lower : String → String
  repr : String → String

section Slug

def isSlugChar (c : Char) : Bool := ('a' ≤ c && c ≤ 'z') || ('0' ≤ c && c ≤ '9')

/-- `_SLUG_RE.sub("_", text)`, from a place that may be within a run of other characters. -/
def slugRuns : Bool → List Char → List Char
  | _, [] => []
  | within, c :: cs =>
      if isSlugChar c then c :: slugRuns false cs
      else if within then slugRuns true cs
      else '_' :: slugRuns true cs

/-- The slug of a name, `.strip("_")` at its end. -/
def slug (text : PlanText) (name : String) : String :=
  String.ofList (((slugRuns false (text.lower name).toList).dropWhile (· == '_')).rdropWhile
    (· == '_'))

theorem generatedId_ne (pre : String) (s : String) : pre ++ "_" ++ s ≠ "" := by
  intro h
  have hlength := congrArg String.length h
  simp at hlength

/-- `_id_from_name`. -/
def idFromName (text : PlanText) (pre : String) (name : String) :
    Except PyError NonEmptyString :=
  if slug text name = "" then
    .error (gitOpsConfigError (pre ++ " id cannot be generated from an empty name"))
  else .ok ⟨pre ++ "_" ++ slug text name, generatedId_ne pre _⟩

end Slug

def textValue : Option String → Json
  | some s => .str s
  | none => .null

structure CapabilitySnapshot where
  id : NonEmptyString
  name : NonEmptyString
  version : NonEmptyString
  capabilityClass : CapabilityClass
  description : Option String
  inputSchema : JsonObject
  outputSchema : JsonObject
  defaults : CapabilityDefaults
  costMode : CostMode
  hintsSupported : List CapabilityHint
  enabled : Bool
  source : CapabilitySource
  lastAppliedYamlHash : Option String

structure ProviderSnapshot where
  id : NonEmptyString
  capabilityId : NonEmptyString
  name : NonEmptyString
  providerType : ProviderType
  runpodEndpointId : Option String
  runpodTemplateId : Option String
  region : Option String
  cloudType : Option String
  config : JsonObject
  priority : Nat
  enabled : Bool
  source : CapabilitySource
  lastAppliedYamlHash : Option String

class Snapshot (S : Type) where
  entityType : String
  id : S → NonEmptyString
  name : S → NonEmptyString
  fields : S → List (String × Json)

/-- The entries of the snapshot, in the order of `_CAPABILITY_FIELDS`. -/
instance : Snapshot CapabilitySnapshot where
  entityType := "capability"
  id := CapabilitySnapshot.id
  name := CapabilitySnapshot.name
  fields s := [("id", .str s.id), ("name", .str s.name), ("version", .str s.version),
    ("class", .str s.capabilityClass.value), ("description", textValue s.description),
    ("input_schema", .obj s.inputSchema), ("output_schema", .obj s.outputSchema),
    ("defaults", s.defaults.modelDump), ("cost_mode", .str (costModeValue s.costMode)),
    ("hints_supported", .arr (s.hintsSupported.map fun hint => .str hint.value)),
    ("enabled", .bool s.enabled), ("source", .str s.source.value),
    ("last_applied_yaml_hash", textValue s.lastAppliedYamlHash)]

/-- The entries of the snapshot, in the order of `_PROVIDER_FIELDS`. -/
instance : Snapshot ProviderSnapshot where
  entityType := "provider"
  id := ProviderSnapshot.id
  name := ProviderSnapshot.name
  fields s := [("id", .str s.id), ("capability_id", .str s.capabilityId), ("name", .str s.name),
    ("provider_type", .str s.providerType.value),
    ("runpod_endpoint_id", textValue s.runpodEndpointId),
    ("runpod_template_id", textValue s.runpodTemplateId), ("region", textValue s.region),
    ("cloud_type", textValue s.cloudType), ("config", .obj s.config),
    ("priority", .int s.priority), ("enabled", .bool s.enabled), ("source", .str s.source.value),
    ("last_applied_yaml_hash", textValue s.lastAppliedYamlHash)]

/-- `_capability_snapshot`. -/
def CapabilityModel.snapshot (capability : CapabilityModel) : CapabilitySnapshot where
  id := capability.id
  name := capability.name
  version := capability.version
  capabilityClass := capability.capabilityClass
  description := capability.description
  inputSchema := capability.inputSchema
  outputSchema := capability.outputSchema
  defaults := capability.defaults
  costMode := capability.costMode
  hintsSupported := capability.hintsSupported
  enabled := capability.enabled
  source := capability.source
  lastAppliedYamlHash := capability.lastAppliedYamlHash

/-- `_provider_snapshot`. -/
def ProviderModel.snapshot (provider : ProviderModel) : ProviderSnapshot where
  id := provider.id
  capabilityId := provider.capabilityId
  name := provider.name
  providerType := provider.providerType
  runpodEndpointId := provider.runpodEndpointId
  runpodTemplateId := provider.runpodTemplateId
  region := provider.region
  cloudType := provider.cloudType
  config := provider.config
  priority := provider.priority
  enabled := provider.enabled
  source := provider.source
  lastAppliedYamlHash := provider.lastAppliedYamlHash

/-- `_is_yaml_owned`. -/
def isYamlOwned (source : CapabilitySource) (lastAppliedYamlHash : Option String) : Bool :=
  source = .yaml || lastAppliedYamlHash.isSome

def CapabilityModel.yamlOwned (capability : CapabilityModel) : Bool :=
  isYamlOwned capability.source capability.lastAppliedYamlHash

def ProviderModel.yamlOwned (provider : ProviderModel) : Bool :=
  isYamlOwned provider.source provider.lastAppliedYamlHash

structure FieldChange where
  current : Json
  desired : Json

/-- `_changes`. -/
def changes {S : Type} [Snapshot S] (current desired : S) : List (String × FieldChange) :=
  ((Snapshot.fields current).zip (Snapshot.fields desired)).filterMap fun pair =>
    if pair.1.2.pyEq pair.2.2 then none else some (pair.1.1, ⟨pair.1.2, pair.2.2⟩)

inductive PlanAction where
  | create | update | delete
  deriving DecidableEq

/-- A `PlanOperation` on one kind of entity. -/
structure Operation (S : Type) where
  action : PlanAction
  entityId : NonEmptyString
  name : NonEmptyString
  current : Option S
  desired : Option S
  changes : List (String × FieldChange)
  destructive : Bool

inductive PlanOperation where
  | capability (operation : Operation CapabilitySnapshot)
  | provider (operation : Operation ProviderSnapshot)

section Snapshots
variable {S Spec : Type} [Snapshot S]

/-- `_add_snapshot`. -/
def addSnapshot (snapshots : List S) (snapshot : S) : Except PyError (List S) :=
  let id := Snapshot.id snapshot
  let name := Snapshot.name snapshot
  if snapshots.any fun s => Snapshot.id s = id then
    .error (gitOpsConfigError s!"duplicate {Snapshot.entityType S} id: {id.1}")
  else
    match lastBy Snapshot.name snapshots name with
    | some existing => .error (gitOpsConfigError
        s!"duplicate {Snapshot.entityType S} name: {name.1} ({(Snapshot.id existing).1}, {id.1})")
    | none => .ok (snapshots ++ [snapshot])

def desiredSnapshots (snapshotOf : Spec → Except PyError S) (specs : List Spec) :
    Except PyError (List S) :=
  specs.foldlM (fun snapshots spec => do
    let snapshot ← snapshotOf spec
    addSnapshot snapshots snapshot) []

/-- The id of a declaration: declared, that of the current entity of its name, or generated. -/
def declaredId (text : PlanText) (kind pre : String) (id : Option String) (name : NonEmptyString)
    (currentByName : Option NonEmptyString) : Except PyError NonEmptyString :=
  match id, currentByName with
  | some id, some current =>
      if current.1 ≠ id then
        .error (gitOpsConfigError (s!"{kind} {text.repr name} already exists as {current.1}; " ++
          s!"cannot reconcile declared id {id}"))
      else .ok ((given (some id)).getD current)
  | _, _ =>
      match (given id).or currentByName with
      | some id => .ok id
      | none => idFromName text pre name

end Snapshots

/-- `_desired_capability_snapshots`. -/
def desiredCapabilitySnapshot (text : PlanText) (current : List CapabilityModel)
    (spec : DesiredCapabilitySpec) : Except PyError CapabilitySnapshot := do
  let id ← declaredId text "capability" "cap" spec.id spec.name
    ((lastBy CapabilityModel.name current spec.name).map CapabilityModel.id)
  return {
    id
    name := spec.name
    version := spec.version
    capabilityClass := spec.capabilityClass
    description := spec.description
    inputSchema := spec.inputSchema
    outputSchema := spec.outputSchema
    defaults := spec.defaults
    costMode := spec.costMode
    hintsSupported := spec.hintsSupported
    enabled := spec.enabled
    source := .yaml
    lastAppliedYamlHash := some spec.yamlHash }

/-- `_resolve_capability_id`. -/
def resolveCapabilityId (desired : List CapabilitySnapshot) (current : List CapabilityModel)
    (ref : NonEmptyString) : Except PyError NonEmptyString :=
  match lastBy CapabilitySnapshot.id desired ref with
  | some s => .ok s.id
  | none =>
    match lastBy CapabilityModel.id current ref with
    | some capability => .ok capability.id
    | none =>
      match lastBy CapabilitySnapshot.name desired ref with
      | some s => .ok s.id
      | none =>
        match lastBy CapabilityModel.name current ref with
        | some capability => .ok capability.id
        | none => .error (gitOpsConfigError s!"provider references unknown capability: {ref.1}")

/-- `_desired_provider_snapshots`. -/
def desiredProviderSnapshot (text : PlanText) (desiredCapabilities : List CapabilitySnapshot)
    (currentCapabilities : List CapabilityModel) (current : List ProviderModel)
    (spec : DesiredProviderSpec) : Except PyError ProviderSnapshot := do
  let id ← declaredId text "provider" "prov" spec.id spec.name
    ((lastBy ProviderModel.name current spec.name).map ProviderModel.id)
  let ref ← spec.capabilityRef
  let capabilityId ← resolveCapabilityId desiredCapabilities currentCapabilities ref
  return {
    id
    capabilityId
    name := spec.name
    providerType := spec.providerType
    runpodEndpointId := spec.runpodEndpointId
    runpodTemplateId := spec.runpodTemplateId
    region := spec.region
    cloudType := spec.cloudType
    config := spec.config
    priority := spec.priority
    enabled := spec.enabled
    source := .yaml
    lastAppliedYamlHash := some spec.yamlHash }

section Operations
variable {S E : Type} [Snapshot S]

def idBefore (a b : NonEmptyString) : Bool := decide (a.1 < b.1)

def createOperation (desired : S) : Operation S where
  action := .create
  entityId := Snapshot.id desired
  name := Snapshot.name desired
  current := none
  desired := some desired
  changes := []
  destructive := false

def updateOperation (current desired : S) : Operation S where
  action := .update
  entityId := Snapshot.id desired
  name := Snapshot.name desired
  current := some current
  desired := some desired
  changes := changes current desired
  destructive := false

def deleteOperation (current : S) : Operation S where
  action := .delete
  entityId := Snapshot.id current
  name := Snapshot.name current
  current := some current
  desired := none
  changes := []
  destructive := true

def desiredOperations (current desired : List S) : List (Operation S) :=
  (sortedBy (fun a b => idBefore (Snapshot.id a) (Snapshot.id b)) desired).filterMap fun snapshot =>
    match lastBy Snapshot.id current (Snapshot.id snapshot) with
    | none => some (createOperation snapshot)
    | some existing =>
        if (changes existing snapshot).isEmpty then none
        else some (updateOperation existing snapshot)

/-- The deletes of one kind of entity. The snapshot is found, as it is that of an entity. -/
def deleteOperations (snapshotOf : E → S) (yamlOwned : E → Bool) (current : List E)
    (desired : List S) : List (Operation S) :=
  let id (entity : E) : NonEmptyString := Snapshot.id (snapshotOf entity)
  (sortedBy (fun a b => idBefore (id a) (id b)) current).filterMap fun entity =>
    if !(desired.any fun s => Snapshot.id s = id entity) && yamlOwned entity then
      (lastBy Snapshot.id (current.map snapshotOf) (id entity)).map deleteOperation
    else none

end Operations

structure ReconcilePlan where
  operations : List PlanOperation

def planOperations (desiredCapabilities : List CapabilitySnapshot)
    (desiredProviders : List ProviderSnapshot) (currentCapabilities : List CapabilityModel)
    (currentProviders : List ProviderModel) : List PlanOperation :=
  (desiredOperations (currentCapabilities.map CapabilityModel.snapshot) desiredCapabilities).map
      .capability ++
    (desiredOperations (currentProviders.map ProviderModel.snapshot) desiredProviders).map
      .provider ++
    (deleteOperations ProviderModel.snapshot ProviderModel.yamlOwned currentProviders
      desiredProviders).map .provider ++
    (deleteOperations CapabilityModel.snapshot CapabilityModel.yamlOwned currentCapabilities
      desiredCapabilities).map .capability

/-- `build_reconcile_plan`. -/
def buildReconcilePlan (text : PlanText) (desired : DesiredState)
    (currentCapabilities : List CapabilityModel) (currentProviders : List ProviderModel) :
    Except PyError ReconcilePlan := do
  let desiredCapabilities ← desiredSnapshots (desiredCapabilitySnapshot text currentCapabilities)
    desired.capabilities
  let desiredProviders ← desiredSnapshots
    (desiredProviderSnapshot text desiredCapabilities currentCapabilities currentProviders)
    desired.providers
  return ⟨planOperations desiredCapabilities desiredProviders currentCapabilities
    currentProviders⟩

end Pitwall.Gitops
