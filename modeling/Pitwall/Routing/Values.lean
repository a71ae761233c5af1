import Mathlib.Data.String.Basic
import Pitwall.Core.Clock
import Pitwall.Core.Json
import Pitwall.Core.Providers
import Pitwall.Core.Text
import Pitwall.Library.DecimalContext
set_option autoImplicit false

/-!
What the router reads: Python values, provider records as models or as mappings, and the
accessors over both.
-/

namespace Pitwall.Routing

/-- A value in a provider record. A member of a string enumeration is the string it is equal
to. -/
inductive PyValue where
  | none
  | bool (b : Bool)
  | int (n : Int)
  | float (x : PyFloat)
  | str (s : String)
  | list (items : List PyValue)
  | tuple (items : List PyValue)
  | dict (entries : List (String × PyValue))
  | mappingProxy (entries : List (String × PyValue))
  /-- A datetime without a timezone names no instant. -/
  | datetime (utc : Option Instant)
  | other (typeName : String)

namespace PyValue

def typeName : PyValue → String
  | .none => "NoneType"
  | .bool _ => "bool"
  | .int _ => "int"
  | .float _ => "float"
  | .str _ => "str"
  | .list _ => "list"
  | .tuple _ => "tuple"
  | .dict _ => "dict"
  | .mappingProxy _ => "mappingproxy"
  | .datetime _ => "datetime.datetime"
  | .other name => name

/-- `isinstance(value, str)`. -/
def text? : PyValue → Option String
  | .str s => some s
  | _ => Option.none

/-- `isinstance(value, Mapping)`. -/
def mapping? : PyValue → Option (List (String × PyValue))
  | .dict entries | .mappingProxy entries => some entries
  | _ => Option.none

/-- `isinstance(value, Sequence)`, for a value that is not text. -/
def sequence? : PyValue → Option (List PyValue)
  | .list items | .tuple items => some items
  | _ => Option.none

/-- `value is not None`. -/
def isNone : PyValue → Bool
  | .none => true
  | _ => false

/-- `_first_present`. -/
def firstPresent : List PyValue → PyValue
  | [] => .none
  | v :: vs => if v.isNone then firstPresent vs else v

end PyValue

/-- The text functions of Python that the router calls: `str.lower`, `str.upper`,
`str.isdigit` of a character, `str(value)`, and the parsers behind `int`, `float`, `Decimal`
and `datetime.fromisoformat`. `str` fails on an integer beyond the digit limit. -/
structure PyString where
  lower : String → String
  upper : String → String
  isDigit : Char → Bool
  str : PyValue → Option String
  parseInt : String → Option Int
  parseFloat : String → Option PyFloat
  parseDecimal : String → Option DecimalNumber
  fromIsoformat : String → Option (Option Instant)

def valueError (message : String) : PyError := ⟨"ValueError", message⟩

namespace PyString
variable (text : PyString)

def strOrRaise (v : PyValue) : Except PyError String :=
  match text.str v with
  | some s => .ok s
  | none => .error (valueError "Exceeds the limit for integer string conversion")

/-- `Decimal(str(value))`, or nothing where it raises `InvalidOperation` or `ValueError`. The
text of a container starts with a bracket or a type name and never parses. -/
def decimalOf (v : PyValue) : Option DecimalNumber :=
  match v with
  | .list _ | .tuple _ | .dict _ | .mappingProxy _ => none
  | v => (text.str v).bind text.parseDecimal

/-- `int(value)`: a float is truncated. -/
def intOf : PyValue → Except PyError Int
  | .bool b => .ok (if b then 1 else 0)
  | .int n => .ok n
  | .float (.finite q) =>
      match Binary64.ofRat q with
      | .finite x => .ok (if 0 ≤ x.1 then ⌊x.1⌋ else ⌈x.1⌉)
      | _ => .error ⟨"OverflowError", "cannot convert float infinity to integer"⟩
  | .float (.infinite _) => .error ⟨"OverflowError", "cannot convert float infinity to integer"⟩
  | .float .nan => .error (valueError "cannot convert float NaN to integer")
  | .str s =>
      match text.parseInt s with
      | some n => .ok n
      | none => .error (valueError s!"invalid literal for int() with base 10: '{s}'")
  | v => .error ⟨"TypeError", "int() argument must be a string, a bytes-like object or a real " ++
      s!"number, not '{v.typeName}'"⟩

/-- `float(value)`, the float of an integer named by the integer. -/
def floatOf : PyValue → Except PyError PyFloat
  | .bool b => .ok (.finite (if b then 1 else 0))
  | .int n =>
      if (Binary64.ofRat n).isFinite then .ok (.finite n)
      else .error ⟨"OverflowError", "int too large to convert to float"⟩
  | .float x => .ok x
  | .str s =>
      match text.parseFloat s with
      | some x => .ok x
      | none => .error (valueError s!"could not convert string to float: '{s}'")
  | v => .error ⟨"TypeError",
      s!"float() argument must be a string or a real number, not '{v.typeName}'"⟩

end PyString

/-- `str.replace(old, new)` of one character. -/
def replaceChar (old new : Char) (s : String) : String :=
  String.ofList (s.toList.map fun c => if c = old then new else c)

/-- `str.split(sep)` at one character. -/
def splitAt (sep : Char) (s : String) : List String :=
  (s.toList.splitOn sep).map String.ofList

/-- `str.split()`. -/
def splitSpaces (s : String) : List String :=
  ((s.toList.splitOnP isSpace).filter (fun cs => cs ≠ [])).map String.ofList

/-- `dict.fromkeys(values)`, as a list. -/
def fromKeys (values : List String) : List String := values.eraseDups

inductive CapabilitySource where
  | api | mcp | yaml
  deriving DecidableEq

def CapabilitySource.value : CapabilitySource → String
  | .api => "api"
  | .mcp => "mcp"
  | .yaml => "yaml"

/-- The model `Provider` with all that it validates. -/
structure ProviderModel where
  id : String
  capabilityId : String
  name : String
  providerType : ProviderType
  runpodEndpointId : Option String
  runpodTemplateId : Option String
  region : Option String
  cloudType : Option String
  config : List (String × PyValue)
  priority : Nat
  enabled : Bool
  healthStatus : String
  consecutiveFailures : Nat
  cooldownTrips : Nat
  coldStartP50Ms : Option Nat
  coldStartP95Ms : Option Nat
  recentErrorRate : ℚ
  cooldownUntil : Option Instant
  source : CapabilitySource
  lastAppliedYamlHash : Option String
  updatedAt : Instant
  id_ne : id ≠ ""
  capabilityId_ne : capabilityId ≠ ""
  name_ne : name ≠ ""
  recentErrorRate_nonneg : 0 ≤ recentErrorRate
  recentErrorRate_le : recentErrorRate ≤ 1

def PyValue.ofText : Option String → PyValue
  | .some s => .str s
  | .none => .none

def PyValue.ofCount : Option Nat → PyValue
  | .some n => .int n
  | .none => .none

/-- The attributes of the model, which are also the entries of `model_dump(mode="python")`. -/
def ProviderModel.attributes (p : ProviderModel) : List (String × PyValue) :=
  [("id", .str p.id), ("capability_id", .str p.capabilityId), ("name", .str p.name),
    ("provider_type", .str p.providerType.value),
    ("runpod_endpoint_id", .ofText p.runpodEndpointId),
    ("runpod_template_id", .ofText p.runpodTemplateId),
    ("region", .ofText p.region), ("cloud_type", .ofText p.cloudType),
    ("config", .dict p.config), ("priority", .int p.priority), ("enabled", .bool p.enabled),
    ("health_status", .str p.healthStatus), ("consecutive_failures", .int p.consecutiveFailures),
    ("cooldown_trips", .int p.cooldownTrips), ("cold_start_p50_ms", .ofCount p.coldStartP50Ms),
    ("cold_start_p95_ms", .ofCount p.coldStartP95Ms),
    ("recent_error_rate", .float (.finite p.recentErrorRate)),
    ("cooldown_until",
      match p.cooldownUntil with
      | some t => .datetime (some t)
      | none => .none),
    ("source", .str p.source.value), ("last_applied_yaml_hash", .ofText p.lastAppliedYamlHash),
    ("updated_at", .datetime (some p.updatedAt))]

/-- `Provider | Mapping[str, Any]`. -/
inductive ProviderLike where
  | model (p : ProviderModel)
  | mapping (entries : List (String × PyValue))

namespace ProviderLike

def attribute? : ProviderLike → String → Option PyValue
  | .model p, key => p.attributes.lookup key
  | .mapping entries, key => entries.lookup key

/-- `_field`, with `None` for what is missing. The accessors of the scorer answer with a
sentinel there, which they treat as they treat `None`. -/
def field (p : ProviderLike) (key : String) : PyValue := (p.attribute? key).getD .none

/-- `_string_field`. -/
def stringField (p : ProviderLike) (key : String) : Option String :=
  nonEmpty (p.field key).text?

/-- `_config`. -/
def config (p : ProviderLike) : List (String × PyValue) :=
  ((p.field "config").mapping?).getD []

/-- `_config_value` of the planner and of the constraints, which also look under
`constraints`. -/
def configValue (p : ProviderLike) (key : String) : PyValue :=
  match p.config.lookup key with
  | some v => v
  | none =>
      match (p.config.lookup "constraints").bind PyValue.mapping? with
      | some constraints => (constraints.lookup key).getD .none
      | none => .none

/-- `_provider_id`. -/
def providerId (p : ProviderLike) : Except PyError String :=
  match p.stringField "id" with
  | some id => .ok id
  | none => .error (valueError "provider must include a non-empty id")

/-- `_provider_type`. -/
def providerType (p : ProviderLike) : Option String := p.stringField "provider_type"

end ProviderLike

structure Hints where
  latencySensitive : Bool
  costSensitive : Bool
  regionPreference : Option String
  deriving DecidableEq

def Hints.default : Hints := ⟨false, false, none⟩

structure RoutingRequest where
  capabilityName : String
  payloadBytes : Option Int
  requiredGpuClass : Option String
  requiredRegion : Option String
  requiredVolumeId : Option String
  hints : Option Hints
  capabilityId : Option String
  requiredCudaMin : Option String
  requiredCudaVersion : Option String
  stream : Bool
  deriving DecidableEq

/-- A capability, as far as the router and the resolver read it. -/
structure CapabilityModel where
  id : String
  name : String
  enabled : Bool
  deriving DecidableEq

end Pitwall.Routing
