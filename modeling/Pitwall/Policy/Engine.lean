import Mathlib
import Pitwall.Core.Json
import Pitwall.Library.Sorting
import Pitwall.Routing.SemanticKey
set_option autoImplicit false

/-!
Policy-as-Code: conditions over dotted paths into a configuration, and the violations that are
reported with their redacted values. Texts are lists of code points.
-/

namespace Pitwall.Policies
open Routing.SemanticKey

/-- `None`, truth values, numbers and what else is no text and no container. -/
inductive Scalar where
  | none
  | bool (b : Bool)
  | int (n : Int)
  | float (x : PyFloat)
  | decimal (text : Codes)
  | other (name : Codes)
  deriving DecidableEq

/-- A configuration: a `BaseModel` by its fields, another object by its own attributes (a bound
method of a text has its `__self__`), and a method that is called by what it returns. -/
inductive Value where
  | scalar (a : Scalar)
  | str (s : Codes)
  | enum (value : Codes)
  | seq (items : List Value)
  | map (fields : List (Codes × Value))
  | model (fields : List (Codes × Value))
  | obj (attributes : List (Codes × Value))
  | method (result : Value)

inductive PolicyTarget where
  | capability
  | provider
  | workload
  deriving DecidableEq

namespace PolicyTarget

def value : PolicyTarget → Codes
  | .capability => codes "capability"
  | .provider => codes "provider"
  | .workload => codes "workload"

end PolicyTarget

inductive PolicyOperator where
  | exists
  | notExists
  | equals
  | notEquals
  | in
  | notIn
  | contains
  | notContains
  | containsAll
  | containsNone
  | gte
  | lte
  | matches
  deriving DecidableEq

namespace PolicyOperator

def value : PolicyOperator → Codes
  | .exists => codes "exists"
  | .notExists => codes "not_exists"
  | .equals => codes "equals"
  | .notEquals => codes "not_equals"
  | .in => codes "in"
  | .notIn => codes "not_in"
  | .contains => codes "contains"
  | .notContains => codes "not_contains"
  | .containsAll => codes "contains_all"
  | .containsNone => codes "contains_none"
  | .gte => codes "gte"
  | .lte => codes "lte"
  | .matches => codes "matches"

end PolicyOperator

structure PolicyCondition where
  path : Codes
  operator : PolicyOperator
  value : Value

structure PolicyRule extends PolicyCondition where
  message : Option Codes

/-- What Python and pydantic do with texts and scalars: `str.lower`, `str(value)`, `==` of what are
no containers, `re.search`, `Decimal(text)` where it is finite, `getattr` of what is no mapping
for the attributes that come with its type, and the blanks that a model strips from its texts, no
letter among them. -/
structure TextFunctions where
  lower : Codes → Codes
  str : Value → Codes
  same : Value → Value → Bool
  search : Codes → Codes → Except PyError Bool
  decimal : Codes → Option ℚ
  typeAttribute : Value → Codes → Option Value
  blank : Nat → Bool
  letters : ∀ c, 97 ≤ c → c ≤ 122 → blank c = false

/-- A policy; its id is stripped and not empty. -/
structure Policy (blank : Nat → Bool) where
  id : Codes
  target : PolicyTarget
  when : List PolicyCondition
  rules : List PolicyRule
  nonblank : ∃ c ∈ id.head?, blank c = false

structure PolicyViolation where
  policyId : Codes
  target : PolicyTarget
  targetId : Codes
  path : Codes
  operator : PolicyOperator
  expected : Value
  actual : Value
  message : Codes

/-- `PolicyEvaluationResult`, its decision "allow" or "deny". -/
structure PolicyEvaluationResult where
  allowed : Bool
  decision : Codes
  violations : List PolicyViolation

structure TargetRecord where
  target : PolicyTarget
  targetId : Codes
  data : Value

/-- `_SENSITIVE_KEY_FRAGMENTS`. -/
def sensitiveKeyFragments : List Codes :=
  ["access_key", "api_key", "authorization", "bearer", "credential", "password", "secret",
    "session_token", "token"].map codes

def redacted : Codes := codes "[REDACTED]"

/-- `_preview`. -/
def preview (s : Codes) : Codes := if s.length ≤ 128 then s else s.take 125 ++ codes "..."

def field (fields : List (Codes × Value)) (name : Codes) : Option Value :=
  (fields.find? fun p => p.1 = name).map Prod.snd

def nameLt (p q : Codes × Value) : Bool := decide (p.1 < q.1)

mutual
/-- What `model_dump(mode="python")` makes of a value: models are mappings. -/
def dump : Value → Value
  | .model fields | .map fields => .map (dumpFields fields)
  | .seq items => .seq (dumpItems items)
  | v => v

def dumpFields : List (Codes × Value) → List (Codes × Value)
  | [] => []
  | (name, v) :: fields => (name, dump v) :: dumpFields fields

def dumpItems : List Value → List Value
  | [] => []
  | v :: items => dump v :: dumpItems items
end

/-- `_python_value`. -/
def pythonValue : Value → Value
  | .model fields => .map (dumpFields fields)
  | v => v

def segments (path : Codes) : List Codes := path.splitOn '.'.toNat

/-- `_normalize_scalar`. -/
def normalizeScalar : Value → Value
  | .enum value => .str value
  | v => v

mutual
/-- `_normalize_for_compare`. -/
def normalizeForCompare : Value → Value
  | .model fields | .map fields => .map (normalizeFields fields)
  | .seq items => .seq (normalizeItems items)
  | v => normalizeScalar v

def normalizeFields : List (Codes × Value) → List (Codes × Value)
  | [] => []
  | (name, v) :: fields => (name, normalizeForCompare v) :: normalizeFields fields

def normalizeItems : List Value → List Value
  | [] => []
  | v :: items => normalizeForCompare v :: normalizeItems items
end

/-- `_expected_members`. -/
def expectedMembers : Value → List Value
  | .map fields => fields.map fun p => .str p.1
  | .seq items => items.map normalizeScalar
  | .scalar .none => []
  | v => [normalizeScalar v]

/-- `_collection_members`. -/
def collectionMembers (v : Value) : List Value := expectedMembers (pythonValue v)

section Text
variable (text : TextFunctions)

/-- `getattr(value, name)`, where `hasattr` finds it. -/
def getattr (v : Value) (name : Codes) : Option Value :=
  match v with
  | .obj attributes => (field attributes name).or (text.typeAttribute v name)
  | v => text.typeAttribute v name

def readSegments : Value → List Codes → Option Value
  | v, [] => some v
  | v, segment :: rest =>
      match pythonValue v with
      | .map fields => (field fields segment).bind fun w => readSegments w rest
      | v => (getattr text v segment).bind fun w => readSegments w rest

/-- `_read_path`; nothing is `_MISSING`. -/
def readPath (source : Value) (path : Codes) : Option Value :=
  readSegments text source (segments path)

/-- `_value_for_key`. -/
def valueForKey (source : Value) (key : Codes) : Option Value :=
  (readPath text source key).map fun v =>
    match v with
    | .method result => result
    | v => v

/-- `str(value)`. -/
def strOf : Value → Codes
  | .str s => s
  | v => text.str v

mutual
/-- `==`. -/
def pyEq : Value → Value → Bool
  | .str s, .str t | .str s, .enum t | .enum s, .str t | .enum s, .enum t => decide (s = t)
  | .seq items, .seq others => pyEqItems items others
  | .map fields, .map others =>
      decide (fields.length = others.length) && pyEqFields fields others
  | v, w => text.same v w

def pyEqItems : List Value → List Value → Bool
  | [], [] => true
  | v :: items, w :: others => pyEq v w && pyEqItems items others
  | _, _ => false

def pyEqFields : List (Codes × Value) → List (Codes × Value) → Bool
  | [], _ => true
  | (name, v) :: fields, others =>
      (match field others name with
        | some w => pyEq v w
        | none => false) && pyEqFields fields others
end

def isIn (v : Value) (members : List Value) : Bool := members.any (pyEq text v)

/-- `_to_decimal`; nothing where it raises `ValueError`. -/
def toDecimal (v : Value) : Option ℚ :=
  match normalizeScalar v with
  | .scalar .none | .scalar (.bool _) => none
  | v => text.decimal (strOf text v)

/-- `_decimal_compare`. -/
def decimalCompare (actual expected : Value) (greaterOrEqual : Bool) : Bool :=
  match toDecimal text actual, toDecimal text expected with
  | some a, some e => if greaterOrEqual then decide (e ≤ a) else decide (a ≤ e)
  | _, _ => false

/-- `_condition_passes`. -/
def conditionPasses (condition : PolicyCondition) (data : Value) : Except PyError Bool :=
  let expected := condition.value
  match condition.operator, readPath text data condition.path with
  | .exists, none => .ok false
  | .exists, some actual => .ok !(actual matches .scalar .none)
  | .notExists, none => .ok true
  | .notExists, some actual => .ok (actual matches .scalar .none)
  | operator, none => .ok (decide (operator = .containsNone))
  | .equals, some actual =>
      .ok (pyEq text (normalizeForCompare actual) (normalizeForCompare expected))
  | .notEquals, some actual =>
      .ok !(pyEq text (normalizeForCompare actual) (normalizeForCompare expected))
  | .in, some actual => .ok (isIn text (normalizeScalar actual) (expectedMembers expected))
  | .notIn, some actual => .ok !(isIn text (normalizeScalar actual) (expectedMembers expected))
  | .contains, some actual => .ok (isIn text (normalizeScalar expected) (collectionMembers actual))
  | .notContains, some actual =>
      .ok !(isIn text (normalizeScalar expected) (collectionMembers actual))
  | .containsAll, some actual =>
      .ok ((expectedMembers expected).all fun member => isIn text member (collectionMembers actual))
  | .containsNone, some actual =>
      .ok !((expectedMembers expected).any fun member =>
        isIn text member (collectionMembers actual))
  | .gte, some actual => .ok (decimalCompare text actual expected true)
  | .lte, some actual => .ok (decimalCompare text actual expected false)
  | .matches, some actual =>
      text.search (strOf text expected) (strOf text (normalizeScalar actual))

/-- `_conditions_match`: no condition after one that fails is evaluated. -/
def conditionsMatch (data : Value) : List PolicyCondition → Except PyError Bool
  | [] => .ok true
  | condition :: conditions => do
      if ← conditionPasses text condition data then conditionsMatch data conditions
      else .ok false

/-- `_is_sensitive_key`. -/
def isSensitiveKey (key : Codes) : Bool :=
  let normalized := (text.lower (Whitespace.strip isSpaceCode key)).map fun c =>
    if c = '-'.toNat then '_'.toNat else c
  sensitiveKeyFragments.any fun fragment => fragment <:+: normalized

def safeText (fieldName : Option Codes) (s : Codes) : Codes :=
  if fieldName.any (isSensitiveKey text) then redacted else preview s

mutual
/-- `_safe_value`; a model is read as the mapping it is dumped to. -/
def safeValue (fieldName : Option Codes) : Value → Value
  | .model fields | .map fields => .map (sortedBy nameLt (safeFields fields))
  | .seq items => .seq (safeItems items)
  | .enum value => .str value
  | .scalar (.decimal s) => .str s
  | .str s => .str (safeText text fieldName s)
  | v => v

def safeFields : List (Codes × Value) → List (Codes × Value)
  | [] => []
  | (key, v) :: fields =>
      (key, if isSensitiveKey text key then .str redacted else safeValue (some key) v) ::
        safeFields fields

def safeItems : List Value → List Value
  | [] => []
  | v :: items => safeValue none v :: safeItems items
end

/-- `_sequence_from_config`. -/
def sequenceFromConfig (config : Value) (primary secondary : String) : List Value :=
  match (valueForKey text config (codes primary)).or (valueForKey text config (codes secondary)) with
  | none | some (.scalar .none) => []
  | some (.map fields) => fields.map Prod.snd
  | some (.seq items) => items
  | some v => [v]

/-- `_target_id`. -/
def targetId (target : Value) (fallback : Codes) (fieldNames : List String) : Codes :=
  let found := fieldNames.findSome? fun name =>
    match readPath text target (codes name) with
    | none | some (.scalar .none) => none
    | some v => if strOf text v = [] then none else some (strOf text (normalizeScalar v))
  found.getD fallback

def indexed (target : PolicyTarget) (fieldNames : List String) (items : List Value) :
    List TargetRecord :=
  items.zipIdx.map fun p =>
    let fallback := target.value ++ codes "[" ++ codes (toString p.2) ++ codes "]"
    ⟨target, targetId text p.1 fallback fieldNames, p.1⟩

/-- `_targets_for_policy`. -/
def targetsForPolicy (config : Value) : PolicyTarget → List TargetRecord
  | .capability =>
      match valueForKey text config (codes "capability") with
      | none | some (.scalar .none) => []
      | some capability =>
          [⟨.capability, targetId text capability (codes "capability")
            ["id", "name", "capability_id"], capability⟩]
  | .provider =>
      indexed text .provider ["id", "provider_id", "name", "capability_id"]
        (sequenceFromConfig text config "provider_fixtures" "providers")
  | .workload =>
      indexed text .workload ["id"] (sequenceFromConfig text config "workloads" "workload_fixtures")

/-- `_default_violation_message`. -/
def defaultViolationMessage (policy : Policy text.blank) (rule : PolicyRule) (targetId : Codes) :
    Codes :=
  policy.id ++ codes " failed for " ++ policy.target.value ++ codes " " ++ targetId ++ codes ": " ++
    rule.path ++ codes " must satisfy " ++ rule.operator.value

def ruleMessage (policy : Policy text.blank) (rule : PolicyRule) (targetId : Codes) : Codes :=
  match rule.message with
  | none | some [] => defaultViolationMessage text policy rule targetId
  | some message => message

def violationOf (policy : Policy text.blank) (target : TargetRecord) (rule : PolicyRule) :
    PolicyViolation :=
  let actual := match readPath text target.data rule.path with
    | none => .str (codes "<missing>")
    | some v => safeValue text (segments rule.path).getLast? v
  { policyId := Whitespace.strip text.blank policy.id
    target := target.target
    targetId := Whitespace.strip text.blank target.targetId
    path := Whitespace.strip text.blank rule.path
    operator := rule.operator
    expected := safeValue text none rule.value
    actual := actual
    message := Whitespace.strip text.blank (ruleMessage text policy rule target.targetId) }

def ruleViolations (policy : Policy text.blank) (target : TargetRecord) :
    List PolicyRule → Except PyError (List PolicyViolation)
  | [] => .ok []
  | rule :: rules => do
      let passes ← conditionPasses text rule.toPolicyCondition target.data
      let others ← ruleViolations policy target rules
      .ok (if passes then others else violationOf text policy target rule :: others)

def targetViolations (policy : Policy text.blank) (target : TargetRecord) :
    Except PyError (List PolicyViolation) := do
  if ← conditionsMatch text target.data policy.when then
    ruleViolations text policy target policy.rules
  else .ok []

/-- `PolicyEvaluationResult.from_violations`. -/
def fromViolations (violations : List PolicyViolation) : PolicyEvaluationResult :=
  ⟨violations.isEmpty, if violations.isEmpty then codes "allow" else codes "deny", violations⟩

def policyViolations (config : Value) (policy : Policy text.blank) :
    Except PyError (List PolicyViolation) :=
  ((targetsForPolicy text config policy.target).mapM (targetViolations text policy)).map
    List.flatten

/-- `evaluate_policies`. -/
def evaluatePolicies (policies : List (Policy text.blank)) (config : Value) :
    Except PyError PolicyEvaluationResult :=
  (policies.mapM (policyViolations text config)).map fun violations =>
    fromViolations violations.flatten

end Text

end Pitwall.Policies
