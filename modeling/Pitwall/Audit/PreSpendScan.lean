import Mathlib.Data.Finset.Insert
import Pitwall.Library.Regexes
import Pitwall.Routing.SemanticKey
set_option autoImplicit false

/-!
The scan of a payload before anything is spent on it: what it finds, decides and redacts. Texts are
lists of code points.
-/

namespace Pitwall.PreSpend
open JsonSyntax Routing.SemanticKey

inductive PreSpendDecision where
  | allow
  | redact
  | block
  deriving DecidableEq

inductive PreSpendFindingKind where
  | secret
  | pii
  deriving DecidableEq

structure PreSpendFinding where
  kind : PreSpendFindingKind
  rule : Codes
  path : Codes
  action : PreSpendDecision
  redactedPreview : Codes
  fingerprintSha256 : Codes

structure PreSpendPayloadScanResult (ν : Type) where
  decision : PreSpendDecision
  findings : List PreSpendFinding
  redactedPayload : JsonTree ν

def preSpendFindingLimit : Int := 32

def redactedSecret : Codes := codes "[REDACTED:secret]"

def redactedPrivateKey : Codes := codes "[REDACTED:private_key]"

def redactedEmail : Codes := codes "[REDACTED:email]"

/-- `\w`, letters that are one without their case, `str.lower` and `sha256(...).hexdigest()`. -/
structure TextFunctions where
  isWord : Nat → Bool
  sameCase : Nat → Nat → Bool
  lower : Codes → Codes
  hexdigest : Codes → Codes

section Patterns

def range (first last : Char) : Codes := List.range' first.toNat (last.toNat + 1 - first.toNat)

def digits : Codes := range '0' '9'

def letters : Codes := range 'A' 'Z' ++ range 'a' 'z'

def oneOf (members : Codes) : Regex Nat := .char fun c => c ∈ members

def noneOf (members : Codes) : Regex Nat := .char fun c => c ∉ members ∧ isSpaceCode c = false

def literal (s : String) : Regex Nat := .all ((codes s).map fun c => oneOf [c])

/-- `\b...{n,}\b` after a literal. -/
def tokenOf (front : Regex Nat) (members : Codes) (n : Nat) : Regex Nat :=
  .all [.boundary, front, .atLeast n (oneOf members), .boundary]

structure ValuePattern where
  kind : PreSpendFindingKind
  rule : Codes
  regex : Regex Nat
  replacement : Codes
  action : PreSpendDecision

/-- `_PRIVATE_KEY_RE`. -/
def privateKeyRe : Regex Nat :=
  let label := .star (oneOf (range 'A' 'Z' ++ digits ++ codes " ")) false
  .all [literal "-----BEGIN ", label, literal "PRIVATE KEY-----", .star (.char fun _ => true) true,
    literal "-----END ", label, literal "PRIVATE KEY-----"]

variable (text : TextFunctions)

def oneOfAnyCase (members : Codes) : Regex Nat := .char fun c => members.any (text.sameCase c)

def literalAnyCase (s : String) : Regex Nat :=
  .all ((codes s).map fun c => oneOfAnyCase text [c])

/-- `_LABELED_CLOUD_SECRET_ASSIGNMENT_RE`. -/
def labeledCloudSecretAssignmentRe : Regex Nat :=
  let literals := fun names : List String => .any (names.map (literalAnyCase text))
  let spaces := .star (.char isSpaceCode) false
  .all [.boundary,
    .any [
      .seq (literalAnyCase text "AWS_") (literals
        ["SECRET_ACCESS_KEY", "SECRET_KEY", "SESSION_TOKEN", "SECURITY_TOKEN", "ACCESS_TOKEN"]),
      .seq (literalAnyCase text "R2_") (literals
        ["SECRET_ACCESS_KEY", "SECRET_KEY", "SESSION_TOKEN", "ACCESS_KEY", "ACCESS_TOKEN"])],
    .boundary, spaces, oneOf (codes "=:"), spaces,
    .any [
      .all [oneOf (codes "\""), .atLeast 8 (noneOf (codes "\"")), oneOf (codes "\"")],
      .all [oneOf (codes "'"), .atLeast 8 (noneOf (codes "'")), oneOf (codes "'")],
      .atLeast 8 (oneOfAnyCase text (letters ++ digits ++ codes "-._/+=:"))]]

/-- The pattern of `bearer_token`. -/
def bearerTokenRe : Regex Nat :=
  .all [.behind 7 (.seq .boundary (literalAnyCase text "Bearer ")),
    .atLeast 20 (oneOfAnyCase text (letters ++ digits ++ codes "._-")), .boundary]

def secretPattern (rule : String) (regex : Regex Nat) (replacement : Codes) : ValuePattern :=
  ⟨.secret, codes rule, regex, replacement, .block⟩

/-- `_SECRET_VALUE_PATTERNS`. -/
def secretValuePatterns : List ValuePattern :=
  [secretPattern "private_key" privateKeyRe redactedPrivateKey,
    secretPattern "labeled_cloud_secret_assignment" (labeledCloudSecretAssignmentRe text)
      redactedSecret,
    secretPattern "openai_style_token"
      (tokenOf (literal "sk-") (letters ++ digits ++ codes "._-") 16) redactedSecret,
    secretPattern "github_pat"
      (tokenOf (literal "github_pat_") (letters ++ digits ++ codes "_") 20) redactedSecret,
    secretPattern "github_token"
      (tokenOf (.all [literal "gh", oneOf (codes "pousr"), literal "_"]) (letters ++ digits) 20)
      redactedSecret,
    secretPattern "gitlab_token"
      (tokenOf (literal "glpat-") (letters ++ digits ++ codes "_-") 20) redactedSecret,
    secretPattern "slack_token"
      (tokenOf (.all [literal "xox", .optional (oneOf (codes "baprs")), literal "-"])
        (letters ++ digits ++ codes "-") 20)
      redactedSecret,
    secretPattern "aws_access_key_id"
      (.all [.boundary, literal "AKIA", .times (oneOf (digits ++ range 'A' 'Z')) 16, .boundary])
      redactedSecret,
    secretPattern "bearer_token" (bearerTokenRe text) redactedSecret]

/-- `_EMAIL_RE`. -/
def emailRe : Regex Nat :=
  let word := letters ++ digits ++ codes ".!#$%&'*+/=?^_\x60\x7b|\x7d~-"
  let label := .atLeast 1 (oneOf (letters ++ digits ++ codes "-"))
  .all [.notBehind 1 (oneOf word), .atLeast 1 (oneOf word), literal "@", label,
    .atLeast 1 (.seq (literal ".") label), .notAhead (oneOf word)]

def valuePatterns : List ValuePattern :=
  secretValuePatterns text ++ [⟨.pii, codes "email", emailRe, redactedEmail, .redact⟩]

end Patterns

/-- `_SECRET_FIELD_NAMES`. -/
def secretFieldNames : List Codes :=
  ["api_key", "apikey", "authorization", "bearer_token", "credential", "credentials", "password",
    "secret", "secret_key", "token"].map codes

/-- `_NON_SECRET_FIELD_NAMES`. -/
def nonSecretFieldNames : List Codes :=
  ["capability", "capability_id", "capability_name", "completion_tokens", "dry_run",
    "idempotency_key", "input_tokens", "max_completion_tokens", "max_new_tokens",
    "max_output_tokens", "max_tokens", "output_tokens", "prompt_tokens", "provider_id",
    "return_colbert", "return_dense", "return_sparse"].map codes

def secretTokens : List Codes :=
  ["api_key", "access_key", "auth_token", "bearer", "credential", "password", "secret"].map codes

/-- `_preview`. -/
def preview (value : Codes) : Codes :=
  if value.length ≤ 96 then value else value.take 93 ++ codes "..."

structure Match where
  kind : PreSpendFindingKind
  rule : Codes
  path : Codes
  action : PreSpendDecision
  matched : Codes
  redactedText : Codes

structure ScanState where
  findings : List PreSpendFinding
  decisions : Finset PreSpendDecision

section Scan
variable (text : TextFunctions) {ν : Type}

/-- `_is_secret_field_name`. -/
def isSecretFieldName : Option Codes → Bool
  | none => false
  | some fieldName =>
      let normalized := (text.lower (Whitespace.strip isSpaceCode fieldName)).map fun c =>
        if c = '-'.toNat then '_'.toNat else c
      if normalized ∈ nonSecretFieldNames then false
      else if normalized ∈ secretFieldNames then true
      else secretTokens.any fun token => token <:+: normalized

/-- `_child_path`. -/
def childPath (parent key : Codes) : Codes :=
  let isIdentifier := match key with
    | [] => false
    | c :: rest =>
        decide (c ∈ letters ++ codes "_") && rest.all (· ∈ letters ++ digits ++ codes "_")
  if isIdentifier then parent ++ codes "." ++ key
  else parent ++ codes "[" ++ writeString key ++ codes "]"

variable (maxFindings : Int)

/-- `_record_pre_spend_finding`. -/
def recordPreSpendFinding (st : ScanState) (m : Match) : Except PyError ScanState :=
  let decisions := insert m.action st.decisions
  if maxFindings ≤ st.findings.length then .ok ⟨st.findings, decisions⟩
  else
    (encodeUtf8 m.matched).map fun encoded =>
      ⟨st.findings ++ [⟨m.kind, m.rule, m.path, m.action, preview m.redactedText,
        text.hexdigest encoded⟩], decisions⟩

/-- `_redact_pattern`. -/
def redactPattern (path : Codes) (pattern : ValuePattern) (value : Codes) (st : ScanState) :
    Except PyError (Codes × ScanState) :=
  ((pattern.regex.found text.isWord value).foldlM (fun st matched =>
      recordPreSpendFinding text maxFindings st
        ⟨pattern.kind, pattern.rule, path, pattern.action, matched, pattern.replacement⟩) st).map
    fun st => (pattern.regex.sub text.isWord pattern.replacement value, st)

/-- `_scan_pre_spend_string`. -/
def scanPreSpendString (path : Codes) (fieldName : Option Codes) (value : Codes) (st : ScanState) :
    Except PyError (Codes × ScanState) :=
  if isSecretFieldName text fieldName = true ∧ Whitespace.strip isSpaceCode value ≠ [] then
    (recordPreSpendFinding text maxFindings st
      ⟨.secret, codes "secret_field", path, .block, value, redactedSecret⟩).map
        fun st => (redactedSecret, st)
  else
    (valuePatterns text).foldlM (fun (redacted, st) pattern =>
      redactPattern text maxFindings path pattern redacted st) (value, st)

mutual
/-- `_scan_pre_spend_value` of a payload whose objects have their names in order. -/
def scanPreSpendValue (path : Codes) (fieldName : Option Codes) :
    JsonTree ν → ScanState → Except PyError (JsonTree ν × ScanState)
  | .str value, st =>
      (scanPreSpendString text maxFindings path fieldName value st).map fun (redacted, st) =>
        (.str redacted, st)
  | .obj fields, st =>
      (scanPreSpendFields path fields st).map fun (redacted, st) => (.obj redacted, st)
  | .arr items, st =>
      (scanPreSpendItems path 0 items st).map fun (redacted, st) => (.arr redacted, st)
  | .atom a, st => .ok (.atom a, st)

def scanPreSpendFields (path : Codes) : List (Codes × JsonTree ν) → ScanState →
    Except PyError (List (Codes × JsonTree ν) × ScanState)
  | [], st => .ok ([], st)
  | (key, value) :: fields, st => do
      let (redacted, st) ← scanPreSpendValue (childPath path key) (some key) value st
      let (others, st) ← scanPreSpendFields path fields st
      .ok ((key, redacted) :: others, st)

def scanPreSpendItems (path : Codes) : Nat → List (JsonTree ν) → ScanState →
    Except PyError (List (JsonTree ν) × ScanState)
  | _, [], st => .ok ([], st)
  | index, item :: items, st => do
      let itemPath := path ++ codes "[" ++ codes (toString index) ++ codes "]"
      let (redacted, st) ← scanPreSpendValue itemPath none item st
      let (others, st) ← scanPreSpendItems path (index + 1) items st
      .ok (redacted :: others, st)
end

/-- `scan_pre_spend_payload`. -/
def scanPreSpendPayload (payload : JsonTree ν) : Except PyError (PreSpendPayloadScanResult ν) :=
  (scanPreSpendValue text maxFindings (codes "$") none (sortKeys payload) ⟨[], ∅⟩).map
    fun (redacted, st) =>
      let decision :=
        if .block ∈ st.decisions then .block
        else if .redact ∈ st.decisions then .redact
        else .allow
      ⟨decision, st.findings, redacted⟩

end Scan

end Pitwall.PreSpend
