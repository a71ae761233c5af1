import Pitwall.Core.Json
import Pitwall.Core.Text
import Pitwall.Library.Traversal
set_option autoImplicit false

/-!
The bearer tokens of the API: which scopes a token is granted, which one a request needs, and
what the middleware does with the request.
-/

namespace Pitwall

structure HttpScope where
  method : String
  path : String
  headers : List (String × String)
  names_lower : ∀ h ∈ headers, asciiLower h.1 = h.1

/-- `_headers(scope).get(name)`: of headers with one name the last counts. -/
def HttpScope.header (scope : HttpScope) (name : String) : Option String :=
  (scope.headers.reverse.find? fun h => asciiLower h.1 = name).map Prod.snd

/-- `str.partition(" ")`, where there is a space. -/
def partitionSpace (s : String) : Option (String × String) :=
  match s.toList.span (· ≠ ' ') with
  | (_, []) => none
  | (scheme, _ :: token) => some (String.ofList scheme, String.ofList token)

/-- `_bearer_token`. -/
def bearerToken (scope : HttpScope) : Option String :=
  match partitionSpace ((scope.header "authorization").getD "") with
  | some (scheme, token) => if asciiLower scheme = "bearer" then some token else none
  | none => none

def readScope : String := "read"
def spendScope : String := "spend"
def leaseMutationScope : String := "lease:mutate"
def webhookAdminScope : String := "webhook:admin"
def serverAdminScope : String := "server:admin"

/-- `_PUBLIC_HEALTH_PATHS`. -/
def publicHealthPaths : List String :=
  ["/health", "/healthz", "/metrics", "/ready", "/readiness", "/readyz", "/v1/health"]

/-- The path is `root`, or lies below it. -/
def atOrBelow (root path : String) : Bool := path = root || (root ++ "/").isPrefixOf path

/-- `_required_scope`. -/
def requiredScope (method path : String) : String :=
  let method := asciiUpper method
  if atOrBelow "/v1/admin" path then serverAdminScope
  else if atOrBelow "/v1/webhook-subscriptions" path then webhookAdminScope
  else if path = "/v1/inference" ∨ "/v1/openai/".isPrefixOf path then spendScope
  else if path = "/v1/jobs" ∧ method = "POST" then spendScope
  else if "/v1/jobs/".isPrefixOf path ∧ method ∈ ["POST", "PATCH", "DELETE"] then spendScope
  else if path = "/v1/leases" ∧ method = "POST" then spendScope
  else if "/v1/leases/".isPrefixOf path ∧ method ∈ ["POST", "PATCH", "DELETE"] then
    leaseMutationScope
  else readScope

/-- `hmac.compare_digest` of two texts. -/
def compareDigest (a b : String) : Except PyError Bool :=
  if a.toList.all (fun c => c.toNat < 128) ∧ b.toList.all (fun c => c.toNat < 128) then
    .ok (decide (a = b))
  else .error ⟨"TypeError", "comparing strings with non-ASCII characters is not supported"⟩

/-- `BearerTokenAuthorizer`: the tokens with the scopes they are granted. -/
structure BearerTokenAuthorizer where
  entries : List (String × List String)

def BearerTokenAuthorizer.enabled (authorizer : BearerTokenAuthorizer) : Bool :=
  !authorizer.entries.isEmpty

/-- The loop of `scopes_for`: a later match replaces an earlier one. -/
def matchScopes (token : String) : List (String × List String) → Option (List String) →
    Except PyError (Option (List String))
  | [], matched => .ok matched
  | (candidate, scopes) :: entries, matched => do
      let same ← compareDigest token candidate
      matchScopes token entries (if same then some scopes else matched)

/-- `scopes_for`. -/
def BearerTokenAuthorizer.scopesFor (authorizer : BearerTokenAuthorizer) (token : Option String) :
    Except PyError (Option (List String)) :=
  match token with
  | none => .ok none
  | some token => matchScopes token authorizer.entries none

inductive TokenVerdict where
  | forward
  | unauthorized
  | forbidden (requiredScope : String)
  deriving DecidableEq

/-- `ApiTokenMiddleware`, on an HTTP scope. -/
def apiTokenMiddleware (authorizer : BearerTokenAuthorizer) (scope : HttpScope) :
    Except PyError TokenVerdict :=
  if authorizer.enabled && decide (scope.path ∉ publicHealthPaths) then do
    let granted ← authorizer.scopesFor (bearerToken scope)
    let required := requiredScope scope.method scope.path
    match granted with
    | none => pure .unauthorized
    | some scopes => pure (if required ∈ scopes then .forward else .forbidden required)
  else pure .forward

end Pitwall
