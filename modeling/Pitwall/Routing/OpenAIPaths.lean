import Pitwall.Library.PercentDecoding
import Pitwall.Library.Traversal
import Pitwall.Library.Urls
import Pitwall.Routing.Values
set_option autoImplicit false

/-!
`build_openai_url` and the check of a client's path.
-/

namespace Pitwall.Routing.OpenAI
open Percent Url

section Normpath

/-- One component of `posixpath.normpath`. -/
def pushComponent (rooted : Bool) (kept : List (List Char)) (comp : List Char) :
    List (List Char) :=
  if comp = [] ∨ comp = ['.'] then kept
  else if comp ≠ ['.', '.'] ∨ (rooted = false ∧ kept = []) ∨ kept.getLast? = some ['.', '.'] then
    kept ++ [comp]
  else kept.dropLast

/-- `posixpath.normpath`. Two slashes in front stay, unless there are more. -/
def normpath (path : List Char) : List Char :=
  if path = [] then ['.']
  else
    let slashes :=
      if path.take 1 ≠ ['/'] then 0
      else if path.take 2 = ['/', '/'] ∧ path.take 3 ≠ ['/', '/', '/'] then 2
      else 1
    let comps := (path.splitOn '/').foldl (pushComponent (0 < slashes)) []
    let result := List.replicate slashes '/' ++ ['/'].intercalate comps
    if result = [] then ['.'] else result

end Normpath

section Paths

/-- What `urlsplit` raises for a network location that has brackets or is not ASCII. -/
abbrev NetlocError := List Char → Option PyError

variable (netlocError : NetlocError)

def refusesNetloc (netloc : List Char) : Option PyError :=
  if netloc.all fun c => c.toNat < 128 && c ≠ '[' && c ≠ ']' then none else netlocError netloc

def openaiProxyPathError : PyError :=
  valueError "OpenAI proxy path must be a normalized relative path"

/-- `_raise_for_unsafe_openai_path`. -/
def raiseForUnsafeOpenaiPath (path : List Char) (allowLeadingSlash : Bool) :
    Except PyError Unit := do
  let parsed ← urlsplit (refusesNetloc netlocError) path
  if '\\' ∈ path ∨ path.take 2 = ['/', '/'] ∨ parsed.scheme ≠ [] ∨ parsed.netloc ≠ [] then
    .error openaiProxyPathError
  else if allowLeadingSlash = false ∧ path.head? = some '/' then .error openaiProxyPathError
  else .ok ()

/-- The path without its leading slashes and the `v1/` behind them. -/
def relativePath (path : List Char) : List Char :=
  let path := path.dropWhile (· = '/')
  if ['v', '1', '/'] <+: path then path.drop 3 else path

/-- Whether a segment between separators is `.` or `..`. -/
def hasDotSegment (isSep : Char → Bool) (text : List Char) : Bool :=
  (text.splitOnP isSep).any fun segment => segment = ['.'] || segment = ['.', '.']

def normalizedPath (path : List Char) : Except PyError (List Char) :=
  let decoded := unquote path
  if decoded.take 2 = ['/', '/'] ∨ hasDotSegment (· == '/') decoded then
    .error openaiProxyPathError
  else
    let normalized := if normpath path = ['.'] then [] else normpath path
    if normalized.head? = some '/' ∨ normalized = ['.', '.'] ∨ ['.', '.', '/'] <+: normalized then
      .error openaiProxyPathError
    else .ok normalized

def targetPath (basePath normalized : List Char) : List Char :=
  stripSlashes basePath ++ '/' :: normalized

/-- `build_openai_url`. -/
def buildOpenaiUrl (openaiBaseUrl path : String) : Except PyError String := do
  raiseForUnsafeOpenaiPath netlocError path.toList true
  let path := relativePath path.toList
  raiseForUnsafeOpenaiPath netlocError path false
  let parsed ← urlsplit (refusesNetloc netlocError) path
  let normalized ← normalizedPath parsed.path
  let base ← urlsplit (refusesNetloc netlocError) (stripSlashes openaiBaseUrl.toList ++ ['/'])
  pure (String.ofList (urlunsplit
    { scheme := base.scheme
      netloc := base.netloc
      path := targetPath base.path normalized
      query := parsed.query
      fragment := parsed.fragment }))

/-- `validate_openai_proxy_path`. -/
def validateOpenaiProxyPath (path : String) : Except PyError Unit :=
  (fun _ => ()) <$> buildOpenaiUrl netlocError "https://validation.invalid/v1" path

end Paths

end Pitwall.Routing.OpenAI
