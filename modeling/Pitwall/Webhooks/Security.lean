import Pitwall.Core.Json
import Pitwall.Library.NumberText
import Pitwall.Library.Urls
set_option autoImplicit false

/-!
Where a webhook may be sent: `resolve_webhook_target` and the POST to a pinned address.
-/

namespace Pitwall.Egress
open NumberText Url

/-- The exceptions of an attempt, as the dispatcher tells them apart: `WebhookTargetRejected`,
`TimeoutError` and `OSError`, and all others. -/
inductive Failure where
  | rejected (message : String)
  | transport (exc : PyError)
  | other (exc : PyError)
  deriving DecidableEq

def Ascii (s : List Char) : Prop := ∀ c ∈ s, isAscii c = true

/-- The addresses of the `ipaddress` module. -/
structure IpModule (Address : Type) where
  parse : List Char → Option Address
  compressed : Address → List Char
  isV4 : Address → Bool
  isGlobal : Address → Bool
  isLoopback : Address → Bool
  isPrivate : Address → Bool
  isLinkLocal : Address → Bool
  isMulticast : Address → Bool
  isReserved : Address → Bool
  isUnspecified : Address → Bool
  parse_compressed : ∀ a, parse (compressed a) = some a
  colon_iff : ∀ a, ':' ∈ compressed a ↔ isV4 a = false
  /-- The canonical form of a text without a scope does not end in a dot. -/
  compressed_last : ∀ s a, parse s = some a → '%' ∉ s →
    ∃ c, (compressed a).getLast? = some c ∧ c ≠ '.'
  /-- It consists of digits, `a` to `f`, colons and dots. -/
  compressed_chars : ∀ s a, parse s = some a → '%' ∉ s →
    ∀ c ∈ compressed a, c.isDigit = true ∨ c ∈ "abcdef:.".toList

/-- `str.lower`, `str.isdigit` of a character, `repr` of a text, the IDNA codec, the check of a
network location under NFKC, and how many digits `int` takes. -/
structure Unicode where
  lower : List Char → List Char
  isDigit : Char → Bool
  repr : List Char → String
  idna : List Char → Option (List Char)
  expandsBadly : List Char → Bool
  maxDigits : Nat
  lower_ascii : ∀ s, Ascii s → lower s = lowerAscii s
  lower_percent : ∀ s, '%' ∈ lower s → '%' ∈ s
  idna_ascii : ∀ s t, idna s = some t → Ascii t
  idna_of_ascii : ∀ s t, Ascii s → idna s = some t → t = s
  expandsBadly_ascii : ∀ s, Ascii s → expandsBadly s = false

structure ResolvedWebhookTarget where
  url : List Char
  hostname : List Char
  port : Nat
  requestTarget : List Char
  addresses : List (List Char)
  deriving DecidableEq

def valueError (message : String) : PyError := ⟨"ValueError", message⟩

section Netloc

def hostinfo (netloc : List Char) : List Char := netloc.rtakeWhile (· ≠ '@')

/-- `_hostinfo`: the host name and the text of the port. -/
def splitHost (netloc : List Char) : List Char × List Char :=
  if '[' ∈ hostinfo netloc then
    let (hostname, port) := splitFirst ']' (splitFirst '[' (hostinfo netloc)).2
    (hostname, (splitFirst ':' port).2)
  else splitFirst ':' (hostinfo netloc)

def isHexChar (c : Char) : Bool :=
  c.isDigit || ('a' ≤ c && c ≤ 'f') || ('A' ≤ c && c ≤ 'F')

/-- `re.match(r"\Av[a-fA-F0-9]+\..+\Z", hostname)`. -/
def isFutureAddress : List Char → Bool
  | 'v' :: rest =>
      !(rest.takeWhile isHexChar).isEmpty &&
        match rest.dropWhile isHexChar with
        | '.' :: _ :: _ => true
        | _ => false
  | _ => false

variable {Address : Type} (ip : IpModule Address) (unicode : Unicode)

/-- `_check_bracketed_host`. -/
def checkBracketedHost (hostname : List Char) : Option PyError :=
  if hostname.head? = some 'v' then
    if isFutureAddress hostname then none else some (valueError "IPvFuture address is invalid")
  else
    match ip.parse hostname with
    | none =>
        some (valueError
          s!"'{String.ofList hostname}' does not appear to be an IPv4 or IPv6 address")
    | some a =>
        if ip.isV4 a then some (valueError "An IPv4 address cannot be in brackets") else none

/-- `_check_bracketed_netloc`. -/
def checkBracketedNetloc (netloc : List Char) : Option PyError :=
  if '[' ∈ hostinfo netloc then
    let (before, bracketed) := splitFirst '[' (hostinfo netloc)
    let (hostname, port) := splitFirst ']' bracketed
    if before ≠ [] ∨ (port ≠ [] ∧ port.head? ≠ some ':') then some (valueError "Invalid IPv6 URL")
    else checkBracketedHost ip hostname
  else checkBracketedHost ip (splitFirst ':' (hostinfo netloc)).1

/-- The network locations that `urlsplit` refuses. -/
def refuses (netloc : List Char) : Option PyError :=
  if decide ('[' ∈ netloc) ≠ decide (']' ∈ netloc) then some (valueError "Invalid IPv6 URL")
  else
    (if '[' ∈ netloc then checkBracketedNetloc ip netloc else none).or
      (if unicode.expandsBadly netloc then
        some (valueError
          s!"netloc '{String.ofList netloc}' contains invalid characters under NFKC normalization")
      else none)

/-- The `hostname` of a split: what is behind a percent sign keeps its case. -/
def hostnameOf (netloc : List Char) : Option (List Char) :=
  let hostname := (splitHost netloc).1
  if hostname = [] then none
  else some (unicode.lower (hostname.takeWhile (· ≠ '%')) ++ hostname.dropWhile (· ≠ '%'))

/-- The `port` of a split. -/
def portOf (netloc : List Char) : Except PyError (Option Nat) :=
  let port := (splitHost netloc).2
  if port = [] then .ok none
  else if port.all Char.isDigit then
    match natOf unicode.maxDigits port with
    | none =>
        .error (valueError (s!"Exceeds the limit ({unicode.maxDigits} digits) for integer string " ++
          s!"conversion: value has {port.length} digits; use sys.set_int_max_str_digits() to " ++
          "increase the limit"))
    | some n =>
        if n ≤ 65535 then .ok (some n) else .error (valueError "Port out of range 0-65535")
  else .error (valueError s!"Port could not be cast to integer value as {unicode.repr port}")

end Netloc

section Resolution
variable {Address : Type} (ip : IpModule Address) (unicode : Unicode)

/-- `_public_ip`. -/
def publicIp (value : List Char) : Except Failure Address :=
  match ip.parse value with
  | none => .error (.rejected "webhook DNS returned an invalid IP address")
  | some address =>
      if !ip.isGlobal address || ip.isLoopback address || ip.isPrivate address ||
          ip.isLinkLocal address || ip.isMulticast address || ip.isReserved address ||
          ip.isUnspecified address then
        .error (.rejected "webhook target must resolve only to global addresses")
      else .ok address

def rstripDots (s : List Char) : List Char := s.rdropWhile (· = '.')

def isLocalhost (hostname : List Char) : Bool :=
  hostname = [] || hostname = "localhost".toList || ".localhost".toList.isSuffixOf hostname

/-- `hostname.replace(".", "").isdigit()`. -/
def isNumeric (hostname : List Char) : Bool :=
  let digits := hostname.filter (· ≠ '.')
  !digits.isEmpty && digits.all unicode.isDigit

/-- The end of `_normalized_hostname`. -/
def normalHost (hostname : List Char) : Except Failure (List Char) :=
  if isLocalhost hostname then .error (.rejected "localhost webhook targets are not allowed")
  else
    match ip.parse hostname with
    | some address => .ok (ip.compressed address)
    | none =>
        if isNumeric unicode hostname then
          .error (.rejected "encoded or non-canonical numeric hosts are not allowed")
        else
          match unicode.idna hostname with
          | some encoded => .ok encoded
          | none => .error (.rejected "webhook hostname is not valid IDNA")

/-- `_normalized_hostname`. -/
def normalizedHostname (netloc rawUrl : List Char) : Except Failure (List Char) :=
  match hostnameOf unicode netloc with
  | none => .error (.rejected "webhook URL must include a hostname")
  | some hostname =>
      if '@' ∈ netloc then
        .error (.rejected "webhook URL must not contain user information")
      else if '\\' ∈ rawUrl ∨ '%' ∈ hostname then
        .error (.rejected "webhook URL contains an ambiguous hostname")
      else normalHost ip unicode (unicode.lower (rstripDots hostname))

def displayHost (hostname : List Char) : List Char :=
  if ':' ∈ hostname then '[' :: (hostname ++ [']']) else hostname

abbrev Resolver := List Char → Nat → Except Failure (List (List Char))

/-- `raw_addresses`: the literal itself, or what the resolver answers. -/
def rawAddresses (resolver : Resolver) (hostname : List Char) (port : Nat) :
    Except Failure (List (List Char)) :=
  match ip.parse hostname with
  | some literal => .ok [ip.compressed literal]
  | none => resolver hostname port

def resolvedAddresses (resolver : Resolver) (hostname : List Char) (port : Nat) :
    Except Failure (List (List Char)) := do
  let rawAddresses ← rawAddresses ip resolver hostname port
  if rawAddresses = [] then .error (.rejected "webhook hostname returned no addresses")
  else
    let addresses ← rawAddresses.mapM (publicIp ip)
    pure (addresses.map ip.compressed).eraseDups

def requestedPort (netloc : List Char) : Except Failure Nat :=
  match portOf unicode netloc with
  | .error _ => .error (.rejected "webhook URL port is invalid")
  | .ok port =>
      -- Port 0 is no port to `or`.
      if port = none ∨ port = some 0 ∨ port = some 443 then .ok 443
      else .error (.rejected "webhook URL port is not allowed")

/-- `path or "/"`. -/
def rootedPath (path : List Char) : List Char := if path = [] then ['/'] else path

/-- `resolve_webhook_target`. -/
def resolveWebhookTarget (resolver : Resolver) (url : List Char) :
    Except Failure ResolvedWebhookTarget :=
  if url = [] ∨ url.any fun c => c.toNat < 32 then .error (.rejected "webhook URL is malformed")
  else
    match urlsplit (refuses ip unicode) url with
    | .error exc => .error (.other exc)
    | .ok parsed =>
        if unicode.lower parsed.scheme ≠ "https".toList then
          .error (.rejected "webhook URL must use HTTPS")
        else if parsed.fragment ≠ [] then
          .error (.rejected "webhook URL must not contain a fragment")
        else do
          let hostname ← normalizedHostname ip unicode parsed.netloc url
          let port ← requestedPort unicode parsed.netloc
          let addresses ← resolvedAddresses ip resolver hostname port
          let path := rootedPath parsed.path
          pure
            { url := urlunsplit ⟨"https".toList, displayHost hostname, path, parsed.query, []⟩
              hostname := hostname
              port := port
              requestTarget := path ++ queryPart parsed
              addresses := addresses }

end Resolution

section Post
variable {Address : Type} [DecidableEq Address] (ip : IpModule Address)

inductive NetEvent where
  | resolve (hostname : List Char)
  | connect (address : List Char) (port : Nat)
  | handshake (serverHostname : List Char)
  | request (target : List Char)
  deriving DecidableEq

/-- The network and the server: the peer of a connection, the TLS handshake, and the status of the
response. -/
structure Remote where
  connect : List Char → Nat → Except Failure (List Char)
  wrapSocket : List Char → Except Failure Unit
  response : List Char → Except Failure Int

/-- A control character or a blank, which `http.client` takes neither in a host nor in a target. -/
def isDisallowed (c : Char) : Bool := c.toNat ≤ 32 || c.toNat = 127

def invalidUrl (what : List Char) : Failure :=
  .other ⟨"InvalidURL", s!"URL can't contain control characters. '{String.ofList what}'"⟩

/-- `socket.create_connection`, which looks a host up that is no address. -/
def createConnection (remote : Remote) (host : List Char) (port : Nat) :
    List NetEvent × Except Failure (List Char) :=
  ((if ip.parse host = none then [.resolve host] else []) ++ [.connect host port],
    remote.connect host port)

/-- The `host` of an `http.client` connection. -/
def connectionHost (hostname : List Char) : List Char :=
  if hostname.head? = some '[' ∧ hostname.getLast? = some ']' then hostname.tail.dropLast
  else hostname

/-- `_PinnedHTTPSConnection.connect`. -/
def connectPinned (remote : Remote) (address host : List Char) (port : Nat) :
    List NetEvent × Except Failure Unit :=
  match createConnection ip remote address port with
  | (events, .error e) => (events, .error e)
  | (events, .ok peername) =>
      match publicIp ip peername with
      | .error e => (events, .error e)
      | .ok peer =>
          if ip.parse address ≠ some peer then
            (events, .error (.rejected "connected webhook peer did not match pinned DNS"))
          else (events ++ [.handshake host], remote.wrapSocket host)

def exchange (remote : Remote) (requestTarget : List Char) : List NetEvent × Except Failure Int :=
  if requestTarget.any isDisallowed then ([], .error (invalidUrl requestTarget))
  else if !requestTarget.all isAscii then
    ([], .error (.other ⟨"UnicodeEncodeError", "'ascii' codec can't encode characters"⟩))
  else ([.request requestTarget], remote.response requestTarget)

/-- `_post_pinned_sync`. -/
def postPinnedSync (remote : Remote) (target : ResolvedWebhookTarget) :
    List NetEvent × Except Failure Int :=
  match target.addresses with
  | [] => ([], .error (.other ⟨"IndexError", "tuple index out of range"⟩))
  | address :: _ =>
      let host := connectionHost target.hostname
      if host.any isDisallowed then ([], .error (invalidUrl host))
      else
        match connectPinned ip remote address host target.port with
        | (events, .error e) => (events, .error e)
        | (events, .ok ()) =>
            (events ++ (exchange remote target.requestTarget).1,
              (exchange remote target.requestTarget).2)

end Post

end Pitwall.Egress
