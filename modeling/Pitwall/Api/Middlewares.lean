import Pitwall.Api.Authorization
import Pitwall.Library.NumberText
set_option autoImplicit false

/-!
The two authenticating middlewares over what the server hands them, headers that are bytes, and
which requests they answer.
-/

namespace Pitwall

structure AsgiScope where
  method : String
  path : String
  headers : List (List UInt8 × List UInt8)

/-- The bytes of a `b"..."` literal. -/
def asciiBytes (s : String) : List UInt8 := s.toList.map fun c => c.toNat.toUInt8

/-- `bytes.decode("latin1")`: a character for each byte. -/
def latin1 (bytes : List UInt8) : String :=
  String.ofList (bytes.map fun byte => Char.ofNat byte.toNat)

/-- `bytes.decode()`: strict UTF-8. -/
def decodeUtf8 (bytes : List UInt8) : Except PyError String :=
  match String.fromUTF8? bytes.toByteArray with
  | some text => .ok text
  | none => .error ⟨"UnicodeDecodeError", "'utf-8' codec can't decode the header value"⟩

/-- The headers as `_bearer_token` reads them: names lowered, values decoded as Latin-1. -/
def AsgiScope.decoded (scope : AsgiScope) : HttpScope where
  method := scope.method
  path := scope.path
  headers := scope.headers.map fun h => (asciiLower (latin1 h.1), latin1 h.2)
  names_lower := by
    intro h hmem
    obtain ⟨raw, -, rfl⟩ := List.mem_map.1 hmem
    simp [asciiLower, Function.comp_def]

/-- `AdminSecretMiddleware` reads its header under one spelling only. -/
def AsgiScope.secretHeader (scope : AsgiScope) : List UInt8 :=
  ((scope.headers.reverse.find? fun h => h.1 = asciiBytes "x-pitwall-secret").map Prod.snd).getD []

inductive AdminVerdict where
  | forward
  | unauthorized (detail : String)
  deriving DecidableEq

/-- `AdminSecretMiddleware.__call__`. -/
def adminSecretMiddleware (secret : Option String) (scope : AsgiScope) :
    Except PyError AdminVerdict :=
  if atOrBelow "/v1/admin" scope.path then
    match secret with
    | none =>
        pure (.unauthorized "admin routes disabled: PITWALL_ADMIN_SECRET is not configured")
    | some secret => do
        let headerVal ← decodeUtf8 scope.secretHeader
        let same ← compareDigest headerVal secret
        pure (if same then .forward else .unauthorized "invalid or missing X-Pitwall-Secret")
  else pure .forward

def TokenVerdict.status : TokenVerdict → Option Nat
  | .forward => none
  | .unauthorized => some 401
  | .forbidden _ => some 403

def AdminVerdict.status : AdminVerdict → Option Nat
  | .forward => none
  | .unauthorized _ => some 401

def IsAscii (s : String) : Prop := ∀ c ∈ s.toList, c.toNat < 128

section Digests
variable {a b : String} {bytes : List UInt8}

theorem compareDigest_of_ascii (ha : IsAscii a) (hb : IsAscii b) :
    compareDigest a b = .ok (decide (a = b)) := by
  have hboth : a.toList.all (fun c => c.toNat < 128) ∧ b.toList.all (fun c => c.toNat < 128) :=
    ⟨by simpa [IsAscii, List.all_eq_true] using ha, by simpa [IsAscii, List.all_eq_true] using hb⟩
  rw [compareDigest, if_pos hboth]

theorem ascii_of_compareDigest {same : Bool} (h : compareDigest a b = .ok same) :
    IsAscii a ∧ IsAscii b ∧ same = decide (a = b) := by
  unfold compareDigest at h
  split at h
  · rename_i hboth
    obtain ⟨ha, hb⟩ := hboth
    refine ⟨?_, ?_, (Except.ok.inj h).symm⟩
    · simpa [IsAscii, List.all_eq_true] using ha
    · simpa [IsAscii, List.all_eq_true] using hb
  · cases h

theorem fromUTF8?_eq_some {b : ByteArray} {text : String} :
    String.fromUTF8? b = some text ↔ text.toByteArray = b := by
  unfold String.fromUTF8?
  split
  · rename_i h
    have heq : (String.fromUTF8 b h).toByteArray = b := rfl
    rw [Option.some_inj, ← String.toByteArray_inj, heq, eq_comm]
  · rename_i h
    simp only [reduceCtorEq, false_iff]
    rintro rfl
    exact h text.isValidUTF8

theorem decodeUtf8_eq_ok {text : String} :
    decodeUtf8 bytes = .ok text ↔ text.toByteArray = bytes.toByteArray := by
  rw [← fromUTF8?_eq_some, decodeUtf8]
  cases String.fromUTF8? bytes.toByteArray with
  | none => simp
  | some found => simp

theorem utf8EncodeChar_of_ascii {c : Char} (h : c.toNat < 128) :
    String.utf8EncodeChar c = [c.toNat.toUInt8] := by
  have hsize : c.utf8Size = 1 := by
    simp only [Char.utf8Size]
    rw [if_pos]
    rw [UInt32.le_iff_toNat_le]
    exact Nat.le_of_lt_succ h
  rw [String.utf8EncodeChar_eq_singleton hsize]
  rfl

theorem utf8Encode_of_ascii {text : String} (h : IsAscii text) :
    text.toByteArray = (asciiBytes text).toByteArray := by
  rw [← String.ofList_toList (s := text), String.toByteArray_ofList, List.utf8Encode,
    List.toByteArray_inj, String.ofList_toList, asciiBytes, List.map_eq_flatMap]
  exact List.flatMap_congr fun c hc => utf8EncodeChar_of_ascii (h c hc)

theorem toNat_latin1Char (byte : UInt8) : (Char.ofNat byte.toNat).toNat = byte.toNat := by
  have hlt := byte.toNat_lt
  have hvalid : byte.toNat.isValidChar := .inl (by omega)
  rw [Char.ofNat, dif_pos hvalid]
  exact UInt32.toNat_ofNatLT

theorem asciiBytes_latin1 : asciiBytes (latin1 bytes) = bytes := by
  simp [asciiBytes, latin1, Function.comp_def, toNat_latin1Char]

theorem decodeUtf8_ascii_iff :
    (∃ text, decodeUtf8 bytes = .ok text ∧ IsAscii text) ↔ ∀ byte ∈ bytes, byte.toNat < 128 := by
  constructor
  · rintro ⟨text, hdecode, hascii⟩ byte hmem
    rw [decodeUtf8_eq_ok, utf8Encode_of_ascii hascii, List.toByteArray_inj] at hdecode
    rw [← hdecode] at hmem
    obtain ⟨c, hc, rfl⟩ := List.mem_map.1 hmem
    have hlt := hascii c hc
    rw [Nat.toUInt8, UInt8.toNat_ofNat']
    omega
  · intro hbytes
    have hascii : IsAscii (latin1 bytes) := by
      intro c hc
      rw [latin1, String.toList_ofList] at hc
      obtain ⟨byte, hmem, rfl⟩ := List.mem_map.1 hc
      rw [toNat_latin1Char]
      exact hbytes byte hmem
    exact ⟨latin1 bytes, by rw [decodeUtf8_eq_ok, utf8Encode_of_ascii hascii, asciiBytes_latin1],
      hascii⟩

end Digests

section BearerTokens
variable {authorizer : BearerTokenAuthorizer} {scope : AsgiScope} {token : String}
  {entries : List (String × List String)} {matched granted : Option (List String)}

theorem matchScopes_of_ascii (htoken : IsAscii token) (hentries : ∀ e ∈ entries, IsAscii e.1) :
    ∃ granted, matchScopes token entries matched = .ok granted := by
  induction entries generalizing matched with
  | nil => exact ⟨matched, rfl⟩
  | cons e entries ih =>
    rw [matchScopes, compareDigest_of_ascii htoken (hentries e (List.mem_cons_self ..))]
    exact ih fun e he => hentries e (List.mem_cons_of_mem _ he)

theorem ascii_of_matchScopes (h : matchScopes token entries matched = .ok granted) :
    (entries ≠ [] → IsAscii token) ∧ ∀ e ∈ entries, IsAscii e.1 := by
  induction entries generalizing matched with
  | nil => exact ⟨fun hne => absurd rfl hne, fun e he => absurd he (List.not_mem_nil)⟩
  | cons e entries ih =>
    rw [matchScopes] at h
    cases hsame : compareDigest token e.1 with
    | error err =>
      rw [hsame] at h
      cases h
    | ok same =>
      rw [hsame] at h
      obtain ⟨htoken, hfirst, -⟩ := ascii_of_compareDigest hsame
      obtain ⟨-, hrest⟩ := ih h
      exact ⟨fun _ => htoken, List.forall_mem_cons.2 ⟨hfirst, hrest⟩⟩

theorem granted_of_matchScopes {scopes : List String}
    (h : matchScopes token entries matched = .ok (some scopes)) :
    matched = some scopes ∨ (token, scopes) ∈ entries := by
  induction entries generalizing matched with
  | nil => exact .inl (Except.ok.inj h)
  | cons e entries ih =>
    rw [matchScopes] at h
    cases hsame : compareDigest token e.1 with
    | error err =>
      rw [hsame] at h
      cases h
    | ok same =>
      rw [hsame] at h
      obtain ⟨-, -, rfl⟩ := ascii_of_compareDigest hsame
      rcases ih h with hmatched | hmem
      · by_cases heq : token = e.1
        · rw [decide_eq_true heq, if_pos rfl, Option.some_inj] at hmatched
          exact .inr (List.mem_cons.2 (.inl (Prod.ext heq hmatched.symm)))
        · rw [decide_eq_false heq, if_neg (by simp)] at hmatched
          exact .inl hmatched
      · exact .inr (List.mem_cons_of_mem _ hmem)

end BearerTokens

/-- The API middleware raises nothing, and a request that needs a token passes only with a
configured one whose grant holds the scope required. -/
def ApiFailsClosed (authorizer : BearerTokenAuthorizer) (scope : AsgiScope) : Prop :=
  ∃ verdict, apiTokenMiddleware authorizer scope.decoded = .ok verdict ∧
    (verdict ≠ .forward → verdict.status = some 401 ∨ verdict.status = some 403) ∧
    (verdict = .forward → authorizer.enabled = true → scope.path ∉ publicHealthPaths →
      ∃ token scopes, bearerToken scope.decoded = some token ∧
        (token, scopes) ∈ authorizer.entries ∧ requiredScope scope.method scope.path ∈ scopes)

/-- The admin middleware raises nothing, and an admin request passes only with the secret. -/
def AdminFailsClosed (secret : Option String) (scope : AsgiScope) : Prop :=
  ∃ verdict, adminSecretMiddleware secret scope = .ok verdict ∧
    (verdict ≠ .forward → verdict.status = some 401 ∨ verdict.status = some 403) ∧
    (verdict = .forward → atOrBelow "/v1/admin" scope.path = true →
      ∃ configured, secret = some configured ∧ decodeUtf8 scope.secretHeader = .ok configured)

/-- Where a presented token is compared, it and every configured token are ASCII. -/
def BearerComparable (authorizer : BearerTokenAuthorizer) (scope : AsgiScope) : Prop :=
  authorizer.entries ≠ [] → scope.path ∉ publicHealthPaths →
    ∀ token, bearerToken scope.decoded = some token →
      IsAscii token ∧ ∀ e ∈ authorizer.entries, IsAscii e.1

/-- Where the secret is compared, it and the bytes of the header are ASCII. -/
def SecretComparable (secret : Option String) (scope : AsgiScope) : Prop :=
  atOrBelow "/v1/admin" scope.path = true → ∀ configured, secret = some configured →
    IsAscii configured ∧ ∀ byte ∈ scope.secretHeader, byte.toNat < 128

section FailClosed
variable {authorizer : BearerTokenAuthorizer} {secret : Option String} {scope : AsgiScope}

theorem enabled_iff : authorizer.enabled = true ↔ authorizer.entries ≠ [] := by
  simp [BearerTokenAuthorizer.enabled]

theorem apiTokenMiddleware_open
    (hopen : ¬(authorizer.entries ≠ [] ∧ scope.path ∉ publicHealthPaths)) :
    apiTokenMiddleware authorizer scope.decoded = .ok .forward := by
  have hguard :
      ¬(authorizer.enabled && decide (scope.decoded.path ∉ publicHealthPaths)) = true := by
    rw [Bool.and_eq_true, enabled_iff, decide_eq_true_eq]
    exact hopen
  rw [apiTokenMiddleware, if_neg hguard]
  rfl

theorem apiTokenMiddleware_guarded (hentries : authorizer.entries ≠ [])
    (hpath : scope.path ∉ publicHealthPaths) :
    apiTokenMiddleware authorizer scope.decoded =
      (authorizer.scopesFor (bearerToken scope.decoded)).bind fun granted =>
        match granted with
        | none => .ok .unauthorized
        | some scopes =>
            .ok (if requiredScope scope.method scope.path ∈ scopes then .forward
              else .forbidden (requiredScope scope.method scope.path)) := by
  have hguard : (authorizer.enabled && decide (scope.decoded.path ∉ publicHealthPaths)) = true := by
    rw [Bool.and_eq_true, enabled_iff, decide_eq_true_eq]
    exact ⟨hentries, hpath⟩
  rw [apiTokenMiddleware, if_pos hguard]
  rfl

theorem apiFailsClosed_of_comparable (h : BearerComparable authorizer scope) :
    ApiFailsClosed authorizer scope := by
  by_cases hguard : authorizer.entries ≠ [] ∧ scope.path ∉ publicHealthPaths
  · obtain ⟨hentries, hpath⟩ := hguard
    have hverdict := apiTokenMiddleware_guarded hentries hpath
    cases htoken : bearerToken scope.decoded with
    | none =>
      rw [htoken] at hverdict
      exact ⟨.unauthorized, hverdict, fun _ => .inl rfl, fun hforward => by cases hforward⟩
    | some token =>
      obtain ⟨hascii, hall⟩ := h hentries hpath token htoken
      obtain ⟨granted, hgranted⟩ := @matchScopes_of_ascii token authorizer.entries none hascii hall
      rw [htoken, BearerTokenAuthorizer.scopesFor, hgranted] at hverdict
      cases granted with
      | none =>
        exact ⟨.unauthorized, hverdict, fun _ => .inl rfl, fun hforward => by cases hforward⟩
      | some scopes =>
        by_cases hscope : requiredScope scope.method scope.path ∈ scopes
        · refine ⟨.forward, hverdict.trans ?_, fun hne => absurd rfl hne, fun _ _ _ => ?_⟩
          · simp only [Except.bind, if_pos hscope]
          · rcases granted_of_matchScopes hgranted with hnone | hmem
            · cases hnone
            · exact ⟨token, scopes, htoken, hmem, hscope⟩
        · refine ⟨.forbidden (requiredScope scope.method scope.path), hverdict.trans ?_,
            fun _ => .inr rfl, fun hforward => by cases hforward⟩
          simp only [Except.bind, if_neg hscope]
  · refine ⟨.forward, apiTokenMiddleware_open hguard, fun hne => absurd rfl hne, ?_⟩
    intro _ henabled hpath
    exact absurd ⟨enabled_iff.1 henabled, hpath⟩ hguard

theorem bearerComparable_of_closed (h : ApiFailsClosed authorizer scope) :
    BearerComparable authorizer scope := by
  intro hentries hpath token htoken
  obtain ⟨verdict, hverdict, -, -⟩ := h
  rw [apiTokenMiddleware_guarded hentries hpath, htoken, BearerTokenAuthorizer.scopesFor]
    at hverdict
  cases hmatch : matchScopes token authorizer.entries none with
  | error err =>
    rw [hmatch] at hverdict
    cases hverdict
  | ok granted =>
    obtain ⟨hascii, hall⟩ := ascii_of_matchScopes hmatch
    exact ⟨hascii hentries, hall⟩

theorem adminSecretMiddleware_guarded {configured : String}
    (hadmin : atOrBelow "/v1/admin" scope.path = true) :
    adminSecretMiddleware (some configured) scope =
      (decodeUtf8 scope.secretHeader).bind fun text =>
        (compareDigest text configured).bind fun same =>
          .ok (if same then .forward
            else .unauthorized "invalid or missing X-Pitwall-Secret") := by
  rw [adminSecretMiddleware, if_pos hadmin]
  rfl

theorem adminFailsClosed_of_comparable (h : SecretComparable secret scope) :
    AdminFailsClosed secret scope := by
  by_cases hadmin : atOrBelow "/v1/admin" scope.path = true
  · cases secret with
    | none =>
      exact ⟨_, if_pos hadmin, fun _ => .inl rfl, fun hforward => by cases hforward⟩
    | some configured =>
      obtain ⟨hascii, hbytes⟩ := h hadmin configured rfl
      obtain ⟨text, hdecode, htext⟩ := decodeUtf8_ascii_iff.2 hbytes
      have hverdict := @adminSecretMiddleware_guarded scope configured hadmin
      rw [hdecode, Except.bind, compareDigest_of_ascii htext hascii, Except.bind] at hverdict
      by_cases heq : text = configured
      · rw [decide_eq_true heq, if_pos rfl] at hverdict
        rw [heq] at hdecode
        exact ⟨.forward, hverdict, fun hne => absurd rfl hne, fun _ _ => ⟨configured, rfl, hdecode⟩⟩
      · rw [decide_eq_false heq, if_neg Bool.false_ne_true] at hverdict
        exact ⟨_, hverdict, fun _ => .inl rfl, fun hforward => by cases hforward⟩
  · exact ⟨.forward, if_neg hadmin, fun hne => absurd rfl hne, fun _ hpath => absurd hpath hadmin⟩

theorem secretComparable_of_closed (h : AdminFailsClosed secret scope) :
    SecretComparable secret scope := by
  rintro hadmin configured rfl
  obtain ⟨verdict, hverdict, -, -⟩ := h
  rw [adminSecretMiddleware_guarded hadmin] at hverdict
  cases hdecode : decodeUtf8 scope.secretHeader with
  | error err =>
    rw [hdecode] at hverdict
    cases hverdict
  | ok text =>
    rw [hdecode, Except.bind] at hverdict
    cases hsame : compareDigest text configured with
    | error err =>
      rw [hsame] at hverdict
      cases hverdict
    | ok same =>
      obtain ⟨htext, hascii, -⟩ := ascii_of_compareDigest hsame
      exact ⟨hascii, decodeUtf8_ascii_iff.1 ⟨text, hdecode, htext⟩⟩

/-- Both middlewares fail closed exactly on the requests whose comparisons are between ASCII
texts: `hmac.compare_digest` raises on any other. -/
theorem middlewares_fail_closed_iff :
    ApiFailsClosed authorizer scope ∧ AdminFailsClosed secret scope ↔
      BearerComparable authorizer scope ∧ SecretComparable secret scope :=
  and_congr ⟨bearerComparable_of_closed, apiFailsClosed_of_comparable⟩
    ⟨secretComparable_of_closed, adminFailsClosed_of_comparable⟩

end FailClosed

/-- A job listing asked for with the bearer token `\xe9`. -/
def accentedRequest : AsgiScope :=
  ⟨"GET", "/v1/jobs", [(asciiBytes "authorization", asciiBytes "Bearer " ++ [0xe9])]⟩

theorem accented_bearer_raises :
    ¬ApiFailsClosed ⟨[("token", [readScope])]⟩ accentedRequest := by
  intro h
  have hnot := bearerComparable_of_closed h (by decide) (by decide) "é" (by decide)
  exact absurd (hnot.1 'é' (by decide)) (by decide)

end Pitwall
