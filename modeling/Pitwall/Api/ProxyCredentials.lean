import Pitwall.Api.Authorization
import Pitwall.Api.OpenAIProxy
import Pitwall.Library.Dictionary
set_option autoImplicit false

/-!
What the credentials of a client have to do with the requests that the proxy sends: they go
along in their own headers, and nothing else depends on them.
-/

namespace Pitwall
open Routing Routing.OpenAI Pricing

/-- The headers that `ApiTokenMiddleware` and `AdminSecretMiddleware` check. -/
def credentialHeaders : List String := ["authorization", "x-pitwall-secret"]

def SameHeaders (h₁ h₂ : List (String × String)) : Prop :=
  List.Forall₂ (fun a b => a.1 = b.1 ∧ (a.1 ∉ credentialHeaders → a.2 = b.2)) h₁ h₂

/-- `dict(request.headers)`: of headers with one name the first counts. -/
def requestHeaders : List (String × String) → List (String × String)
  | [] => []
  | h :: headers => h :: (requestHeaders headers).filter fun h' => h'.1 ≠ h.1

section Headers
variable {h₁ h₂ : List (String × String)}

theorem SameHeaders.filter (h : SameHeaders h₁ h₂) (p : String → Bool) :
    SameHeaders (h₁.filter fun a => p a.1) (h₂.filter fun a => p a.1) := by
  unfold SameHeaders at *
  induction h with
  | nil => exact .nil
  | @cons a b h₁ h₂ hab h ih =>
    rw [List.filter_cons, List.filter_cons, hab.1]
    split
    · exact .cons hab ih
    · exact ih

theorem SameHeaders.requestHeaders (h : SameHeaders h₁ h₂) :
    SameHeaders (Pitwall.requestHeaders h₁) (Pitwall.requestHeaders h₂) := by
  induction h with
  | nil => exact .nil
  | @cons a b h₁ h₂ hab h ih =>
    have hrest := SameHeaders.filter ih fun name => decide (name ≠ b.1)
    unfold Pitwall.requestHeaders
    rw [hab.1]
    exact .cons hab hrest

theorem SameHeaders.any_eq (h : SameHeaders h₁ h₂) (key : String) :
    (h₁.any fun a => a.1 = key) = h₂.any fun a => a.1 = key := by
  induction h with
  | nil => rfl
  | @cons a b h₁ h₂ hab h ih => rw [List.any_cons, List.any_cons, hab.1, ih]

theorem SameHeaders.setHeader (h : SameHeaders h₁ h₂) (key value : String) :
    SameHeaders (Pitwall.setHeader h₁ key value) (Pitwall.setHeader h₂ key value) := by
  unfold Pitwall.setHeader
  rw [h.any_eq key]
  split
  · unfold SameHeaders at *
    rw [List.forall₂_map_left_iff, List.forall₂_map_right_iff]
    refine h.imp fun a b hab => ?_
    rw [hab.1]
    split
    · exact ⟨rfl, fun _ => rfl⟩
    · exact hab
  · exact List.rel_append h (.cons ⟨rfl, fun _ => rfl⟩ .nil)

theorem lookup_of_ne {name key : String} (value : String) (headers : List (String × String))
    (h : name ≠ key) : ((key, value) :: headers).lookup name = headers.lookup name := by
  rw [List.lookup_cons, beq_eq_false_iff_ne.mpr h]

theorem SameHeaders.lookup_eq (h : SameHeaders h₁ h₂) {name : String}
    (hname : name ∉ credentialHeaders) : h₁.lookup name = h₂.lookup name := by
  induction h with
  | nil => rfl
  | @cons a b h₁ h₂ hab h ih =>
    obtain ⟨k, v⟩ := a
    obtain ⟨k', v'⟩ := b
    obtain ⟨rfl, hvalue⟩ : k = k' ∧ (k ∉ credentialHeaders → v = v') := hab
    by_cases hk : name = k
    · subst hk
      rw [List.lookup_cons_self, List.lookup_cons_self, hvalue hname]
    · rw [lookup_of_ne v h₁ hk, lookup_of_ne v' h₂ hk, ih]

theorem lookup_requestHeaders (headers : List (String × String)) (name : String) :
    (requestHeaders headers).lookup name = headers.lookup name := by
  induction headers with
  | nil => rfl
  | cons a headers ih =>
    obtain ⟨k, v⟩ := a
    rw [requestHeaders]
    by_cases hk : name = k
    · subst hk
      rw [List.lookup_cons_self, List.lookup_cons_self]
    · rw [lookup_of_ne v _ hk, lookup_of_ne v _ hk, List.lookup_filter_ne hk, ih]

theorem lookup_setHeader_ne (headers : List (String × String)) {name key : String}
    (value : String) (h : name ≠ key) :
    (setHeader headers key value).lookup name = headers.lookup name := by
  have hmap : (headers.map fun a => if a.1 = key then (key, value) else a).lookup name =
      headers.lookup name := by
    induction headers with
    | nil => rfl
    | cons a headers ih =>
      obtain ⟨k, v⟩ := a
      rw [List.map_cons]
      by_cases hk : k = key
      · subst hk
        rw [if_pos rfl, lookup_of_ne value _ h, lookup_of_ne v headers h, ih]
      · rw [if_neg hk, List.lookup_cons, List.lookup_cons, ih]
  unfold setHeader
  split
  · exact hmap
  · rw [List.lookup_append, lookup_of_ne value [] h]
    simp

theorem lookup_upstreamHeaders (c : ProxyCall) {name : String} (hname : name ∈ credentialHeaders) :
    c.upstreamHeaders.lookup name = c.headers.lookup name := by
  have hother : name ≠ "host" ∧ name ≠ "x-pitwall-capability" ∧ name ≠ "x-pitwall-trace" := by
    rcases List.mem_pair.mp hname with rfl | rfl <;> decide
  unfold ProxyCall.upstreamHeaders
  rw [lookup_setHeader_ne _ _ hother.2.2, lookup_setHeader_ne _ _ hother.2.1,
    List.lookup_filter_ne hother.1]

end Headers

/-- A request to the route of the proxy, as the server hands it over. -/
structure InboundRequest where
  method : String
  capability : String
  path : String
  query : String
  headers : List (String × String)
  body : List UInt8
  names_lower : ∀ h ∈ headers, asciiLower h.1 = h.1

namespace InboundRequest
variable (r : InboundRequest)

def scope : HttpScope :=
  ⟨r.method, s!"/v1/openai/{r.capability}/v1/{r.path}", r.headers, r.names_lower⟩

def proxyCall (gate : BudgetGate) : ProxyCall :=
  ⟨gate, r.capability, r.path, r.query, r.method, requestHeaders r.headers, r.body⟩

end InboundRequest

structure SameButCredentials (r₁ r₂ : InboundRequest) : Prop where
  method : r₁.method = r₂.method
  capability : r₁.capability = r₂.capability
  path : r₁.path = r₂.path
  query : r₁.query = r₂.query
  body : r₁.body = r₂.body
  headers : SameHeaders r₁.headers r₂.headers

structure SameUpstream (q₁ q₂ : UpstreamRequest) : Prop where
  method : q₁.method = q₂.method
  url : q₁.url = q₂.url
  content : q₁.content = q₂.content
  headers : SameHeaders q₁.headers q₂.headers

section Handled
variable (authorizer : BearerTokenAuthorizer) (gate : BudgetGate) (text : ProxyText)
  (registry : Registry) (order : RowOrder) (env : LaunchEnv) (workloads : Workloads)
  (run : FallbackRun)

def sentUpstream (c : ProxyCall) : List (ProviderModel × UpstreamRequest) :=
  match c.prepare text registry order with
  | .error _ => []
  | .ok prepared =>
      match c.gate.launch prepared.launchRequest env workloads with
      | (.error _, _) => []
      | (.ok _, _) => (c.execution text run prepared).1.sent

/-- What goes upstream for a request that the middleware lets through. -/
def handleInbound (r : InboundRequest) : Option (List (ProviderModel × UpstreamRequest)) :=
  match apiTokenMiddleware authorizer r.scope with
  | .ok .forward => some (sentUpstream text registry order env workloads run (r.proxyCall gate))
  | _ => none

variable {authorizer gate text registry order env workloads run}

theorem handleInbound_some {r : InboundRequest} {sent : List (ProviderModel × UpstreamRequest)}
    (h : handleInbound authorizer gate text registry order env workloads run r = some sent) :
    sent = sentUpstream text registry order env workloads run (r.proxyCall gate) := by
  unfold handleInbound at h
  split at h
  · exact (Option.some.inj h).symm
  · cases h

theorem prepare_headers (c : ProxyCall) {headers : List (String × String)}
    (h : SameHeaders c.upstreamHeaders { c with headers := headers }.upstreamHeaders) :
    ProxyCall.prepare text registry order { c with headers := headers } =
      c.prepare text registry order := by
  have hdrill : ∀ chain, drillProviders text { c with headers := headers }.upstreamHeaders chain =
      drillProviders text c.upstreamHeaders chain := fun chain => by
    unfold drillProviders
    rw [h.lookup_eq (by decide : "x-pitwall-drill" ∉ credentialHeaders)]
  unfold ProxyCall.prepare
  simp only [hdrill]

theorem sentUpstream_headers (c : ProxyCall) {headers : List (String × String)}
    (h : SameHeaders c.upstreamHeaders { c with headers := headers }.upstreamHeaders) :
    sentUpstream text registry order env workloads run { c with headers := headers } =
      (sentUpstream text registry order env workloads run c).map fun e =>
        (e.1, e.2.withHeaders { c with headers := headers }.upstreamHeaders) := by
  unfold sentUpstream
  rw [prepare_headers c h]
  cases c.prepare text registry order with
  | error e => rfl
  | ok prepared =>
    dsimp only
    rcases c.gate.launch prepared.launchRequest env workloads with ⟨_ | admission, workloads'⟩
    · rfl
    · exact execute_headers text.buildUrl c.proxyRequest run _ prepared.providers

theorem sentUpstream_carries (c : ProxyCall) :
    ∀ e ∈ sentUpstream text registry order env workloads run c,
      e.2.headers = c.upstreamHeaders := by
  unfold sentUpstream
  cases c.prepare text registry order with
  | error e => simp
  | ok prepared =>
    dsimp only
    rcases c.gate.launch prepared.launchRequest env workloads with ⟨_ | admission, workloads'⟩
    · simp
    · intro e he
      have hbuilt := ((execute_sent prepared.providers).1 e he).2
      unfold buildRequest at hbuilt
      cases hurl : modelUrl e.1 with
      | none => simp [hurl] at hbuilt
      | some baseUrl =>
        simp only [hurl, Except.bind_eq_ok_iff, Except.pure_eq_ok_iff] at hbuilt
        obtain ⟨url, -, hrequest⟩ := hbuilt
        rw [← hrequest]
        rfl

/-- Two accepted requests that differ in their credentials alone lead to the same requests to the
same providers, but for the values of the credential headers: there each carries, as it came, the
credential of its own client. -/
theorem credentials_confined (authorizer : BearerTokenAuthorizer) (gate : BudgetGate)
    (text : ProxyText) (registry : Registry) (order : RowOrder) (env : LaunchEnv)
    (workloads : Workloads) (run : FallbackRun) (r₁ r₂ : InboundRequest)
    (sent₁ sent₂ : List (ProviderModel × UpstreamRequest)) (hsame : SameButCredentials r₁ r₂)
    (h₁ : handleInbound authorizer gate text registry order env workloads run r₁ = some sent₁)
    (h₂ : handleInbound authorizer gate text registry order env workloads run r₂ = some sent₂) :
    List.Forall₂ (fun e₁ e₂ => e₁.1 = e₂.1 ∧ SameUpstream e₁.2 e₂.2) sent₁ sent₂ ∧
    ∀ name ∈ credentialHeaders,
      (∀ e ∈ sent₁, e.2.headers.lookup name = r₁.headers.lookup name) ∧
      ∀ e ∈ sent₂, e.2.headers.lookup name = r₂.headers.lookup name := by
  have hcall : r₂.proxyCall gate =
      { r₁.proxyCall gate with headers := requestHeaders r₂.headers } := by
    unfold InboundRequest.proxyCall
    rw [hsame.method, hsame.capability, hsame.path, hsame.query, hsame.body]
  have hheaders : SameHeaders (r₁.proxyCall gate).upstreamHeaders
      { r₁.proxyCall gate with headers := requestHeaders r₂.headers }.upstreamHeaders := by
    unfold ProxyCall.upstreamHeaders
    exact ((hsame.headers.requestHeaders.filter fun name => decide (name ≠ "host")).setHeader
      _ _).setHeader _ _
  have hcarries : ∀ (r : InboundRequest), ∀ name ∈ credentialHeaders,
      (r.proxyCall gate).upstreamHeaders.lookup name = r.headers.lookup name :=
    fun r name hname => (lookup_upstreamHeaders _ hname).trans (lookup_requestHeaders _ name)
  have hsent₁ := handleInbound_some h₁
  have hsent₂ := handleInbound_some h₂
  refine ⟨?_, fun name hname => ⟨fun e he => ?_, fun e he => ?_⟩⟩
  · rw [hcall, sentUpstream_headers _ hheaders, ← hsent₁] at hsent₂
    rw [hsent₂, List.forall₂_map_right_iff]
    refine List.forall₂_same.mpr fun e he => ⟨rfl, rfl, rfl, rfl, ?_⟩
    rw [hsent₁] at he
    rw [sentUpstream_carries _ e he]
    exact hheaders
  · rw [hsent₁] at he
    rw [sentUpstream_carries _ e he, hcarries r₁ name hname]
  · rw [hsent₂] at he
    rw [sentUpstream_carries _ e he, hcarries r₂ name hname]

end Handled

theorem inboundNames_lower (token : String) :
    ∀ h ∈ [("host", "broker"), ("authorization", token)], asciiLower h.1 = h.1 := by
  intro h hmem
  rcases List.mem_pair.mp hmem with rfl | rfl
  · decide
  · change asciiLower "authorization" = "authorization"
    decide

/-- A chat request under the authorization `token`. -/
def inboundChat (token : String) : InboundRequest where
  method := "POST"
  capability := "chat"
  path := "chat/completions"
  query := ""
  headers := [("host", "broker"), ("authorization", token)]
  body := []
  names_lower := inboundNames_lower token

def twoClients : BearerTokenAuthorizer := ⟨[("red", [spendScope]), ("blue", [spendScope])]⟩

def handleChat (token : String) : Option (List (ProviderModel × UpstreamRequest)) :=
  handleInbound twoClients tenDollarGate chatText cheapRegistry codePointOrder chatEnv Table.empty
    (failOver 0 ⟨200, 0⟩) (inboundChat token)

/-- The request that the provider of `cheapRegistry` gets. -/
def cheapRequest (token : String) : UpstreamRequest where
  method := "POST"
  url := "https://api.runpod.ai/v2/cheap/openai/v1/chat/completions"
  headers := [("authorization", token), ("x-pitwall-capability", "chat"),
    ("x-pitwall-trace", "openai-proxy")]
  content := []

theorem handleChat_some {token : String}
    (h : (handleChat token).map (List.map Prod.snd) = some [cheapRequest token]) :
    ∃ sent, handleChat token = some sent ∧ sent.map Prod.snd = [cheapRequest token] :=
  Option.map_eq_some_iff.mp h

theorem sameButToken (token token' : String) :
    SameButCredentials (inboundChat token) (inboundChat token') :=
  ⟨rfl, rfl, rfl, rfl, rfl, .cons ⟨rfl, fun _ => rfl⟩
    (.cons ⟨rfl, fun h => absurd (by simp [credentialHeaders]) h⟩ .nil)⟩

theorem handleChat_tokens : ∀ token ∈ ["Bearer red", "Bearer blue"],
    (handleChat token).map (List.map Prod.snd) = some [cheapRequest token] := by
  decide +kernel

theorem handleChat_red : (handleChat "Bearer red").map (List.map Prod.snd) =
    some [cheapRequest "Bearer red"] :=
  handleChat_tokens _ (.head _)

theorem handleChat_blue : (handleChat "Bearer blue").map (List.map Prod.snd) =
    some [cheapRequest "Bearer blue"] :=
  handleChat_tokens _ (.tail _ (.head _))

/-- Each client's own token goes to the provider. -/
theorem credentials_forwarded : ∃ sent₁ sent₂,
    SameButCredentials (inboundChat "Bearer red") (inboundChat "Bearer blue") ∧
    handleChat "Bearer red" = some sent₁ ∧ handleChat "Bearer blue" = some sent₂ ∧
    sent₁.map Prod.snd ≠ sent₂.map Prod.snd ∧
    ∃ e ∈ sent₁, ("authorization", "Bearer red") ∈ e.2.headers := by
  obtain ⟨sent₁, h₁, hred⟩ := handleChat_some handleChat_red
  obtain ⟨sent₂, h₂, hblue⟩ := handleChat_some handleChat_blue
  refine ⟨sent₁, sent₂, sameButToken _ _, h₁, h₂, ?_, ?_⟩
  · rw [hred, hblue]
    decide
  · obtain ⟨e, he, hrequest⟩ := List.mem_map.mp
      (hred ▸ List.mem_singleton_self (cheapRequest "Bearer red"))
    refine ⟨e, he, ?_⟩
    rw [hrequest]
    decide

theorem credentials_confined_to_two : ∃ sent₁ sent₂,
    handleChat "Bearer red" = some sent₁ ∧ handleChat "Bearer blue" = some sent₂ ∧
    List.Forall₂ (fun e₁ e₂ => e₁.1 = e₂.1 ∧ SameUpstream e₁.2 e₂.2) sent₁ sent₂ ∧
    ∀ name ∈ credentialHeaders,
      (∀ e ∈ sent₁, e.2.headers.lookup name = (inboundChat "Bearer red").headers.lookup name) ∧
      ∀ e ∈ sent₂, e.2.headers.lookup name = (inboundChat "Bearer blue").headers.lookup name := by
  obtain ⟨sent₁, h₁, -⟩ := handleChat_some handleChat_red
  obtain ⟨sent₂, h₂, -⟩ := handleChat_some handleChat_blue
  exact ⟨sent₁, sent₂, h₁, h₂, credentials_confined twoClients tenDollarGate chatText cheapRegistry
    codePointOrder chatEnv Table.empty (failOver 0 ⟨200, 0⟩) (inboundChat "Bearer red")
    (inboundChat "Bearer blue") sent₁ sent₂ (sameButToken _ _) h₁ h₂⟩

end Pitwall
