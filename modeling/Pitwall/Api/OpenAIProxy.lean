import Pitwall.Core.Inference
import Pitwall.Resolver.Completeness
import Pitwall.Routing.Fallback
set_option autoImplicit false

/-!
The handler of the OpenAI proxy: one admission, the attempts on the provider chain, and the
bookkeeping around them. Its ledger transitions are best effort.
-/

namespace Pitwall
open Routing Routing.OpenAI Pricing

namespace Workloads

/-- `transition_to_running`. -/
def transitionToRunning (t : Workloads) (id : String) (now : Instant) : Bool × Workloads :=
  t.transitionWorkload id [.queued] .running
    { set := fun w => { w with startedAt := some now }, keeps := fun _ => rfl }

/-- `fallback_chain if fallback_chain else None`. -/
def orNull (chain : List String) : Option (List String) := if chain = [] then none else some chain

/-- `transition_to_completed`. -/
def transitionToCompleted (t : Workloads) (id : String) (now : Instant)
    (executionMs outputBytes : Int) (fallbackChain : List String) : Bool × Workloads :=
  t.transitionWorkload id [.running] .completed
    { set := fun w => { w with
        completedAt := some now
        executionMs := some executionMs
        outputBytes := some outputBytes
        result := none
        fallbackChain := orNull fallbackChain
        langfuseTraceId := none }
      keeps := fun _ => rfl }

/-- `transition_to_failed`. -/
def transitionToFailed (t : Workloads) (id : String) (now : Instant) (executionMs : Int)
    (error : Json) (fallbackChain : List String) : Bool × Workloads :=
  t.transitionWorkload id [.running] .failed
    { set := fun w => { w with
        completedAt := some now
        executionMs := some executionMs
        error := some error
        fallbackChain := orNull fallbackChain
        langfuseTraceId := none }
      keeps := fun _ => rfl }

end Workloads

/-- `json.loads` of a body, with nothing where it raises, and `build_openai_url`. -/
structure ProxyText where
  python : PyString
  loads : List UInt8 → Option PyValue
  buildUrl : String → String → Except PyError String

/-- A request to the proxy, its headers as `dict(request.headers)`. -/
structure ProxyCall where
  gate : BudgetGate
  capability : String
  path : String
  query : String
  method : String
  headers : List (String × String)
  body : List UInt8

inductive ProxyError where
  | invalidProxyPath (message : String)
  | capabilityNotFound (name : String)
  | providerUnavailable (name : String) (chain : List String)
  | admission (error : AdmissionError)
  | raised (exc : PyError)

/-- `d[key] = value`. -/
def setHeader (headers : List (String × String)) (key value : String) : List (String × String) :=
  if headers.any fun h => h.1 = key then
    headers.map fun h => if h.1 = key then (key, value) else h
  else headers ++ [(key, value)]

/-- `_estimate_payload_from_body`. -/
def estimatePayloadFromBody (text : ProxyText) (body : List UInt8) : EstimatePayload :=
  if body = [] then []
  else
    match text.loads body with
    | none => [("input_bytes", .int body.length)]
    | some parsed =>
        match parsed.mapping? with
        | some entries => entries
        | none => [("input", parsed), ("input_bytes", .int body.length)]

namespace ProxyCall
variable (c : ProxyCall)

def upstreamHeaders : List (String × String) :=
  let headers := c.headers.filter fun h => h.1 ≠ "host"
  setHeader (setHeader headers "x-pitwall-capability" c.capability) "x-pitwall-trace" "openai-proxy"

/-- `_path_with_query`. -/
def pathWithQuery : String := if c.query = "" then c.path else s!"{c.path}?{c.query}"

def proxyRequest : OpenAIProxyRequest where
  method := c.method
  path := c.pathWithQuery
  headers := c.upstreamHeaders
  body := c.body
  fallbackBudgetS := 5
  maxAttempts := defaultMaxAttempts

end ProxyCall

/-- The row limit of `_resolve_provider_chain`. -/
def proxyProviderLimit : Nat := 100

section Prepare
variable (text : ProxyText) (registry : Registry) (order : RowOrder)

def openaiChain (providers : List ProviderModel) : Except PyError (List ProviderModel) :=
  (fun chain => chain.filterMap ProviderLike.model?) <$>
  orderedOpenaiProviders text.python (providers.map .model) none defaultMaxAttempts none

/-- `_resolve_provider_chain`. -/
def resolveProviderChain (name : String) :
    Except ProxyError (PricedCapability × List ProviderModel) :=
  match registry.capabilityByName name with
  | none => .error (.capabilityNotFound name)
  | some capability =>
      match openaiChain text (registry.listProviders order capability.id proxyProviderLimit) with
      | .error e => .error (.raised e)
      | .ok [] => .error (.providerUnavailable name [])
      | .ok chain => .ok (capability, chain)

/-- `drill_providers`. -/
def drillProviders (headers : List (String × String)) (providers : List ProviderModel) :
    List ProviderModel :=
  if text.python.lower ((headers.lookup "x-pitwall-drill").getD "") = "skip-primary" ∧
      1 < providers.length then
    providers.tail
  else providers

/-- What the handler has worked out when it asks for admission: the providers that it will try,
with the first of them, and the upper bound of that one's quote. -/
structure Prepared where
  capability : PricedCapability
  provider : ProviderModel
  others : List ProviderModel
  upperBound : ℚ

def Prepared.providers (prepared : Prepared) : List ProviderModel :=
  prepared.provider :: prepared.others

/-- `_quote_proxy_cost(...).upper_bound()`. -/
def proxyUpperBound (capability : PricedCapability) (provider : ProviderModel)
    (body : List UInt8) : Except PyError ℚ := do
  let quote ← quoteCost text.python capability provider.config (estimatePayloadFromBody text body)
  quote.upperBound text.python

def ProxyCall.prepare (c : ProxyCall) : Except ProxyError Prepared :=
  match text.buildUrl "https://validation.invalid/v1" c.path with
  | .error e => .error (.invalidProxyPath e.message)
  | .ok _ =>
      match resolveProviderChain text registry order c.capability with
      | .error e => .error e
      | .ok (capability, providers) =>
          match drillProviders text c.upstreamHeaders providers with
          | [] => .error (.providerUnavailable c.capability [])
          | provider :: others =>
              match proxyUpperBound text capability provider c.body with
              | .error e => .error (.raised e)
              | .ok upperBound => .ok ⟨capability, provider, others, upperBound⟩

end Prepare

def Prepared.launchRequest (prepared : Prepared) : LaunchRequest where
  capabilityId := prepared.capability.id
  providerId := prepared.provider.id
  estimateUsd := .estimate (.finite prepared.upperBound)
  workloadType := "openai_passthrough"
  submittedAt := none
  idempotencyKey := none
  beforeNewAdmission := none

section Chain
variable {text : ProxyText} {registry : Registry} {order : RowOrder}

theorem openaiChain_mem {providers chain : List ProviderModel}
    (h : openaiChain text providers = .ok chain) {p : ProviderModel} (hp : p ∈ chain) :
    p ∈ providers ∧ isCandidate text.python none (.model p) = .ok true := by
  obtain ⟨likes, hlikes, rfl⟩ := Except.map_eq_ok_iff.mp h
  obtain ⟨ranked, rfl, -, -, hranked⟩ := orderedOpenaiProviders_ok hlikes
  obtain ⟨like, hlike, heq⟩ := List.mem_filterMap.mp hp
  obtain ⟨r, hr, rfl⟩ := List.mem_map.mp hlike
  obtain ⟨hmem, hcandidate, -⟩ := hranked r hr
  cases hprovider : r.provider with
  | mapping entries => simp [hprovider, ProviderLike.model?] at heq
  | model q =>
    rw [hprovider] at hmem hcandidate
    simp only [hprovider, ProviderLike.model?, Option.some.injEq] at heq
    subst heq
    obtain ⟨q', hq', hmodel⟩ := List.mem_map.mp hmem
    obtain rfl := ProviderLike.model.inj hmodel
    exact ⟨hq', hcandidate⟩

theorem resolveProviderChain_ok {name : String} {capability : PricedCapability}
    {chain : List ProviderModel}
    (h : resolveProviderChain text registry order name = .ok (capability, chain)) :
    registry.capabilityByName name = some capability ∧
      openaiChain text (registry.listProviders order capability.id proxyProviderLimit) =
        .ok chain := by
  unfold resolveProviderChain at h
  cases hname : registry.capabilityByName name with
  | none => simp [hname] at h
  | some c =>
    simp only [hname] at h
    cases hchain : openaiChain text (registry.listProviders order c.id proxyProviderLimit) with
    | error e => simp [hchain] at h
    | ok ps =>
      cases ps with
      | nil => simp [hchain] at h
      | cons p ps =>
        simp only [hchain, Except.ok.injEq, Prod.mk.injEq] at h
        obtain ⟨rfl, rfl⟩ := h
        exact ⟨rfl, hchain⟩

theorem drillProviders_sublist (text : ProxyText) (headers : List (String × String))
    (providers : List ProviderModel) : (drillProviders text headers providers).Sublist providers := by
  unfold drillProviders
  split
  · exact List.tail_sublist providers
  · exact List.Sublist.refl _

theorem prepare_ok {c : ProxyCall} {prepared : Prepared}
    (h : c.prepare text registry order = .ok prepared) :
    (∃ chain, resolveProviderChain text registry order c.capability =
        .ok (prepared.capability, chain) ∧
      drillProviders text c.upstreamHeaders chain = prepared.providers) ∧
    proxyUpperBound text prepared.capability prepared.provider c.body =
      .ok prepared.upperBound := by
  unfold ProxyCall.prepare at h
  cases hpath : text.buildUrl "https://validation.invalid/v1" c.path with
  | error e => simp [hpath] at h
  | ok url =>
    simp only [hpath] at h
    cases hchain : resolveProviderChain text registry order c.capability with
    | error e => simp [hchain] at h
    | ok result =>
      obtain ⟨capability, chain⟩ := result
      simp only [hchain] at h
      cases hdrill : drillProviders text c.upstreamHeaders chain with
      | nil => simp [hdrill] at h
      | cons provider others =>
        simp only [hdrill] at h
        cases hbound : proxyUpperBound text capability provider c.body with
        | error e => simp [hbound] at h
        | ok upperBound =>
          simp only [hbound, Except.ok.injEq] at h
          subst h
          exact ⟨⟨chain, rfl, hdrill⟩, hbound⟩

theorem prepared_provider {c : ProxyCall} {prepared : Prepared}
    (h : c.prepare text registry order = .ok prepared) {p : ProviderModel}
    (hp : p ∈ prepared.providers) :
    p ∈ registry.providers ∧ p.capabilityId = prepared.capability.id ∧ p.enabled = true ∧
      isCandidate text.python none (.model p) = .ok true := by
  obtain ⟨⟨chain, hchain, hdrill⟩, -⟩ := prepare_ok h
  rw [← hdrill] at hp
  have hmem := (drillProviders_sublist text c.upstreamHeaders chain).subset hp
  obtain ⟨hlisted, hcandidate⟩ := openaiChain_mem (resolveProviderChain_ok hchain).2 hmem
  obtain ⟨hrow, hcapability, henabled⟩ := mem_listProviders hlisted
  exact ⟨hrow, hcapability, henabled, hcandidate⟩

theorem map_providerId_models (ranked : List Ranked)
    (h : ∀ r ∈ ranked, (∃ p, r.provider = .model p) ∧ providerId r.provider = .ok r.id) :
    ((ranked.map Ranked.provider).filterMap ProviderLike.model?).map
      (fun p => providerId (.model p)) = ranked.map fun r => .ok r.id := by
  induction ranked with
  | nil => rfl
  | cons r ranked ih =>
    obtain ⟨⟨p, hp⟩, hid⟩ := h r (by simp)
    have hrest := ih fun r' hr' => h r' (by simp [hr'])
    have hmodel : ProviderLike.model? r.provider = some p := by rw [hp]; rfl
    rw [List.map_cons, List.filterMap_cons_some hmodel, List.map_cons, hrest, List.map_cons,
      ← hp, hid]

theorem openaiChain_ids_nodup {providers chain : List ProviderModel}
    (h : openaiChain text providers = .ok chain) : (chain.map ProviderModel.id).Nodup := by
  obtain ⟨likes, hlikes, rfl⟩ := Except.map_eq_ok_iff.mp h
  obtain ⟨ranked, rfl, hnodup, -, hranked⟩ := orderedOpenaiProviders_ok hlikes
  have hmap := map_providerId_models ranked fun r hr => by
    obtain ⟨hmem, -, hid⟩ := hranked r hr
    obtain ⟨p, -, hp⟩ := List.mem_map.mp hmem
    exact ⟨⟨p, hp.symm⟩, hid⟩
  have hids : (ranked.map fun r => (Except.ok r.id : Except PyError String)).Nodup := by
    have hok := hnodup.map (f := (Except.ok : String → Except PyError String))
      fun a b hab => Except.ok.inj hab
    rwa [List.map_map] at hok
  rw [← hmap] at hids
  -- The id of a model is its field, stripped.
  refine List.Nodup.of_map (fun id => providerId (.mapping [("id", .str id)])) ?_
  rw [List.map_map]
  exact hids

theorem prepared_ids_nodup {c : ProxyCall} {prepared : Prepared}
    (h : c.prepare text registry order = .ok prepared) :
    (prepared.providers.map ProviderModel.id).Nodup := by
  obtain ⟨⟨chain, hchain, hdrill⟩, -⟩ := prepare_ok h
  rw [← hdrill]
  have hsub := (drillProviders_sublist text c.upstreamHeaders chain).map ProviderModel.id
  exact (openaiChain_ids_nodup (resolveProviderChain_ok hchain).2).sublist hsub

end Chain

inductive ProxyState where
  | received
  | admitting (prepared : Prepared)
  | startingRun (id : String) (prepared : Prepared)
  | executing (id : String) (prepared : Prepared)
  | closing (id : String) (prepared : Prepared) (progress : Attempts)
  | markingFailed (id : String) (prepared : Prepared) (progress : Attempts)
  | markingCompleted (id : String) (prepared : Prepared) (progress : Attempts)
      (response : UpstreamResponse) (provider : ProviderModel)
  | responded (id : String) (prepared : Prepared) (response : UpstreamResponse)
      (provider : ProviderModel)
  | raised (admitted : Option String) (error : ProxyError)

/-- What the world supplies to one step. A failure that is no `Exception`, as a cancellation, is
not caught by the best-effort handlers. -/
structure ProxyInput where
  env : LaunchEnv
  fault : Option ProviderFailure
  run : FallbackRun
  executionMs : Int

def executionMessage : String := "openai proxy upstream request failed before response headers"

def failedPayload (progress : Attempts) : Json :=
  .obj [("error", .str executionMessage),
    ("attempted_providers", .arr (progress.attempted.map fun p => .str p.id)),
    ("attempted_errors", .obj progress.errors)]

section Step
variable (text : ProxyText) (registry : Registry) (order : RowOrder) (c : ProxyCall)

def ProxyCall.execution (run : FallbackRun) (prepared : Prepared) : Attempts × Finish :=
  executeOpenaiWithFallback text.buildUrl c.proxyRequest run prepared.providers

def proxyStep (l : ProxyState) (s : Ledger) (i : ProxyInput) : Ledger × ProxyState :=
  match l with
  | .received =>
      match i.fault, c.prepare text registry order with
      | some failure, _ => (s, .raised none (.raised failure.exc))
      | none, .error e => (s, .raised none e)
      | none, .ok prepared => (s, .admitting prepared)
  | .admitting prepared =>
      match i.fault with
      | some failure => (s, .raised none (.raised failure.exc))
      | none =>
        match c.gate.launch prepared.launchRequest i.env s.workloads with
        | (.error e, t) => (s.withWorkloads t, .raised none (.admission e))
        | (.ok a, t) => (s.withWorkloads t, .startingRun a.workloadId prepared)
  | .startingRun id prepared =>
      match i.fault with
      | some failure =>
          (s, if failure.caught then .executing id prepared
            else .raised (some id) (.raised failure.exc))
      | none =>
          (s.withWorkloads (s.workloads.transitionToRunning id i.env.utcNow).2,
            .executing id prepared)
  | .executing id prepared =>
      match c.execution text i.run prepared with
      | (progress, .relayed response provider) =>
          (s, .markingCompleted id prepared progress response provider)
      | (progress, .exhausted) => (s, .closing id prepared progress)
      | (_, .raised e) => (s, .raised (some id) (.raised e))
  | .closing id prepared progress =>
      match i.fault with
      | some failure => (s, .raised (some id) (.raised failure.exc))
      | none => (s, .markingFailed id prepared progress)
  | .markingFailed id _ progress =>
      let unavailable := ProxyError.providerUnavailable c.capability progress.ids
      match i.fault with
      | some failure =>
          (s, .raised (some id) (if failure.caught then unavailable else .raised failure.exc))
      | none =>
          (s.withWorkloads (s.workloads.transitionToFailed id i.env.utcNow i.executionMs
              (failedPayload progress) progress.ids).2,
            .raised (some id) unavailable)
  | .markingCompleted id prepared progress response provider =>
      match i.fault with
      | some failure =>
          (s, if failure.caught then .responded id prepared response provider
            else .raised (some id) (.raised failure.exc))
      | none =>
          (s.withWorkloads (s.workloads.transitionToCompleted id i.env.utcNow i.executionMs
              response.contentLength progress.ids).2,
            .responded id prepared response provider)
  | .responded id prepared response provider => (s, .responded id prepared response provider)
  | .raised admitted error => (s, .raised admitted error)

end Step

section Execution
variable {text : ProxyText} {registry : Registry} {order : RowOrder} {c : ProxyCall}

theorem proxyRequest_attempts (c : ProxyCall) : 1 ≤ c.proxyRequest.maxAttempts := by
  change (1 : Int) ≤ 3
  norm_num

theorem proxyRequest_budget (c : ProxyCall) : 0 < c.proxyRequest.fallbackBudgetS := by
  change (0 : ℚ) < 5
  norm_num

theorem execution_eq (run : FallbackRun) (prepared : Prepared) :
    c.execution text run prepared = attemptProviders text.buildUrl c.proxyRequest run 0
      (eligibleProviders c.proxyRequest prepared.providers) ⟨[], [], []⟩ :=
  execute_eq (proxyRequest_attempts c) (proxyRequest_budget c)

theorem eligibleProviders_sublist (ctx : OpenAIProxyRequest) (providers : List ProviderModel) :
    (eligibleProviders ctx providers).Sublist providers :=
  (List.take_sublist _ _).trans List.filter_sublist

theorem execution_honest_iff {prepared : Prepared} (run : FallbackRun)
    (h : c.prepare text registry order = .ok prepared) :
    HonestFinish prepared.provider (c.execution text run prepared).2 ↔
      Exhausts text.buildUrl c.proxyRequest run 0
        (eligibleProviders c.proxyRequest prepared.providers) ∨
      FirstServes text.buildUrl c.proxyRequest run prepared.provider
        (eligibleProviders c.proxyRequest prepared.providers) := by
  rw [execution_eq]
  exact honestFinish_iff (prepared_ids_nodup h) (eligibleProviders_sublist _ _) _

end Execution

def chatText : ProxyText where
  python := { asciiText with
    parseDecimal := fun s =>
      if s = "1" then some (.finite 1) else if s = "5" then some (.finite 5) else none }
  loads := fun _ => none
  buildUrl := fun baseUrl path => .ok s!"{baseUrl}/{path}"

def chatCapability : PricedCapability := ⟨⟨"cap_1", "chat", true⟩, .perRequest, 1000⟩

/-- A healthy endpoint that costs `price` for each request. -/
def chatProvider (id : String) (id_ne : id ≠ "") (priority : Nat) (price : String)
    (cooldownUntil : Option Instant) : ProviderModel :=
  { sampleProvider id id_ne .serverlessQueue [("per_request", .str price)] with
    priority := priority
    runpodEndpointId := some id
    cooldownUntil := cooldownUntil }

theorem chatId_nodup : ([chatCapability].map fun c => c.id).Nodup := List.nodup_singleton _

theorem chatName_nodup : ([chatCapability].map fun c => c.name).Nodup := List.nodup_singleton _

def chatRegistry (providers : List ProviderModel)
    (providerIds_nodup : (providers.map ProviderModel.id).Nodup) : Registry :=
  ⟨[chatCapability], providers, chatId_nodup, chatName_nodup, providerIds_nodup⟩

theorem cheapChat_ne : "cheap" ≠ "" := by decide

def cheapChat : ProviderModel := chatProvider "cheap" cheapChat_ne 1 "1" none

theorem cheapIds_nodup : ([cheapChat].map ProviderModel.id).Nodup := List.nodup_singleton _

def cheapRegistry : Registry := chatRegistry [cheapChat] cheapIds_nodup

def chatCall : ProxyCall where
  gate := tenDollarGate
  capability := "chat"
  path := "chat/completions"
  query := ""
  method := "POST"
  headers := [("host", "broker"), ("authorization", "Bearer t")]
  body := []

def chatEnv : LaunchEnv := ⟨.utc, 0, 0, "wkl_1"⟩

end Pitwall
