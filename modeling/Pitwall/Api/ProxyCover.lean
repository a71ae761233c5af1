import Pitwall.Api.ProxyCooldown
import Pitwall.Api.ProxyLedger
set_option autoImplicit false

/-!
What the admission of a request to the proxy covers: the quote of the provider that comes first,
whichever of the chain serves in the end.
-/

namespace Pitwall
open Machine Routing Routing.OpenAI Pricing

section Cover
variable (text : ProxyText) (registry : Registry) (order : RowOrder) (call : ProxyCall)

def receivedStep (c : Ledger × ProxyState) (i : ProxyInput) : Ledger × ProxyState :=
  proxyStep text registry order call c.2 c.1 i

/-- The estimate of the admission is not below the quote of `p`. -/
def CoveredBy (prepared : Prepared) (p : ProviderModel) : Prop :=
  ∀ upperBound, proxyUpperBound text prepared.capability p call.body = .ok upperBound →
    upperBound ≤ prepared.upperBound

def EstimatedAt (t : Workloads) (id : String) (estimate : ℚ) : Prop :=
  ∃ w, t.byId id = some w ∧ w.costEstimateUsd = some estimate

variable {text registry order call}

theorem proxyUpperBound_isMultiple {capability : PricedCapability} {p : ProviderModel}
    {body : List UInt8} {upperBound : ℚ}
    (h : proxyUpperBound text capability p body = .ok upperBound) : IsMultiple 6 upperBound := by
  simp only [proxyUpperBound, Except.bind_eq_ok_iff] at h
  obtain ⟨quote, -, hbound⟩ := h
  exact upperBound_isMultiple hbound

theorem EstimatedAt.transition {t : Workloads} {id : String} {estimate : ℚ}
    {fromStates : List WorkloadState} {toState : WorkloadState}
    {patch : Table.Assignment Workload.uniq} (h : EstimatedAt t id estimate)
    (hkeep : ∀ w, (patch.set w).costEstimateUsd = w.costEstimateUsd) :
    EstimatedAt (t.transitionWorkload id fromStates toState patch).2 id estimate := by
  obtain ⟨w, hw, hcost⟩ := h
  by_cases hstate : w.state ∈ fromStates
  · exact ⟨_, Workloads.byId_transition hw hstate, (hkeep w).trans hcost⟩
  · exact ⟨w, Workloads.byId_transition_miss hw hstate, hcost⟩

theorem EstimatedAt.running {t : Workloads} {id : String} {estimate : ℚ}
    (h : EstimatedAt t id estimate) (now : Instant) :
    EstimatedAt (t.transitionToRunning id now).2 id estimate := h.transition fun _ => rfl

theorem EstimatedAt.completed {t : Workloads} {id : String} {estimate : ℚ}
    (h : EstimatedAt t id estimate) (now : Instant) (executionMs outputBytes : Int)
    (chain : List String) :
    EstimatedAt (t.transitionToCompleted id now executionMs outputBytes chain).2 id estimate :=
  h.transition fun _ => rfl

theorem positiveDecimal_finite {name : String} {x y : ℚ}
    (h : positiveDecimal name (.finite x) = .ok y) : y = x := by
  unfold positiveDecimal at h
  simp only [decimal] at h
  split at h
  · cases h
  · exact (Except.ok.inj h).symm

theorem estimatedAt_of_launch {gate : BudgetGate} {prepared : Prepared} {env : LaunchEnv}
    {t t' : Workloads} {a : BudgetAdmission} (hbound : IsMultiple 6 prepared.upperBound)
    (h : gate.launch prepared.launchRequest env t = (.ok a, t')) :
    EstimatedAt t' a.workloadId prepared.upperBound := by
  rcases gate.launch_cases prepared.launchRequest env t with ⟨e, hlaunch⟩ |
      ⟨_, key, -, -, hkey, -⟩ | ⟨t₁, estimate, cost, hlaunch, hadm⟩
  · rw [hlaunch] at h
    cases h
  · cases hkey
  · rw [hlaunch] at h
    cases h
    have hestimate : estimate = prepared.upperBound := positiveDecimal_finite hadm.estimate_eq
    have hcost : cost = prepared.upperBound := by
      rw [← hestimate] at hbound ⊢
      exact eq_of_numeric hbound hadm.stored
    have hnew : t.byId env.newWorkloadId = none := byId_of_inserted hadm.rows
    refine ⟨queuedWorkload prepared.launchRequest env cost, ?_, congrArg some hcost⟩
    rw [Workloads.byId_of_append hadm.rows, hnew]
    exact if_pos rfl

def AdmittedSoFar (text : ProxyText) (registry : Registry) (order : RowOrder) (call : ProxyCall)
    (c : Ledger × ProxyState) : Prop :=
  match c.2 with
  | .received | .raised _ _ => True
  | .admitting prepared => call.prepare text registry order = .ok prepared
  | .startingRun id prepared | .executing id prepared | .closing id prepared _
  | .markingFailed id prepared _ =>
      call.prepare text registry order = .ok prepared ∧
        EstimatedAt c.1.workloads id prepared.upperBound
  | .markingCompleted id prepared _ _ provider | .responded id prepared _ provider =>
      call.prepare text registry order = .ok prepared ∧
        EstimatedAt c.1.workloads id prepared.upperBound ∧ provider ∈ reachable text call prepared

theorem admittedSoFar_step (c : Ledger × ProxyState) (i : ProxyInput)
    (h : AdmittedSoFar text registry order call c) :
    AdmittedSoFar text registry order call (receivedStep text registry order call c i) := by
  obtain ⟨s, l⟩ := c
  obtain ⟨env, fault, fallback, executionMs⟩ := i
  cases l with
  | received =>
    cases fault with
    | some failure => trivial
    | none =>
      simp only [receivedStep, proxyStep]
      cases hprepare : call.prepare text registry order with
      | error e => trivial
      | ok prepared => exact hprepare
  | admitting prepared =>
    cases fault with
    | some failure => trivial
    | none =>
      simp only [receivedStep, proxyStep]
      rcases hlaunch : call.gate.launch prepared.launchRequest env s.workloads with ⟨_ | a, t⟩
      · trivial
      · have hbound := proxyUpperBound_isMultiple (prepare_ok h).2
        exact ⟨h, estimatedAt_of_launch hbound hlaunch⟩
  | startingRun id prepared =>
    cases fault with
    | some failure =>
      simp only [receivedStep, proxyStep]
      split
      · exact h
      · trivial
    | none => exact ⟨h.1, h.2.running _⟩
  | executing id prepared =>
    simp only [receivedStep, proxyStep]
    rcases hfinish : call.execution text fallback prepared with ⟨progress, finish⟩
    cases finish with
    | relayed response provider =>
      have hrelayed := (execute_sent prepared.providers).2 response provider
        (congrArg Prod.snd hfinish)
      exact ⟨h.1, h.2, hrelayed⟩
    | exhausted => exact h
    | raised e => trivial
  | closing id prepared progress =>
    cases fault with
    | some failure => trivial
    | none => exact h
  | markingFailed id prepared progress =>
    cases fault with
    | some failure => trivial
    | none => trivial
  | markingCompleted id prepared progress response provider =>
    cases fault with
    | some failure =>
      simp only [receivedStep, proxyStep]
      split
      · exact h
      · trivial
    | none => exact ⟨h.1, h.2.1.completed _ _ _ _, h.2.2⟩
  | responded id prepared response provider => exact h
  | raised admitted error => trivial

theorem coveredBy_first {prepared : Prepared}
    (h : call.prepare text registry order = .ok prepared) :
    CoveredBy text call prepared prepared.provider := by
  intro upperBound hbound
  rw [(prepare_ok h).2] at hbound
  exact le_of_eq (Except.ok.inj hbound).symm

theorem covered_iff (text : ProxyText) (call : ProxyCall) (prepared : Prepared) :
    (∀ fallback response p, (call.execution text fallback prepared).2 = .relayed response p →
      CoveredBy text call prepared p) ↔
    ∀ p ∈ reachable text call prepared, CoveredBy text call prepared p := by
  constructor
  · intro h p hp
    obtain ⟨fallback, hrelayed, -⟩ := execute_reaches ⟨200, 0⟩
      (proxyRequest_attempts call) (proxyRequest_budget call) rfl hp
    exact h fallback ⟨200, 0⟩ p hrelayed
  · intro h fallback response p hrelayed
    exact h p ((execute_sent prepared.providers).2 response p hrelayed)

/-- A request that ends with a response was admitted under the quote of the first provider of its
chain. The response comes from a provider within reach, and that one's quote is covered in every
run of the attempts exactly when no provider within reach quotes more. -/
theorem admission_covers_first (text : ProxyText) (registry : Registry) (order : RowOrder)
    (call : ProxyCall) (s s' : Ledger) (is : List ProxyInput) (id : String) (prepared : Prepared)
    (response : UpstreamResponse) (provider : ProviderModel)
    (h : run (receivedStep text registry order call) (s, .received) is =
      (s', .responded id prepared response provider)) :
    (∃ chain, resolveProviderChain text registry order call.capability =
        .ok (prepared.capability, chain) ∧
      drillProviders text call.upstreamHeaders chain = prepared.provider :: prepared.others) ∧
    proxyUpperBound text prepared.capability prepared.provider call.body =
      .ok prepared.upperBound ∧
    EstimatedAt s'.workloads id prepared.upperBound ∧
    provider ∈ reachable text call prepared ∧ CoveredBy text call prepared prepared.provider ∧
    ((∀ fallback response p, (call.execution text fallback prepared).2 = .relayed response p →
      CoveredBy text call prepared p) ↔
    ∀ p ∈ reachable text call prepared, CoveredBy text call prepared p) := by
  have hstart : AdmittedSoFar text registry order call (s, .received) := trivial
  have hrun := run_preserves admittedSoFar_step hstart is
  rw [h] at hrun
  obtain ⟨hprepare, hestimated, hreach⟩ := hrun
  exact ⟨(prepare_ok hprepare).1, (prepare_ok hprepare).2, hestimated, hreach,
    coveredBy_first hprepare, covered_iff text call prepared⟩

end Cover

/-- The quote that a response was admitted under, and the quote of the provider it came from. -/
def quotesOf (text : ProxyText) (call : ProxyCall) (c : Ledger × ProxyState) :
    Option (ℚ × ℚ) :=
  match c.2 with
  | .responded _ prepared _ provider =>
      match proxyUpperBound text prepared.capability provider call.body with
      | .ok upperBound => some (prepared.upperBound, upperBound)
      | .error _ => none
  | _ => none

theorem responded_of_quotesOf {text : ProxyText} {call : ProxyCall} {c : Ledger × ProxyState}
    {admitted served : ℚ} (h : quotesOf text call c = some (admitted, served)) :
    ∃ s' id prepared response provider, c = (s', .responded id prepared response provider) ∧
      prepared.upperBound = admitted ∧
      proxyUpperBound text prepared.capability provider call.body = .ok served := by
  obtain ⟨s, l⟩ := c
  cases l with
  | responded id prepared response provider =>
    simp only [quotesOf] at h
    cases hbound : proxyUpperBound text prepared.capability provider call.body with
    | error e => simp [hbound] at h
    | ok upperBound =>
      simp only [hbound, Option.some.injEq, Prod.mk.injEq] at h
      obtain ⟨rfl, rfl⟩ := h
      exact ⟨s, id, prepared, response, provider, rfl, rfl, hbound⟩
  | _ => cases h

theorem dearChat_ne : "dear" ≠ "" := by decide

def dearChat : ProviderModel := chatProvider "dear" dearChat_ne 2 "5" none

def dearRegistry : Registry := chatRegistry [cheapChat, dearChat] (by decide +kernel)

/-- The request of `chatCall` over `dearRegistry`: the first provider fails, the second serves. -/
def dearRequest : Ledger × ProxyState :=
  run (receivedStep chatText dearRegistry codePointOrder chatCall)
    (⟨Table.empty, Table.empty, []⟩, .received) (List.replicate 5 (chatInput (failOver 1 ⟨200, 0⟩)))

theorem dearRequest_quotes : quotesOf chatText chatCall dearRequest = some (1, 5) := by
  decide +kernel

/-- The request was admitted under 1 and is served at 5. -/
theorem served_above_admission : ¬ ∀ is s' id prepared response provider,
    run (receivedStep chatText dearRegistry codePointOrder chatCall)
      (⟨Table.empty, Table.empty, []⟩, .received) is =
        (s', .responded id prepared response provider) →
      CoveredBy chatText chatCall prepared provider := by
  intro h
  obtain ⟨s', id, prepared, response, provider, hended, hadmitted, hserved⟩ :=
    responded_of_quotesOf dearRequest_quotes
  have hcovered := h _ s' id prepared response provider hended 5 hserved
  rw [hadmitted] at hcovered
  norm_num at hcovered

theorem admission_covers_first_of_two : ∃ s' id prepared response provider,
    dearRequest = (s', .responded id prepared response provider) ∧
    (∃ chain, resolveProviderChain chatText dearRegistry codePointOrder "chat" =
        .ok (prepared.capability, chain) ∧
      drillProviders chatText chatCall.upstreamHeaders chain =
        prepared.provider :: prepared.others) ∧
    proxyUpperBound chatText prepared.capability prepared.provider [] =
      .ok prepared.upperBound ∧
    EstimatedAt s'.workloads id prepared.upperBound ∧
    provider ∈ reachable chatText chatCall prepared ∧
    CoveredBy chatText chatCall prepared prepared.provider ∧
    ((∀ fallback response p, (chatCall.execution chatText fallback prepared).2 =
        .relayed response p → CoveredBy chatText chatCall prepared p) ↔
      ∀ p ∈ reachable chatText chatCall prepared, CoveredBy chatText chatCall prepared p) := by
  obtain ⟨s', id, prepared, response, provider, hended, -, -⟩ :=
    responded_of_quotesOf dearRequest_quotes
  exact ⟨s', id, prepared, response, provider, hended, admission_covers_first chatText dearRegistry
    codePointOrder chatCall ⟨Table.empty, Table.empty, []⟩ s' _ id prepared response provider
    hended⟩

end Pitwall
