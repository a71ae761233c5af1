import Pitwall.Api.OpenAIProxy
set_option autoImplicit false

/-!
Which providers a request can be attempted on while they cool down or are unhealthy, on the
paths of the resolver and on that of the proxy.
-/

namespace Pitwall
open Routing Routing.OpenAI Pricing

/-- A request that needs a provider. The proxy sends nothing before its admission, so that path
comes with what the admission reads. -/
inductive RoutedCall where
  | createInference (capabilityId : String) (providerId : Option String) (payloadBytes : Int)
  | job (capabilityId : String) (providerId : Option String) (payloadBytes : Int)
  | openaiProxy (call : ProxyCall) (workloads : Workloads) (env : LaunchEnv)

def CoolingAt (now : Instant) (p : ProviderModel) : Prop :=
  ∃ t, p.cooldownUntil = some t ∧ now < t

/-- Where the proxy can send its request: the first providers that have a URL, up to one that no
request can be built for. -/
def reachable (text : ProxyText) (c : ProxyCall) (prepared : Prepared) : List ProviderModel :=
  sendable text.buildUrl c.proxyRequest (eligibleProviders c.proxyRequest prepared.providers)

section Attempts
variable (text : ProxyText) (registry : Registry) (order : RowOrder) (now : Instant)

/-- Some run of the request attempts it on `p`. -/
def AttemptedOn : RoutedCall → ProviderModel → Prop
  | .createInference capabilityId providerId payloadBytes, p
  | .job capabilityId providerId payloadBytes, p =>
      ∃ resolution, registry.resolveInferenceTarget text.python order capabilityId providerId
        payloadBytes now = .ok resolution ∧ resolution.provider = p
  | .openaiProxy c workloads env, p =>
      ∃ prepared admission workloads' run request, c.prepare text registry order = .ok prepared ∧
        c.gate.launch prepared.launchRequest env workloads = (.ok admission, workloads') ∧
        (p, request) ∈ (c.execution text run prepared).1.sent

/-- No provider that the proxy can reach is cooling down. -/
def NoneCooling : RoutedCall → Prop
  | .createInference _ _ _ | .job _ _ _ => True
  | .openaiProxy c workloads env =>
      ∀ prepared admission workloads', c.prepare text registry order = .ok prepared →
        c.gate.launch prepared.launchRequest env workloads = (.ok admission, workloads') →
        ∀ p ∈ reachable text c prepared, ¬ CoolingAt now p

variable {text registry order now}

theorem reachable_subset {c : ProxyCall} {prepared : Prepared} {p : ProviderModel}
    (h : p ∈ reachable text c prepared) : p ∈ prepared.providers := by
  have heligible := (List.takeWhile_subset _) h
  exact (List.mem_filter.mp (List.mem_of_mem_take heligible)).1

theorem noneCooling_of_rows {c : ProxyCall} {workloads : Workloads} {env : LaunchEnv}
    (h : ∀ capability, registry.capabilityByName c.capability = some capability →
      ∀ p ∈ registry.enabledProviders capability.id, ¬ CoolingAt now p) :
    NoneCooling text registry order now (.openaiProxy c workloads env) := by
  intro prepared admission workloads' hprepare hlaunch p hp
  obtain ⟨hrow, hcapability, henabled, -⟩ := prepared_provider hprepare (reachable_subset hp)
  obtain ⟨⟨chain, hchain, -⟩, -⟩ := prepare_ok hprepare
  refine h prepared.capability (resolveProviderChain_ok hchain).1 p ?_
  simp [Registry.enabledProviders, hrow, hcapability, henabled]

theorem sent_reachable {c : ProxyCall} {prepared : Prepared} {run : FallbackRun}
    {e : ProviderModel × UpstreamRequest} (h : e ∈ (c.execution text run prepared).1.sent) :
    e.1 ∈ reachable text c prepared :=
  ((execute_sent prepared.providers).1 e h).1

theorem reachable_sent {c : ProxyCall} {prepared : Prepared} {p : ProviderModel}
    (h : p ∈ reachable text c prepared) :
    ∃ run request, (p, request) ∈ (c.execution text run prepared).1.sent := by
  obtain ⟨run, -, request, hsent⟩ := execute_reaches ⟨200, 0⟩
    (proxyRequest_attempts c) (proxyRequest_budget c) rfl h
  exact ⟨run, request, hsent⟩

/-- The status `unhealthy` keeps a provider out of the chain. -/
theorem healthStatus_of_candidate {p : ProviderModel}
    (hlower : text.python.lower "unhealthy" = "unhealthy")
    (h : isCandidate text.python none (.model p) = .ok true) : p.healthStatus ≠ "unhealthy" := by
  intro hstatus
  have hunhealthy := (isCandidate_iff.mp h).2.2.1
  have hfield : (ProviderLike.model p).field "health_status" = .str p.healthStatus := rfl
  have hstrip : nonEmptyString (.str "unhealthy") = some "unhealthy" := by decide
  rw [providerUnhealthy, hfield, hstatus, hstrip] at hunhealthy
  simp [hlower] at hunhealthy

theorem resolved_in_rotation {capabilityId : String} {providerId : Option String}
    {payloadBytes : Int} {resolution : Stage12Resolution}
    (hlower : text.python.lower "unhealthy" = "unhealthy")
    (h : registry.resolveInferenceTarget text.python order capabilityId providerId payloadBytes
      now = .ok resolution) :
    ¬ CoolingAt now resolution.provider ∧ resolution.provider.healthStatus ≠ "unhealthy" := by
  obtain ⟨capability, -, -, -, hpasses, hhealthy⟩ := resolveInferenceTarget_sound h
  constructor
  · rintro ⟨t, huntil, hlater⟩
    have hcooldown := hpasses.cooldown
    have hstatus := healthStatus_ne hcooldown
    rw [isInCooldown_model, if_neg hstatus, huntil] at hcooldown
    simp [hlater] at hcooldown
  · intro hstatus
    rw [hstatus, hlower] at hhealthy
    exact absurd hhealthy (by decide)

/-- A request stays off the providers that cool down or are unhealthy exactly when no provider
that the proxy can reach for it is cooling down: the resolver keeps off them by itself. -/
theorem cooldown_kept_iff (text : ProxyText) (registry : Registry) (order : RowOrder)
    (now : Instant) (call : RoutedCall) (hlower : text.python.lower "unhealthy" = "unhealthy") :
    (∀ p, AttemptedOn text registry order now call p →
      ¬ CoolingAt now p ∧ p.healthStatus ≠ "unhealthy") ↔
    NoneCooling text registry order now call := by
  cases call with
  | createInference capabilityId providerId payloadBytes =>
    refine iff_of_true ?_ trivial
    rintro p ⟨resolution, hresolution, rfl⟩
    exact resolved_in_rotation hlower hresolution
  | job capabilityId providerId payloadBytes =>
    refine iff_of_true ?_ trivial
    rintro p ⟨resolution, hresolution, rfl⟩
    exact resolved_in_rotation hlower hresolution
  | openaiProxy c workloads env =>
    constructor
    · intro h prepared admission workloads' hprepare hlaunch p hp
      obtain ⟨run, request, hsent⟩ := reachable_sent hp
      exact (h p ⟨prepared, admission, workloads', run, request, hprepare, hlaunch, hsent⟩).1
    · rintro h p ⟨prepared, admission, workloads', run, request, hprepare, hlaunch, hsent⟩
      have hreach := sent_reachable hsent
      have hcandidate := (prepared_provider hprepare (reachable_subset hreach)).2.2.2
      exact ⟨h prepared admission workloads' hprepare hlaunch p hreach,
        healthStatus_of_candidate hlower hcandidate⟩

end Attempts

theorem coolingChat_ne : "cooling" ≠ "" := by decide

def coolingChat : ProviderModel := chatProvider "cooling" coolingChat_ne 1 "1" (some 10)

theorem coolingIds_nodup : ([coolingChat].map ProviderModel.id).Nodup := List.nodup_singleton _

def coolingRegistry : Registry := chatRegistry [coolingChat] coolingIds_nodup

def reachedUntil (text : ProxyText) (registry : Registry) (order : RowOrder) (c : ProxyCall)
    (workloads : Workloads) (env : LaunchEnv) : Option (List (Option Instant)) :=
  match c.prepare text registry order with
  | .error _ => none
  | .ok prepared =>
      match c.gate.launch prepared.launchRequest env workloads with
      | (.error _, _) => none
      | (.ok _, _) => some ((reachable text c prepared).map ProviderModel.cooldownUntil)

theorem attempted_of_reachedUntil {text : ProxyText} {registry : Registry} {order : RowOrder}
    {c : ProxyCall} {workloads : Workloads} {env : LaunchEnv} {now : Instant}
    {reached : List (Option Instant)} {t : Option Instant}
    (h : reachedUntil text registry order c workloads env = some reached) (ht : t ∈ reached) :
    ∃ p, AttemptedOn text registry order now (.openaiProxy c workloads env) p ∧
      p.cooldownUntil = t := by
  unfold reachedUntil at h
  cases hprepare : c.prepare text registry order with
  | error e => simp [hprepare] at h
  | ok prepared =>
    simp only [hprepare] at h
    cases hlaunch : c.gate.launch prepared.launchRequest env workloads with
    | mk result workloads' =>
      cases result with
      | error e => simp [hlaunch] at h
      | ok admission =>
        simp only [hlaunch, Option.some.injEq] at h
        rw [← h] at ht
        obtain ⟨p, hp, hcooldown⟩ := List.mem_map.mp ht
        obtain ⟨run, request, hsent⟩ := reachable_sent hp
        exact ⟨p, ⟨prepared, admission, workloads', run, request, hprepare, hlaunch, hsent⟩,
          hcooldown⟩

/-- At instant 5 the proxy sends its request to the provider. -/
theorem attempted_while_cooling : ¬ ∀ p, AttemptedOn chatText coolingRegistry codePointOrder 5
    (.openaiProxy chatCall Table.empty chatEnv) p →
      ¬ CoolingAt 5 p ∧ p.healthStatus ≠ "unhealthy" := by
  intro h
  have hreached : reachedUntil chatText coolingRegistry codePointOrder chatCall Table.empty
      chatEnv = some [some 10] := by decide +kernel
  obtain ⟨p, hattempted, huntil⟩ := attempted_of_reachedUntil hreached (List.mem_singleton_self _)
  exact (h p hattempted).1 ⟨10, huntil, by decide⟩

/-- Over a registry without cooldowns the proxy sends its request, and keeps off them. -/
theorem cooldown_kept_when_idle :
    (∃ p, AttemptedOn chatText cheapRegistry codePointOrder 5
      (.openaiProxy chatCall Table.empty chatEnv) p) ∧
    ∀ p, AttemptedOn chatText cheapRegistry codePointOrder 5
      (.openaiProxy chatCall Table.empty chatEnv) p →
        ¬ CoolingAt 5 p ∧ p.healthStatus ≠ "unhealthy" := by
  have hreached : reachedUntil chatText cheapRegistry codePointOrder chatCall Table.empty
      chatEnv = some [none] := by decide +kernel
  obtain ⟨p, hattempted, -⟩ := attempted_of_reachedUntil hreached (List.mem_singleton_self _)
  refine ⟨⟨p, hattempted⟩, (cooldown_kept_iff chatText cheapRegistry codePointOrder 5
    (.openaiProxy chatCall Table.empty chatEnv) (by decide +kernel)).mpr ?_⟩
  refine noneCooling_of_rows fun capability _ q hq => ?_
  obtain rfl := List.mem_singleton.mp (List.mem_filter.mp hq).1
  rintro ⟨t, huntil, -⟩
  cases huntil

end Pitwall
