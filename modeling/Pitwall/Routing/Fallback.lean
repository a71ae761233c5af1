import Pitwall.Routing.OpenAI
set_option autoImplicit false

/-!
`execute_openai_with_fallback`: the attempts on the providers of a chain within one time
budget, up to the headers of a response.
-/

namespace Pitwall.Routing.OpenAI

/-- `OpenAIProxyRequest`, without its client. -/
structure OpenAIProxyRequest where
  method : String
  path : String
  headers : List (String × String)
  body : List UInt8
  fallbackBudgetS : ℚ
  maxAttempts : Int

/-- What `client.build_request` is given. -/
structure UpstreamRequest where
  method : String
  url : String
  headers : List (String × String)
  content : List UInt8
  deriving DecidableEq

/-- The headers of a response: its status and `_content_length`. -/
structure UpstreamResponse where
  statusCode : Nat
  contentLength : Int
  deriving DecidableEq

/-- How `client.send` ends: with the headers of a response, with a timeout or an
`httpx.HTTPError`, or with an exception that the executor does not catch. `closed` is what
closing the response comes to, where the executor does that. -/
inductive SendOutcome where
  | response (response : UpstreamResponse) (closed : Except PyError Unit)
  | transportError (message : String)
  | raised (exc : PyError)

/-- What the world supplies to one round: the clock at its head, the outcome of the attempt, and
the clock where the round looks at it again. -/
structure AttemptRound where
  startsAt : ℚ
  outcome : SendOutcome
  endsAt : ℚ

structure FallbackRun where
  startedAt : ℚ
  round : Nat → AttemptRound

structure Attempts where
  attempted : List ProviderModel
  errors : JsonObject
  sent : List (ProviderModel × UpstreamRequest)

/-- `attempted_provider_ids`. -/
def Attempts.ids (progress : Attempts) : List String := progress.attempted.map ProviderModel.id

inductive Finish where
  | relayed (response : UpstreamResponse) (provider : ProviderModel)
  /-- `OpenAIProxyExecutionError`. -/
  | exhausted
  | raised (exc : PyError)

/-- `_is_retryable_response`. -/
def UpstreamResponse.retryable (response : UpstreamResponse) : Bool :=
  decide (500 ≤ response.statusCode ∧ response.statusCode < 600)

def modelUrl (p : ProviderModel) : Option String := openaiBaseUrlForProvider (.model p)

/-- `_providers_with_openai_urls`. -/
def providersWithOpenaiUrls (providers : List ProviderModel) (maxAttempts : Nat) :
    List ProviderModel :=
  (providers.filter fun p => (modelUrl p).isSome).take maxAttempts

section Execute
variable (buildUrl : String → String → Except PyError String) (ctx : OpenAIProxyRequest)

/-- `_send_until_headers`, up to the request; `buildUrl` is `build_openai_url`. -/
def buildRequest (p : ProviderModel) : Except PyError UpstreamRequest :=
  match modelUrl p with
  | none => .error (valueError s!"provider '{p.id}' does not have an OpenAI base URL")
  | some baseUrl => do
      let url ← buildUrl baseUrl ctx.path
      pure ⟨ctx.method, url, ctx.headers, ctx.body⟩

variable (run : FallbackRun)

def deadline : ℚ := run.startedAt + ctx.fallbackBudgetS

def verdict (last : Bool) (round : AttemptRound) (p : ProviderModel) : Option Finish :=
  match round.outcome with
  | .raised e => some (.raised e)
  | .transportError _ =>
      if last = false ∧ round.endsAt < deadline ctx run then none else some .exhausted
  | .response response closed =>
      if response.retryable = false ∨ last = true ∨ deadline ctx run ≤ round.endsAt then
        some (.relayed response p)
      else
        match closed with
        | .error e => some (.raised e)
        | .ok () => none

/-- `attempted_errors[provider.id] = ...`. -/
def noteError (p : ProviderModel) (round : AttemptRound) (errors : JsonObject) : JsonObject :=
  match round.outcome with
  | .raised _ => errors
  | .transportError message => errors.set p.id (.str message)
  | .response response _ =>
      if response.retryable then errors.set p.id (.str s!"HTTP {response.statusCode}") else errors

def attemptOnce (last : Bool) (round : AttemptRound) (p : ProviderModel) (progress : Attempts) :
    Attempts × Option Finish :=
  if deadline ctx run ≤ round.startsAt then (progress, some .exhausted)
  else
    match buildRequest buildUrl ctx p with
    | .error e => ({ progress with attempted := progress.attempted ++ [p] }, some (.raised e))
    | .ok request =>
        ({ attempted := progress.attempted ++ [p]
           errors := noteError p round progress.errors
           sent := progress.sent ++ [(p, request)] },
          verdict ctx run last round p)

/-- The loop over the eligible providers, from the one at `index` on. -/
def attemptProviders : Nat → List ProviderModel → Attempts → Attempts × Finish
  | _, [], progress => (progress, .exhausted)
  | index, p :: rest, progress =>
      match attemptOnce buildUrl ctx run rest.isEmpty (run.round index) p progress with
      | (progress, some finish) => (progress, finish)
      | (progress, none) => attemptProviders (index + 1) rest progress

def eligibleProviders (providers : List ProviderModel) : List ProviderModel :=
  providersWithOpenaiUrls providers (min ctx.maxAttempts.toNat defaultMaxAttempts)

/-- `execute_openai_with_fallback`. -/
def executeOpenaiWithFallback (providers : List ProviderModel) : Attempts × Finish :=
  if ctx.maxAttempts < 1 then
    (⟨[], [], []⟩, .raised (valueError "max_attempts must be a positive integer"))
  else if ctx.fallbackBudgetS ≤ 0 then
    (⟨[], [], []⟩, .raised (valueError "fallback_budget_s must be positive"))
  else attemptProviders buildUrl ctx run 0 (eligibleProviders ctx providers) ⟨[], [], []⟩

end Execute

section Rounds
variable {buildUrl : String → String → Except PyError String} {ctx : OpenAIProxyRequest}
  {run : FallbackRun}

theorem attemptOnce_cases (buildUrl : String → String → Except PyError String)
    (ctx : OpenAIProxyRequest) (run : FallbackRun) (last : Bool) (round : AttemptRound)
    (p : ProviderModel) (progress : Attempts) :
    (deadline ctx run ≤ round.startsAt ∧
      attemptOnce buildUrl ctx run last round p progress = (progress, some .exhausted)) ∨
    (round.startsAt < deadline ctx run ∧ ∃ e, buildRequest buildUrl ctx p = .error e ∧
      attemptOnce buildUrl ctx run last round p progress =
        ({ progress with attempted := progress.attempted ++ [p] }, some (.raised e))) ∨
    (round.startsAt < deadline ctx run ∧ ∃ request, buildRequest buildUrl ctx p = .ok request ∧
      attemptOnce buildUrl ctx run last round p progress =
        (⟨progress.attempted ++ [p], noteError p round progress.errors,
          progress.sent ++ [(p, request)]⟩, verdict ctx run last round p)) := by
  unfold attemptOnce
  by_cases hlate : deadline ctx run ≤ round.startsAt
  · exact .inl ⟨hlate, if_pos hlate⟩
  · rw [if_neg hlate]
    cases hbuild : buildRequest buildUrl ctx p with
    | error e => exact .inr (.inl ⟨not_le.mp hlate, e, rfl, rfl⟩)
    | ok request => exact .inr (.inr ⟨not_le.mp hlate, request, rfl, rfl⟩)

theorem verdict_relayed {last : Bool} {round : AttemptRound} {p q : ProviderModel}
    {response : UpstreamResponse}
    (h : verdict ctx run last round p = some (.relayed response q)) :
    q = p ∧ ∃ closed, round.outcome = .response response closed := by
  unfold verdict at h
  cases houtcome : round.outcome with
  | raised e => simp [houtcome] at h
  | transportError message =>
    simp only [houtcome] at h
    split at h <;> simp at h
  | response r closed =>
    simp only [houtcome] at h
    split at h
    · simp only [Option.some.injEq, Finish.relayed.injEq] at h
      obtain ⟨rfl, rfl⟩ := h
      exact ⟨rfl, closed, rfl⟩
    · cases closed <;> simp at h

def sendable (buildUrl : String → String → Except PyError String) (ctx : OpenAIProxyRequest)
    (providers : List ProviderModel) : List ProviderModel :=
  providers.takeWhile fun p => (buildRequest buildUrl ctx p).isOk

theorem sendable_cons_ok {p : ProviderModel} {rest : List ProviderModel} {request : UpstreamRequest}
    (h : buildRequest buildUrl ctx p = .ok request) :
    sendable buildUrl ctx (p :: rest) = p :: sendable buildUrl ctx rest := by
  unfold sendable
  rw [List.takeWhile_cons_of_pos]
  rw [h]
  rfl

/-- The requests go to a prefix of the providers, in their order, each as it is built for its
provider, and a response that is relayed is one of the last of them. -/
theorem attemptProviders_sent (buildUrl : String → String → Except PyError String)
    (ctx : OpenAIProxyRequest) (run : FallbackRun) (index : Nat)
    (providers : List ProviderModel) (progress : Attempts) :
    ∃ reached, (reached.map Prod.fst) <+: sendable buildUrl ctx providers ∧
      (attemptProviders buildUrl ctx run index providers progress).1.sent =
        progress.sent ++ reached ∧
      (∀ e ∈ reached, buildRequest buildUrl ctx e.1 = .ok e.2) ∧
      ∀ response q, (attemptProviders buildUrl ctx run index providers progress).2 =
        .relayed response q → (reached.map Prod.fst).getLast? = some q := by
  induction providers generalizing index progress with
  | nil => exact ⟨[], List.nil_prefix, by simp [attemptProviders], by simp, by simp [attemptProviders]⟩
  | cons p rest ih =>
    unfold attemptProviders
    rcases attemptOnce_cases buildUrl ctx run rest.isEmpty
        (run.round index) p progress with ⟨-, honce⟩ | ⟨-, e, -, honce⟩ | ⟨-, request, hbuild, honce⟩
    · rw [honce]
      exact ⟨[], List.nil_prefix, by simp, by simp, by simp⟩
    · rw [honce]
      exact ⟨[], List.nil_prefix, by simp, by simp, by simp⟩
    · rw [honce, sendable_cons_ok hbuild]
      cases hverdict : verdict ctx run rest.isEmpty (run.round index) p with
      | some finish =>
        refine ⟨[(p, request)], ⟨sendable buildUrl ctx rest, rfl⟩, rfl, ?_, fun response q hq => ?_⟩
        · simpa using hbuild
        · dsimp only at hq
          subst hq
          rw [(verdict_relayed hverdict).1]
          rfl
      | none =>
        obtain ⟨reached, hpre, hsent, hbuilt, hlast⟩ := ih (index + 1)
          ⟨progress.attempted ++ [p], noteError p (run.round index) progress.errors,
            progress.sent ++ [(p, request)]⟩
        refine ⟨(p, request) :: reached, List.cons_prefix_cons.mpr ⟨rfl, hpre⟩, ?_, ?_,
          fun response q hq => ?_⟩
        · dsimp only
          rw [hsent, List.append_assoc, List.singleton_append]
        · rw [List.forall_mem_cons]
          exact ⟨hbuild, hbuilt⟩
        · rw [List.map_cons, List.getLast?_cons, hlast response q hq]
          rfl

theorem execute_eq {providers : List ProviderModel} (hmax : 1 ≤ ctx.maxAttempts)
    (hbudget : 0 < ctx.fallbackBudgetS) :
    executeOpenaiWithFallback buildUrl ctx run providers =
      attemptProviders buildUrl ctx run 0 (eligibleProviders ctx providers) ⟨[], [], []⟩ := by
  unfold executeOpenaiWithFallback
  rw [if_neg (not_lt.mpr hmax), if_neg (not_le.mpr hbudget)]

theorem execute_sent (providers : List ProviderModel) :
    (∀ e ∈ (executeOpenaiWithFallback buildUrl ctx run providers).1.sent,
      e.1 ∈ sendable buildUrl ctx (eligibleProviders ctx providers) ∧
        buildRequest buildUrl ctx e.1 = .ok e.2) ∧
    ∀ response q, (executeOpenaiWithFallback buildUrl ctx run providers).2 = .relayed response q →
      q ∈ sendable buildUrl ctx (eligibleProviders ctx providers) := by
  unfold executeOpenaiWithFallback
  split
  · exact ⟨by simp, by simp⟩
  · split
    · exact ⟨by simp, by simp⟩
    · obtain ⟨reached, hpre, hsent, hbuilt, hlast⟩ := attemptProviders_sent
        buildUrl ctx run 0 (eligibleProviders ctx providers) ⟨[], [], []⟩
      rw [List.nil_append] at hsent
      refine ⟨fun e he => ?_, fun response q hq => ?_⟩
      · rw [hsent] at he
        exact ⟨hpre.subset (List.mem_map_of_mem he), hbuilt e he⟩
      · exact hpre.subset (List.mem_of_getLast? (hlast response q hq))

section Verdict
variable (ctx : OpenAIProxyRequest) (run : FallbackRun) (last : Bool) (round : AttemptRound)

/-- The attempt fails in a way that calls for another, and there is one and time for it. -/
def GoesOn : Prop :=
  last = false ∧ round.endsAt < deadline ctx run ∧
    match round.outcome with
    | .raised _ => False
    | .transportError _ => True
    | .response response closed => response.retryable = true ∧ closed = .ok ()

/-- The attempt fails without a response, and nothing is left to try or no time for it. -/
def GivesUp : Prop :=
  (∃ message, round.outcome = .transportError message) ∧
    (last = true ∨ deadline ctx run ≤ round.endsAt)

theorem verdict_eq_none_iff (p : ProviderModel) :
    verdict ctx run last round p = none ↔ GoesOn ctx run last round := by
  unfold verdict GoesOn
  cases round.outcome with
  | raised e => simp
  | transportError message =>
    dsimp only
    split
    · rename_i hmore
      exact iff_of_true rfl ⟨hmore.1, hmore.2, trivial⟩
    · rename_i hmore
      exact iff_of_false (by simp) fun h => hmore ⟨h.1, h.2.1⟩
  | response response closed =>
    dsimp only
    split
    · rename_i hfinal
      refine iff_of_false (by simp) (fun h => ?_)
      obtain ⟨hlast, htime, hretry, -⟩ := h
      rcases hfinal with hfinal | hfinal | hfinal
      · rw [hretry] at hfinal; cases hfinal
      · rw [hlast] at hfinal; cases hfinal
      · exact absurd htime (not_lt.mpr hfinal)
    · rename_i hfinal
      simp only [not_or, Bool.not_eq_false, Bool.not_eq_true, not_le] at hfinal
      cases closed with
      | error e => simp
      | ok closed => exact iff_of_true rfl ⟨hfinal.2.1, hfinal.2.2, hfinal.1, rfl⟩

theorem verdict_eq_exhausted_iff (p : ProviderModel) :
    verdict ctx run last round p = some .exhausted ↔ GivesUp ctx run last round := by
  unfold verdict GivesUp
  cases round.outcome with
  | raised e => simp
  | transportError message =>
    dsimp only
    split
    · rename_i hmore
      refine iff_of_false (by simp) (fun h => ?_)
      rcases h.2 with hlast | hlate
      · rw [hmore.1] at hlast; cases hlast
      · exact absurd hmore.2 (not_lt.mpr hlate)
    · rename_i hmore
      rw [not_and_or, Bool.not_eq_false, not_lt] at hmore
      exact iff_of_true rfl ⟨⟨message, rfl⟩, hmore⟩
  | response response closed =>
    dsimp only
    split
    · simp
    · cases closed <;> simp

end Verdict

def Exhausts (buildUrl : String → String → Except PyError String) (ctx : OpenAIProxyRequest)
    (run : FallbackRun) : Nat → List ProviderModel → Prop
  | _, [] => True
  | index, p :: rest =>
      deadline ctx run ≤ (run.round index).startsAt ∨
      (∃ request, buildRequest buildUrl ctx p = .ok request) ∧
        (GivesUp ctx run rest.isEmpty (run.round index) ∨
          GoesOn ctx run rest.isEmpty (run.round index) ∧
            Exhausts buildUrl ctx run (index + 1) rest)

theorem attemptProviders_exhausted_iff (index : Nat) (providers : List ProviderModel)
    (progress : Attempts) :
    (attemptProviders buildUrl ctx run index providers progress).2 = .exhausted ↔
      Exhausts buildUrl ctx run index providers := by
  induction providers generalizing index progress with
  | nil => exact iff_of_true rfl trivial
  | cons p rest ih =>
    unfold attemptProviders Exhausts
    rcases attemptOnce_cases buildUrl ctx run rest.isEmpty
        (run.round index) p progress with ⟨hlate, honce⟩ | ⟨hearly, e, hbuild, honce⟩ |
        ⟨hearly, request, hbuild, honce⟩
    · rw [honce]
      exact iff_of_true rfl (.inl hlate)
    · rw [honce]
      simp [hbuild, not_le.mpr hearly]
    · rw [honce, ← verdict_eq_exhausted_iff ctx run rest.isEmpty (run.round index) p,
        ← verdict_eq_none_iff ctx run rest.isEmpty (run.round index) p]
      cases verdict ctx run rest.isEmpty (run.round index) p with
      | none => simpa [hbuild, not_le.mpr hearly] using ih (index + 1) _
      | some finish => simp [hbuild, not_le.mpr hearly]

/-- The first eligible provider is `p`, and it answers the first attempt below 500. -/
def FirstServes (buildUrl : String → String → Except PyError String) (ctx : OpenAIProxyRequest)
    (run : FallbackRun) (p : ProviderModel) (eligible : List ProviderModel) : Prop :=
  eligible.head? = some p ∧ (run.round 0).startsAt < deadline ctx run ∧
    (∃ request, buildRequest buildUrl ctx p = .ok request) ∧
    ∃ response closed, (run.round 0).outcome = .response response closed ∧ response.statusCode < 500

/-- What the client gets is what the first of the providers answered, below 500, or nothing. -/
def HonestFinish (p : ProviderModel) : Finish → Prop
  | .relayed response q => q.id = p.id ∧ response.statusCode < 500
  | .exhausted => True
  | .raised _ => False

theorem verdict_of_low {last : Bool} {round : AttemptRound} {p : ProviderModel}
    {response : UpstreamResponse} {closed : Except PyError Unit}
    (houtcome : round.outcome = .response response closed) (hlow : response.statusCode < 500) :
    verdict ctx run last round p = some (.relayed response p) := by
  have hretry : response.retryable = false := by
    unfold UpstreamResponse.retryable
    simp only [decide_eq_false_iff_not]
    omega
  simp [verdict, houtcome, hretry]

theorem attemptProviders_relayed_mem {index : Nat} {providers : List ProviderModel}
    {progress : Attempts} {response : UpstreamResponse} {q : ProviderModel}
    (h : (attemptProviders buildUrl ctx run index providers progress).2 = .relayed response q) :
    q ∈ providers := by
  obtain ⟨reached, hpre, -, -, hlast⟩ := attemptProviders_sent buildUrl ctx run index providers
    progress
  exact List.takeWhile_subset _ (hpre.subset (List.mem_of_getLast? (hlast response q h)))

theorem firstServes_of_relayed {p : ProviderModel} {rest : List ProviderModel}
    {progress : Attempts} {response : UpstreamResponse} (hfresh : p ∉ rest)
    (hlow : response.statusCode < 500)
    (h : (attemptProviders buildUrl ctx run 0 (p :: rest) progress).2 = .relayed response p) :
    FirstServes buildUrl ctx run p (p :: rest) := by
  unfold attemptProviders at h
  rcases attemptOnce_cases buildUrl ctx run rest.isEmpty
      (run.round 0) p progress with ⟨-, honce⟩ | ⟨-, e, -, honce⟩ | ⟨hearly, request, hbuild, honce⟩
  · rw [honce] at h
    cases h
  · rw [honce] at h
    cases h
  · rw [honce] at h
    cases hverdict : verdict ctx run rest.isEmpty (run.round 0) p with
    | none =>
      rw [hverdict] at h
      exact absurd (attemptProviders_relayed_mem h) hfresh
    | some finish =>
      rw [hverdict] at h
      dsimp only at h
      rw [h] at hverdict
      obtain ⟨-, closed, houtcome⟩ := verdict_relayed hverdict
      exact ⟨rfl, hearly, ⟨request, hbuild⟩, response, closed, houtcome, hlow⟩

theorem relayed_of_firstServes {p : ProviderModel} {eligible : List ProviderModel}
    (progress : Attempts) (h : FirstServes buildUrl ctx run p eligible) :
    ∃ response, (attemptProviders buildUrl ctx run 0 eligible progress).2 = .relayed response p ∧
      response.statusCode < 500 := by
  obtain ⟨hhead, hearly, ⟨request, hbuild⟩, response, closed, houtcome, hlow⟩ := h
  obtain ⟨rest, rfl⟩ := List.head?_eq_some_iff.mp hhead
  refine ⟨response, ?_, hlow⟩
  simp only [attemptProviders, attemptOnce, not_le.mpr hearly, if_false, hbuild,
    verdict_of_low houtcome hlow]

theorem honestFinish_iff {p : ProviderModel} {others eligible : List ProviderModel}
    (hids : ((p :: others).map ProviderModel.id).Nodup) (hsub : eligible.Sublist (p :: others))
    (progress : Attempts) :
    HonestFinish p (attemptProviders buildUrl ctx run 0 eligible progress).2 ↔
      Exhausts buildUrl ctx run 0 eligible ∨ FirstServes buildUrl ctx run p eligible := by
  rw [← attemptProviders_exhausted_iff 0 eligible progress]
  constructor
  · intro h
    cases hfinish : (attemptProviders buildUrl ctx run 0 eligible progress).2 with
    | exhausted => exact .inl rfl
    | raised e => rw [hfinish] at h; exact h.elim
    | relayed response q =>
      rw [hfinish] at h
      obtain ⟨hid, hlow⟩ := h
      have hq := attemptProviders_relayed_mem hfinish
      obtain rfl : q = p := List.inj_on_of_nodup_map hids (hsub.subset hq) List.mem_cons_self hid
      have hnodup : (q :: others).Nodup := List.Nodup.of_map _ hids
      cases hsub with
      | cons _ hothers =>
        -- The admitted provider has no URL, so that it cannot be the one that serves.
        exact absurd (hothers.subset hq) (List.nodup_cons.mp hnodup).1
      | @cons_cons rest _ _ hrest =>
        have hfresh : q ∉ rest := fun hmem =>
          (List.nodup_cons.mp hnodup).1 (hrest.subset hmem)
        exact .inr (firstServes_of_relayed hfresh hlow hfinish)
  · rintro (hexhausted | hfirst)
    · rw [hexhausted]
      trivial
    · obtain ⟨response, hfinish, hlow⟩ := relayed_of_firstServes progress hfirst
      rw [hfinish]
      exact ⟨rfl, hlow⟩

/-- A run in which the first `failures` attempts fail in transport at once, and the next one is
answered. -/
def failOver (failures : Nat) (response : UpstreamResponse) : FallbackRun where
  startedAt := 0
  round index := ⟨0, if index < failures then .transportError "timed out"
    else .response response (.ok ()), 0⟩

theorem attemptProviders_failOver {failures : Nat} {response : UpstreamResponse}
    {init rest : List ProviderModel} {p : ProviderModel} (hbudget : 0 < ctx.fallbackBudgetS)
    (hresponse : response.retryable = false) (index : Nat) (progress : Attempts)
    (hfailures : failures = index + init.length)
    (hbuild : ∀ q ∈ init ++ [p], ∃ request, buildRequest buildUrl ctx q = .ok request) :
    (attemptProviders buildUrl ctx (failOver failures response) index (init ++ p :: rest)
      progress).2 = .relayed response p ∧
    ∃ request, (p, request) ∈ (attemptProviders buildUrl ctx (failOver failures response) index
      (init ++ p :: rest) progress).1.sent := by
  have hearly : 0 < deadline ctx (failOver failures response) := by
    unfold deadline failOver
    rw [zero_add]
    exact hbudget
  induction init generalizing index progress with
  | nil =>
    obtain ⟨request, hrequest⟩ := hbuild p (by simp)
    have hround : (failOver failures response).round index = ⟨0, .response response (.ok ()), 0⟩ := by
      simp [failOver, hfailures]
    simp only [List.nil_append, attemptProviders, hround, attemptOnce, not_le.mpr hearly, if_false,
      hrequest, verdict, hresponse, true_or, if_true]
    exact ⟨trivial, request, by simp⟩
  | cons q init ih =>
    obtain ⟨request, hrequest⟩ := hbuild q (by simp)
    have hround : (failOver failures response).round index =
        ⟨0, .transportError "timed out", 0⟩ := by
      simp [failOver, hfailures]
    have hmore : (init ++ p :: rest).isEmpty = false := by cases init <;> rfl
    simp only [List.cons_append, attemptProviders, hround, attemptOnce, not_le.mpr hearly, if_false,
      hrequest, verdict, hmore, hearly, and_self, if_true]
    exact ih _ _ (by simp at hfailures; omega) (fun q' hq' => hbuild q' (by simp at hq' ⊢; tauto))

theorem execute_reaches {providers : List ProviderModel} {p : ProviderModel}
    (response : UpstreamResponse) (hmax : 1 ≤ ctx.maxAttempts) (hbudget : 0 < ctx.fallbackBudgetS)
    (hresponse : response.retryable = false)
    (hp : p ∈ sendable buildUrl ctx (eligibleProviders ctx providers)) :
    ∃ run, (executeOpenaiWithFallback buildUrl ctx run providers).2 = .relayed response p ∧
      ∃ request, (p, request) ∈ (executeOpenaiWithFallback buildUrl ctx run providers).1.sent := by
  obtain ⟨init, rest, hsplit⟩ := List.append_of_mem hp
  have hpre : init ++ [p] <+: eligibleProviders ctx providers := by
    have hinit : init ++ [p] <+: sendable buildUrl ctx (eligibleProviders ctx providers) := by
      rw [hsplit]
      exact ⟨rest, by simp⟩
    exact hinit.trans (List.takeWhile_prefix _)
  obtain ⟨tail, htail⟩ := hpre
  have hbuild : ∀ q ∈ init ++ [p], ∃ request, buildRequest buildUrl ctx q = .ok request := by
    intro q hq
    have hmem : q ∈ sendable buildUrl ctx (eligibleProviders ctx providers) := by
      rw [hsplit]
      simp at hq ⊢
      tauto
    have hok := List.mem_takeWhile_imp hmem
    cases hrequest : buildRequest buildUrl ctx q with
    | error e => rw [hrequest] at hok; cases hok
    | ok request => exact ⟨request, rfl⟩
  refine ⟨failOver init.length response, ?_⟩
  rw [execute_eq hmax hbudget, ← htail, List.append_assoc, List.singleton_append]
  exact attemptProviders_failOver hbudget hresponse 0 _ (by simp) hbuild

end Rounds

section Headers
variable (buildUrl : String → String → Except PyError String) (ctx : OpenAIProxyRequest)
  (run : FallbackRun) (headers : List (String × String))

def UpstreamRequest.withHeaders (request : UpstreamRequest) : UpstreamRequest :=
  { request with headers := headers }

def Attempts.withHeaders (progress : Attempts) : Attempts :=
  { progress with sent := progress.sent.map fun e => (e.1, e.2.withHeaders headers) }

theorem buildRequest_headers (p : ProviderModel) :
    buildRequest buildUrl { ctx with headers := headers } p =
      (buildRequest buildUrl ctx p).map (UpstreamRequest.withHeaders headers) := by
  unfold buildRequest
  cases modelUrl p with
  | none => rfl
  | some baseUrl => cases hurl : buildUrl baseUrl ctx.path <;> simp [hurl] <;> rfl

theorem attemptOnce_headers (last : Bool) (round : AttemptRound) (p : ProviderModel)
    (progress : Attempts) :
    attemptOnce buildUrl { ctx with headers := headers } run last round p
        (progress.withHeaders headers) =
      ((attemptOnce buildUrl ctx run last round p progress).1.withHeaders headers,
        (attemptOnce buildUrl ctx run last round p progress).2) := by
  have hdeadline : deadline { ctx with headers := headers } run = deadline ctx run := rfl
  unfold attemptOnce
  rw [hdeadline, buildRequest_headers]
  split
  · rfl
  · cases hbuild : buildRequest buildUrl ctx p with
    | error e => rfl
    | ok request =>
      simp only [Except.map, Attempts.withHeaders, List.map_append, List.map_cons, List.map_nil]
      rfl

theorem attemptProviders_headers (index : Nat) (providers : List ProviderModel)
    (progress : Attempts) :
    attemptProviders buildUrl { ctx with headers := headers } run index providers
        (progress.withHeaders headers) =
      ((attemptProviders buildUrl ctx run index providers progress).1.withHeaders headers,
        (attemptProviders buildUrl ctx run index providers progress).2) := by
  induction providers generalizing index progress with
  | nil => rfl
  | cons p rest ih =>
    simp only [attemptProviders]
    rw [attemptOnce_headers]
    rcases attemptOnce buildUrl ctx run rest.isEmpty (run.round index) p progress with
      ⟨progress', _ | finish⟩
    · exact ih (index + 1) progress'
    · rfl

theorem execute_headers (providers : List ProviderModel) :
    (executeOpenaiWithFallback buildUrl { ctx with headers := headers } run providers).1.sent =
      (executeOpenaiWithFallback buildUrl ctx run providers).1.sent.map fun e =>
        (e.1, e.2.withHeaders headers) := by
  unfold executeOpenaiWithFallback
  dsimp only
  split
  · rfl
  · split
    · rfl
    · exact congrArg (fun result => result.1.sent)
        (attemptProviders_headers buildUrl ctx run headers 0 (eligibleProviders ctx providers)
          ⟨[], [], []⟩)

end Headers

end Pitwall.Routing.OpenAI
