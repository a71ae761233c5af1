import Pitwall.Routing.Fallback
import Pitwall.Routing.PlanSafety
set_option autoImplicit false

/-!
What the executor returns against the outcomes of its attempts, and which responses it closes.
-/

namespace Pitwall.Routing.OpenAI

structure Attempt where
  index : Nat
  provider : ProviderModel
  outcome : SendOutcome

/-- The attempts of an execution, the rounds in which the loop closes a response, and its end. -/
structure FallbackTrace where
  attempts : List Attempt
  closed : List Nat
  finish : Finish

def FallbackTrace.prepend (a : Attempt) (t : FallbackTrace) : FallbackTrace where
  attempts := a :: t.attempts
  closed :=
    match a.outcome with
    | .response _ _ => a.index :: t.closed
    | _ => t.closed
  finish := t.finish

section Trace
variable (buildUrl : String → String → Except PyError String) (ctx : OpenAIProxyRequest)
  (run : FallbackRun)

/-- The round as `_send_until_headers` goes through it: the request is built before it is sent. -/
def sendRound (p : ProviderModel) (round : AttemptRound) : AttemptRound :=
  match buildRequest buildUrl ctx p with
  | .error e => { round with outcome := .raised e }
  | .ok _ => round

/-- The loop of `execute_openai_with_fallback` with its attempts and its calls of `aclose`. -/
def traceProviders : Nat → List ProviderModel → FallbackTrace
  | _, [] => ⟨[], [], .exhausted⟩
  | index, p :: rest =>
      if deadline ctx run ≤ (run.round index).startsAt then ⟨[], [], .exhausted⟩
      else
        let round := sendRound buildUrl ctx p (run.round index)
        match verdict ctx run rest.isEmpty round p with
        | some finish => ⟨[⟨index, p, round.outcome⟩], [], finish⟩
        | none => (traceProviders (index + 1) rest).prepend ⟨index, p, round.outcome⟩

end Trace

namespace Attempt

def served? (a : Attempt) : Option Finish :=
  match a.outcome with
  | .response r _ => if r.statusCode < 500 then some (.relayed r a.provider) else none
  | _ => none

def serverError? (a : Attempt) : Option Finish :=
  match a.outcome with
  | .response r _ => if r.retryable then some (.relayed r a.provider) else none
  | _ => none

def hasResponse (a : Attempt) : Bool :=
  match a.outcome with
  | .response _ _ => true
  | _ => false

end Attempt

def finishOf (attempts : List Attempt) : Finish :=
  match attempts.findSome? Attempt.served? with
  | some finish => finish
  | none => (attempts.getLast?.bind Attempt.serverError?).getD .exhausted

/-- The attempt whose response is returned. -/
def FallbackTrace.returned (t : FallbackTrace) : Option Nat :=
  match t.finish with
  | .relayed _ _ => t.attempts.getLast?.map Attempt.index
  | _ => none

section Fallback
variable (ctx : OpenAIProxyRequest) (run : FallbackRun)

/-- What the executor promises of its attempts on the eligible providers. -/
structure FallsBack (eligible : List ProviderModel) (t : FallbackTrace) : Prop where
  in_order : t.attempts.map Attempt.provider <+: eligible
  length_le : (t.attempts.length : Int) ≤ ctx.maxAttempts
  finish_eq : t.finish = finishOf t.attempts
  used_up : t.attempts.findSome? Attempt.served? = none →
    t.attempts.length = eligible.length ∨
      deadline ctx run ≤ (run.round t.attempts.length).startsAt
  closed_once : t.closed.Nodup
  closed_iff : ∀ i, i ∈ t.closed ↔
    (∃ a ∈ t.attempts, a.index = i ∧ a.hasResponse = true) ∧ t.returned ≠ some i

structure MonotoneClock : Prop where
  starts : run.startedAt ≤ (run.round 0).startsAt
  within : ∀ i, (run.round i).startsAt ≤ (run.round i).endsAt
  next : ∀ i, (run.round i).endsAt ≤ (run.round (i + 1)).startsAt

/-- Every attempt ends in a response, which can be closed, or in a transport failure. -/
def AnswersOrFails : Prop :=
  ∀ i, (∃ response, (run.round i).outcome = .response response (.ok ())) ∨
    ∃ message, (run.round i).outcome = .transportError message

def Answered (round : AttemptRound) (p : Nat → Prop) : Prop :=
  ∃ response closed, round.outcome = .response response closed ∧ p response.statusCode

/-- Some attempt that is reached cannot build its request, or is answered with a status from 600
on, or is answered with a 5xx in time for another attempt, which the clock at the head of the next
round then forbids. -/
def Loses (buildUrl : String → String → Except PyError String) : Nat → List ProviderModel → Prop
  | _, [] => False
  | index, p :: rest =>
      (run.round index).startsAt < deadline ctx run ∧
        ((∃ e, buildRequest buildUrl ctx p = .error e) ∨
          Answered (run.round index) (600 ≤ ·) ∨
          GoesOn ctx run rest.isEmpty (run.round index) ∧
            (Answered (run.round index) (fun status => 500 ≤ status ∧ status < 600) ∧
                deadline ctx run ≤ (run.round (index + 1)).startsAt ∨
              Loses buildUrl (index + 1) rest))

end Fallback

section Finishes
variable {buildUrl : String → String → Except PyError String} {ctx : OpenAIProxyRequest}
  {run : FallbackRun}

theorem finishOf_cons {a : Attempt} {rest : List Attempt} (hserved : a.served? = none)
    (hlast : rest ≠ [] ∨ a.serverError? = none) :
    finishOf (a :: rest) = finishOf rest := by
  unfold finishOf
  rw [List.findSome?_cons, hserved]
  cases rest with
  | nil =>
    have hnone := hlast.resolve_left (by simp)
    simp [hnone]
  | cons b rest => rw [List.getLast?_cons_cons]

theorem sendRound_of_error {p : ProviderModel} {e : PyError} {round : AttemptRound}
    (h : buildRequest buildUrl ctx p = .error e) :
    sendRound buildUrl ctx p round = { round with outcome := .raised e } := by
  unfold sendRound
  rw [h]

theorem sendRound_of_ok {p : ProviderModel} {request : UpstreamRequest} {round : AttemptRound}
    (h : buildRequest buildUrl ctx p = .ok request) : sendRound buildUrl ctx p round = round := by
  unfold sendRound
  rw [h]

theorem attemptProviders_trace (buildUrl : String → String → Except PyError String)
    (ctx : OpenAIProxyRequest) (run : FallbackRun) (index : Nat) (providers : List ProviderModel)
    (progress : Attempts) :
    (attemptProviders buildUrl ctx run index providers progress).1.attempted =
        progress.attempted ++
          (traceProviders buildUrl ctx run index providers).attempts.map Attempt.provider ∧
      (attemptProviders buildUrl ctx run index providers progress).2 =
        (traceProviders buildUrl ctx run index providers).finish := by
  induction providers generalizing index progress with
  | nil => simp [attemptProviders, traceProviders]
  | cons p rest ih =>
    unfold attemptProviders traceProviders
    rcases attemptOnce_cases buildUrl ctx run rest.isEmpty
        (run.round index) p progress with ⟨hlate, honce⟩ | ⟨hearly, e, hbuild, honce⟩ |
        ⟨hearly, request, hbuild, honce⟩
    · rw [honce, if_pos hlate]
      simp
    · rw [honce, if_neg (not_le.mpr hearly), sendRound_of_error hbuild]
      simp [verdict]
    · rw [honce, if_neg (not_le.mpr hearly), sendRound_of_ok hbuild]
      dsimp only
      cases verdict ctx run rest.isEmpty (run.round index) p with
      | some finish => simp
      | none =>
        obtain ⟨hattempted, hfinish⟩ := ih (index + 1)
          ⟨progress.attempted ++ [p], noteError p (run.round index) progress.errors,
            progress.sent ++ [(p, request)]⟩
        dsimp only
        rw [hattempted, hfinish]
        simp [FallbackTrace.prepend]

theorem traceProviders_cons {index : Nat} {p : ProviderModel} {rest : List ProviderModel} :
    traceProviders buildUrl ctx run index (p :: rest) =
      if deadline ctx run ≤ (run.round index).startsAt then ⟨[], [], .exhausted⟩
      else
        let round := sendRound buildUrl ctx p (run.round index)
        match verdict ctx run rest.isEmpty round p with
        | some finish => ⟨[⟨index, p, round.outcome⟩], [], finish⟩
        | none => (traceProviders buildUrl ctx run (index + 1) rest).prepend
            ⟨index, p, round.outcome⟩ := rfl

theorem traceProviders_late {index : Nat} {providers : List ProviderModel}
    (hlate : deadline ctx run ≤ (run.round index).startsAt) :
    traceProviders buildUrl ctx run index providers = ⟨[], [], .exhausted⟩ := by
  cases providers with
  | nil => rfl
  | cons p rest => rw [traceProviders_cons, if_pos hlate]

section Round
variable {index : Nat} {p : ProviderModel} {rest : List ProviderModel} {request : UpstreamRequest}

theorem traceProviders_of_error {e : PyError}
    (hearly : (run.round index).startsAt < deadline ctx run)
    (hbuild : buildRequest buildUrl ctx p = .error e) :
    traceProviders buildUrl ctx run index (p :: rest) =
      ⟨[⟨index, p, .raised e⟩], [], .raised e⟩ := by
  rw [traceProviders_cons, if_neg (not_le.mpr hearly), sendRound_of_error hbuild]
  rfl

theorem traceProviders_of_some {finish : Finish}
    (hearly : (run.round index).startsAt < deadline ctx run)
    (hbuild : buildRequest buildUrl ctx p = .ok request)
    (hverdict : verdict ctx run rest.isEmpty (run.round index) p = some finish) :
    traceProviders buildUrl ctx run index (p :: rest) =
      ⟨[⟨index, p, (run.round index).outcome⟩], [], finish⟩ := by
  rw [traceProviders_cons, if_neg (not_le.mpr hearly), sendRound_of_ok hbuild]
  dsimp only
  rw [hverdict]

theorem traceProviders_of_none (hearly : (run.round index).startsAt < deadline ctx run)
    (hbuild : buildRequest buildUrl ctx p = .ok request)
    (hverdict : verdict ctx run rest.isEmpty (run.round index) p = none) :
    traceProviders buildUrl ctx run index (p :: rest) =
      (traceProviders buildUrl ctx run (index + 1) rest).prepend
        ⟨index, p, (run.round index).outcome⟩ := by
  rw [traceProviders_cons, if_neg (not_le.mpr hearly), sendRound_of_ok hbuild]
  dsimp only
  rw [hverdict]

end Round

theorem attempts_ne_nil {index : Nat} {p : ProviderModel} {rest : List ProviderModel}
    (hearly : (run.round index).startsAt < deadline ctx run) :
    (traceProviders buildUrl ctx run index (p :: rest)).attempts ≠ [] := by
  rw [traceProviders_cons, if_neg (not_le.mpr hearly)]
  dsimp only
  split
  · simp
  · simp [FallbackTrace.prepend]

theorem finishOf_response {index : Nat} {p : ProviderModel} {r : UpstreamResponse}
    {closed : Except PyError Unit} :
    Finish.relayed r p = finishOf [⟨index, p, .response r closed⟩] ↔ ¬600 ≤ r.statusCode := by
  by_cases hlow : r.statusCode < 500
  · refine iff_of_true ?_ (by omega)
    simp [finishOf, Attempt.served?, hlow]
  · by_cases hretry : r.statusCode < 600
    · refine iff_of_true ?_ (by omega)
      have h : r.retryable = true := by simp [UpstreamResponse.retryable]; omega
      simp [finishOf, Attempt.served?, Attempt.serverError?, hlow, h]
    · have h : r.retryable = false := by simp [UpstreamResponse.retryable]; omega
      simp [finishOf, Attempt.served?, Attempt.serverError?, hlow, h]
      omega

theorem not_answered_of_transportError {round : AttemptRound} {message : String} {p : Nat → Prop}
    (h : round.outcome = .transportError message) : ¬Answered round p := by
  rintro ⟨response, closed, hresponse, -⟩
  rw [h] at hresponse
  cases hresponse

theorem answered_iff {round : AttemptRound} {r : UpstreamResponse} {closed : Except PyError Unit}
    {p : Nat → Prop} (h : round.outcome = .response r closed) :
    Answered round p ↔ p r.statusCode := by
  simp [Answered, h]

theorem verdict_of_answer {last : Bool} {round : AttemptRound} {p : ProviderModel}
    {r : UpstreamResponse} {finish : Finish} (houtcome : round.outcome = .response r (.ok ()))
    (h : verdict ctx run last round p = some finish) : finish = .relayed r p := by
  simp only [verdict, houtcome] at h
  split at h
  · exact (Option.some.inj h).symm
  · cases h

theorem verdict_of_transportError {last : Bool} {round : AttemptRound} {p : ProviderModel}
    {message : String} {finish : Finish} (houtcome : round.outcome = .transportError message)
    (h : verdict ctx run last round p = some finish) : finish = .exhausted := by
  simp only [verdict, houtcome] at h
  split at h
  · cases h
  · exact (Option.some.inj h).symm

theorem traceProviders_finish_iff (hanswers : AnswersOrFails run) (index : Nat)
    (providers : List ProviderModel) :
    (traceProviders buildUrl ctx run index providers).finish =
      finishOf (traceProviders buildUrl ctx run index providers).attempts ↔
      ¬Loses ctx run buildUrl index providers := by
  induction providers generalizing index with
  | nil => exact iff_of_true rfl (fun h => h)
  | cons p rest ih =>
    by_cases hlate : deadline ctx run ≤ (run.round index).startsAt
    · rw [traceProviders_late hlate]
      exact iff_of_true rfl fun h => absurd h.1 (not_lt.mpr hlate)
    have hearly := not_le.mp hlate
    rw [Loses]
    cases hbuild : buildRequest buildUrl ctx p with
    | error e =>
      rw [traceProviders_of_error hearly hbuild]
      refine iff_of_false ?_ (by simp [hearly])
      simp [finishOf, Attempt.served?, Attempt.serverError?]
    | ok request =>
      rw [← verdict_eq_none_iff ctx run rest.isEmpty (run.round index) p]
      cases hverdict : verdict ctx run rest.isEmpty (run.round index) p with
      | some finish =>
        rw [traceProviders_of_some hearly hbuild hverdict]
        rcases hanswers index with ⟨r, houtcome⟩ | ⟨message, houtcome⟩
        · rw [verdict_of_answer houtcome hverdict, houtcome, finishOf_response]
          simp [answered_iff houtcome, hearly]
        · rw [verdict_of_transportError houtcome hverdict]
          simp [not_answered_of_transportError houtcome, finishOf, Attempt.served?,
            Attempt.serverError?, houtcome]
      | none =>
        rw [traceProviders_of_none hearly hbuild hverdict]
        obtain ⟨hlast, -, hretry⟩ := (verdict_eq_none_iff ctx run _ _ p).mp hverdict
        rcases hanswers index with ⟨r, houtcome⟩ | ⟨message, houtcome⟩
        · rw [houtcome] at hretry
          have hstatus : 500 ≤ r.statusCode ∧ r.statusCode < 600 := of_decide_eq_true hretry.1
          simp only [answered_iff houtcome, hearly, not_le.mpr hstatus.2, hstatus, true_and,
            reduceCtorEq, exists_false, false_or, and_self]
          by_cases hnext : deadline ctx run ≤ (run.round (index + 1)).startsAt
          · -- The 5xx is closed, and the next round makes no attempt.
            have hfalls : Finish.relayed r p =
                finishOf [⟨index, p, .response r (.ok ())⟩] :=
              finishOf_response.mpr (by omega)
            rw [traceProviders_late hnext, houtcome]
            refine iff_of_false ?_ (by simp [hnext])
            simp [FallbackTrace.prepend, ← hfalls]
          · have hrest : (traceProviders buildUrl ctx run (index + 1) rest).attempts ≠ [] := by
              cases rest with
              | nil => cases hlast
              | cons q rest => exact attempts_ne_nil (not_le.mp hnext)
            have hserved : (Attempt.mk index p (run.round index).outcome).served? = none := by
              simp only [Attempt.served?, houtcome]
              exact if_neg (by omega)
            simp only [FallbackTrace.prepend, finishOf_cons hserved (.inl hrest), hnext,
              false_or]
            exact ih (index + 1)
        · have hnone : (Attempt.mk index p (run.round index).outcome).served? = none ∧
              (Attempt.mk index p (run.round index).outcome).serverError? = none := by
            simp [Attempt.served?, Attempt.serverError?, houtcome]
          simp only [not_answered_of_transportError houtcome, hearly, true_and, reduceCtorEq,
            exists_false, false_or, false_and, FallbackTrace.prepend,
            finishOf_cons hnone.1 (.inr hnone.2)]
          exact ih (index + 1)

/-- The attempts are those of the rounds from `index` on, on the providers in their order. -/
theorem attempts_prefix (buildUrl : String → String → Except PyError String)
    (ctx : OpenAIProxyRequest) (run : FallbackRun) (index : Nat) (providers : List ProviderModel) :
    (traceProviders buildUrl ctx run index providers).attempts.map Attempt.provider <+:
      providers := by
  induction providers generalizing index with
  | nil => exact List.prefix_rfl
  | cons p rest ih =>
    rw [traceProviders_cons]
    split
    · exact List.nil_prefix
    · dsimp only
      split
      · exact ⟨rest, rfl⟩
      · exact List.cons_prefix_cons.mpr ⟨rfl, ih (index + 1)⟩

theorem attempts_index (index : Nat) (providers : List ProviderModel) :
    (traceProviders buildUrl ctx run index providers).attempts.map Attempt.index =
      List.range' index (traceProviders buildUrl ctx run index providers).attempts.length := by
  induction providers generalizing index with
  | nil => rfl
  | cons p rest ih =>
    rw [traceProviders_cons]
    split
    · rfl
    · dsimp only
      split
      · rfl
      · simp [FallbackTrace.prepend, ih, List.range'_succ]

theorem used_up (hclock : MonotoneClock run) (hanswers : AnswersOrFails run) (index : Nat)
    (providers : List ProviderModel) (hkept : ¬Loses ctx run buildUrl index providers)
    (hnone : (traceProviders buildUrl ctx run index providers).attempts.findSome?
      Attempt.served? = none) :
    (traceProviders buildUrl ctx run index providers).attempts.length = providers.length ∨
      deadline ctx run ≤ (run.round (index +
        (traceProviders buildUrl ctx run index providers).attempts.length)).startsAt := by
  induction providers generalizing index with
  | nil => exact .inl rfl
  | cons p rest ih =>
    by_cases hlate : deadline ctx run ≤ (run.round index).startsAt
    · rw [traceProviders_late hlate]
      exact .inr hlate
    have hearly := not_le.mp hlate
    rw [Loses] at hkept
    cases hbuild : buildRequest buildUrl ctx p with
    | error e => exact absurd ⟨hearly, .inl ⟨e, hbuild⟩⟩ hkept
    | ok request =>
      cases hverdict : verdict ctx run rest.isEmpty (run.round index) p with
      | some finish =>
        rw [traceProviders_of_some hearly hbuild hverdict] at hnone ⊢
        suffices h : rest = [] ∨ deadline ctx run ≤ (run.round index).endsAt by
          rcases h with rfl | htime
          · exact .inl rfl
          · exact .inr (htime.trans (hclock.next index))
        have hnot : ¬GoesOn ctx run rest.isEmpty (run.round index) := by
          rw [← verdict_eq_none_iff ctx run _ _ p, hverdict]
          simp
        rcases hanswers index with ⟨r, houtcome⟩ | ⟨message, houtcome⟩
        · have hlow : ¬r.statusCode < 500 := by
            simpa [Attempt.served?, houtcome] using hnone
          have hhigh : ¬600 ≤ r.statusCode := fun h =>
            hkept ⟨hearly, .inr (.inl ⟨r, .ok (), houtcome, h⟩)⟩
          have hretry : r.retryable = true := by
            simp only [UpstreamResponse.retryable, decide_eq_true_eq]
            omega
          simp only [GoesOn, houtcome, hretry, and_self, and_true, not_and_or, not_lt,
            Bool.not_eq_false, List.isEmpty_iff] at hnot
          exact hnot
        · simp only [GoesOn, houtcome, and_true, not_and_or, not_lt, Bool.not_eq_false,
            List.isEmpty_iff] at hnot
          exact hnot
      | none =>
        rw [traceProviders_of_none hearly hbuild hverdict] at hnone ⊢
        have hgoes := (verdict_eq_none_iff ctx run _ _ p).mp hverdict
        have hrest : ¬Loses ctx run buildUrl (index + 1) rest := fun h =>
          hkept ⟨hearly, .inr (.inr ⟨hgoes, .inr h⟩)⟩
        have hnone' : (traceProviders buildUrl ctx run (index + 1) rest).attempts.findSome?
            Attempt.served? = none := by
          simp only [FallbackTrace.prepend, List.findSome?_cons] at hnone
          split at hnone
          · cases hnone
          · exact hnone
        dsimp only [FallbackTrace.prepend, List.length_cons]
        rw [Nat.add_right_cancel_iff, ← Nat.add_assoc, Nat.add_right_comm]
        exact ih (index + 1) hrest hnone'

theorem FallbackTrace.mem_of_returned {t : FallbackTrace} {i : Nat} (h : t.returned = some i) :
    i ∈ t.attempts.map Attempt.index := by
  unfold FallbackTrace.returned at h
  split at h
  · rw [← List.getLast?_map] at h
    exact List.mem_of_getLast? h
  · cases h

theorem attempts_ne_nil_of_relayed {index : Nat} {providers : List ProviderModel}
    {r : UpstreamResponse} {q : ProviderModel}
    (h : (traceProviders buildUrl ctx run index providers).finish = .relayed r q) :
    (traceProviders buildUrl ctx run index providers).attempts ≠ [] := by
  cases providers with
  | nil => cases h
  | cons p rest =>
    by_cases hlate : deadline ctx run ≤ (run.round index).startsAt
    · rw [traceProviders_late hlate] at h
      cases h
    · exact attempts_ne_nil (not_le.mp hlate)

theorem FallbackTrace.returned_prepend {a : Attempt} {t : FallbackTrace}
    (h : ∀ r q, t.finish = .relayed r q → t.attempts ≠ []) :
    (t.prepend a).returned = t.returned := by
  unfold FallbackTrace.returned FallbackTrace.prepend
  dsimp only
  split
  · rename_i r q hfinish
    cases hattempts : t.attempts with
    | nil => exact absurd hattempts (h r q hfinish)
    | cons b rest => rw [List.getLast?_cons_cons]
  · rfl

theorem closed_eq (hanswers : AnswersOrFails run) (index : Nat) (providers : List ProviderModel) :
    (traceProviders buildUrl ctx run index providers).closed =
      ((traceProviders buildUrl ctx run index providers).attempts.filter fun a =>
        a.hasResponse && decide ((traceProviders buildUrl ctx run index providers).returned ≠
          some a.index)).map Attempt.index := by
  induction providers generalizing index with
  | nil => rfl
  | cons p rest ih =>
    by_cases hlate : deadline ctx run ≤ (run.round index).startsAt
    · rw [traceProviders_late hlate]
      rfl
    have hearly := not_le.mp hlate
    cases hbuild : buildRequest buildUrl ctx p with
    | error e =>
      rw [traceProviders_of_error hearly hbuild]
      simp [Attempt.hasResponse]
    | ok request =>
      cases hverdict : verdict ctx run rest.isEmpty (run.round index) p with
      | some finish =>
        rw [traceProviders_of_some hearly hbuild hverdict]
        rcases hanswers index with ⟨r, houtcome⟩ | ⟨message, houtcome⟩
        · simp [FallbackTrace.returned, verdict_of_answer houtcome hverdict]
        · simp [Attempt.hasResponse, houtcome]
      | none =>
        have hother : (traceProviders buildUrl ctx run (index + 1) rest).returned ≠ some index := by
          intro h
          have hmem := FallbackTrace.mem_of_returned h
          rw [attempts_index, List.mem_range'_1] at hmem
          omega
        rw [traceProviders_of_none hearly hbuild hverdict,
          FallbackTrace.returned_prepend fun r q => attempts_ne_nil_of_relayed]
        rcases hanswers index with ⟨r, houtcome⟩ | ⟨message, houtcome⟩
        · have hresponse : (Attempt.mk index p (.response r (.ok ()))).hasResponse = true := rfl
          simp [FallbackTrace.prepend, houtcome, hresponse, hother, ih (index + 1)]
        · have hresponse : (Attempt.mk index p (.transportError message)).hasResponse = false := rfl
          simp [FallbackTrace.prepend, houtcome, hresponse, ih (index + 1)]

theorem closed_once (buildUrl : String → String → Except PyError String)
    (ctx : OpenAIProxyRequest) (hanswers : AnswersOrFails run) (index : Nat)
    (providers : List ProviderModel) :
    (traceProviders buildUrl ctx run index providers).closed.Nodup ∧
      ∀ i, i ∈ (traceProviders buildUrl ctx run index providers).closed ↔
        (∃ a ∈ (traceProviders buildUrl ctx run index providers).attempts,
          a.index = i ∧ a.hasResponse = true) ∧
        (traceProviders buildUrl ctx run index providers).returned ≠ some i := by
  rw [closed_eq hanswers]
  constructor
  · have hnodup : ((traceProviders buildUrl ctx run index providers).attempts.map
        Attempt.index).Nodup := by
      rw [attempts_index]
      exact List.nodup_range'
    exact hnodup.sublist (List.filter_sublist.map _)
  · intro i
    simp only [List.mem_map, List.mem_filter, Bool.and_eq_true, decide_eq_true_eq]
    constructor
    · rintro ⟨a, ⟨hmem, hresponse, hother⟩, rfl⟩
      exact ⟨⟨a, hmem, rfl, hresponse⟩, hother⟩
    · rintro ⟨⟨a, hmem, rfl, hresponse⟩, hother⟩
      exact ⟨a, ⟨hmem, hresponse, hother⟩, rfl⟩

theorem eligible_length_le (hmax : 1 ≤ ctx.maxAttempts) (providers : List ProviderModel) :
    ((eligibleProviders ctx providers).length : Int) ≤ ctx.maxAttempts := by
  have h : (eligibleProviders ctx providers).length ≤
      min ctx.maxAttempts.toNat defaultMaxAttempts := List.length_take_le _ _
  omega

/-- The promises about the order, the number and the closing of attempts always hold; the response
that is returned is the right one exactly when the run does not lose one. -/
theorem traceProviders_fallsBack_iff (hmax : 1 ≤ ctx.maxAttempts) (hclock : MonotoneClock run)
    (hanswers : AnswersOrFails run) (providers : List ProviderModel) :
    FallsBack ctx run (eligibleProviders ctx providers)
        (traceProviders buildUrl ctx run 0 (eligibleProviders ctx providers)) ↔
      ¬Loses ctx run buildUrl 0 (eligibleProviders ctx providers) := by
  have hprefix := attempts_prefix buildUrl ctx run 0 (eligibleProviders ctx providers)
  obtain ⟨hnodup, hclosed⟩ := closed_once buildUrl ctx hanswers 0 (eligibleProviders ctx providers)
  constructor
  · intro h
    exact (traceProviders_finish_iff hanswers 0 _).mp h.finish_eq
  · intro h
    have hlength := hprefix.length_le
    have heligible := eligible_length_le hmax providers
    rw [List.length_map] at hlength
    exact {
      in_order := hprefix
      length_le := by omega
      finish_eq := (traceProviders_finish_iff hanswers 0 _).mpr h
      used_up := fun hnone => by simpa using used_up hclock hanswers 0 _ h hnone
      closed_once := hnodup
      closed_iff := hclosed }

/-- An execution attempts a prefix of the eligible providers and closes every response that it does
not return, once; it returns what it should exactly when its run does not lose a response. -/
theorem execute_falls_back_iff (buildUrl : String → String → Except PyError String)
    (ctx : OpenAIProxyRequest) (run : FallbackRun) (providers : List ProviderModel)
    (hmax : 1 ≤ ctx.maxAttempts) (hbudget : 0 < ctx.fallbackBudgetS) (hclock : MonotoneClock run)
    (hanswers : AnswersOrFails run) :
    let eligible := eligibleProviders ctx providers
    let trace := traceProviders buildUrl ctx run 0 eligible
    (executeOpenaiWithFallback buildUrl ctx run providers).1.attempted =
        trace.attempts.map Attempt.provider ∧
      (executeOpenaiWithFallback buildUrl ctx run providers).2 = trace.finish ∧
      (FallsBack ctx run eligible trace ↔ ¬Loses ctx run buildUrl 0 eligible) := by
  intro eligible trace
  obtain ⟨hattempted, hfinish⟩ := attemptProviders_trace buildUrl ctx run 0 eligible ⟨[], [], []⟩
  rw [execute_eq hmax hbudget]
  exact ⟨hattempted, hfinish, traceProviders_fallsBack_iff hmax hclock hanswers providers⟩

end Finishes

def twoRounds (first second : AttemptRound) (later : ℚ) : FallbackRun where
  startedAt := 0
  round
    | 0 => first
    | 1 => second
    | _ => ⟨later, .transportError "timed out", later⟩

def openaiProvider (id : String) (id_ne : id ≠ "") : ProviderModel :=
  sampleProvider id id_ne .serverlessLb [("openai_base_url", .str "https://a/v1")]

def twoProviders : List ProviderModel :=
  [openaiProvider "a" (by decide), openaiProvider "b" (by decide)]

def chatRequest : OpenAIProxyRequest := ⟨"POST", "chat/completions", [], [], 5, 3⟩

def joinUrl (base path : String) : Except PyError String := .ok (base ++ "/" ++ path)

theorem twoProviders_eligible : eligibleProviders chatRequest twoProviders = twoProviders := rfl

@[simp] theorem twoRounds_deadline (first second : AttemptRound) (later : ℚ) :
    deadline chatRequest (twoRounds first second later) = 5 := by
  norm_num [deadline, twoRounds, chatRequest]

@[simp] theorem twoRounds_zero (first second : AttemptRound) (later : ℚ) :
    (twoRounds first second later).round 0 = first := rfl

@[simp] theorem twoRounds_one (first second : AttemptRound) (later : ℚ) :
    (twoRounds first second later).round 1 = second := rfl

theorem twoRounds_clock {first second : AttemptRound} {later : ℚ} (hstart : 0 ≤ first.startsAt)
    (hfirst : first.startsAt ≤ first.endsAt) (hnext : first.endsAt ≤ second.startsAt)
    (hsecond : second.startsAt ≤ second.endsAt) (hlater : second.endsAt ≤ later) :
    MonotoneClock (twoRounds first second later) := by
  refine ⟨hstart, fun i => ?_, fun i => ?_⟩
  · match i with
    | 0 => exact hfirst
    | 1 => exact hsecond
    | i + 2 => exact le_rfl
  · match i with
    | 0 => exact hnext
    | 1 => exact hlater
    | i + 2 => exact le_rfl

theorem twoRounds_answers (r s : UpstreamResponse) (a b c d later : ℚ) :
    AnswersOrFails (twoRounds ⟨a, .response r (.ok ()), b⟩ ⟨c, .response s (.ok ()), d⟩ later) :=
  fun i =>
    match i with
    | 0 => .inl ⟨r, rfl⟩
    | 1 => .inl ⟨s, rfl⟩
    | _ + 2 => .inr ⟨"timed out", rfl⟩

@[simp] theorem openaiProvider_request (id : String) (id_ne : id ≠ "") :
    buildRequest joinUrl chatRequest (openaiProvider id id_ne) =
      .ok ⟨"POST", "https://a/v1/chat/completions", [], []⟩ := rfl

def servedBySecond : FallbackRun :=
  twoRounds ⟨0, .response ⟨503, 0⟩ (.ok ()), 1⟩ ⟨1, .response ⟨200, 0⟩ (.ok ()), 2⟩ 3

theorem execute_falls_back_to_second :
    (executeOpenaiWithFallback joinUrl chatRequest servedBySecond twoProviders).2 =
        .relayed ⟨200, 0⟩ (openaiProvider "b" (by decide)) ∧
      FallsBack chatRequest servedBySecond twoProviders
        (traceProviders joinUrl chatRequest servedBySecond 0 twoProviders) := by
  have hclock : MonotoneClock servedBySecond := by
    apply twoRounds_clock <;> norm_num
  obtain ⟨-, hfinish, hfalls⟩ := execute_falls_back_iff joinUrl chatRequest servedBySecond
    twoProviders (by decide) (by decide +kernel) hclock (twoRounds_answers _ _ _ _ _ _ _)
  rw [twoProviders_eligible] at hfinish hfalls
  refine ⟨hfinish.trans ?_, hfalls.mpr ?_⟩
  · norm_num [servedBySecond, twoProviders, traceProviders, sendRound, verdict,
      UpstreamResponse.retryable, FallbackTrace.prepend]
  · norm_num [servedBySecond, twoProviders, Loses, Answered, GoesOn, UpstreamResponse.retryable]
    intro e he
    cases he

def closeToDeadline : FallbackRun :=
  twoRounds ⟨0, .response ⟨503, 0⟩ (.ok ()), 49 / 10⟩ ⟨5, .response ⟨200, 0⟩ (.ok ()), 5⟩ 5

/-- The 503 of the only attempt is closed, and the executor raises as if there were none. -/
theorem close_to_deadline_lost :
    MonotoneClock closeToDeadline ∧ AnswersOrFails closeToDeadline ∧
      (executeOpenaiWithFallback joinUrl chatRequest closeToDeadline twoProviders).2 = .exhausted ∧
      (executeOpenaiWithFallback joinUrl chatRequest closeToDeadline twoProviders).1.attempted =
        [openaiProvider "a" (by decide)] ∧
      (closeToDeadline.round 0).outcome = .response ⟨503, 0⟩ (.ok ()) ∧
      ¬FallsBack chatRequest closeToDeadline twoProviders
        (traceProviders joinUrl chatRequest closeToDeadline 0 twoProviders) := by
  have htrace : traceProviders joinUrl chatRequest closeToDeadline 0 twoProviders =
      ⟨[⟨0, openaiProvider "a" (by decide), .response ⟨503, 0⟩ (.ok ())⟩], [0], .exhausted⟩ := by
    norm_num [closeToDeadline, twoProviders, traceProviders, sendRound, verdict,
      UpstreamResponse.retryable, FallbackTrace.prepend]
  have hrun : executeOpenaiWithFallback joinUrl chatRequest closeToDeadline twoProviders =
      attemptProviders joinUrl chatRequest closeToDeadline 0 twoProviders ⟨[], [], []⟩ := rfl
  obtain ⟨hattempted, hfinish⟩ :=
    attemptProviders_trace joinUrl chatRequest closeToDeadline 0 twoProviders ⟨[], [], []⟩
  rw [htrace] at hattempted hfinish
  rw [hrun, htrace]
  refine ⟨?_, twoRounds_answers _ _ _ _ _ _ _, hfinish, hattempted, rfl, fun h => ?_⟩
  · apply twoRounds_clock <;> norm_num
  · have hfalls := h.finish_eq
    simp [finishOf, Attempt.served?, Attempt.serverError?, UpstreamResponse.retryable]
      at hfalls

end Pitwall.Routing.OpenAI
