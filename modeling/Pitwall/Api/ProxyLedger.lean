import Pitwall.Api.OpenAIProxy
import Pitwall.Core.CancelRace
set_option autoImplicit false

/-!
What the ledger says about a request to the proxy, against what the client got. The row names
the provider that was admitted, and the handler completes it whatever it relays.
-/

namespace Pitwall
open Machine Routing Routing.OpenAI

namespace Workloads
variable {t : Workloads} {id : String} {fromStates : List WorkloadState} {toState : WorkloadState}
  {patch : Table.Assignment Workload.uniq} {w : Workload}

theorem byId_transition (h : t.byId id = some w) (hstate : w.state ∈ fromStates) :
    (t.transitionWorkload id fromStates toState patch).2.byId id =
      some { patch.set w with state := toState } := by
  unfold transitionWorkload
  rw [byId_updateById, h]
  simp [hstate]

theorem byId_transition_miss (h : t.byId id = some w) (hstate : w.state ∉ fromStates) :
    (t.transitionWorkload id fromStates toState patch).2.byId id = some w := by
  unfold transitionWorkload
  rw [byId_updateById, h]
  simp [hstate]

end Workloads

def RowIs (t : Workloads) (id : String) (state : WorkloadState) (providerId : String) : Prop :=
  ∃ w, t.byId id = some w ∧ w.state = state ∧ w.providerId = providerId

theorem RowIs.unique {t : Workloads} {id providerId providerId' : String}
    {state state' : WorkloadState} (h : RowIs t id state providerId)
    (h' : RowIs t id state' providerId') : state = state' ∧ providerId = providerId' := by
  obtain ⟨w, hw, rfl, rfl⟩ := h
  obtain ⟨w', hw', rfl, rfl⟩ := h'
  obtain rfl := Option.some.inj (hw.symm.trans hw')
  exact ⟨rfl, rfl⟩

section Transitions
variable {t : Workloads} {id providerId : String}

theorem RowIs.running (h : RowIs t id .queued providerId) (now : Instant) :
    RowIs (t.transitionToRunning id now).2 id .running providerId := by
  obtain ⟨w, hw, hstate, rfl⟩ := h
  exact ⟨_, Workloads.byId_transition hw (by simp [hstate]), rfl, rfl⟩

theorem RowIs.completed (h : RowIs t id .running providerId) (now : Instant)
    (executionMs outputBytes : Int) (chain : List String) :
    RowIs (t.transitionToCompleted id now executionMs outputBytes chain).2 id .completed
      providerId := by
  obtain ⟨w, hw, hstate, rfl⟩ := h
  exact ⟨_, Workloads.byId_transition hw (by simp [hstate]), rfl, rfl⟩

theorem RowIs.failed (h : RowIs t id .running providerId) (now : Instant) (executionMs : Int)
    (error : Json) (chain : List String) :
    RowIs (t.transitionToFailed id now executionMs error chain).2 id .failed providerId := by
  obtain ⟨w, hw, hstate, rfl⟩ := h
  exact ⟨_, Workloads.byId_transition hw (by simp [hstate]), rfl, rfl⟩

theorem rowIs_of_launch {gate : BudgetGate} {prepared : Prepared} {env : LaunchEnv}
    {t t' : Workloads} {a : BudgetAdmission}
    (h : gate.launch prepared.launchRequest env t = (.ok a, t')) :
    a.isNew = true ∧ RowIs t' a.workloadId .queued prepared.provider.id := by
  rcases gate.launch_cases prepared.launchRequest env t with ⟨e, hlaunch⟩ |
      ⟨_, key, -, -, hkey, -⟩ | ⟨t₁, estimate, cost, hlaunch, hadm⟩
  · rw [hlaunch] at h
    cases h
  · cases hkey
  · rw [hlaunch] at h
    cases h
    have hnew := byId_of_inserted hadm.rows
    refine ⟨rfl, queuedWorkload prepared.launchRequest env cost, ?_, rfl, rfl⟩
    rw [Workloads.byId_of_append hadm.rows]
    change (t.byId env.newWorkloadId).or _ = _
    have hnone : t.byId env.newWorkloadId = none := hnew
    rw [hnone]
    exact if_pos rfl

end Transitions

def ProxyState.ended : ProxyState → Bool
  | .responded _ _ _ _ | .raised _ _ => true
  | _ => false

section Run
variable (text : ProxyText) (registry : Registry) (order : RowOrder) (call : ProxyCall)

def writtenStep (c : Ledger × ProxyState) (i : ProxyInput) : Ledger × ProxyState :=
  proxyStep text registry order call c.2 c.1 { i with fault := none }

/-- What the ledger says at the end of a request is what its client got. -/
def LedgerAgrees (c : Ledger × ProxyState) : Prop :=
  match c.2 with
  | .responded id _ response provider =>
      RowIs c.1.workloads id (if response.statusCode < 500 then .completed else .failed) provider.id
  | .raised (some id) _ => ∃ providerId, RowIs c.1.workloads id .failed providerId
  | _ => True

/-- Where the attempts are made, nothing is relayed, or the admitted provider answers the first
attempt below 500. -/
def HonestStep (c : Ledger × ProxyState) (i : ProxyInput) : Prop :=
  match c.2 with
  | .executing _ prepared =>
      Exhausts text.buildUrl call.proxyRequest i.run 0
        (eligibleProviders call.proxyRequest prepared.providers) ∨
      FirstServes text.buildUrl call.proxyRequest i.run prepared.provider
        (eligibleProviders call.proxyRequest prepared.providers)
  | _ => True

def HonestSoFar (c : Ledger × ProxyState) : Prop :=
  match c.2 with
  | .received | .raised none _ => True
  | .admitting prepared => call.prepare text registry order = .ok prepared
  | .startingRun id prepared =>
      call.prepare text registry order = .ok prepared ∧
        RowIs c.1.workloads id .queued prepared.provider.id
  | .executing id prepared =>
      call.prepare text registry order = .ok prepared ∧
        RowIs c.1.workloads id .running prepared.provider.id
  | .closing id prepared _ | .markingFailed id prepared _ =>
      RowIs c.1.workloads id .running prepared.provider.id
  | .markingCompleted id _ _ response provider =>
      RowIs c.1.workloads id .running provider.id ∧ response.statusCode < 500
  | .responded id _ response provider =>
      RowIs c.1.workloads id .completed provider.id ∧ response.statusCode < 500
  | .raised (some id) _ => ∃ providerId, RowIs c.1.workloads id .failed providerId

def Misreported (c : Ledger × ProxyState) : Prop :=
  match c.2 with
  | .markingCompleted id _ _ response provider =>
      ∃ providerId, RowIs c.1.workloads id .running providerId ∧
        ¬ (provider.id = providerId ∧ response.statusCode < 500)
  | .responded id _ response provider =>
      ∃ providerId, RowIs c.1.workloads id .completed providerId ∧
        ¬ (provider.id = providerId ∧ response.statusCode < 500)
  | .raised (some id) _ => ∃ providerId, RowIs c.1.workloads id .running providerId
  | _ => False

variable {text registry order call}

theorem honestSoFar_step (c : Ledger × ProxyState) (i : ProxyInput)
    (h : HonestSoFar text registry order call c) (hstep : HonestStep text call c i) :
    HonestSoFar text registry order call (writtenStep text registry order call c i) := by
  obtain ⟨s, l⟩ := c
  cases l with
  | received =>
    simp only [writtenStep, proxyStep]
    cases hprepare : call.prepare text registry order with
    | error e => trivial
    | ok prepared => exact hprepare
  | admitting prepared =>
    simp only [writtenStep, proxyStep]
    rcases hlaunch : call.gate.launch prepared.launchRequest i.env s.workloads with ⟨_ | a, t⟩
    · trivial
    · exact ⟨h, (rowIs_of_launch hlaunch).2⟩
  | startingRun id prepared => exact ⟨h.1, h.2.running _⟩
  | executing id prepared =>
    obtain ⟨hprepare, hrow⟩ := h
    have hhonest := (execution_honest_iff i.run hprepare).mpr hstep
    simp only [writtenStep, proxyStep]
    rcases hfinish : call.execution text i.run prepared with ⟨progress, finish⟩
    rw [hfinish] at hhonest
    cases finish with
    | relayed response provider =>
      refine ⟨?_, hhonest.2⟩
      rw [hhonest.1]
      exact hrow
    | exhausted => exact hrow
    | raised e => exact hhonest.elim
  | closing id prepared progress => exact h
  | markingFailed id prepared progress => exact ⟨_, RowIs.failed h _ _ _ _⟩
  | markingCompleted id prepared progress response provider =>
    exact ⟨h.1.completed _ _ _ _, h.2⟩
  | responded id prepared response provider => exact h
  | raised admitted error => exact h

theorem misreported_of_step (c : Ledger × ProxyState) (i : ProxyInput)
    (h : HonestSoFar text registry order call c) (hstep : ¬ HonestStep text call c i) :
    Misreported (writtenStep text registry order call c i) := by
  obtain ⟨s, l⟩ := c
  cases l with
  | executing id prepared =>
    obtain ⟨hprepare, hrow⟩ := h
    have hhonest := (not_congr (execution_honest_iff i.run hprepare)).mpr hstep
    simp only [writtenStep, proxyStep]
    rcases hfinish : call.execution text i.run prepared with ⟨progress, finish⟩
    rw [hfinish] at hhonest
    cases finish with
    | relayed response provider => exact ⟨_, hrow, hhonest⟩
    | exhausted => exact absurd trivial hhonest
    | raised e => exact ⟨_, hrow⟩
  | _ => exact absurd trivial hstep

theorem misreported_step (c : Ledger × ProxyState) (i : ProxyInput) (h : Misreported c) :
    Misreported (writtenStep text registry order call c i) := by
  obtain ⟨s, l⟩ := c
  cases l with
  | markingCompleted id prepared progress response provider =>
    obtain ⟨providerId, hrow, hother⟩ := h
    exact ⟨providerId, hrow.completed _ _ _ _, hother⟩
  | responded id prepared response provider => exact h
  | raised admitted error => exact h
  | _ => exact h.elim

theorem agrees_of_honest {c : Ledger × ProxyState} (h : HonestSoFar text registry order call c) :
    LedgerAgrees c := by
  obtain ⟨s, l⟩ := c
  cases l with
  | responded id prepared response provider =>
    obtain ⟨hrow, hlow⟩ := h
    change RowIs _ _ (if response.statusCode < 500 then _ else _) _
    rw [if_pos hlow]
    exact hrow
  | raised admitted error =>
    cases admitted with
    | none => trivial
    | some id => exact h
  | _ => trivial

theorem disagrees_of_misreported {c : Ledger × ProxyState} (h : Misreported c)
    (hended : c.2.ended = true) : ¬ LedgerAgrees c := by
  obtain ⟨s, l⟩ := c
  intro hagrees
  cases l with
  | responded id prepared response provider =>
    obtain ⟨providerId, hrow, hother⟩ := h
    obtain ⟨hstate, hprovider⟩ := hrow.unique hagrees
    refine hother ⟨hprovider.symm, ?_⟩
    by_contra hhigh
    rw [if_neg hhigh] at hstate
    cases hstate
  | raised admitted error =>
    cases admitted with
    | none => exact h
    | some id =>
      obtain ⟨providerId, hrow⟩ := h
      obtain ⟨providerId', hrow'⟩ := hagrees
      cases (hrow.unique hrow').1
  | _ => cases hended

/-- At the end of a request whose statements all succeed, the ledger says what the client got
exactly when nothing was relayed, or the admitted provider answered the first attempt below 500. -/
theorem ledger_agrees_iff (text : ProxyText) (registry : Registry) (order : RowOrder)
    (call : ProxyCall) (s : Ledger) (is : List ProxyInput)
    (hended : (run (writtenStep text registry order call) (s, .received) is).2.ended = true) :
    LedgerAgrees (run (writtenStep text registry order call) (s, .received) is) ↔
      Along (writtenStep text registry order call) (HonestStep text call) (s, .received) is := by
  have hstart : HonestSoFar text registry order call (s, .received) := trivial
  rcases run_or_trapped honestSoFar_step misreported_of_step misreported_step hstart is with
    ⟨hhonest, halong⟩ | ⟨hbad, halong⟩
  · exact iff_of_true (agrees_of_honest hhonest) halong
  · exact iff_of_false (disagrees_of_misreported hbad hended) halong

end Run

/-- The state and the provider of the row behind a response, and the status and the provider of
the response. -/
def rowBehind (c : Ledger × ProxyState) : Option ((WorkloadState × String) × Nat × String) :=
  match c.2 with
  | .responded id _ response provider =>
      (c.1.workloads.byId id).map fun w =>
        ((w.state, w.providerId), response.statusCode, provider.id)
  | _ => none

theorem agrees_iff_of_rowBehind {c : Ledger × ProxyState} {state : WorkloadState}
    {providerId served : String} {status : Nat}
    (h : rowBehind c = some ((state, providerId), status, served)) :
    LedgerAgrees c ↔ state = (if status < 500 then .completed else .failed) ∧
      providerId = served := by
  obtain ⟨s, l⟩ := c
  cases l with
  | responded id prepared response provider =>
    obtain ⟨w, hw, hreport⟩ := Option.map_eq_some_iff.mp h
    simp only [Prod.mk.injEq] at hreport
    obtain ⟨⟨rfl, rfl⟩, rfl, rfl⟩ := hreport
    constructor
    · exact fun hagrees => RowIs.unique ⟨w, hw, rfl, rfl⟩ hagrees
    · exact fun hrow => ⟨w, hw, hrow.1, hrow.2⟩
  | _ => cases h

def chatInput (run : FallbackRun) : ProxyInput := ⟨chatEnv, none, run, 0⟩

/-- The request of `chatCall` from its arrival to its response, over an empty ledger. -/
def chatRequest (providers : Registry) (run : FallbackRun) : Ledger × ProxyState :=
  Machine.run (writtenStep chatText providers codePointOrder chatCall)
    (⟨Table.empty, Table.empty, []⟩, .received) (List.replicate 5 (chatInput run))

/-- The client gets a 503 from the only provider, and the ledger says `completed`. -/
theorem ledger_disagrees_on_error :
    ¬ LedgerAgrees (chatRequest cheapRegistry (failOver 0 ⟨503, 0⟩)) := by
  have hreport : rowBehind (chatRequest cheapRegistry (failOver 0 ⟨503, 0⟩)) =
      some ((.completed, "cheap"), 503, "cheap") := by decide +kernel
  rw [agrees_iff_of_rowBehind hreport]
  decide

/-- A 200 at once is what the ledger says. -/
theorem ledger_agrees_at_once :
    LedgerAgrees (chatRequest cheapRegistry (failOver 0 ⟨200, 0⟩)) ∧
    Along (writtenStep chatText cheapRegistry codePointOrder chatCall)
      (HonestStep chatText chatCall) (⟨Table.empty, Table.empty, []⟩, .received)
      (List.replicate 5 (chatInput (failOver 0 ⟨200, 0⟩))) := by
  have hreport : rowBehind (chatRequest cheapRegistry (failOver 0 ⟨200, 0⟩)) =
      some ((.completed, "cheap"), 200, "cheap") := by decide +kernel
  have hagrees := (agrees_iff_of_rowBehind hreport).mpr (by decide)
  exact ⟨hagrees, (ledger_agrees_iff chatText cheapRegistry codePointOrder chatCall
    ⟨Table.empty, Table.empty, []⟩ (List.replicate 5 (chatInput (failOver 0 ⟨200, 0⟩)))
    (by decide +kernel)).mp hagrees⟩

end Pitwall
