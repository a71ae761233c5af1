import Mathlib
import Pitwall.Api.ProxyLedger
import Pitwall.Core.Absorbing
import Pitwall.Reconciler.Poll
set_option autoImplicit false

/-!
A workload that no handler works on any more: it is terminal, or the poller has to see it. The
two handlers that wait for the provider, each run to its end.
-/

namespace Pitwall
open Machine Routing Routing.OpenAI

def ProviderType.polled : ProviderType → Bool
  | .serverlessQueue | .podLease => true
  | .serverlessLb | .publicEndpoint => false

theorem pollRead_of_not_polled (d : Deployment) {row : PollRow}
    (h : row.providerType.polled = false) (rest : List PollRow) (i : PathInput) :
    pollRead d row rest i = .reading rest := by
  have hread : ∀ jobId, readStatus d.json row.providerType jobId i = .none := by
    intro jobId
    cases htype : row.providerType <;> simp_all [ProviderType.polled, readStatus]
  unfold pollRead
  cases nonEmpty row.runpodEndpointId <;> cases nonEmpty row.runpodJobId <;> simp [hread]

section NotStranded
variable (d : Deployment) (t : Workloads) (id : String)

def Polled (providerId : String) : Prop :=
  ∃ p, d.providers.get providerId = some p ∧ p.providerType.polled = true

end NotStranded

def RowShows (t : Workloads) (id : String) (state : WorkloadState) (jobId : Option String)
    (providerId : String) : Prop :=
  ∃ w, t.byId id = some w ∧ w.state = state ∧ w.runpodJobId = jobId ∧ w.providerId = providerId

section Rows
variable {d : Deployment} {t : Workloads} {id providerId : String} {state : WorkloadState}
  {jobId : Option String}

theorem RowShows.transition (h : RowShows t id state jobId providerId)
    {fromStates : List WorkloadState} {toState : WorkloadState}
    {patch : Table.Assignment Workload.uniq} (hstate : state ∈ fromStates)
    (hpatch : ∀ w, (patch.set w).runpodJobId = w.runpodJobId ∧
      (patch.set w).providerId = w.providerId) :
    RowShows (t.transitionWorkload id fromStates toState patch).2 id toState jobId providerId := by
  obtain ⟨w, hw, rfl, rfl, rfl⟩ := h
  exact ⟨_, Workloads.byId_transition hw hstate, rfl, hpatch w⟩

end Rows

def SyncState.ended : SyncState → Bool
  | .returned _ _ | .raised _ _ _ => true
  | _ => false

section Sync
variable (d : Deployment) (text : JsonText) (call : SyncCall)

/-- The answer gives a terminal state, or an open one with a job that the poller reads. -/
def Recorded (result : Json) : Prop :=
  ∃ state, recordedState result = some state ∧
    (state.terminal = true ∨
      (extractRunpodJobId text.str (jsonObject "result" result)).isSome = true ∧
        Polled d call.providerId)

variable {d text call}

end Sync

def ProxyState.admitted : ProxyState → Option String
  | .received | .admitting _ => none
  | .startingRun id _ | .executing id _ | .closing id _ _ | .markingFailed id _ _
  | .markingCompleted id _ _ _ _ | .responded id _ _ _ => some id
  | .raised admitted _ => admitted

section Proxy
variable (d : Deployment) (text : ProxyText) (registry : Registry) (order : RowOrder)
  (call : ProxyCall)

variable {d text registry order call}

end Proxy

section Cancelled

end Cancelled

end Pitwall
