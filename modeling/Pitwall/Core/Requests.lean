import Pitwall.Core.Inference
import Pitwall.Library.Machine
set_option autoImplicit false

/-!
The code paths that write `pitwall.workloads`, as processes over one ledger.
-/

namespace Pitwall
open Machine

/-- A code path with its arguments and the place it has reached. -/
inductive Request where
  | sync (call : SyncCall) (state : SyncState)
  | job (call : JobCall) (state : JobState)
  | restCancel (id : String) (state : RestCancelState)
  | coreCancel (endpointOf : String → Option String) (id : String) (state : CoreCancelState)
  /-- `apply_terminal_state`, from the poller and from the webhook job. -/
  | reconcile (id : String) (state : WorkloadState) (actualCost : Option ℚ)
      (completedAt : Instant)
  | reconciled

def Request.fresh : Request → Bool
  | .sync _ .quoting | .job _ .validating | .restCancel _ .reading
  | .coreCancel _ _ .reading | .reconcile _ _ _ _ => true
  | _ => false

section Step
variable (text : JsonText)

def requestStep (r : Request) (s : Ledger) (i : StepInput) : Ledger × Request :=
  match r with
  | .sync c l => ((syncStep text c l s i).1, .sync c (syncStep text c l s i).2)
  | .job c l => ((jobStep c l s i).1, .job c (jobStep c l s i).2)
  | .restCancel id l => ((restCancelStep id l s i).1, .restCancel id (restCancelStep id l s i).2)
  | .coreCancel endpointOf id l =>
      ((coreCancelStep endpointOf id l s i).1,
        .coreCancel endpointOf id (coreCancelStep endpointOf id l s i).2)
  | .reconcile id state actualCost completedAt =>
      match i.fault with
      | some _ => (s, .reconciled)
      | none =>
          (s.withWorkloads (s.workloads.applyTerminalState id state actualCost completedAt),
            .reconciled)
  | .reconciled => (s, .reconciled)

/-- Any number of requests over one ledger, interleaved step by step. -/
def systemStep {ι : Type} [DecidableEq ι] (c : Config Ledger ι Request) (a : ι × StepInput) :
    Config Ledger ι Request :=
  c.next (fun _ => requestStep text) a

end Step

end Pitwall
