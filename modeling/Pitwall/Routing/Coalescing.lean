import Mathlib.Data.Set.Card
import Pitwall.Core.Json
import Pitwall.Library.Machine
set_option autoImplicit false

/-!
`AsyncRequestCoalescer`: concurrent calls of `run` on one event loop. Its lock is never held
over a suspension, so each of its critical sections is part of one step.
-/

namespace Pitwall.Routing
open Machine

inductive TaskOutcome (T : Type) where
  | value (v : T)
  | exception (exc : PyError)
  | cancelled
  deriving DecidableEq

/-- `_InflightExecution`, with the task in it. -/
structure InflightExecution (T : Type) where
  key : String
  waiters : Nat
  /-- What the task ended with, once it is done. -/
  outcome : Option (TaskOutcome T)
  /-- `task.cancel()` was called. -/
  cancelled : Bool

/-- A call of `run` in a task of its own, and the execution that it joined. -/
inductive CoalescedCall (T : Type) where
  | created (cancelRequested : Bool)
  | awaiting (e : Nat) (cancelRequested : Bool)
  | returned (e : Nat) (outcome : TaskOutcome T)
  | cancelled (joined : Option Nat)
  | refused (exc : PyError)

structure Coalescer (ι T : Type) where
  inflight : String → Option Nat
  executions : List (InflightExecution T)
  calls : ι → CoalescedCall T

inductive CoalescerEvent (ι T : Type) where
  /-- The first step of the task of a call. -/
  | start (i : ι)
  /-- Somebody cancels the task of a call. -/
  | cancel (i : ι)
  /-- The task of an execution ends. -/
  | finish (e : Nat) (outcome : TaskOutcome T)
  /-- The task of a call resumes. -/
  | wake (i : ι)

def emptyKeyError : PyError := ⟨"ValueError", "coalescing key must be non-empty"⟩

namespace Coalescer
variable {ι T : Type}

def new : Coalescer ι T := ⟨fun _ => none, [], fun _ => .created false⟩

def execution (s : Coalescer ι T) (e : Nat) : Option (InflightExecution T) := s.executions[e]?

def outcomeOf (s : Coalescer ι T) (e : Nat) : Option (TaskOutcome T) :=
  (s.execution e).bind InflightExecution.outcome

def modify (s : Coalescer ι T) (e : Nat) (f : InflightExecution T → InflightExecution T) :
    Coalescer ι T :=
  { s with executions := s.executions.modify e f }

/-- `del self._inflight[key]`. -/
def forget (s : Coalescer ι T) (key : String) : Coalescer ι T :=
  { s with inflight := Function.update s.inflight key none }

def executionFor (s : Coalescer ι T) (key : String) : Nat :=
  (s.inflight key).getD s.executions.length

/-- The critical section of `run`. -/
def join (s : Coalescer ι T) (key : String) : Coalescer ι T :=
  match s.inflight key with
  | some e => s.modify e fun x => { x with waiters := x.waiters + 1 }
  | none =>
      { s with
        inflight := Function.update s.inflight key (some s.executions.length)
        executions := s.executions ++ [⟨key, 1, none, false⟩] }

/-- `_release_waiter`. -/
def releaseWaiter (s : Coalescer ι T) (key : String) (e : Nat) : Coalescer ι T :=
  if s.inflight key = some e then
    match s.execution e with
    | none => s
    | some x =>
        let released := s.modify e fun x => { x with waiters := x.waiters - 1 }
        if x.outcome.isSome then released.forget key
        else if x.waiters - 1 = 0 then
          (released.modify e fun x => { x with cancelled := true }).forget key
        else released
  else s

section Step
variable [DecidableEq ι] (key : ι → String)

def withCall (s : Coalescer ι T) (i : ι) (call : CoalescedCall T) : Coalescer ι T :=
  { s with calls := Function.update s.calls i call }

/-- `run` up to its first suspension: the shield of a task that is done is that task, and
awaiting it does not suspend. -/
def enter (s : Coalescer ι T) (i : ι) : Coalescer ι T :=
  if key i = "" then s.withCall i (.refused emptyKeyError)
  else
    let e := s.executionFor (key i)
    let joined := s.join (key i)
    match joined.outcomeOf e with
    | none => joined.withCall i (.awaiting e false)
    | some outcome => (joined.releaseWaiter (key i) e).withCall i (.returned e outcome)

/-- A call that is cancelled before it resumes gets the `CancelledError`, whether its execution
is done or not. -/
def step (s : Coalescer ι T) : CoalescerEvent ι T → Coalescer ι T
  | .start i =>
      match s.calls i with
      | .created false => s.enter key i
      | .created true => s.withCall i (.cancelled none)
      | _ => s
  | .cancel i =>
      match s.calls i with
      | .created _ => s.withCall i (.created true)
      | .awaiting e _ => s.withCall i (.awaiting e true)
      | _ => s
  | .finish e outcome => s.modify e fun x => { x with outcome := x.outcome.or (some outcome) }
  | .wake i =>
      match s.calls i with
      | .awaiting e true => (s.releaseWaiter (key i) e).withCall i (.cancelled (some e))
      | .awaiting e false =>
          match s.outcomeOf e with
          | some outcome => (s.releaseWaiter (key i) e).withCall i (.returned e outcome)
          | none => s
      | _ => s

end Step

section Lemmas
variable (s : Coalescer ι T)

theorem execution_modify (e e' : Nat) (f : InflightExecution T → InflightExecution T) :
    (s.modify e f).execution e' = if e = e' then (s.execution e').map f else s.execution e' := by
  unfold execution modify
  rw [List.getElem?_modify]
  split <;> simp

@[simp] theorem modify_inflight (e : Nat) (f : InflightExecution T → InflightExecution T) :
    (s.modify e f).inflight = s.inflight := rfl

@[simp] theorem modify_calls (e : Nat) (f : InflightExecution T → InflightExecution T) :
    (s.modify e f).calls = s.calls := rfl

@[simp] theorem forget_execution (key : String) (e : Nat) :
    (s.forget key).execution e = s.execution e := rfl

@[simp] theorem forget_calls (key : String) : (s.forget key).calls = s.calls := rfl

theorem execution_lt {e : Nat} {x : InflightExecution T} (h : s.execution e = some x) :
    e < s.executions.length :=
  (List.getElem?_eq_some_iff.mp h).1

@[simp] theorem join_calls (key : String) : (s.join key).calls = s.calls := by
  unfold join
  split <;> rfl

@[simp] theorem releaseWaiter_calls (key : String) (e : Nat) :
    (s.releaseWaiter key e).calls = s.calls := by
  unfold releaseWaiter
  split
  · split
    · rfl
    · dsimp only
      split
      · rfl
      · split <;> rfl
  · rfl

variable [DecidableEq ι]

@[simp] theorem withCall_inflight (i : ι) (call : CoalescedCall T) :
    (s.withCall i call).inflight = s.inflight := rfl

@[simp] theorem withCall_execution (i : ι) (call : CoalescedCall T) (e : Nat) :
    (s.withCall i call).execution e = s.execution e := rfl

theorem withCall_calls (i j : ι) (call : CoalescedCall T) :
    (s.withCall i call).calls j = if j = i then call else s.calls j := by
  simp [withCall, Function.update_apply]

@[simp] theorem withCall_self (i : ι) (call : CoalescedCall T) :
    (s.withCall i call).calls i = call := by
  simp [withCall]

@[simp] theorem withCall_withCall (i : ι) (call call' : CoalescedCall T) :
    (s.withCall i call).withCall i call' = s.withCall i call' := by
  simp [withCall]

theorem releaseWaiter_withCall (i : ι) (call : CoalescedCall T) (key : String) (e : Nat) :
    (s.withCall i call).releaseWaiter key e = (s.releaseWaiter key e).withCall i call := by
  unfold releaseWaiter
  by_cases htracked : s.inflight key = some e
  · rw [withCall_inflight, withCall_execution, if_pos htracked, if_pos htracked]
    cases s.execution e with
    | none => rfl
    | some x =>
      dsimp only
      split
      · rfl
      · split <;> rfl
  · rw [withCall_inflight, if_neg htracked, if_neg htracked]

/-- What a release does: nothing, to an execution that is tracked no longer; else it takes the
waiter off, and the entry with it if the task is done or nobody else waits. -/
inductive ReleaseCase (key : String) (e : Nat) : Coalescer ι T → Prop
  | untracked (h : s.inflight key ≠ some e) : ReleaseCase key e s
  | done {x : InflightExecution T} (h : s.inflight key = some e) (hx : s.execution e = some x)
      (hdone : x.outcome.isSome = true) :
      ReleaseCase key e ((s.modify e fun x => { x with waiters := x.waiters - 1 }).forget key)
  | last {x : InflightExecution T} (h : s.inflight key = some e) (hx : s.execution e = some x)
      (hpending : x.outcome = none) (hwaiters : x.waiters - 1 = 0) :
      ReleaseCase key e (((s.modify e fun x => { x with waiters := x.waiters - 1 }).modify e
        fun x => { x with cancelled := true }).forget key)
  | shared {x : InflightExecution T} (h : s.inflight key = some e) (hx : s.execution e = some x)
      (hpending : x.outcome = none) (hwaiters : x.waiters - 1 ≠ 0) :
      ReleaseCase key e (s.modify e fun x => { x with waiters := x.waiters - 1 })

omit [DecidableEq ι] in
theorem release_cases {k : String} {e : Nat}
    (h : s.inflight k = some e → ∃ x, s.execution e = some x) :
    ReleaseCase s k e (s.releaseWaiter k e) := by
  unfold releaseWaiter
  by_cases htracked : s.inflight k = some e
  · obtain ⟨x, hx⟩ := h htracked
    rw [if_pos htracked, hx]
    dsimp only
    cases houtcome : x.outcome with
    | some outcome => exact .done htracked hx (by rw [houtcome]; rfl)
    | none =>
      by_cases hwaiters : x.waiters - 1 = 0
      · rw [if_neg (by simp), if_pos hwaiters]
        exact .last htracked hx houtcome hwaiters
      · rw [if_neg (by simp), if_neg hwaiters]
        exact .shared htracked hx houtcome hwaiters
  · rw [if_neg htracked]
    exact .untracked htracked

end Lemmas

end Coalescer

end Pitwall.Routing
