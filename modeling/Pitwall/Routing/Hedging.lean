import Mathlib.Algebra.Order.Ring.Rat
import Mathlib.Data.List.Range
import Pitwall.Library.Machine
import Pitwall.Library.Traversal
import Pitwall.Routing.Coalescing
set_option autoImplicit false

/-!
`race_providers`: one race of an ordered provider chain on the event loop. Between two of its
steps its attempts end in any order, the callbacks of those that are done run one turn later,
the timer fires and the race itself may be cancelled.
-/

namespace Pitwall.Routing
open Machine

/-- A number of a request, which may be a `bool`. -/
inductive RaceNumber where
  | bool (b : Bool)
  | finite (value : ℚ)
  | nonFinite

inductive RaceCount where
  | bool (b : Bool)
  | int (n : Int)

structure HedgedProviderRequest (P : Type) where
  providers : List P
  hedgeDelayS : RaceNumber
  maxAttempts : RaceCount
  maxConcurrency : RaceCount
  providerId : P → Except PyError String

/-- What `_validate_request` gives. -/
structure SelectedProviders where
  ids : List String
  delay : ℚ
  maxConcurrency : Nat
  ids_nodup : ids.Nodup
  ids_nonempty : ∀ id ∈ ids, id ≠ ""
  delay_nonneg : 0 ≤ delay
  maxConcurrency_pos : 1 ≤ maxConcurrency
  maxConcurrency_le : maxConcurrency ≤ ids.length

/-- `_validate_non_negative_finite`. -/
def validateNonNegativeFinite (value : RaceNumber) (fieldName : String) :
    Except PyError { q : ℚ // 0 ≤ q } :=
  match value with
  | .finite q =>
      if h : 0 ≤ q then .ok ⟨q, h⟩
      else .error ⟨"ValueError", fieldName ++ " must be a finite non-negative number"⟩
  | _ => .error ⟨"ValueError", fieldName ++ " must be a finite non-negative number"⟩

/-- `_validate_positive_int`. -/
def validatePositiveInt (value : RaceCount) (fieldName : String) :
    Except PyError { n : Nat // 1 ≤ n } :=
  match value with
  | .int n =>
      if h : n < 1 then .error ⟨"ValueError", fieldName ++ " must be a positive integer"⟩
      else .ok ⟨n.toNat, by omega⟩
  | .bool _ => .error ⟨"ValueError", fieldName ++ " must be a positive integer"⟩

/-- `_validate_provider_ids`, which have been seen. -/
def validateProviderIds (repr : String → String) :
    (seen ids : List String) → Except PyError
      (PLift (ids.Nodup ∧ (∀ id ∈ ids, id ≠ "") ∧ ∀ id ∈ ids, id ∉ seen))
  | _, [] => .ok ⟨by simp⟩
  | seen, id :: ids =>
      if hempty : id = "" then
        .error ⟨"ValueError", "provider ids must be non-empty strings"⟩
      else if hseen : id ∈ seen then
        .error ⟨"ValueError", "provider id " ++ repr id ++ " is duplicated"⟩
      else
        match validateProviderIds repr (id :: seen) ids with
        | .error exc => .error exc
        | .ok ⟨h⟩ => .ok ⟨by
            refine ⟨List.nodup_cons.mpr ⟨fun hmem => h.2.2 id hmem (by simp), h.1⟩, ?_, ?_⟩
            · intro id' hid'
              rcases List.mem_cons.mp hid' with rfl | hmem
              · exact hempty
              · exact h.2.1 id' hmem
            · intro id' hid'
              rcases List.mem_cons.mp hid' with rfl | hmem
              · exact hseen
              · exact fun hbefore => h.2.2 id' hmem (by simp [hbefore])⟩

theorem selected_length {P : Type} {providers : List P} {providerId : P → Except PyError String}
    {maxAttempts : Nat} {ids : List String} (hproviders : providers ≠ []) (hmax : 1 ≤ maxAttempts)
    (h : (providers.take maxAttempts).mapM providerId = .ok ids) : 1 ≤ ids.length := by
  have hlength := (List.mapM_eq_ok_iff.mp h).length_eq
  have hpos := List.length_pos_iff.mpr hproviders
  rw [List.length_take] at hlength
  omega

/-- `_validate_request`. -/
def validateRequest {P : Type} (repr : String → String) (request : HedgedProviderRequest P) :
    Except PyError SelectedProviders :=
  if hproviders : request.providers = [] then
    .error ⟨"ValueError", "providers must contain at least one provider"⟩
  else do
    let delay ← validateNonNegativeFinite request.hedgeDelayS "hedge_delay_s"
    let maxAttempts ← validatePositiveInt request.maxAttempts "max_attempts"
    let maxConcurrency ← validatePositiveInt request.maxConcurrency "max_concurrency"
    match hids : (request.providers.take maxAttempts).mapM request.providerId with
    | .error exc => .error exc
    | .ok ids =>
        let h ← validateProviderIds repr [] ids
        return {
          ids
          delay := delay.val
          maxConcurrency := min maxConcurrency.val ids.length
          ids_nodup := h.down.1
          ids_nonempty := h.down.2.1
          delay_nonneg := delay.property
          maxConcurrency_pos := le_min maxConcurrency.property
            (selected_length hproviders maxAttempts.property hids)
          maxConcurrency_le := min_le_right _ _ }

/-- What a call of `call_provider` does: it gives an awaitable, or it raises at once. -/
inductive ProviderCall where
  | started
  | raised (exc : PyError)
  | cancelled
  deriving DecidableEq

/-- `_ActiveAttempt` and its task. -/
structure HedgedAttempt (V : Type) where
  index : Nat
  providerId : String
  outcome : Option (TaskOutcome V)

/-- `HedgedProviderResult`. -/
structure HedgedProviderResult (V : Type) where
  value : V
  index : Nat
  providerId : String
  attemptedProviderIds : List String
  elapsed : ℚ

/-- `HedgedProviderError`. -/
structure HedgedProviderError where
  message : String
  attemptedProviderIds : List String
  cause : Option PyError
  attemptedErrors : List (String × String)

inductive RaceExit (V : Type) where
  | returned (result : HedgedProviderResult V)
  | failed (error : HedgedProviderError)
  | raised (exc : PyError)
  | cancelled

inductive RacePhase (V : Type) where
  | created
  /-- In `asyncio.wait`, with the instant of its timer if it has one. -/
  | waiting (timer : Option ℚ) (fired : Bool)
  /-- In `_cancel_active`, with a result to return. -/
  | closing (i : Nat) (value : V)
  /-- In `_cancel_active`, of a race that was cancelled. -/
  | aborting
  | exited (exit : RaceExit V)

/-- The variables of `race_providers`; `called` are the providers that it has called, and the
task of the attempt `i` of `active` is in `attempts`. -/
structure HedgedRace (V : Type) where
  phase : RacePhase V
  cancelRequested : Bool
  now : ℚ
  startedAt : ℚ
  called : List Nat
  attempts : List (HedgedAttempt V)
  active : List Nat
  completed : List Nat
  nextIndex : Nat
  hedgeOpen : Bool
  lastError : Option PyError
  attemptedErrors : List (String × String)

inductive RaceEvent (V : Type) where
  /-- The first step of the race. -/
  | begin (calls : Nat → ProviderCall)
  | elapse (seconds : ℚ)
  /-- The task of an attempt ends. -/
  | finish (i : Nat) (outcome : TaskOutcome V)
  /-- The callbacks of an attempt that is done run. -/
  | callback (i : Nat)
  /-- The timer of `asyncio.wait` fires. -/
  | timeout
  /-- Somebody cancels the race. -/
  | cancel
  /-- The race goes on after an `await`. -/
  | resume (calls : Nat → ProviderCall)

namespace HedgedRace
variable {V : Type}

def new (now : ℚ) : HedgedRace V where
  phase := .created
  cancelRequested := false
  now := now
  startedAt := now
  called := []
  attempts := []
  active := []
  completed := []
  nextIndex := 0
  hedgeOpen := false
  lastError := none
  attemptedErrors := []

def attempt (s : HedgedRace V) (i : Nat) : Option (HedgedAttempt V) := s.attempts[i]?

def outcomeOf (s : HedgedRace V) (i : Nat) : Option (TaskOutcome V) :=
  (s.attempt i).bind HedgedAttempt.outcome

def isDone (s : HedgedRace V) (i : Nat) : Bool := (s.outcomeOf i).isSome

def attemptedProviderIds (s : HedgedRace V) : List String :=
  s.attempts.map HedgedAttempt.providerId

def exit (s : HedgedRace V) (e : RaceExit V) : HedgedRace V := { s with phase := .exited e }

variable (p : SelectedProviders)

/-- `start_next`, and what the call has raised. -/
def startNext (calls : Nat → ProviderCall) (s : HedgedRace V) :
    HedgedRace V × ProviderCall :=
  match p.ids[s.nextIndex]? with
  | none => (s, .started)
  | some providerId =>
      let s := { s with called := s.called ++ [s.nextIndex] }
      match calls s.nextIndex with
      | .started =>
          ({ s with
            attempts := s.attempts ++ [⟨s.nextIndex, providerId, none⟩]
            active := s.active ++ [s.nextIndex]
            nextIndex := s.nextIndex + 1 }, .started)
      | failure => (s, failure)

/-- `fill_open_slots`, for at most `fuel` rounds. -/
def fillRounds (calls : Nat → ProviderCall) : Nat → HedgedRace V → HedgedRace V × ProviderCall
  | 0, s => (s, .started)
  | fuel + 1, s =>
      if s.active.length < p.maxConcurrency ∧ s.nextIndex < p.ids.length then
        match startNext p calls s with
        | (s, .started) => fillRounds calls fuel s
        | failed => failed
      else (s, .started)

/-- `fill_open_slots`: each round takes the next provider. -/
def fillOpenSlots (calls : Nat → ProviderCall) (s : HedgedRace V) :
    HedgedRace V × ProviderCall :=
  fillRounds p calls (p.ids.length - s.nextIndex) s

def raceError (s : HedgedRace V) : HedgedProviderError where
  message := "hedged provider race failed before any provider succeeded"
  attemptedProviderIds := s.attemptedProviderIds
  cause := s.lastError
  attemptedErrors := s.attemptedErrors

/-- The head of the loop, up to the suspension in `asyncio.wait`, or its end. -/
def loop (s : HedgedRace V) : HedgedRace V :=
  if s.active = [] then s.exit (.failed s.raceError)
  else
    let timer := if !s.hedgeOpen ∧ s.nextIndex < p.ids.length then
      some (s.now + max 0 (p.delay - (s.now - s.startedAt))) else none
    { s with phase := .waiting timer false }

/-- The `CancelledError` reaches the handler, which cancels what is active. -/
def abort (s : HedgedRace V) : HedgedRace V :=
  if s.active = [] then s.exit .cancelled else { s with phase := .aborting }

/-- The rest of a round of the loop. Only a `CancelledError` is handled. -/
def continueLoop : HedgedRace V × ProviderCall → HedgedRace V
  | (s, .started) => s.loop p
  | (s, .raised exc) => s.exit (.raised exc)
  | (s, .cancelled) => s.abort

def fail (s : HedgedRace V) (providerId : String) (exc : PyError) : HedgedRace V :=
  { s with
    lastError := some exc
    -- the ids are distinct, so that each is set once
    attemptedErrors := s.attemptedErrors ++ [(providerId, exc.message)] }

def result (s : HedgedRace V) (i : Nat) (value : V) : HedgedProviderResult V where
  value := value
  index := i
  providerId := ((s.attempt i).map HedgedAttempt.providerId).getD ""
  attemptedProviderIds := s.attemptedProviderIds
  elapsed := s.now - s.startedAt

def settle (s : HedgedRace V) : List Nat → HedgedRace V × Option (Nat × V)
  | [] => (s, none)
  | i :: is =>
      let popped := { s with active := s.active.erase i }
      match s.attempt i with
      | none => popped.settle is
      | some x =>
          match x.outcome with
          | some (.value value) => (popped, some (i, value))
          | some (.exception exc) => (popped.fail x.providerId exc).settle is
          | some .cancelled =>
              (popped.fail x.providerId ⟨"CancelledError",
                "provider " ++ x.providerId ++ " attempt was cancelled"⟩).settle is
          | none => popped.settle is

/-- `await _cancel_active(active)` on the way to `return`. -/
def close (s : HedgedRace V) (i : Nat) (value : V) : HedgedRace V :=
  if s.active = [] then s.exit (.returned (s.result i value))
  else { s with phase := .closing i value }

/-- What the race does with the outcome of `asyncio.wait`. -/
def afterWait (calls : Nat → ProviderCall) (s : HedgedRace V) : HedgedRace V :=
  let done := s.active.filter s.isDone
  if done = [] then continueLoop p (fillOpenSlots p calls { s with hedgeOpen := true })
  else
    let orderedDone := s.completed.filter (· ∈ done)
    let kept := { s with completed := s.completed.filter (· ∉ done) }
    match kept.settle orderedDone with
    | (s, some (i, value)) => s.close i value
    | (s, none) =>
        if s.active = [] ∧ s.nextIndex < p.ids.length then continueLoop p (startNext p calls s)
        else if s.hedgeOpen ∧ s.nextIndex < p.ids.length then
          continueLoop p (fillOpenSlots p calls s)
        else s.loop p

/-- Whether the `await` of the race is over: the gathering of `_cancel_active` is not before all
its tasks are done, cancelled again or not. -/
def ready (s : HedgedRace V) : Bool :=
  match s.phase with
  | .waiting _ fired => s.cancelRequested || fired || s.active.any (· ∈ s.completed)
  | .closing _ _ | .aborting => s.active.all s.isDone
  | _ => false

def resume (calls : Nat → ProviderCall) (s : HedgedRace V) : HedgedRace V :=
  let resumed := { s with cancelRequested := false }
  match s.phase with
  | .waiting _ _ => if s.cancelRequested then resumed.abort else resumed.afterWait p calls
  | .closing i value =>
      if s.cancelRequested then resumed.abort else resumed.exit (.returned (s.result i value))
  | .aborting => resumed.exit .cancelled
  | _ => s

/-- The first step, whose `start_next` is outside of the `try`. -/
def begin (calls : Nat → ProviderCall) (s : HedgedRace V) : HedgedRace V :=
  if s.cancelRequested then s.exit .cancelled
  else
    match startNext p calls { s with startedAt := s.now } with
    | (s, .started) => s.loop p
    | (s, .raised exc) => s.exit (.raised exc)
    | (s, .cancelled) => s.exit .cancelled

/-- The task of the attempt `i` ends. -/
def finished (s : HedgedRace V) (i : Nat) (outcome : TaskOutcome V) : HedgedRace V :=
  { s with attempts := s.attempts.modify i fun x =>
    { x with outcome := x.outcome.or (some outcome) } }

def step (s : HedgedRace V) : RaceEvent V → HedgedRace V
  | .begin calls =>
      match s.phase with
      | .created => s.begin p calls
      | _ => s
  | .elapse seconds => { s with now := s.now + max 0 seconds }
  | .finish i outcome => s.finished i outcome
  | .callback i =>
      if s.isDone i ∧ i ∉ s.completed ∧ i ∈ s.active then
        { s with completed := s.completed ++ [i] } else s
  | .timeout =>
      match s.phase with
      | .waiting (some timer) _ =>
          if timer ≤ s.now then { s with phase := .waiting (some timer) true } else s
      | _ => s
  | .cancel =>
      match s.phase with
      | .exited _ => s
      | _ => { s with cancelRequested := true }
  | .resume calls => if s.ready then s.resume p calls else s

end HedgedRace

end Pitwall.Routing
