import Pitwall.Library.Traversal
import Pitwall.Routing.Values
set_option autoImplicit false

/-!
The cooldown of a provider, read from a model or a mapping.
-/

namespace Pitwall.Routing

structure ProviderCooldownState where
  consecutiveFailures : Int
  cooldownTrips : Int
  cooldownUntil : Option Instant
  healthStatus : String
  deriving DecidableEq

/-- `ProviderCooldownState(...)`, with the checks of `__post_init__` in their order. -/
def cooldownState (consecutiveFailures cooldownTrips : Int) (cooldownUntil : Option Instant)
    (healthStatus : String) : Except PyError ProviderCooldownState :=
  if consecutiveFailures < 0 then .error (valueError "consecutive_failures must be >= 0")
  else if cooldownTrips < 0 then .error (valueError "cooldown_trips must be >= 0")
  else if healthStatus = "" then .error (valueError "health_status must be non-empty")
  else .ok ⟨consecutiveFailures, cooldownTrips, cooldownUntil, healthStatus⟩

section Fields
variable (text : PyString) (p : ProviderLike) (key : String)

/-- `_normalize_utc`, of a datetime that may lack a timezone. -/
def normalizeUtc (fieldName : String) : Option Instant → Except PyError Instant
  | some t => .ok t
  | none => .error (valueError s!"{fieldName} must include timezone information")

/-- `_datetime_field`. -/
def datetimeField : Except PyError (Option Instant) :=
  match p.field key with
  | .none => .ok none
  | .datetime utc => some <$> normalizeUtc key utc
  | .str s =>
      match text.fromIsoformat s with
      | some utc => some <$> normalizeUtc key utc
      | none => .error (valueError s!"Invalid isoformat string: '{s}'")
  | _ => .error (valueError s!"{key} must be a datetime or ISO-8601 string")

/-- `_int_field`. -/
def intField (default : Int) : Except PyError Int :=
  match p.field key with
  | .none => .ok default
  | .bool _ => .error (valueError s!"{key} must be an integer")
  | v => text.intOf v

/-- `_str_field`. -/
def strField (default : String) : Except PyError String :=
  match p.field key with
  | .none => .ok default
  | .str s => .ok s
  | _ => .error (valueError s!"{key} must be a string")

end Fields

/-- `state_from_provider`. -/
def stateFromProvider (text : PyString) (p : ProviderLike) :
    Except PyError ProviderCooldownState := do
  let cooldownUntil ← datetimeField text p "cooldown_until"
  let consecutiveFailures ← intField text p "consecutive_failures" 0
  let cooldownTrips ← intField text p "cooldown_trips" 0
  let healthStatus ← strField p "health_status" "unknown"
  cooldownState consecutiveFailures cooldownTrips cooldownUntil healthStatus

def ProviderCooldownState.active (state : ProviderCooldownState) (now : Instant) : Bool :=
  state.cooldownUntil.any fun t => decide (now < t)

/-- `is_in_cooldown`. -/
def isInCooldown (text : PyString) (now : Instant) (p : ProviderLike) : Except PyError Bool :=
  (fun state => state.active now) <$> stateFromProvider text p

theorem isInCooldown_model (text : PyString) (now : Instant) (p : ProviderModel) :
    isInCooldown text now (.model p) =
      if p.healthStatus = "" then .error (valueError "health_status must be non-empty")
      else .ok (p.cooldownUntil.any fun t => decide (now < t)) := by
  have huntil : datetimeField text (.model p) "cooldown_until" = .ok p.cooldownUntil := by
    unfold datetimeField
    have hfield : (ProviderLike.model p).field "cooldown_until" =
        match p.cooldownUntil with
        | some t => .datetime (some t)
        | none => .none := rfl
    rw [hfield]
    cases p.cooldownUntil <;> rfl
  have hfailures : intField text (.model p) "consecutive_failures" 0 =
      .ok (p.consecutiveFailures : Int) := rfl
  have htrips : intField text (.model p) "cooldown_trips" 0 = .ok (p.cooldownTrips : Int) := rfl
  have hstatus : strField (.model p) "health_status" "unknown" = .ok p.healthStatus := rfl
  unfold isInCooldown stateFromProvider
  rw [huntil, hfailures, htrips, hstatus]
  have hnonneg : ¬ (p.consecutiveFailures : Int) < 0 := by omega
  have hnonneg' : ¬ (p.cooldownTrips : Int) < 0 := by omega
  simp only [bind, Except.bind, cooldownState, hnonneg, hnonneg', if_false]
  split <;> rfl

end Pitwall.Routing
