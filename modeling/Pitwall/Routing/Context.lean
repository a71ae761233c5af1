import Pitwall.Routing.Freeze
set_option autoImplicit false

/-!
The world that a plan is made in: the instant, the availability of GPUs and the providers,
read live or replayed from a snapshot.
-/

namespace Pitwall.Routing

/-- `AvailabilityKey(...)`, over the upper-case cloud type. -/
def availabilityKey (text : PyString) (datacenter gpuName cloudType : String) (gpuCount : Int) :
    Except PyError CapacityProbeKey :=
  if datacenter = "" then .error (valueError "datacenter must be non-empty")
  else if gpuName = "" then .error (valueError "gpu_name must be non-empty")
  else if text.upper cloudType = "" then .error (valueError "cloud_type must be non-empty")
  else if gpuCount < 1 then .error (valueError "gpu_count must be >= 1")
  else .ok ⟨datacenter, gpuName, text.upper cloudType, gpuCount⟩

structure AvailabilityValue where
  available : Bool
  checkedAt : Binary64

/-- `AvailabilityCache`: the entries of its dictionary, in their order. -/
structure AvailabilityCache where
  entries : List (CapacityProbeKey × AvailabilityValue)
  ttlS : Binary64
  keys_nodup : (entries.map Prod.fst).Nodup

/-- `_is_expired`, at a reading of the monotonic clock. -/
def AvailabilityCache.isExpired (cache : AvailabilityCache) (monotonic checkedAt : Binary64) :
    Bool :=
  cache.ttlS.lt (monotonic.sub checkedAt)

structure AvailabilitySnapshotEntry where
  key : CapacityProbeKey
  available : Bool
  deriving DecidableEq

structure AvailabilitySnapshot where
  entries : List AvailabilitySnapshotEntry
  deriving DecidableEq

structure AvailabilityEntryInput where
  datacenter : String
  gpuName : String
  cloudType : String
  gpuCount : Int
  available : Bool

namespace AvailabilitySnapshot
variable (text : PyString)

/-- `from_entries`. -/
def fromEntries (entries : List AvailabilityEntryInput) : Except PyError AvailabilitySnapshot :=
  AvailabilitySnapshot.mk <$> entries.mapM fun e =>
    (⟨·, e.available⟩) <$> availabilityKey text e.datacenter e.gpuName e.cloudType e.gpuCount

/-- `from_cache`, where `monotonic i` is what the clock reads at the entry `i`. -/
def fromCache (monotonic : Nat → Binary64) (cache : AvailabilityCache) : AvailabilitySnapshot :=
  ⟨cache.entries.zipIdx.filterMap fun (entry, i) =>
    if cache.isExpired (monotonic i) entry.2.checkedAt then none
    else some ⟨entry.1, entry.2.available⟩⟩

/-- `is_available`: the last entry of the key. -/
def reader (snapshot : AvailabilitySnapshot) : CapacityReader Unit where
  isAvailable s key := do
    let key ← availabilityKey text key.datacenter key.gpuName key.cloudType key.gpuCount
    pure ((snapshot.entries.reverse.find? fun e => e.key = key).map
      AvailabilitySnapshotEntry.available, s)

end AvailabilitySnapshot

structure PlanningContext where
  now : Instant
  availabilitySnapshot : AvailabilitySnapshot
  providers : List ProviderLike
  capability : Option CapabilityModel

/-- `freeze_provider_snapshot`. -/
def freezeProviderSnapshot (providers : List ProviderLike) : List ProviderLike :=
  providers.map ProviderLike.freeze

structure World where
  utcNow : Instant
  monotonic : Nat → Binary64
  globalCache : AvailabilityCache

namespace PlanningContext

/-- `PlanningContext(...)`. -/
def create (now : Option Instant) (snapshot : AvailabilitySnapshot)
    (providers : List ProviderLike) (capability : Option CapabilityModel) :
    Except PyError PlanningContext :=
  (fun t => ⟨t, snapshot, providers, capability⟩) <$> normalizeUtc "now" now

/-- `PlanningContext.live`. -/
def live (world : World) (now : Option (Option Instant)) (cache : Option AvailabilityCache)
    (providers : List ProviderLike) (capability : Option CapabilityModel) :
    Except PyError PlanningContext :=
  create (now.getD (some world.utcNow))
    (.fromCache world.monotonic (cache.getD world.globalCache))
    (freezeProviderSnapshot providers) capability

/-- `PlanningContext.replay`. -/
def replay (text : PyString) (now : Option Instant) (snapshot : Option AvailabilitySnapshot)
    (entries : List AvailabilityEntryInput) (providers : List ProviderLike)
    (capability : Option CapabilityModel) : Except PyError PlanningContext :=
  match snapshot with
  | some snapshot =>
      if entries.isEmpty then create now snapshot (freezeProviderSnapshot providers) capability
      else .error (valueError
        "availability_snapshot and availability_entries are mutually exclusive")
  | none => do
      let snapshot ← AvailabilitySnapshot.fromEntries text entries
      create now snapshot (freezeProviderSnapshot providers) capability

end PlanningContext

/-- A cache argument of `plan_route`: an `AvailabilityCache`, or something else that answers
`is_available`. -/
inductive CacheObject (σ : Type) where
  | cache (cache : AvailabilityCache)
  | like (reader : CapacityReader σ) (state : σ)

structure CacheArgument (σ : Type) where
  address : Nat
  object : CacheObject σ

section Inputs
variable {σ : Type}

/-- `_resolve_explicit_capacity_cache`. -/
def resolveExplicitCapacityCache :
    Option (CacheArgument σ) → Option (CacheArgument σ) → Except PyError (Option (CacheObject σ))
  | some a, some c =>
      if a.address ≠ c.address then
        .error (valueError "availability_cache and capacity_cache must not differ")
      else .ok (some a.object)
  | some a, none => .ok (some a.object)
  | none, some c => .ok (some c.object)
  | none, none => .ok none

inductive CapacitySource (σ : Type) where
  | snapshot (snapshot : AvailabilitySnapshot)
  | like (reader : CapacityReader σ) (state : σ)

structure PlanningInputs (σ : Type) where
  context : PlanningContext
  capacity : CapacitySource σ
  contextSupplied : Bool

/-- `_resolve_planning_inputs`. -/
def resolvePlanningInputs (world : World) (context : Option PlanningContext)
    (now : Option (Option Instant)) (availabilityCache capacityCache : Option (CacheArgument σ)) :
    Except PyError (PlanningInputs σ) := do
  let explicit ← resolveExplicitCapacityCache availabilityCache capacityCache
  match context, explicit with
  | some context, explicit =>
      if now.isSome then .error (valueError "context and now are mutually exclusive")
      else if explicit.isSome then .error (valueError
        "context and availability_cache/capacity_cache are mutually exclusive")
      else pure ⟨context, .snapshot context.availabilitySnapshot, true⟩
  | none, some (.cache cache) =>
      let live ← PlanningContext.live world now (some cache) [] none
      pure ⟨live, .snapshot live.availabilitySnapshot, false⟩
  | none, some (.like reader state) =>
      let live ← PlanningContext.live world now none [] none
      pure ⟨live, .like reader state, false⟩
  | none, none =>
      let live ← PlanningContext.live world now none [] none
      pure ⟨live, .snapshot live.availabilitySnapshot, false⟩

/-- `_providers_for_plan`. -/
def providersForPlan (providers : Option (List ProviderLike)) (context : PlanningContext)
    (freezeExplicit : Bool) : Except PyError (List ProviderLike) :=
  match providers with
  | some providers => .ok (if freezeExplicit then freezeProviderSnapshot providers else providers)
  | none =>
      if context.providers.isEmpty then .error (valueError
        "providers must be supplied directly or through PlanningContext")
      else .ok context.providers

/-- `plan_route`. -/
def planRouteIn (text : PyString) (world : World) (request : RoutingRequest)
    (providers : Option (List ProviderLike)) (options : PlanOptions)
    (context : Option PlanningContext) (now : Option (Option Instant))
    (availabilityCache capacityCache : Option (CacheArgument σ)) : Except PyError RoutePlan := do
  validatePlanOptions options.maxAttempts options.backoffBaseS
  let inputs ← resolvePlanningInputs world context now availabilityCache capacityCache
  let active ← providersForPlan providers inputs.context inputs.contextSupplied
  let options := { options with capability := options.capability.or inputs.context.capability }
  match inputs.capacity with
  | .snapshot snapshot =>
      planRoute text (snapshot.reader text) () request options inputs.context.now active
  | .like reader state => planRoute text reader state request options inputs.context.now active

end Inputs

section Live
variable {σ : Type} (text : PyString) (world : World) (request : RoutingRequest)
  (options : PlanOptions)

theorem planRoute_invalid {τ : Type} {reader : CapacityReader τ} {state : τ} {now : Instant}
    {providers : List ProviderLike} {e : PyError}
    (h : validatePlanOptions options.maxAttempts options.backoffBaseS = .error e) :
    planRoute text reader state request options now providers = .error e := by
  rw [planRoute, h]
  rfl

theorem planRouteIn_live (providers : List ProviderLike) (now : Instant) (address : Nat)
    (cache : AvailabilityCache) :
    planRouteIn text world request (some providers) options none (some (some now))
        (some (⟨address, .cache cache⟩ : CacheArgument σ)) none =
      planRoute text ((AvailabilitySnapshot.fromCache world.monotonic cache).reader text) ()
        request options now providers := by
  unfold planRouteIn
  cases h : validatePlanOptions options.maxAttempts options.backoffBaseS with
  | error e => exact (planRoute_invalid text request options h).symm
  | ok u =>
    have hsame : { options with capability := options.capability.or none } = options := by
      rw [Option.or_none]
    exact congrArg (fun options => planRoute text _ () request options now providers) hsame

theorem planRouteIn_context (context : PlanningContext) (hcapability : context.capability = none) :
    planRouteIn text world request none options (some context) none
        (none : Option (CacheArgument σ)) none =
      if context.providers.isEmpty then do
        validatePlanOptions options.maxAttempts options.backoffBaseS
        .error (valueError "providers must be supplied directly or through PlanningContext")
      else planRoute text (context.availabilitySnapshot.reader text) () request options context.now
        context.providers := by
  unfold planRouteIn
  cases h : validatePlanOptions options.maxAttempts options.backoffBaseS with
  | error e =>
    rw [planRoute_invalid text request options h]
    split <;> rfl
  | ok u =>
    have hsame : { options with capability := options.capability.or context.capability } =
        options := by
      rw [hcapability, Option.or_none]
    cases hproviders : context.providers with
    | nil => simp [resolvePlanningInputs, resolveExplicitCapacityCache, providersForPlan,
        hproviders, bind, Except.bind, pure, Except.pure]
    | cons p ps => simp [resolvePlanningInputs, resolveExplicitCapacityCache, providersForPlan,
        hproviders, bind, Except.bind, pure, Except.pure, hsame]

end Live

end Pitwall.Routing
