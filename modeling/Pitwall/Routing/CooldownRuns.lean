import Pitwall.Library.Machine
import Pitwall.Routing.Cooldown
set_option autoImplicit false

/-!
The cooldown state machine over runs of health probes, whose timestamps come in any order.
-/

namespace Pitwall.Routing
open Machine

/-- `CooldownPolicy`, whose constructor validates the fields. Durations are microseconds. -/
structure CooldownPolicy where
  failureThreshold : Int
  initialCooldown : Int
  escalatedCooldown : Int
  one_le_threshold : 1 ≤ failureThreshold
  initial_pos : 0 < initialCooldown
  initial_le : initialCooldown ≤ escalatedCooldown

/-- `DEFAULT_COOLDOWN_POLICY`. -/
def CooldownPolicy.default : CooldownPolicy :=
  ⟨3, 5 * microsPerMinute, 15 * microsPerMinute, by decide, by decide, by decide⟩

namespace ProviderCooldownState

/-- `ProviderCooldownState()`. -/
def fresh : ProviderCooldownState := ⟨0, 0, none, "unknown"⟩

end ProviderCooldownState

/-- `cooldown_duration_for_trip`; the policy has passed the checks of the durations. -/
def cooldownDurationForTrip (policy : CooldownPolicy) (cooldownTrip : Int) :
    Except PyError Int :=
  if cooldownTrip < 1 then .error (valueError "cooldown_trip must be >= 1")
  else .ok (if cooldownTrip = 1 then policy.initialCooldown else policy.escalatedCooldown)

/-- `record_provider_success`. -/
def recordProviderSuccess : Except PyError ProviderCooldownState :=
  cooldownState 0 0 none "healthy"

/-- `record_provider_failure`. -/
def recordProviderFailure (policy : CooldownPolicy) (current : ProviderCooldownState)
    (observedAt : Instant) : Except PyError ProviderCooldownState :=
  if current.active observedAt then .ok current
  else
    let cooldownUntil := current.cooldownUntil.filter fun t => decide (observedAt < t)
    let consecutiveFailures := current.consecutiveFailures + 1
    let nextTrip := consecutiveFailures / policy.failureThreshold
    if current.cooldownTrips < nextTrip then do
      let duration ← cooldownDurationForTrip policy nextTrip
      cooldownState consecutiveFailures nextTrip (some (observedAt + duration)) "unhealthy"
    else
      cooldownState consecutiveFailures current.cooldownTrips cooldownUntil current.healthStatus

structure ProbeResult where
  passed : Bool
  now : Instant
  deriving DecidableEq

/-- `apply_probe_result`. -/
def applyProbeResult (policy : CooldownPolicy) (state : ProviderCooldownState)
    (probe : ProbeResult) : Except PyError ProviderCooldownState :=
  if probe.passed then recordProviderSuccess
  else recordProviderFailure policy state probe.now

section Runs
variable (policy : CooldownPolicy)

def probeStep (state : ProviderCooldownState) (probe : ProbeResult) : ProviderCooldownState :=
  match applyProbeResult policy state probe with
  | .ok next => next
  | .error _ => state

def observedOutside (state : ProviderCooldownState) (probe : ProbeResult) : Bool :=
  !probe.passed && !state.active probe.now

def trips (state : ProviderCooldownState) (probe : ProbeResult) : Bool :=
  decide (state.cooldownTrips < (probeStep policy state probe).cooldownTrips)

/-- The trips follow from the failures, and the status is a text that the constructor takes. -/
structure CountedTrips (s : ProviderCooldownState) : Prop where
  failures_nonneg : 0 ≤ s.consecutiveFailures
  trips_eq : s.cooldownTrips = s.consecutiveFailures / policy.failureThreshold
  status_ne : s.healthStatus ≠ ""

variable {policy}

theorem CountedTrips.fresh : CountedTrips policy .fresh where
  failures_nonneg := le_rfl
  trips_eq := by simp [ProviderCooldownState.fresh]
  status_ne := by decide

theorem div_nonneg_of_policy {n : Int} (h : 0 ≤ n) : 0 ≤ n / policy.failureThreshold :=
  Int.ediv_nonneg h (by linarith [policy.one_le_threshold])

theorem succ_div (policy : CooldownPolicy) (n : Int) :
    (n + 1) / policy.failureThreshold = n / policy.failureThreshold ∨
      ((n + 1) / policy.failureThreshold = n / policy.failureThreshold + 1 ∧
        n + 1 = policy.failureThreshold * (n / policy.failureThreshold + 1)) := by
  have hpos : 0 < policy.failureThreshold := by linarith [policy.one_le_threshold]
  have hsplit := Int.emod_add_mul_ediv n policy.failureThreshold
  have hlow := Int.emod_nonneg n hpos.ne'
  have hhigh := Int.emod_lt_of_pos n hpos
  by_cases hlast : n % policy.failureThreshold + 1 = policy.failureThreshold
  · right
    have hmul : n + 1 = policy.failureThreshold * (n / policy.failureThreshold + 1) := by
      linarith [mul_add policy.failureThreshold (n / policy.failureThreshold) 1]
    refine ⟨?_, hmul⟩
    rw [hmul, Int.mul_ediv_cancel_left _ hpos.ne']
  · left
    have hrest : n + 1 = n % policy.failureThreshold + 1 +
        policy.failureThreshold * (n / policy.failureThreshold) := by linarith
    rw [hrest, Int.add_mul_ediv_left _ _ hpos.ne']
    rw [Int.ediv_eq_zero_of_lt (by omega) (by omega), zero_add]

/-- What one probe does to a state: it clears it, finds it cooling, opens a window or only
counts. -/
inductive ProbeCase (policy : CooldownPolicy) (s : ProviderCooldownState) (e : ProbeResult) :
    ProviderCooldownState → Prop
  | success (passed : e.passed = true) : ProbeCase policy s e ⟨0, 0, none, "healthy"⟩
  | cooling (failed : e.passed = false) (active : s.active e.now = true) : ProbeCase policy s e s
  | trip (failed : e.passed = false) (inactive : s.active e.now = false)
      (full : s.consecutiveFailures + 1 = policy.failureThreshold * (s.cooldownTrips + 1)) :
      ProbeCase policy s e
        ⟨s.consecutiveFailures + 1, s.cooldownTrips + 1,
          some (e.now + if s.cooldownTrips + 1 = 1 then policy.initialCooldown
            else policy.escalatedCooldown), "unhealthy"⟩
  | count (failed : e.passed = false) (inactive : s.active e.now = false)
      (partly : (s.consecutiveFailures + 1) / policy.failureThreshold = s.cooldownTrips) :
      ProbeCase policy s e ⟨s.consecutiveFailures + 1, s.cooldownTrips, none, s.healthStatus⟩

theorem cooldownState_ok {failures tripCount : Int} {until? : Option Instant} {status : String}
    (hfailures : 0 ≤ failures) (htrips : 0 ≤ tripCount) (hstatus : status ≠ "") :
    cooldownState failures tripCount until? status = .ok ⟨failures, tripCount, until?, status⟩ := by
  simp [cooldownState, not_lt.mpr hfailures, not_lt.mpr htrips, hstatus]

theorem filter_eq_none {s : ProviderCooldownState} {now : Instant} (h : s.active now = false) :
    s.cooldownUntil.filter (fun t => decide (now < t)) = none := by
  cases huntil : s.cooldownUntil with
  | none => rfl
  | some t =>
    simp only [ProviderCooldownState.active, huntil, Option.any_some] at h
    simp [Option.filter, h]

theorem probe_cases {s : ProviderCooldownState} (hs : CountedTrips policy s) (e : ProbeResult) :
    ProbeCase policy s e (probeStep policy s e) := by
  unfold probeStep applyProbeResult
  by_cases hpassed : e.passed = true
  · rw [if_pos hpassed]
    exact .success hpassed
  · have hfailed : e.passed = false := by simpa using hpassed
    rw [if_neg hpassed]
    unfold recordProviderFailure
    by_cases hactive : s.active e.now = true
    · rw [if_pos hactive]
      exact .cooling hfailed hactive
    · have hinactive : s.active e.now = false := by simpa using hactive
      have htrips := hs.trips_eq
      have hnonneg := hs.failures_nonneg
      have htripsNonneg : 0 ≤ s.cooldownTrips := by
        rw [htrips]
        exact div_nonneg_of_policy hnonneg
      rw [if_neg hactive, filter_eq_none hinactive]
      rcases succ_div policy s.consecutiveFailures with hsame | ⟨hnext, hfull⟩
      · rw [← htrips] at hsame
        dsimp only
        rw [hsame, if_neg (lt_irrefl _), cooldownState_ok (by omega) htripsNonneg hs.status_ne]
        exact .count hfailed hinactive hsame
      · rw [← htrips] at hnext hfull
        dsimp only
        rw [hnext, if_pos (by omega)]
        have hduration : cooldownDurationForTrip policy (s.cooldownTrips + 1) =
            .ok (if s.cooldownTrips + 1 = 1 then policy.initialCooldown
              else policy.escalatedCooldown) := if_neg (by omega)
        simp only [hduration, bind, Except.bind]
        rw [cooldownState_ok (by omega) (by omega) (by decide)]
        exact .trip hfailed hinactive hfull

theorem unhealthy_ne : "unhealthy" ≠ "" := by decide

theorem CountedTrips.probe {s : ProviderCooldownState} (hs : CountedTrips policy s)
    (e : ProbeResult) : CountedTrips policy (probeStep policy s e) := by
  have hpos : 0 < policy.failureThreshold := by linarith [policy.one_le_threshold]
  have hnonneg := hs.failures_nonneg
  have hcase := probe_cases hs e
  generalize probeStep policy s e = s' at hcase
  cases hcase with
  | success passed => exact ⟨le_rfl, by simp, by decide⟩
  | cooling failed active => exact hs
  | trip failed inactive full =>
    have hdiv : s.cooldownTrips + 1 = (s.consecutiveFailures + 1) / policy.failureThreshold := by
      rw [full, Int.mul_ediv_cancel_left _ hpos.ne']
    exact ⟨Int.le_add_one hnonneg, hdiv, unhealthy_ne⟩
  | count failed inactive partly =>
    exact ⟨Int.le_add_one hnonneg, partly.symm, hs.status_ne⟩

theorem CountedTrips.run {s : ProviderCooldownState} (hs : CountedTrips policy s)
    (es : List ProbeResult) : CountedTrips policy (Machine.run (probeStep policy) s es) :=
  run_preserves (fun _ e h => h.probe e) hs es

theorem fresh_run (policy : CooldownPolicy) (es : List ProbeResult) :
    CountedTrips policy (Machine.run (probeStep policy) .fresh es) := CountedTrips.fresh.run es

theorem trip_spec {s : ProviderCooldownState} (hs : CountedTrips policy s) {e : ProbeResult}
    (h : trips policy s e = true) :
    observedOutside s e = true ∧
      s.consecutiveFailures + 1 = policy.failureThreshold * (s.cooldownTrips + 1) ∧
      probeStep policy s e = ⟨s.consecutiveFailures + 1, s.cooldownTrips + 1,
        some (e.now + if s.cooldownTrips + 1 = 1 then policy.initialCooldown
          else policy.escalatedCooldown), "unhealthy"⟩ := by
  have htripsNonneg : 0 ≤ s.cooldownTrips := by
    rw [hs.trips_eq]
    exact div_nonneg_of_policy hs.failures_nonneg
  have hcase := probe_cases hs e
  unfold trips at h
  generalize probeStep policy s e = s' at hcase h
  cases hcase with
  | success passed =>
    have hlt := of_decide_eq_true h
    dsimp only at hlt
    omega
  | cooling failed active => simp at h
  | trip failed inactive full =>
    refine ⟨?_, full, rfl⟩
    simp [observedOutside, failed, inactive]
  | count failed inactive partly => simp at h

theorem trips_count {s : ProviderCooldownState} (hs : CountedTrips policy s) {e : ProbeResult}
    (hfailed : e.passed = false) :
    (probeStep policy s e).cooldownTrips = s.cooldownTrips + if trips policy s e then 1 else 0 := by
  by_cases htrip : trips policy s e = true
  · rw [(trip_spec hs htrip).2.2, if_pos htrip]
  · rw [if_neg htrip]
    have hcase := probe_cases hs e
    unfold trips at htrip
    generalize probeStep policy s e = s' at hcase htrip
    cases hcase with
    | success passed => rw [passed] at hfailed; cases hfailed
    | cooling failed active => simp
    | trip failed inactive full => simp at htrip
    | count failed inactive partly => simp

theorem failures_count {s : ProviderCooldownState} (hs : CountedTrips policy s) {e : ProbeResult}
    (hfailed : e.passed = false) :
    (probeStep policy s e).consecutiveFailures =
      s.consecutiveFailures + if observedOutside s e then 1 else 0 := by
  have hcase := probe_cases hs e
  generalize probeStep policy s e = s' at hcase
  cases hcase with
  | success passed => rw [passed] at hfailed; cases hfailed
  | cooling failed active => simp [observedOutside, active]
  | trip failed inactive full => simp [observedOutside, failed, inactive]
  | count failed inactive partly => simp [observedOutside, failed, inactive]

theorem window_kept {s : ProviderCooldownState} {e : ProbeResult} {t : Instant}
    (hs : CountedTrips policy s) (huntil : s.cooldownUntil = some t)
    (hchanged : (probeStep policy s e).cooldownUntil ≠ some t) :
    e.passed = true ∨ t ≤ e.now := by
  have hcase := probe_cases hs e
  have hpassed : s.active e.now = false → t ≤ e.now := by
    intro hinactive
    simpa [ProviderCooldownState.active, huntil] using hinactive
  generalize probeStep policy s e = s' at hcase hchanged
  cases hcase with
  | success passed => exact .inl passed
  | cooling failed active => exact absurd huntil hchanged
  | trip failed inactive full => exact .inr (hpassed inactive)
  | count failed inactive partly => exact .inr (hpassed inactive)

def EndsFresh (es : List ProbeResult) : Prop :=
  es = [] ∨ ∃ before e, es = before ++ [e] ∧ e.passed = true

theorem trips_eq_zero_of_endsFresh {es : List ProbeResult} (h : EndsFresh es) :
    (Machine.run (probeStep policy) .fresh es).cooldownTrips = 0 := by
  rcases h with rfl | ⟨before, e, rfl, hpassed⟩
  · rfl
  · rw [run_append, run_cons, run_nil]
    simp [probeStep, applyProbeResult, hpassed, recordProviderSuccess, cooldownState]

theorem trips_since_success (policy : CooldownPolicy) {before after : List ProbeResult} (hbefore : EndsFresh before)
    (hafter : ∀ e ∈ after, e.passed = false) :
    (Machine.run (probeStep policy) .fresh (before ++ after)).cooldownTrips =
      tally (probeStep policy) (trips policy) (Machine.run (probeStep policy) .fresh before)
        after := by
  have hcounts := run_counts (f := ProviderCooldownState.cooldownTrips) (p := trips policy)
    (P := fun _ e => e.passed = false) (I := CountedTrips policy)
    (fun _ e h _ => h.probe e) (fun _ _ h hfailed => trips_count h hfailed)
    (fresh_run policy before) (along_of_mem _ hafter)
  rw [run_append, hcounts, trips_eq_zero_of_endsFresh hbefore, zero_add]

theorem failures_between_trips {before mid : List ProbeResult} {e₁ e₂ : ProbeResult}
    (hmid : ∀ e ∈ mid, e.passed = false)
    (hfirst : trips policy (Machine.run (probeStep policy) .fresh before) e₁ = true)
    (hnone : tally (probeStep policy) (trips policy)
      (Machine.run (probeStep policy) .fresh (before ++ [e₁])) mid = 0)
    (hsecond : trips policy (Machine.run (probeStep policy) .fresh (before ++ e₁ :: mid)) e₂ =
      true) :
    (tally (probeStep policy) observedOutside
      (Machine.run (probeStep policy) .fresh (before ++ [e₁])) (mid ++ [e₂]) : Int) =
        policy.failureThreshold := by
  have happend : before ++ e₁ :: mid = (before ++ [e₁]) ++ mid := by simp
  have hstate : Machine.run (probeStep policy) .fresh (before ++ [e₁]) =
      probeStep policy (Machine.run (probeStep policy) .fresh before) e₁ := by
    rw [run_append, run_cons, run_nil]
  obtain ⟨-, hfull₁, hnext⟩ := trip_spec (fresh_run policy before) hfirst
  rw [happend, run_append] at hsecond
  generalize hopened : Machine.run (probeStep policy) .fresh (before ++ [e₁]) = opened at *
  have hs : CountedTrips policy opened := hopened ▸ fresh_run policy _
  have hgroup : opened.consecutiveFailures = policy.failureThreshold * opened.cooldownTrips := by
    rw [hstate, hnext]
    exact hfull₁
  have htripsMid := run_counts (f := ProviderCooldownState.cooldownTrips) (p := trips policy)
    (P := fun _ e => e.passed = false) (I := CountedTrips policy)
    (fun _ e h _ => h.probe e) (fun _ _ h hfailed => trips_count h hfailed)
    hs (along_of_mem _ hmid)
  have hfailuresMid := run_counts (f := ProviderCooldownState.consecutiveFailures)
    (p := observedOutside) (P := fun _ e => e.passed = false) (I := CountedTrips policy)
    (fun _ e h _ => h.probe e) (fun _ _ h hfailed => failures_count h hfailed)
    hs (along_of_mem _ hmid)
  obtain ⟨houtside, hfull₂, -⟩ := trip_spec (hs.run mid) hsecond
  rw [htripsMid, hfailuresMid, hnone, hgroup] at hfull₂
  rw [tally_append]
  simp only [tally, houtside, if_true]
  push_cast at hfull₂ ⊢
  linarith [mul_add policy.failureThreshold opened.cooldownTrips 1]

/-- What holds of the run of probes `es` of a fresh provider. -/
structure CooldownRun (policy : CooldownPolicy) (es : List ProbeResult) : Prop where
  trips_eq : (Machine.run (probeStep policy) .fresh es).cooldownTrips =
    (Machine.run (probeStep policy) .fresh es).consecutiveFailures / policy.failureThreshold
  frozen : ∀ e, e.passed = false →
    (Machine.run (probeStep policy) .fresh es).active e.now = true →
      probeStep policy (Machine.run (probeStep policy) .fresh es) e =
        Machine.run (probeStep policy) .fresh es
  /-- A window goes by a success, or by a probe at or after its end. -/
  kept : ∀ e t, (Machine.run (probeStep policy) .fresh es).cooldownUntil = some t →
    (probeStep policy (Machine.run (probeStep policy) .fresh es) e).cooldownUntil ≠ some t →
      e.passed = true ∨ t ≤ e.now
  duration : ∀ before after e, es = before ++ after → EndsFresh before →
    (∀ a ∈ after, a.passed = false) →
    trips policy (Machine.run (probeStep policy) .fresh es) e = true →
      (probeStep policy (Machine.run (probeStep policy) .fresh es) e).cooldownUntil =
        some (e.now +
          if tally (probeStep policy) (trips policy)
            (Machine.run (probeStep policy) .fresh before) (after ++ [e]) = 1
          then policy.initialCooldown else policy.escalatedCooldown)
  spacing : ∀ before e₁ mid e₂, es = before ++ e₁ :: mid →
    (∀ e ∈ mid, e.passed = false) →
    trips policy (Machine.run (probeStep policy) .fresh before) e₁ = true →
    tally (probeStep policy) (trips policy)
      (Machine.run (probeStep policy) .fresh (before ++ [e₁])) mid = 0 →
    trips policy (Machine.run (probeStep policy) .fresh es) e₂ = true →
      (tally (probeStep policy) observedOutside
        (Machine.run (probeStep policy) .fresh (before ++ [e₁])) (mid ++ [e₂]) : Int) =
          policy.failureThreshold

theorem cooldown_run (policy : CooldownPolicy) (es : List ProbeResult) :
    CooldownRun policy es where
  trips_eq := (fresh_run policy es).trips_eq
  frozen := by
    intro e hfailed hactive
    have hcase := probe_cases (fresh_run policy es) e
    generalize probeStep policy _ e = s' at hcase ⊢
    cases hcase with
    | success passed => rw [passed] at hfailed; cases hfailed
    | cooling failed active => rfl
    | trip failed inactive full => rw [inactive] at hactive; cases hactive
    | count failed inactive partly => rw [inactive] at hactive; cases hactive
  kept := fun _ _ huntil hchanged => window_kept (fresh_run policy es) huntil hchanged
  duration := by
    rintro before after e rfl hbefore hafter htrip
    have hcount := trips_since_success policy hbefore hafter
    have hnext := (trip_spec (fresh_run policy _) htrip).2.2
    rw [hnext, tally_append, ← run_append]
    simp only [tally, htrip, if_true]
    rw [hcount]
    have hone : (tally (probeStep policy) (trips policy)
          (Machine.run (probeStep policy) .fresh before) after : Int) + 1 = 1 ↔
        tally (probeStep policy) (trips policy)
          (Machine.run (probeStep policy) .fresh before) after + (1 + 0) = 1 := by omega
    simp only [hone]
  spacing := by
    rintro before e₁ mid e₂ rfl hmid hfirst hnone hsecond
    exact failures_between_trips hmid hfirst hnone hsecond

def interruptedProbes : List ProbeResult :=
  [⟨false, 0⟩, ⟨false, 0⟩, ⟨false, 0⟩, ⟨false, 10 * microsPerMinute⟩,
    ⟨true, 11 * microsPerMinute⟩, ⟨false, 12 * microsPerMinute⟩, ⟨false, 12 * microsPerMinute⟩]

/-- With a success between two windows, four failures lie between them. -/
theorem cooldown_run_interrupted :
    (let before := interruptedProbes.take 2
     let e₁ := ⟨false, 0⟩
     let mid := interruptedProbes.drop 3
     let e₂ := ⟨false, 12 * microsPerMinute⟩
     trips .default (Machine.run (probeStep .default) .fresh before) e₁ = true ∧
      tally (probeStep .default) (trips .default)
        (Machine.run (probeStep .default) .fresh (before ++ [e₁])) mid = 0 ∧
      trips .default (Machine.run (probeStep .default) .fresh (before ++ e₁ :: mid)) e₂ = true ∧
      (tally (probeStep .default) observedOutside
        (Machine.run (probeStep .default) .fresh (before ++ [e₁])) (mid ++ [e₂]) : Int) = 4 ∧
      CooldownPolicy.default.failureThreshold = 3) := by decide +kernel

end Runs

end Pitwall.Routing
