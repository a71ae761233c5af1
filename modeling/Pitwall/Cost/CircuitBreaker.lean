import Mathlib.Tactic.Linarith
import Pitwall.Core.Clock
import Pitwall.Core.Decimals
import Pitwall.Library.Machine
set_option autoImplicit false

/-!
The budget circuit breaker, over runs of `evaluate`. Amounts are finite decimals; elapsed
seconds are exact.
-/

namespace Pitwall
open Machine

inductive CircuitBreakerState where
  | closed | opened | halfOpen
  deriving DecidableEq

inductive BreakerAction where
  | allow | downgrade | block
  deriving DecidableEq

structure CircuitBreakerDecision where
  action : BreakerAction
  reason : String
  state : CircuitBreakerState
  headroomUsd : ℚ
  headroomPct : ℚ
  runwayHours : Option ℚ

/-- The configurable fields of a `BudgetCircuitBreaker`. -/
structure BreakerConfig where
  headroomTripPct : ℚ
  runwayTripHours : ℚ
  recoveryHeadroomPct : ℚ
  recoveryRunwayHours : ℚ
  downgradeHeadroomPct : ℚ
  cooldownSeconds : PyFloat

def BreakerConfig.default : BreakerConfig := ⟨10, 24, 20, 72, 5, .finite 300⟩

structure BudgetCircuitBreaker where
  state : CircuitBreakerState
  lastTripAt : Option Instant
  deriving DecidableEq

def BudgetCircuitBreaker.fresh : BudgetCircuitBreaker := ⟨.closed, none⟩

/-- The arguments of `evaluate`; a `now` without a timezone is `none`. -/
structure Evaluation where
  budgetUsd : ℚ
  mtdSpendUsd : ℚ
  now : Option Instant
  burnRateUsdPerHour : Option ℚ

structure BudgetSignals where
  headroomPct : ℚ
  runwayHours : Option ℚ

section Step
variable (config : BreakerConfig)

/-- `(later - earlier).total_seconds() >= self.cooldown_seconds`. -/
def BreakerConfig.cooledDown (earlier later : Instant) : Bool :=
  match config.cooldownSeconds with
  | .finite seconds => decide (seconds ≤ ((later - earlier : Int) : ℚ) / 1000000)
  | .infinite negative => negative
  | .nan => false

/-- `_should_trip`. -/
def BreakerConfig.shouldTrip (x : BudgetSignals) : Bool :=
  decide (x.headroomPct ≤ config.headroomTripPct) ||
    x.runwayHours.any fun runway => decide (runway ≤ config.runwayTripHours)

/-- `_should_recover`. -/
def BreakerConfig.shouldRecover (x : BudgetSignals) : Bool :=
  decide (config.recoveryHeadroomPct ≤ x.headroomPct) &&
    x.runwayHours.all fun runway => decide (config.recoveryRunwayHours ≤ runway)

/-- `_action_for_stress`. -/
def BreakerConfig.actionForStress (x : BudgetSignals) : BreakerAction × String :=
  if x.headroomPct ≤ config.downgradeHeadroomPct then (.block, "budget exhausted")
  else if x.runwayHours.any fun runway => decide (runway ≤ config.runwayTripHours) then
    (.downgrade, "burn rate critical")
  else (.downgrade, "headroom low")

/-- `_transition`. -/
def BreakerConfig.transition (b : BudgetCircuitBreaker) (x : BudgetSignals) (now : Instant) :
    CircuitBreakerState × BreakerAction × String :=
  match b.state with
  | .closed =>
      if config.shouldTrip x then (.opened, config.actionForStress x)
      else (.closed, .allow, "budget healthy")
  | .opened =>
      match b.lastTripAt with
      | none => (.opened, config.actionForStress x)
      | some lastTripAt =>
          if config.cooledDown lastTripAt now then
            if config.shouldRecover x then (.closed, .allow, "budget recovered")
            else (.halfOpen, config.actionForStress x)
          else (.opened, config.actionForStress x)
  | .halfOpen =>
      if config.shouldRecover x then (.closed, .allow, "budget recovered")
      else (.opened, config.actionForStress x)

def BudgetCircuitBreaker.moved (b : BudgetCircuitBreaker) (state : CircuitBreakerState)
    (now : Instant) : BudgetCircuitBreaker :=
  match state with
  | .opened =>
      ⟨.opened, if b.lastTripAt = none ∨ b.state = .halfOpen then some now else b.lastTripAt⟩
  | .closed => ⟨.closed, none⟩
  | .halfOpen => ⟨.halfOpen, b.lastTripAt⟩

def Evaluation.signals (e : Evaluation) : Except PyError (ℚ × BudgetSignals) := do
  let difference ← contextual (e.budgetUsd - e.mtdSpendUsd)
  let headroomUsd := if difference < 0 then 0 else difference
  let headroomPct ←
    if 0 < e.budgetUsd then do
      let share ← contextual (headroomUsd / e.budgetUsd)
      contextual (share * 100)
    else pure 0
  let runwayHours ←
    match e.burnRateUsdPerHour with
    | some burnRate =>
        if 0 < burnRate then some <$> contextual (headroomUsd / burnRate) else pure none
    | none => pure none
  pure (headroomUsd, ⟨headroomPct, runwayHours⟩)

/-- `evaluate`. -/
def BreakerConfig.evaluate (b : BudgetCircuitBreaker) (e : Evaluation) :
    Except PyError (CircuitBreakerDecision × BudgetCircuitBreaker) :=
  match e.now with
  | none => .error ⟨"ValueError", "now must include timezone information"⟩
  | some now => do
      let (headroomUsd, x) ← e.signals
      let (state, action, reason) := config.transition b x now
      pure (⟨action, reason, state, headroomUsd, x.headroomPct, x.runwayHours⟩, b.moved state now)

def breakerStep (b : BudgetCircuitBreaker) (e : Evaluation) : BudgetCircuitBreaker :=
  match config.evaluate b e with
  | .ok (_, next) => next
  | .error _ => b

def BreakerConfig.decision (b : BudgetCircuitBreaker) (e : Evaluation) :
    Option CircuitBreakerDecision :=
  match config.evaluate b e with
  | .ok (decision, _) => some decision
  | .error _ => none

end Step

/-- The trip thresholds lie below the recovery thresholds, and the downgrade threshold is at
most the one at which headroom trips. -/
structure BreakerConfig.Hysteresis (config : BreakerConfig) : Prop where
  headroom : config.headroomTripPct < config.recoveryHeadroomPct
  runway : config.runwayTripHours < config.recoveryRunwayHours
  downgrade : config.downgradeHeadroomPct ≤ config.headroomTripPct

theorem BreakerConfig.default_hysteresis : BreakerConfig.default.Hysteresis :=
  ⟨by decide +kernel, by decide +kernel, by decide +kernel⟩

variable {config : BreakerConfig} {b : BudgetCircuitBreaker}

theorem BreakerConfig.actionForStress_ne_allow (x : BudgetSignals) :
    (config.actionForStress x).1 ≠ .allow := by
  unfold actionForStress
  split
  · simp
  · split <;> simp

theorem BreakerConfig.actionForStress_eq_block (x : BudgetSignals) :
    (config.actionForStress x).1 = .block ↔ x.headroomPct ≤ config.downgradeHeadroomPct := by
  unfold actionForStress
  split
  · rename_i hlow
    simp [hlow]
  · rename_i hhigh
    split <;> simp [hhigh]

inductive TransitionCase (config : BreakerConfig) (b : BudgetCircuitBreaker) (x : BudgetSignals)
    (now : Instant) : CircuitBreakerState → BreakerAction → Prop
  | healthy (closed : b.state = .closed) (calm : config.shouldTrip x = false) :
      TransitionCase config b x now .closed .allow
  | trip (closed : b.state = .closed) :
      TransitionCase config b x now .opened (config.actionForStress x).1
  | wait (opened : b.state = .opened)
      (cooling : ∀ t, b.lastTripAt = some t → config.cooledDown t now = false) :
      TransitionCase config b x now .opened (config.actionForStress x).1
  | probe (opened : b.state = .opened) (t : Instant) (tripped : b.lastTripAt = some t)
      (cooled : config.cooledDown t now = true) :
      TransitionCase config b x now .halfOpen (config.actionForStress x).1
  | recover (notClosed : b.state ≠ .closed) (recovered : config.shouldRecover x = true)
      (cooled : b.state = .opened → ∃ t, b.lastTripAt = some t ∧ config.cooledDown t now = true) :
      TransitionCase config b x now .closed .allow
  | retrip (halfOpen : b.state = .halfOpen) :
      TransitionCase config b x now .opened (config.actionForStress x).1

theorem transition_cases (x : BudgetSignals) (now : Instant) :
    TransitionCase config b x now (config.transition b x now).1
      (config.transition b x now).2.1 := by
  unfold BreakerConfig.transition
  cases hstate : b.state with
  | closed =>
    dsimp only
    by_cases htrip : config.shouldTrip x = true
    · rw [if_pos htrip]
      exact .trip hstate
    · rw [if_neg htrip]
      exact .healthy hstate (by simpa using htrip)
  | opened =>
    dsimp only
    cases hlast : b.lastTripAt with
    | none => exact .wait hstate (by simp [hlast])
    | some t =>
      dsimp only
      by_cases hcooled : config.cooledDown t now = true
      · rw [if_pos hcooled]
        by_cases hrecover : config.shouldRecover x = true
        · rw [if_pos hrecover]
          exact .recover (by simp [hstate]) hrecover (fun _ => ⟨t, hlast, hcooled⟩)
        · rw [if_neg hrecover]
          exact .probe hstate t hlast hcooled
      · rw [if_neg hcooled]
        refine .wait hstate (fun u hu => ?_)
        rw [hlast] at hu
        cases hu
        simpa using hcooled
  | halfOpen =>
    dsimp only
    by_cases hrecover : config.shouldRecover x = true
    · rw [if_pos hrecover]
      exact .recover (by simp [hstate]) hrecover (fun h => by rw [hstate] at h; cases h)
    · rw [if_neg hrecover]
      exact .retrip hstate

/-- `allow` comes from a calm closed breaker or from a recovery. -/
theorem TransitionCase.of_allow {x : BudgetSignals} {now : Instant} {state : CircuitBreakerState}
    {action : BreakerAction} (h : TransitionCase config b x now state action)
    (hallow : action = .allow) :
    (b.state = .closed ∧ config.shouldTrip x = false) ∨
      (config.shouldRecover x = true ∧
        (b.state = .opened → ∃ t, b.lastTripAt = some t ∧ config.cooledDown t now = true)) := by
  have hstress := config.actionForStress_ne_allow x
  cases h with
  | healthy closed calm => exact .inl ⟨closed, calm⟩
  | recover notClosed recovered cooled => exact .inr ⟨recovered, cooled⟩
  | trip closed => exact absurd hallow hstress
  | wait opened cooling => exact absurd hallow hstress
  | probe opened t tripped cooled => exact absurd hallow hstress
  | retrip halfOpen => exact absurd hallow hstress

theorem TransitionCase.stress_of_ne_allow {x : BudgetSignals} {now : Instant}
    {state : CircuitBreakerState} {action : BreakerAction}
    (h : TransitionCase config b x now state action) (hne : action ≠ .allow) :
    action = (config.actionForStress x).1 := by
  cases h with
  | healthy closed calm => exact absurd rfl hne
  | recover notClosed recovered cooled => exact absurd rfl hne
  | trip closed => rfl
  | wait opened cooling => rfl
  | probe opened t tripped cooled => rfl
  | retrip halfOpen => rfl

theorem decision_some {e : Evaluation} {d : CircuitBreakerDecision}
    (h : config.decision b e = some d) :
    ∃ now x, e.now = some now ∧ d.headroomPct = x.headroomPct ∧ d.runwayHours = x.runwayHours ∧
      TransitionCase config b x now d.state d.action ∧
      breakerStep config b e = b.moved d.state now := by
  unfold BreakerConfig.decision breakerStep BreakerConfig.evaluate at *
  cases hnow : e.now with
  | none => simp [hnow] at h
  | some now =>
    cases hsignals : e.signals with
    | error err => simp [hnow, hsignals, bind, Except.bind] at h
    | ok r =>
      obtain ⟨headroomUsd, x⟩ := r
      simp only [hnow, hsignals, bind, Except.bind, pure, Except.pure, Option.some.injEq] at h ⊢
      refine ⟨now, x, rfl, ?_, ?_, ?_, ?_⟩
      · rw [← h]
      · rw [← h]
      · rw [← h]
        exact transition_cases x now
      · rw [← h]

theorem step_of_decision_none {e : Evaluation} (h : config.decision b e = none) :
    breakerStep config b e = b := by
  unfold BreakerConfig.decision at h
  unfold breakerStep
  cases heval : config.evaluate b e with
  | error err => rfl
  | ok r => simp [heval] at h

def Timed (b : BudgetCircuitBreaker) : Prop := b.lastTripAt = none ↔ b.state = .closed

theorem timed_step (h : Timed b) (e : Evaluation) : Timed (breakerStep config b e) := by
  cases hd : config.decision b e with
  | none =>
    rw [step_of_decision_none hd]
    exact h
  | some d =>
    obtain ⟨now, x, -, -, -, hcase, hstep⟩ := decision_some hd
    rw [hstep]
    generalize d.state = state at hcase ⊢
    generalize d.action = action at hcase
    unfold Timed at h ⊢
    cases state with
    | closed => simp [BudgetCircuitBreaker.moved]
    | opened =>
      unfold BudgetCircuitBreaker.moved
      dsimp only
      split
      · simp
      · rename_i hnot
        rw [not_or] at hnot
        simp [hnot.1]
    | halfOpen =>
      cases hcase with
      | probe opened t tripped cooled => simp [BudgetCircuitBreaker.moved, tripped]

theorem timed_run (es : List Evaluation) : Timed (run (breakerStep config) .fresh es) :=
  run_preserves (I := Timed) (fun _ e h => timed_step h e)
    (by simp [Timed, BudgetCircuitBreaker.fresh]) es

/-- The evaluation takes a breaker that is not open into `open`, at `t`. -/
def TripsAt (config : BreakerConfig) (b : BudgetCircuitBreaker) (e : Evaluation) (t : Instant) :
    Prop :=
  b.state ≠ .opened ∧ (breakerStep config b e).state = .opened ∧ e.now = some t

def NonDecreasing (es : List Evaluation) : Prop :=
  es.Pairwise fun e e' => ∀ t u, e.now = some t → e'.now = some u → t ≤ u

theorem BreakerConfig.cooledDown_mono {t t' u u' : Instant} (ht : t ≤ t') (hu : u ≤ u')
    (h : config.cooledDown t' u = true) : config.cooledDown t u' = true := by
  unfold cooledDown at h ⊢
  cases hc : config.cooldownSeconds with
  | finite seconds =>
    rw [hc] at h
    simp only [decide_eq_true_eq] at h ⊢
    have hle : (u - t' : Int) ≤ u' - t := sub_le_sub hu ht
    have hspan : ((u - t' : Int) : ℚ) ≤ ((u' - t : Int) : ℚ) := by exact_mod_cast hle
    linarith
  | infinite negative =>
    rw [hc] at h
    exact h
  | nan =>
    rw [hc] at h
    exact h

/-- After a trip at `t`, when no timestamp from now on lies before `latest`: the breaker
counts from `t` or later, or the cooldown after `t` has passed. -/
inductive SinceTrip (config : BreakerConfig) (t latest : Instant) (b : BudgetCircuitBreaker) :
    Prop
  | waiting (opened : b.state = .opened) (u : Instant) (tripped : b.lastTripAt = some u)
      (later : t ≤ u) : SinceTrip config t latest b
  | passed (cooled : config.cooledDown t latest = true) : SinceTrip config t latest b

theorem sinceTrip_step {t latest : Instant} (h : SinceTrip config t latest b) {e : Evaluation}
    (hnow : ∀ u, e.now = some u → latest ≤ u) :
    SinceTrip config t (e.now.getD latest) (breakerStep config b e) := by
  cases h with
  | passed cooled =>
    refine .passed ?_
    cases he : e.now with
    | none => exact cooled
    | some u => exact config.cooledDown_mono le_rfl (hnow u he) cooled
  | waiting opened u tripped later =>
    cases hd : config.decision b e with
    | none =>
      rw [step_of_decision_none hd]
      exact .waiting opened u tripped later
    | some d =>
      obtain ⟨now, x, henow, -, -, hcase, hstep⟩ := decision_some hd
      rw [hstep, henow, Option.getD_some]
      generalize d.state = state at hcase ⊢
      generalize d.action = action at hcase
      cases hcase with
      | healthy closed calm => rw [opened] at closed; cases closed
      | trip closed => rw [opened] at closed; cases closed
      | wait _ cooling =>
        refine .waiting rfl u ?_ later
        simp [BudgetCircuitBreaker.moved, tripped, opened]
      | probe _ v tripped' cooled =>
        rw [tripped] at tripped'
        cases tripped'
        exact .passed (config.cooledDown_mono later le_rfl cooled)
      | recover notClosed recovered cooled =>
        obtain ⟨v, tripped', hcooled⟩ := cooled opened
        rw [tripped] at tripped'
        cases tripped'
        exact .passed (config.cooledDown_mono later le_rfl hcooled)
      | retrip halfOpen => rw [opened] at halfOpen; cases halfOpen

theorem sinceTrip_run {t latest : Instant} {es : List Evaluation}
    (h : SinceTrip config t latest b) (hlatest : ∀ e ∈ es, ∀ u, e.now = some u → latest ≤ u)
    (hes : NonDecreasing es) :
    ∃ latest', SinceTrip config t latest' (run (breakerStep config) b es) ∧
      ∀ v, latest ≤ v → (∀ e ∈ es, ∀ u, e.now = some u → u ≤ v) → latest' ≤ v := by
  induction es generalizing b latest with
  | nil => exact ⟨latest, h, fun v hv _ => hv⟩
  | cons e es ih =>
    have hstep := sinceTrip_step h (hlatest e (by simp))
    rw [NonDecreasing, List.pairwise_cons] at hes
    have hrest : ∀ e' ∈ es, ∀ u, e'.now = some u → e.now.getD latest ≤ u := by
      intro e' he' u hu
      cases he : e.now with
      | none => exact hlatest e' (by simp [he']) u hu
      | some v => exact hes.1 e' he' v u he hu
    obtain ⟨latest', hsince, hbound⟩ := ih hstep hrest hes.2
    refine ⟨latest', hsince, fun v hv hall => hbound v ?_ (fun e' he' => hall e' (by simp [he']))⟩
    cases he : e.now with
    | none => exact hv
    | some w => exact hall e (by simp) w he

theorem sinceTrip_of_tripsAt {e : Evaluation} {t : Instant} (hb : Timed b)
    (h : TripsAt config b e t) : SinceTrip config t t (breakerStep config b e) := by
  obtain ⟨hnot, hopened, hnow⟩ := h
  cases hd : config.decision b e with
  | none =>
    rw [step_of_decision_none hd] at hopened
    exact absurd hopened hnot
  | some d =>
    obtain ⟨now, x, henow, -, -, hcase, hstep⟩ := decision_some hd
    rw [henow] at hnow
    cases hnow
    have hfresh : b.lastTripAt = none ∨ b.state = .halfOpen := by
      cases hstate : b.state with
      | closed => exact .inl (hb.mpr hstate)
      | opened => exact absurd hstate hnot
      | halfOpen => exact .inr rfl
    rw [hstep] at hopened ⊢
    generalize d.state = state at hopened
    cases state with
    | opened =>
      refine .waiting rfl t ?_ le_rfl
      simp [BudgetCircuitBreaker.moved, hfresh]
    | closed => cases hopened
    | halfOpen => cases hopened

theorem cooledDown_of_allow {t latest u : Instant} (h : SinceTrip config t latest b)
    {e : Evaluation} {d : CircuitBreakerDecision} (hnow : e.now = some u) (hlatest : latest ≤ u)
    (hd : config.decision b e = some d) (hallow : d.action = .allow) :
    config.cooledDown t u = true := by
  cases h with
  | passed cooled => exact config.cooledDown_mono le_rfl hlatest cooled
  | waiting opened v tripped later =>
    obtain ⟨now, x, henow, -, -, hcase, -⟩ := decision_some hd
    rw [hnow] at henow
    cases henow
    rcases hcase.of_allow hallow with ⟨hclosed, -⟩ | ⟨-, hcooled⟩
    · rw [opened] at hclosed
      cases hclosed
    · obtain ⟨w, tripped', hcooled⟩ := hcooled opened
      rw [tripped] at tripped'
      cases tripped'
      exact config.cooledDown_mono later le_rfl hcooled

/-- What holds of the run `es` of a fresh breaker. -/
structure BreakerRun (config : BreakerConfig) (es : List Evaluation) : Prop where
  allow : ∀ e d, config.decision (run (breakerStep config) .fresh es) e = some d →
    d.action = .allow → config.headroomTripPct < d.headroomPct ∧
      ∀ runway ∈ d.runwayHours, config.runwayTripHours < runway
  /-- No evaluation before the end of the cooldown after a trip at `t` answers `allow`. -/
  cooldown : ∀ before e mid t e' u d, es = before ++ e :: mid →
    TripsAt config (run (breakerStep config) .fresh before) e t →
    NonDecreasing (es ++ [e']) → e'.now = some u → config.cooledDown t u = false →
    config.decision (run (breakerStep config) .fresh es) e' = some d → d.action ≠ .allow
  recovery : ∀ e, (run (breakerStep config) .fresh es).state ≠ .closed →
    (breakerStep config (run (breakerStep config) .fresh es) e).state = .closed →
    ∃ d, config.decision (run (breakerStep config) .fresh es) e = some d ∧
      config.recoveryHeadroomPct ≤ d.headroomPct ∧
        ∀ runway ∈ d.runwayHours, config.recoveryRunwayHours ≤ runway
  tripTime : (run (breakerStep config) .fresh es).lastTripAt = none ↔
    (run (breakerStep config) .fresh es).state = .closed
  block : ∀ e d, config.decision (run (breakerStep config) .fresh es) e = some d →
    (d.action = .block ↔ d.action ≠ .allow ∧ d.headroomPct ≤ config.downgradeHeadroomPct)

theorem shouldTrip_eq_false {x : BudgetSignals} (h : config.shouldTrip x = false) :
    config.headroomTripPct < x.headroomPct ∧
      ∀ runway ∈ x.runwayHours, config.runwayTripHours < runway := by
  simp only [BreakerConfig.shouldTrip, Bool.or_eq_false_iff, decide_eq_false_iff_not, not_le] at h
  refine ⟨h.1, fun runway hrunway => ?_⟩
  have hany := h.2
  rw [Option.mem_def.mp hrunway] at hany
  simpa using hany

theorem shouldRecover_eq_true {x : BudgetSignals} (h : config.shouldRecover x = true) :
    config.recoveryHeadroomPct ≤ x.headroomPct ∧
      ∀ runway ∈ x.runwayHours, config.recoveryRunwayHours ≤ runway := by
  simp only [BreakerConfig.shouldRecover, Bool.and_eq_true, decide_eq_true_eq] at h
  refine ⟨h.1, fun runway hrunway => ?_⟩
  have hall := h.2
  rw [Option.mem_def.mp hrunway] at hall
  simpa using hall

/-- `allow` from any state means that nothing is at a trip threshold. -/
theorem above_of_allow (h : config.Hysteresis) {e : Evaluation} {d : CircuitBreakerDecision}
    (hd : config.decision b e = some d) (hallow : d.action = .allow) :
    config.headroomTripPct < d.headroomPct ∧
      ∀ runway ∈ d.runwayHours, config.runwayTripHours < runway := by
  obtain ⟨now, x, -, hheadroom, hrunway, hcase, -⟩ := decision_some hd
  rw [hheadroom, hrunway]
  rcases hcase.of_allow hallow with ⟨-, hcalm⟩ | ⟨hrecovered, -⟩
  · exact shouldTrip_eq_false hcalm
  · obtain ⟨hup, hrunways⟩ := shouldRecover_eq_true hrecovered
    exact ⟨h.headroom.trans_le hup, fun r hr => h.runway.trans_le (hrunways r hr)⟩

theorem recovers_of_closed {e : Evaluation} (hopen : b.state ≠ .closed)
    (hclosed : (breakerStep config b e).state = .closed) :
    ∃ d, config.decision b e = some d ∧ config.recoveryHeadroomPct ≤ d.headroomPct ∧
      ∀ runway ∈ d.runwayHours, config.recoveryRunwayHours ≤ runway := by
  cases hd : config.decision b e with
  | none =>
    rw [step_of_decision_none hd] at hclosed
    exact absurd hclosed hopen
  | some d =>
    obtain ⟨now, x, -, hheadroom, hrunway, hcase, hstep⟩ := decision_some hd
    refine ⟨d, rfl, ?_⟩
    rw [hheadroom, hrunway]
    rw [hstep] at hclosed
    generalize d.action = action at hcase
    generalize d.state = state at hcase hclosed
    cases hcase with
    | healthy closed calm => exact absurd closed hopen
    | recover notClosed recovered cooled => exact shouldRecover_eq_true recovered
    | trip closed => cases hclosed
    | wait opened cooling => cases hclosed
    | probe opened w tripped cooled => cases hclosed
    | retrip halfOpen => cases hclosed

theorem block_iff {e : Evaluation} {d : CircuitBreakerDecision}
    (hd : config.decision b e = some d) :
    d.action = .block ↔ d.action ≠ .allow ∧ d.headroomPct ≤ config.downgradeHeadroomPct := by
  obtain ⟨now, x, -, hheadroom, -, hcase, -⟩ := decision_some hd
  by_cases hallow : d.action = .allow
  · simp [hallow]
  · rw [hheadroom, ← config.actionForStress_eq_block x]
    have hstress := hcase.stress_of_ne_allow hallow
    rw [hstress]
    simp [config.actionForStress_ne_allow x]

theorem breaker_run (config : BreakerConfig) (h : config.Hysteresis) (es : List Evaluation) :
    BreakerRun config es where
  allow := fun _ _ hd hallow => above_of_allow h hd hallow
  cooldown := by
    rintro before e mid t e' u d rfl htrip hmono hnow hcooling hd hallow
    have hsince := sinceTrip_of_tripsAt (timed_run before) htrip
    rw [NonDecreasing, List.append_assoc, List.pairwise_append] at hmono
    have htail := hmono.2.1
    rw [List.cons_append, List.pairwise_cons] at htail
    have hlatest : ∀ a ∈ mid, ∀ v, a.now = some v → t ≤ v := fun a ha v hv =>
      htail.1 a (by simp [ha]) t v htrip.2.2 hv
    obtain ⟨latest, hlast, hbound⟩ := sinceTrip_run hsince hlatest (List.pairwise_append.mp htail.2).1
    have hu : latest ≤ u := by
      refine hbound u (htail.1 e' (by simp) t u htrip.2.2 hnow) (fun a ha v hv => ?_)
      exact (List.pairwise_append.mp htail.2).2.2 a ha e' (by simp) v u hv hnow
    rw [run_append, run_cons] at hd
    have hcooled := cooledDown_of_allow hlast hnow hu hd hallow
    rw [hcooled] at hcooling
    cases hcooling
  recovery := fun _ hopen hclosed => recovers_of_closed hopen hclosed
  tripTime := timed_run es
  block := fun _ _ hd => block_iff hd

/-- Spend at 95 percent of the budget, then at half of it before the cooldown is over. -/
def earlyRecovery : List Evaluation :=
  [⟨100, 95, some 0, none⟩, ⟨100, 50, some (2 * microsPerMinute), none⟩]

theorem breaker_run_default : BreakerRun .default earlyRecovery ∧
    ((BreakerConfig.default.decision (run (breakerStep .default) .fresh earlyRecovery)
      ⟨100, 50, some (3 * microsPerMinute), none⟩).map CircuitBreakerDecision.action =
        some .downgrade) :=
  ⟨breaker_run .default BreakerConfig.default_hysteresis earlyRecovery, by decide +kernel⟩

end Pitwall
