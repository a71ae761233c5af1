import Pitwall.Cost.CircuitBreaker
import Pitwall.Library.Numeric
import Pitwall.Library.Sorting
set_option autoImplicit false

/-!
The cost SLO governor, in exact arithmetic, as the join of what its three signals call for.
-/

namespace Pitwall

inductive PacingAction where
  | allow | throttle | defer
  deriving DecidableEq

/-- A `CostSLO` that passes its own validation. -/
structure CostSLO where
  perDayTargetUsd : ℚ
  perRequestP95Usd : Option ℚ
  throttleThreshold : ℚ
  deferThreshold : ℚ
  perDayTargetUsd_pos : 0 < perDayTargetUsd
  perRequestP95Usd_pos : ∀ target ∈ perRequestP95Usd, 0 < target
  throttle_lt_defer : throttleThreshold < deferThreshold
  throttleThreshold_nonneg : 0 ≤ throttleThreshold

structure GovernorDecision where
  action : PacingAction
  reason : String
  velocityRatio : ℚ
  requestP95Ratio : Option ℚ
  slo : CostSLO
  breakerAction : Option BreakerAction

section Evaluate

/-- `f"{value:.2f}"`. -/
def twoPlaces (value : ℚ) : String :=
  let cents := (roundHalfEven (value * 100)).natAbs
  let digits := toString (cents % 100)
  (if value < 0 then "-" else "") ++ toString (cents / 100) ++ "." ++
    (if cents % 100 < 10 then "0" ++ digits else digits)

/-- `_ratio`. -/
def ratio (numerator denominator : ℚ) : ℚ :=
  if denominator ≤ 0 then 0 else roundHalfAway 6 (numerator / denominator)

/-- The index of `_percentile` among several values. -/
def percentileIndex (pct n : ℕ) : ℕ :=
  let rank : Int := ⌈(pct * n : ℚ) / 100⌉
  let idx := max 0 (rank - 1)
  if (n : Int) ≤ idx then n - 1 else idx.toNat

/-- `_percentile`. -/
def percentile (sortedValues : List ℚ) (pct : ℕ) : ℚ :=
  match sortedValues with
  | [] => 0
  | [value] => value
  | values => values[percentileIndex pct values.length]?.getD 0

/-- The first branches of `_decide`. -/
def velocityPacing (slo : CostSLO) (velocityRatio : ℚ) : PacingAction × String :=
  if slo.deferThreshold ≤ velocityRatio then
    (.defer, s!"burn rate {twoPlaces velocityRatio}x daily SLO target")
  else if slo.throttleThreshold ≤ velocityRatio then
    (.throttle, s!"burn rate {twoPlaces velocityRatio}x approaching daily SLO target")
  else (.allow, "burn rate within daily SLO target")

/-- The branches of `_decide` that escalate for the p95. -/
def escalateForRequests (slo : CostSLO) (requestP95Ratio : Option ℚ)
    (pacing : PacingAction × String) : PacingAction × String :=
  match requestP95Ratio with
  | some p95 =>
      if slo.deferThreshold ≤ p95 then (.defer, s!"request p95 {twoPlaces p95}x SLO target")
      else if slo.throttleThreshold ≤ p95 ∧ pacing.1 = .allow then
        (.throttle, s!"request p95 {twoPlaces p95}x approaching SLO target")
      else pacing
  | none => pacing

/-- The branches of `_decide` that compose with the breaker. -/
def composeBreaker (breakerAction : Option BreakerAction) (pacing : PacingAction × String) :
    PacingAction × String :=
  match breakerAction with
  | some .block => (.defer, "breaker: budget exhausted")
  | some .downgrade =>
      if pacing.1 = .allow then (.throttle, "breaker: budget stressed") else pacing
  | _ => pacing

/-- `_decide`. -/
def decideAction (slo : CostSLO) (velocityRatio : ℚ) (requestP95Ratio : Option ℚ)
    (breakerAction : Option BreakerAction) : PacingAction × String :=
  composeBreaker breakerAction
    (escalateForRequests slo requestP95Ratio (velocityPacing slo velocityRatio))

/-- The p95 ratio of `CostGovernor.evaluate`. -/
def requestP95Ratio (slo : CostSLO) (recentRequestCostsUsd : List ℚ) : Option ℚ :=
  match recentRequestCostsUsd, slo.perRequestP95Usd with
  | [], _ | _, none => none
  | costs, some target => some (ratio (percentile (costs.insertionSort (· ≤ ·)) 95) target)

/-- `CostGovernor.evaluate`; a `now` without a timezone is `none`, and so are costs that are not
given. -/
def evaluateGovernor (slo : CostSLO) (burnRateUsdPerDay : ℚ) (now : Option Instant)
    (breakerDecision : Option CircuitBreakerDecision) (recentRequestCostsUsd : Option (List ℚ)) :
    Except PyError GovernorDecision :=
  match now with
  | none => .error ⟨"ValueError", "now must include timezone information"⟩
  | some _ =>
      let velocityRatio := ratio burnRateUsdPerDay slo.perDayTargetUsd
      let p95 := requestP95Ratio slo (recentRequestCostsUsd.getD [])
      let breakerAction := breakerDecision.map CircuitBreakerDecision.action
      let decision := decideAction slo velocityRatio p95 breakerAction
      .ok ⟨decision.1, decision.2, velocityRatio, p95, slo, breakerAction⟩

end Evaluate

/-- `allow < throttle < defer`. -/
def PacingAction.severity : PacingAction → ℕ
  | .allow => 0
  | .throttle => 1
  | .defer => 2

def ratioAction (slo : CostSLO) (ratio : ℚ) : PacingAction :=
  if slo.deferThreshold ≤ ratio then .defer
  else if slo.throttleThreshold ≤ ratio then .throttle
  else .allow

def breakerPacing : Option BreakerAction → PacingAction
  | some .block => .defer
  | some .downgrade => .throttle
  | some .allow | none => .allow

/-- `allow < downgrade < block`; no decision is like `allow`. -/
def breakerRank : Option BreakerAction → ℕ
  | some .block => 2
  | some .downgrade => 1
  | some .allow | none => 0

def signalSeverity (slo : CostSLO) (velocityRatio : ℚ) (p95 : Option ℚ)
    (breakerAction : Option BreakerAction) : ℕ :=
  max (ratioAction slo velocityRatio).severity
    (max (p95.elim 0 fun r => (ratioAction slo r).severity) (breakerPacing breakerAction).severity)

section Join
variable {slo : CostSLO} {breaker breaker' : Option BreakerAction} {x y : ℚ} {p q : Option ℚ}

theorem severity_ratioAction_mono (h : x ≤ y) :
    (ratioAction slo x).severity ≤ (ratioAction slo y).severity := by
  unfold ratioAction
  by_cases hdefer : slo.deferThreshold ≤ x
  · rw [if_pos hdefer, if_pos (hdefer.trans h)]
  · rw [if_neg hdefer]
    by_cases hthrottle : slo.throttleThreshold ≤ x
    · rw [if_pos hthrottle, if_pos (hthrottle.trans h)]
      split <;> decide
    · rw [if_neg hthrottle]
      exact Nat.zero_le _

theorem severity_breakerPacing_mono (h : breakerRank breaker ≤ breakerRank breaker') :
    (breakerPacing breaker).severity ≤ (breakerPacing breaker').severity := by
  rcases breaker with _ | (_ | _ | _) <;> rcases breaker' with _ | (_ | _ | _) <;>
    simp [breakerRank, breakerPacing, PacingAction.severity] at h ⊢

theorem signalSeverity_mono (hvelocity : x ≤ y)
    (hp95 : ∀ r ∈ p, ∃ r' ∈ q, r ≤ r') (hbreaker : breakerRank breaker ≤ breakerRank breaker') :
    signalSeverity slo x p breaker ≤ signalSeverity slo y q breaker' := by
  refine max_le_max (severity_ratioAction_mono hvelocity) (max_le_max ?_ ?_)
  · cases p with
    | none => exact Nat.zero_le _
    | some r =>
      obtain ⟨r', rfl, hle⟩ := hp95 r rfl
      exact severity_ratioAction_mono hle
  · exact severity_breakerPacing_mono hbreaker

theorem severity_velocityPacing :
    (velocityPacing slo x).1.severity = (ratioAction slo x).severity := by
  unfold velocityPacing ratioAction
  split
  · rfl
  · split <;> rfl

theorem severity_escalateForRequests (pacing : PacingAction × String) :
    (escalateForRequests slo p pacing).1.severity =
      max pacing.1.severity (p.elim 0 fun r => (ratioAction slo r).severity) := by
  obtain ⟨action, reason⟩ := pacing
  cases p with
  | none => simp [escalateForRequests]
  | some r =>
    unfold escalateForRequests ratioAction
    dsimp only [Option.elim_some]
    by_cases hdefer : slo.deferThreshold ≤ r
    · cases action <;> simp [hdefer, PacingAction.severity]
    · by_cases hthrottle : slo.throttleThreshold ≤ r
      · cases action <;> simp [hdefer, hthrottle, PacingAction.severity]
      · cases action <;> simp [hdefer, hthrottle, PacingAction.severity]

theorem severity_composeBreaker (pacing : PacingAction × String) :
    (composeBreaker breaker pacing).1.severity =
      max pacing.1.severity (breakerPacing breaker).severity := by
  obtain ⟨action, reason⟩ := pacing
  rcases breaker with _ | (_ | _ | _) <;> cases action <;>
    simp [composeBreaker, breakerPacing, PacingAction.severity]

/-- The branches of `_decide` override each other upwards only. -/
theorem severity_decideAction :
    (decideAction slo x p breaker).1.severity = signalSeverity slo x p breaker := by
  unfold decideAction
  rw [severity_composeBreaker, severity_escalateForRequests, severity_velocityPacing]
  exact Nat.max_assoc _ _ _

end Join

section Percentile
variable {xs ys : List ℚ}

theorem getD_le_getD (h : List.Forall₂ (· ≤ ·) xs ys) (place : ℕ) :
    xs[place]?.getD 0 ≤ ys[place]?.getD 0 := by
  induction h generalizing place with
  | nil => exact le_rfl
  | cons hxy h ih =>
    cases place with
    | zero => exact hxy
    | succ place => exact ih place

theorem percentile_mono (h : List.Forall₂ (· ≤ ·) xs ys) (pct : ℕ) :
    percentile xs pct ≤ percentile ys pct := by
  cases h with
  | nil => exact le_rfl
  | cons hxy h =>
    cases h with
    | nil => exact hxy
    | @cons x' y' xs ys hxy' h =>
      have hlength := h.length_eq
      have hindex : percentileIndex pct (xs.length + 2) = percentileIndex pct (ys.length + 2) := by
        rw [hlength]
      change _[percentileIndex pct (xs.length + 2)]?.getD 0 ≤ _
      rw [hindex]
      exact getD_le_getD (.cons hxy (.cons hxy' h)) _

theorem ratio_mono {x y target : ℚ} (h : x ≤ y) : ratio x target ≤ ratio y target := by
  unfold ratio
  split
  · exact le_rfl
  · rename_i hpos
    exact roundHalfAway_monotone 6 (div_le_div_of_nonneg_right h (not_le.mp hpos).le)

theorem requestP95Ratio_mono {slo : CostSLO} (h : List.Forall₂ (· ≤ ·) xs ys) :
    ∀ r ∈ requestP95Ratio slo xs, ∃ r' ∈ requestP95Ratio slo ys, r ≤ r' := by
  intro r hr
  cases h with
  | nil => cases hr
  | @cons x y xs ys hxy h =>
    unfold requestP95Ratio at hr ⊢
    cases htarget : slo.perRequestP95Usd with
    | none =>
      rw [htarget] at hr
      cases hr
    | some target =>
      rw [htarget] at hr
      obtain rfl := Option.some.inj hr
      refine ⟨_, rfl, ratio_mono (percentile_mono ?_ 95)⟩
      exact forall₂_insertionSort (.cons hxy h)

theorem requestP95Ratio_perm {slo : CostSLO} (h : xs.Perm ys) :
    requestP95Ratio slo xs = requestP95Ratio slo ys := by
  have hsorted := insertionSort_eq_of_perm h
  cases xs with
  | nil => rw [h.nil_eq]
  | cons x xs =>
    cases ys with
    | nil => exact absurd h.eq_nil (List.cons_ne_nil _ _)
    | cons y ys =>
      unfold requestP95Ratio
      cases slo.perRequestP95Usd with
      | none => rfl
      | some target =>
        exact congrArg (fun sorted => some (ratio (percentile sorted 95) target)) hsorted

end Percentile

theorem ratio_eq {x target : ℚ} (h : 0 < target) : ratio x target = roundHalfAway 6 (x / target) :=
  if_neg (not_le.mpr h)

theorem signals_of_evaluateGovernor {slo : CostSLO} {burn : ℚ} {now : Option Instant}
    {breaker : Option CircuitBreakerDecision} {costs : Option (List ℚ)}
    {decision : GovernorDecision} (h : evaluateGovernor slo burn now breaker costs = .ok decision) :
    decision.velocityRatio = roundHalfAway 6 (burn / slo.perDayTargetUsd) ∧
      decision.requestP95Ratio = requestP95Ratio slo (costs.getD []) ∧
      decision.breakerAction = breaker.map CircuitBreakerDecision.action := by
  unfold evaluateGovernor at h
  split at h
  · cases h
  · obtain rfl := Except.ok.inj h
    exact ⟨ratio_eq slo.perDayTargetUsd_pos, rfl, rfl⟩

theorem evaluateGovernor_eq_ok {slo : CostSLO} {burn : ℚ} {now : Option Instant}
    {breaker : Option CircuitBreakerDecision} {costs : Option (List ℚ)}
    {decision : GovernorDecision} (h : evaluateGovernor slo burn now breaker costs = .ok decision) :
    decision.action.severity = signalSeverity slo (ratio burn slo.perDayTargetUsd)
      (requestP95Ratio slo (costs.getD [])) (breaker.map CircuitBreakerDecision.action) := by
  unfold evaluateGovernor at h
  split at h
  · cases h
  · obtain rfl := Except.ok.inj h
    exact severity_decideAction

/-- The severity of a decision is the greatest of those that its signals call for alone, and they
are the signals of what was evaluated; so it does not fall when the burn rate, a cost or the action
of the breaker rises, and it does not depend on the order of the costs. -/
theorem governor_is_join {slo : CostSLO} {burn : ℚ} {now : Option Instant}
    {breaker : Option CircuitBreakerDecision} {costs : Option (List ℚ)}
    {decision : GovernorDecision} (h : evaluateGovernor slo burn now breaker costs = .ok decision) :
    (decision.velocityRatio = roundHalfAway 6 (burn / slo.perDayTargetUsd) ∧
        decision.requestP95Ratio = requestP95Ratio slo (costs.getD []) ∧
        decision.breakerAction = breaker.map CircuitBreakerDecision.action) ∧
      decision.action.severity =
        max (ratioAction slo decision.velocityRatio).severity
          (max (decision.requestP95Ratio.elim 0 fun r => (ratioAction slo r).severity)
            (breakerPacing decision.breakerAction).severity) ∧
      (∀ burn' now' breaker' costs' decision', burn ≤ burn' →
        breakerRank (breaker.map CircuitBreakerDecision.action) ≤
          breakerRank (breaker'.map CircuitBreakerDecision.action) →
        List.Forall₂ (· ≤ ·) (costs.getD []) (costs'.getD []) →
        evaluateGovernor slo burn' now' breaker' costs' = .ok decision' →
        decision.action.severity ≤ decision'.action.severity) ∧
      ∀ costs', (costs.getD []).Perm (costs'.getD []) →
        evaluateGovernor slo burn now breaker costs' = .ok decision := by
  obtain ⟨hvelocity, hp95, hbreaker⟩ := signals_of_evaluateGovernor h
  refine ⟨⟨hvelocity, hp95, hbreaker⟩, ?_, ?_, ?_⟩
  · rw [evaluateGovernor_eq_ok h, hvelocity, hp95, hbreaker, ← ratio_eq slo.perDayTargetUsd_pos]
    rfl
  · intro burn' now' breaker' costs' decision' hburn hbreaker hcosts h'
    rw [evaluateGovernor_eq_ok h, evaluateGovernor_eq_ok h']
    exact signalSeverity_mono (ratio_mono hburn) (requestP95Ratio_mono hcosts) hbreaker
  · intro costs' hperm
    rw [← h]
    unfold evaluateGovernor
    rw [requestP95Ratio_perm hperm]

def hundredADay : CostSLO where
  perDayTargetUsd := 100
  perRequestP95Usd := some (1 / 2)
  throttleThreshold := 4 / 5
  deferThreshold := 1
  perDayTargetUsd_pos := by norm_num
  perRequestP95Usd_pos := by
    rintro _ ⟨⟩
    norm_num
  throttle_lt_defer := by norm_num
  throttleThreshold_nonneg := by norm_num

theorem governor_is_join_on_requests : ∃ decision,
    evaluateGovernor hundredADay 50 (some 0) none (some [1 / 10, 9 / 20]) = .ok decision ∧
      decision.action = .throttle ∧ decision.velocityRatio = 1 / 2 ∧
      decision.action.severity =
        max (ratioAction hundredADay decision.velocityRatio).severity
          (max (decision.requestP95Ratio.elim 0 fun r => (ratioAction hundredADay r).severity)
            (breakerPacing decision.breakerAction).severity) := by
  have h := @governor_is_join hundredADay 50 (some 0) none (some [1 / 10, 9 / 20]) _ rfl
  exact ⟨_, rfl, by decide +kernel, by decide +kernel, h.2.1⟩

end Pitwall
