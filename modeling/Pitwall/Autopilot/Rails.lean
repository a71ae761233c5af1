import Mathlib.Algebra.Order.BigOperators.Group.List
import Mathlib.Tactic.Linarith
import Pitwall.Autopilot.Controller
import Pitwall.Library.Traversal
set_option autoImplicit false

/-!
The rails of a run: what stands before a call of the executor, and what all that is applied adds
up to.
-/

namespace Pitwall.Autopilot
open Machine

namespace RunState
variable {W : Type}

def applied (s : RunState W) : List UsdAmount :=
  s.decisions.filterMap fun decision =>
    if decision.outcome = .applied then
      decision.simulation.map WhatIfBatchProjection.totalReservedUsd
    else none

def appliedTotal (s : RunState W) : ℚ := (s.applied.map UsdAmount.value).sum

end RunState

section Rails
variable {W : Type} (c : AutopilotController W)

structure Passed (call : ExecutorCall W) : Prop where
  mode : c.mode = .apply
  policy : ∃ result, evaluatePolicy c call.action = .ok result ∧ result.allowed = true
  simulation : ∃ reason, simulate c call.action = .ok ⟨true, reason, some call.simulation⟩
  limits : ∃ limit, evaluateHardLimits c.limits call.simulation call.appliedCount
    call.acceptedReservedUsd = .ok limit ∧ limit.passed = true
  breaker : ∃ breaker, breakerGate c.breakerDecision = .ok breaker ∧ breaker.passed = true

/-- The spend stays within the budget of the simulator and the limit of the projected spend. -/
structure WithinSpend (reserved : ℚ) : Prop where
  budget : ∀ budget, c.simulator.budgetUsd = some budget →
    c.simulator.currentSpendUsd.value + reserved ≤ budget.value
  limit : ∀ limit, c.limits.maxProjectedSpendUsd = some limit →
    c.simulator.currentSpendUsd.value + reserved ≤ limit.value

structure Rails (s : RunState W) : Prop where
  gated : ∀ call ∈ s.calls, Passed c call
  count : s.applied.length ≤ c.limits.maxActionsPerRun
  perRun : ∀ limit, c.limits.maxReservedUsdPerRun = some limit → s.appliedTotal ≤ limit.value
  spend : WithinSpend c s.appliedTotal

def Applies (s : RunState W) (action : AutopilotAction W)
    (simulation : WhatIfBatchProjection) : Prop :=
  s.raised = none ∧
  Passed c ⟨action, simulation, s.appliedCount, s.acceptedReservedUsd⟩ ∧
  ∃ executor result, c.executor = some executor ∧
    executor s.calls.length action = .ok result ∧ result.applied = true

/-- An action that is applied fits on top of the spend and of all that was applied before. -/
def Fits (s : RunState W) (action : AutopilotAction W) : Prop :=
  ∀ simulation, Applies c s action simulation →
    WithinSpend c (s.appliedTotal + simulation.totalReservedUsd.value)

end Rails

section Gates
variable {W : Type} {c : AutopilotController W} {action : AutopilotAction W} {n : Nat}
  {accepted : ℚ}

theorem gate_eq_cleared {gates : List AutopilotGateResult} {simulation : WhatIfBatchProjection}
    {executor : Nat → AutopilotAction W → Except PyError ActionApplyResult}
    (h : gate c action n accepted = .ok (.cleared gates simulation executor)) :
    Passed c ⟨action, simulation, n, accepted⟩ ∧ c.executor = some executor := by
  unfold gate at h
  obtain ⟨policy, hpolicy, h⟩ := Except.bind_eq_ok_iff.mp h
  split at h
  · cases h
  · rename_i hallowed
    obtain ⟨evaluation, hsimulate, h⟩ := Except.bind_eq_ok_iff.mp h
    obtain ⟨passed, reason, projection⟩ := evaluation
    split at h
    · rename_i hpassed hprojection
      dsimp only at hpassed hprojection
      subst hpassed hprojection
      obtain ⟨limit, hlimit, h⟩ := Except.bind_eq_ok_iff.mp h
      dsimp only at h
      split at h
      · cases h
      · rename_i hlimits
        obtain ⟨breaker, hbreaker, h⟩ := Except.bind_eq_ok_iff.mp h
        split at h
        · cases h
        · rename_i hopen
          split at h
          · cases h
          · cases h
          · rename_i hmode hexecutor
            cases h
            exact ⟨⟨hmode, ⟨policy, hpolicy, by simpa using hallowed⟩, ⟨reason, hsimulate⟩,
              ⟨limit, hlimit, by simpa using hlimits⟩, ⟨breaker, hbreaker, by simpa using hopen⟩⟩,
              hexecutor⟩
    · cases h

theorem gate_of_passed {simulation : WhatIfBatchProjection}
    {executor : Nat → AutopilotAction W → Except PyError ActionApplyResult}
    (h : Passed c ⟨action, simulation, n, accepted⟩) (hexecutor : c.executor = some executor) :
    ∃ gates, gate c action n accepted = .ok (.cleared gates simulation executor) := by
  obtain ⟨hmode, ⟨policy, hpolicy, hallowed⟩, ⟨reason, hsimulate⟩, ⟨limit, hlimit, hpassed⟩,
    ⟨breaker, hbreaker, hopen⟩⟩ := h
  simp only at hpolicy hsimulate hlimit
  simp only [gate, hpolicy, hallowed, hsimulate, hlimit, hpassed, hbreaker, hopen, hmode, hexecutor,
    bind, Except.bind, pure, Except.pure, Bool.not_true, Bool.false_eq_true, if_false]
  exact ⟨_, rfl⟩

theorem outcome_of_decided {decision : AutopilotDecision W}
    (h : gate c action n accepted = .ok (.decided decision)) : decision.outcome ≠ .applied := by
  unfold gate at h
  obtain ⟨policy, -, h⟩ := Except.bind_eq_ok_iff.mp h
  split at h
  · cases h
    simp
  · obtain ⟨evaluation, -, h⟩ := Except.bind_eq_ok_iff.mp h
    obtain ⟨passed, reason, projection⟩ := evaluation
    split at h
    · obtain ⟨limit, -, h⟩ := Except.bind_eq_ok_iff.mp h
      dsimp only at h
      split at h
      · cases h
        simp
      · obtain ⟨breaker, -, h⟩ := Except.bind_eq_ok_iff.mp h
        split at h
        · cases h
          simp
        · split at h
          · cases h
            simp
          · cases h
            simp
          · cases h
    · cases h
      simp

theorem limits_passed {limits : AutopilotHardLimits} {simulation : WhatIfBatchProjection}
    {limit : HardLimitEvaluation}
    (h : evaluateHardLimits limits simulation n accepted = .ok limit)
    (hpassed : limit.passed = true) :
    n < limits.maxActionsPerRun ∧ ∀ m, limits.maxReservedUsdPerRun = some m →
      ∃ total, contextual (accepted + simulation.totalReservedUsd.value) = .ok total ∧
        total ≤ m.value := by
  unfold evaluateHardLimits at h
  dsimp only at h
  split at h
  · cases h
    simp at hpassed
  · rename_i hcount
    refine ⟨not_le.mp hcount, ?_⟩
    intro m hm
    split at h
    · cases h
      simp at hpassed
    · rw [hm, Option.isSome_some, if_pos rfl] at h
      obtain ⟨total, htotal, h⟩ := Except.bind_eq_ok_iff.mp h
      refine ⟨total, htotal, ?_⟩
      by_contra hover
      have hexceeds : exceeds total (some m) = true := by simpa [exceeds] using hover
      rw [hexceeds, if_pos rfl] at h
      cases h
      simp at hpassed

end Gates

namespace RunState
variable {W : Type} {c : AutopilotController W} {s : RunState W} {action : AutopilotAction W}

structure Idle (s s' : RunState W) : Prop where
  applied : s'.applied = s.applied
  appliedCount : s'.appliedCount = s.appliedCount
  acceptedReservedUsd : s'.acceptedReservedUsd = s.acceptedReservedUsd
  raised : s'.raised = none → s.raised = none

/-- The state after an action that the executor has applied, up to what is raised. -/
structure Accepted (s s' : RunState W) (action : AutopilotAction W)
    (simulation : WhatIfBatchProjection) : Prop where
  calls : s'.calls = s.calls ++ [⟨action, simulation, s.appliedCount, s.acceptedReservedUsd⟩]
  applied : s'.applied = s.applied ++ [simulation.totalReservedUsd]
  appliedCount : s'.appliedCount = s.appliedCount + 1
  acceptedReservedUsd : s'.raised = none →
    contextual (s.acceptedReservedUsd + simulation.totalReservedUsd.value) =
      .ok s'.acceptedReservedUsd
  raised : ∀ total, contextual (s.acceptedReservedUsd + simulation.totalReservedUsd.value) =
    .ok total → s'.raised = s.raised

theorem idle_record (decision : AutopilotDecision W) (h : decision.outcome ≠ .applied) :
    Idle s (s.record decision) where
  applied := by simp [applied, record, List.filterMap_append, h]
  appliedCount := rfl
  acceptedReservedUsd := rfl
  raised := id

theorem accepted_accept {called : RunState W} {gates : List AutopilotGateResult}
    {simulation : WhatIfBatchProjection} {result : ActionApplyResult}
    (hcalled : called = { s with
      calls := s.calls ++ [⟨action, simulation, s.appliedCount, s.acceptedReservedUsd⟩] })
    (h : result.applied = true) :
    Accepted s ((called.record (applyDecision action gates simulation result)).accept
      simulation.totalReservedUsd) action simulation := by
  subst hcalled
  have happlied : ∀ t : RunState W, t.decisions = s.decisions ++
      [applyDecision action gates simulation result] →
      t.applied = s.applied ++ [simulation.totalReservedUsd] := by
    intro t ht
    simp [applied, ht, List.filterMap_append, applyDecision, h]
  unfold accept
  cases htotal : contextual (s.acceptedReservedUsd + simulation.totalReservedUsd.value) with
  | error exc => exact ⟨by simp [record, htotal, fail], happlied _ (by simp [record, htotal, fail]),
      by simp [record, htotal, fail], by simp [record, htotal, fail], fun _ h => by simp [htotal] at h⟩
  | ok total => exact ⟨by simp [record, htotal], happlied _ (by simp [record, htotal]),
      by simp [record, htotal], by simp [record, htotal], fun _ _ => by simp [record, htotal]⟩

theorem step_cases (c : AutopilotController W) (s : RunState W) (action : AutopilotAction W) :
    (∃ simulation, Applies c s action simulation ∧
      Accepted s (step c s action) action simulation) ∨
    ((∀ simulation, ¬ Applies c s action simulation) ∧ Idle s (step c s action) ∧
      ((step c s action).calls = s.calls ∨ ∃ call, Passed c call ∧
        (step c s action).calls = s.calls ++ [call])) := by
  unfold step
  cases hraised : s.raised with
  | some exc =>
    refine .inr ⟨?_, ⟨rfl, rfl, rfl, ?_⟩, .inl rfl⟩
    · rintro simulation ⟨hnone, -⟩
      simp [hraised] at hnone
    · exact id
  | none =>
    cases hgate : gate c action s.appliedCount s.acceptedReservedUsd with
    | error exc =>
      refine .inr ⟨?_, ⟨rfl, rfl, rfl, fun h => by cases h⟩, .inl rfl⟩
      rintro simulation ⟨-, hpassed, executor, result, hexecutor, -⟩
      obtain ⟨gates, hcleared⟩ := gate_of_passed hpassed hexecutor
      rw [hgate] at hcleared
      cases hcleared
    | ok gated =>
      cases gated with
      | decided decision =>
        refine .inr ⟨?_, idle_record decision (outcome_of_decided hgate), .inl rfl⟩
        rintro simulation ⟨-, hpassed, executor, result, hexecutor, -⟩
        obtain ⟨gates, hcleared⟩ := gate_of_passed hpassed hexecutor
        rw [hgate] at hcleared
        cases hcleared
      | cleared gates simulation executor =>
        obtain ⟨hpassed, hexecutor⟩ := gate_eq_cleared hgate
        -- the executor of a step that applies is the one that is called here
        have hanswer : ∀ simulation', Applies c s action simulation' →
            ∃ result, executor s.calls.length action = .ok result ∧ result.applied = true := by
          rintro simulation' ⟨-, -, executor', result, hexecutor', hresult, happlied⟩
          obtain rfl := Option.some.inj (hexecutor.symm.trans hexecutor')
          exact ⟨result, hresult, happlied⟩
        dsimp only
        cases hresult : executor s.calls.length action with
        | error exc =>
          refine .inr ⟨?_, ⟨rfl, rfl, rfl, fun h => by cases h⟩, .inr ⟨_, hpassed, rfl⟩⟩
          intro simulation' happlies
          obtain ⟨result, hok, -⟩ := hanswer simulation' happlies
          rw [hresult] at hok
          cases hok
        | ok result =>
          dsimp only
          by_cases happlied : result.applied = true
          · rw [if_pos happlied]
            exact .inl ⟨simulation, ⟨hraised, hpassed, executor, result, hexecutor, hresult, happlied⟩,
              accepted_accept (by rw [hraised]) happlied⟩
          · rw [if_neg happlied]
            refine .inr ⟨?_, ?_, .inr ⟨_, hpassed, rfl⟩⟩
            · intro simulation' happlies
              obtain ⟨result', hok, happlied'⟩ := hanswer simulation' happlies
              rw [hresult] at hok
              cases hok
              exact happlied happlied'
            · have hdenied : (applyDecision action gates simulation result).outcome ≠ .applied := by
                simp [applyDecision, happlied]
              obtain ⟨h₁, h₂, h₃, -⟩ := idle_record (s := s) _ hdenied
              exact ⟨h₁, h₂, h₃, fun _ => hraised⟩

end RunState

section Runs
variable {W : Type} {c : AutopilotController W} {s s' : RunState W} {action : AutopilotAction W}

/-- What every run keeps: the gates before the calls, and the limits over the whole run. -/
structure Counted (c : AutopilotController W) (s : RunState W) : Prop where
  gated : ∀ call ∈ s.calls, Passed c call
  count : s.applied.length ≤ c.limits.maxActionsPerRun
  appliedCount : s.appliedCount = s.applied.length
  perRun : ∀ limit, c.limits.maxReservedUsdPerRun = some limit → s.appliedTotal ≤ limit.value
  acceptedReservedUsd : ∀ limit, c.limits.maxReservedUsdPerRun = some limit → s.raised = none →
    s.acceptedReservedUsd = s.appliedTotal

theorem RunState.appliedTotal_nonneg (s : RunState W) : 0 ≤ s.appliedTotal := by
  refine List.sum_nonneg ?_
  intro value hvalue
  obtain ⟨amount, -, rfl⟩ := List.mem_map.mp hvalue
  exact amount.nonneg

theorem RunState.isMultiple_appliedTotal (s : RunState W) : IsMultiple 6 s.appliedTotal := by
  refine IsMultiple.sum ?_
  intro value hvalue
  obtain ⟨amount, -, rfl⟩ := List.mem_map.mp hvalue
  exact amount.quantized

theorem RunState.Accepted.appliedTotal {simulation : WhatIfBatchProjection}
    (h : Accepted s s' action simulation) :
    s'.appliedTotal = s.appliedTotal + simulation.totalReservedUsd.value := by
  simp [RunState.appliedTotal, h.applied]

theorem RunState.Idle.appliedTotal (h : Idle s s') : s'.appliedTotal = s.appliedTotal := by
  rw [RunState.appliedTotal, h.applied, RunState.appliedTotal]

theorem counted_start (c : AutopilotController W) : Counted c .start where
  gated := by simp [RunState.start]
  count := Nat.zero_le _
  appliedCount := rfl
  perRun := fun limit _ => limit.nonneg
  acceptedReservedUsd := fun _ _ _ => rfl

theorem counted_idle (hidle : RunState.Idle s s') (hcalls : ∀ call ∈ s'.calls, Passed c call)
    (h : Counted c s) : Counted c s' where
  gated := hcalls
  count := hidle.applied ▸ h.count
  appliedCount := by rw [hidle.appliedCount, hidle.applied, h.appliedCount]
  perRun := fun limit hlimit => hidle.appliedTotal ▸ h.perRun limit hlimit
  acceptedReservedUsd := fun limit hlimit hraised => by
    rw [hidle.acceptedReservedUsd, hidle.appliedTotal]
    exact h.acceptedReservedUsd limit hlimit (hidle.raised hraised)

theorem total_of_applies {simulation : WhatIfBatchProjection}
    (happlies : Applies c s action simulation) (h : Counted c s) {limit : UsdAmount}
    (hlimit : c.limits.maxReservedUsdPerRun = some limit) :
    contextual (s.acceptedReservedUsd + simulation.totalReservedUsd.value) =
        .ok (s.appliedTotal + simulation.totalReservedUsd.value) ∧
      s.appliedTotal + simulation.totalReservedUsd.value ≤ limit.value := by
  obtain ⟨hraised, ⟨-, -, -, ⟨evaluation, hevaluation, hpassed⟩, -⟩, -⟩ := happlies
  obtain ⟨-, hrun⟩ := limits_passed hevaluation hpassed
  obtain ⟨total, htotal, hle⟩ := hrun limit hlimit
  dsimp only at htotal
  have hexact : total = s.acceptedReservedUsd + simulation.totalReservedUsd.value := by
    rw [h.acceptedReservedUsd limit hlimit hraised] at htotal ⊢
    exact contextual_exact htotal
      (s.isMultiple_appliedTotal.add simulation.totalReservedUsd.quantized)
      (add_nonneg s.appliedTotal_nonneg simulation.totalReservedUsd.nonneg)
      (lt_of_le_of_lt hle limit.small)
  rw [h.acceptedReservedUsd limit hlimit hraised] at hexact htotal ⊢
  subst hexact
  exact ⟨htotal, hle⟩

theorem counted_step (h : Counted c s) (action : AutopilotAction W) :
    Counted c (RunState.step c s action) := by
  rcases RunState.step_cases c s action with
    ⟨simulation, happlies, haccepted⟩ | ⟨-, hidle, hcalls⟩
  · have hpassed := happlies.2.1
    have hlt : s.applied.length < c.limits.maxActionsPerRun := by
      obtain ⟨evaluation, hevaluation, hlimits⟩ := hpassed.limits
      have hcount := (limits_passed hevaluation hlimits).1
      rwa [h.appliedCount] at hcount
    refine ⟨?_, ?_, ?_, ?_, ?_⟩
    · intro call hcall
      rw [haccepted.calls, List.mem_append, List.mem_singleton] at hcall
      rcases hcall with hcall | rfl
      · exact h.gated call hcall
      · exact hpassed
    · rw [haccepted.applied, List.length_append, List.length_singleton]
      omega
    · rw [haccepted.appliedCount, haccepted.applied, List.length_append, List.length_singleton,
        h.appliedCount]
    · intro limit hlimit
      rw [haccepted.appliedTotal]
      exact (total_of_applies happlies h hlimit).2
    · intro limit hlimit hraised
      have htotal := haccepted.acceptedReservedUsd hraised
      rw [(total_of_applies happlies h hlimit).1] at htotal
      rw [haccepted.appliedTotal]
      exact (Except.ok.inj htotal).symm
  · refine counted_idle hidle ?_ h
    rcases hcalls with hcalls | ⟨call, hpassed, hcalls⟩
    · rw [hcalls]
      exact h.gated
    · intro call' hcall'
      rw [hcalls, List.mem_append, List.mem_singleton] at hcall'
      rcases hcall' with hcall' | rfl
      · exact h.gated call' hcall'
      · exact hpassed

theorem WithinSpend.mono {reserved reserved' : ℚ} (h : WithinSpend c reserved')
    (hle : reserved ≤ reserved') : WithinSpend c reserved where
  budget := fun budget hbudget => by linarith [h.budget budget hbudget]
  limit := fun limit hlimit => by linarith [h.limit limit hlimit]

theorem appliedTotal_le_step (c : AutopilotController W) (s : RunState W)
    (action : AutopilotAction W) : s.appliedTotal ≤ (RunState.step c s action).appliedTotal := by
  rcases RunState.step_cases c s action with ⟨simulation, -, haccepted⟩ | ⟨-, hidle, -⟩
  · rw [haccepted.appliedTotal]
    linarith [simulation.totalReservedUsd.nonneg]
  · exact hidle.appliedTotal.ge

theorem withinSpend_step (h : WithinSpend c s.appliedTotal) :
    WithinSpend c (RunState.step c s action).appliedTotal ↔ Fits c s action := by
  rcases RunState.step_cases c s action with
    ⟨simulation, happlies, haccepted⟩ | ⟨hnot, hidle, -⟩
  · rw [haccepted.appliedTotal]
    refine ⟨?_, fun hfits => hfits simulation happlies⟩
    rintro hwithin simulation' happlies'
    obtain ⟨reason, hsimulate⟩ := happlies.2.1.simulation
    obtain ⟨reason', hsimulate'⟩ := happlies'.2.1.simulation
    dsimp only at hsimulate hsimulate'
    rw [hsimulate] at hsimulate'
    cases hsimulate'
    exact hwithin
  · rw [hidle.appliedTotal]
    exact ⟨fun _ simulation happlies => absurd happlies (hnot simulation), fun _ => h⟩

theorem rails_iff_withinSpend (h : Counted c s) : Rails c s ↔ WithinSpend c s.appliedTotal :=
  ⟨Rails.spend, fun hspend => ⟨h.gated, h.count, h.perRun, hspend⟩⟩

theorem counted_run (c : AutopilotController W) (now : Option Instant)
    (signals : List (AutopilotSignal W))
    (sources : List (Instant → Except PyError (List (AutopilotSignal W)))) :
    Counted c (c.run now signals sources) := by
  unfold AutopilotController.run
  cases collectSignals now signals sources with
  | error exc =>
    have hidle : RunState.Idle (.start : RunState W) (RunState.start.fail exc) :=
      ⟨rfl, rfl, rfl, fun h => by cases h⟩
    exact counted_idle hidle (counted_start c).gated (counted_start c)
  | ok collected =>
    exact run_preserves (I := Counted c) (fun _ action h => counted_step h action)
      (counted_start c) (collected.map AutopilotAction.fromSignal)

theorem rails_of_run_limit {limit : UsdAmount}
    (hlimit : c.limits.maxReservedUsdPerRun = some limit) (h : WithinSpend c limit.value)
    (now : Option Instant) (signals : List (AutopilotSignal W))
    (sources : List (Instant → Except PyError (List (AutopilotSignal W)))) :
    Rails c (c.run now signals sources) := by
  have hcounted := counted_run c now signals sources
  exact (rails_iff_withinSpend hcounted).mpr (h.mono (hcounted.perRun limit hlimit))

/-- The rails hold over a run exactly when the spend is within them at first and each action that
is applied fits on top of those before it. -/
theorem autopilot_rails (c : AutopilotController W) (now : Option Instant)
    (signals : List (AutopilotSignal W))
    (sources : List (Instant → Except PyError (List (AutopilotSignal W)))) :
    Rails c (c.run now signals sources) ↔
      WithinSpend c 0 ∧ ∀ collected, collectSignals now signals sources = .ok collected →
        Along (RunState.step c) (Fits c) .start (collected.map AutopilotAction.fromSignal) := by
  rw [rails_iff_withinSpend (counted_run c now signals sources)]
  unfold AutopilotController.run
  cases hcollected : collectSignals now signals sources with
  | error exc => exact ⟨fun h => ⟨h, fun _ h' => by cases h'⟩, fun h => h.1⟩
  | ok collected =>
    by_cases hstart : WithinSpend c 0
    · have hrun := run_or_trapped (P := Fits c)
        (I := fun s => WithinSpend c s.appliedTotal) (D := fun s => ¬ WithinSpend c s.appliedTotal)
        (fun _ _ hI hP => (withinSpend_step hI).mpr hP)
        (fun _ _ hI hP hI' => hP ((withinSpend_step hI).mp hI'))
        (fun s action hD hI => hD (hI.mono (appliedTotal_le_step c s action)))
        (s := .start) hstart (collected.map AutopilotAction.fromSignal)
      rcases hrun with ⟨hI, hfits⟩ | ⟨hD, hfits⟩
      · refine ⟨fun _ => ⟨hstart, ?_⟩, fun _ => hI⟩
        rintro _ ⟨⟩
        exact hfits
      · exact ⟨fun h => absurd h hD, fun h => absurd (h.2 collected rfl) hfits⟩
    · refine ⟨fun h => absurd (h.mono ?_) hstart, fun h => absurd h.1 hstart⟩
      exact RunState.appliedTotal_nonneg _

end Runs

section Example

theorem whole_isMultiple (n : ℤ) : IsMultiple 6 (n : ℚ) := ⟨n * 10 ^ 6, by push_cast; ring⟩

theorem contextual_whole {n : ℤ} (h : |n| < 10 ^ 22) : contextual (n : ℚ) = .ok (n : ℚ) :=
  contextual_of_isMultiple (whole_isMultiple n) (by exact_mod_cast h)

def sixDollars : UsdAmount := .dollars 6 (by norm_num)
def tenDollars : UsdAmount := .dollars 10 (by norm_num)

def lenientController : AutopilotController Unit where
  evaluatePolicies _ := .ok ⟨true, []⟩
  simulator := ⟨fun _ => .ok [sixDollars], some tenDollars, .zero⟩
  executor := some fun _ action => .ok ⟨action.actionId, true, "applied", []⟩
  mode := .apply
  limits := ⟨2, none, none, none⟩
  breakerDecision := none

def depthSignal (priority : Int) : AutopilotSignal Unit where
  signalId := "depth"
  source := "anomaly"
  actionKind := .reserveCapacity
  targetKind := "capability"
  targetId := "cap"
  reason := "queue depth"
  priority := priority
  confidence := 1
  params := []
  policyProvider := none
  policyWorkloads := []
  policyCapability := none
  simulationWorkloads := [()]

def sixDollarProjection : WhatIfBatchProjection :=
  ⟨[⟨sixDollars, .zero, sixDollars, some 4, some false⟩], sixDollars, .zero, sixDollars,
    some tenDollars, some 4, some false⟩

theorem sixDollars_headroom : budgetHeadroom (some tenDollars) sixDollars = .ok (some 4) := by
  have hdifference : contextual (tenDollars.value - sixDollars.value) = .ok 4 := by
    have hfour : tenDollars.value - sixDollars.value = ((4 : ℤ) : ℚ) := by
      norm_num [tenDollars, sixDollars, UsdAmount.dollars]
    rw [hfour]
    exact contextual_whole (by norm_num)
  have hsigned : signedUsd 4 "budget_headroom_usd" = .ok 4 := by
    have hround : roundHalfAway 6 4 = 4 := roundHalfAway_of_isMultiple (whole_isMultiple 4)
    simp only [signedUsd, hround]
    norm_num
  simp only [budgetHeadroom, hdifference, hsigned, bind, Except.bind, pure, Except.pure]

theorem sixDollars_spend :
    contextual (UsdAmount.zero.value + sixDollars.value) = .ok sixDollars.value := by
  have hsum : UsdAmount.zero.value + sixDollars.value = ((6 : ℤ) : ℚ) := by
    norm_num [UsdAmount.zero, sixDollars, UsdAmount.dollars]
  rw [hsum]
  exact contextual_whole (by norm_num)

theorem simulateWorkloads_lenient :
    lenientController.simulator.simulateWorkloads [()] = .ok sixDollarProjection := by
  have hprojected : usdAmount sixDollars.value "projected_spend_usd" = .ok sixDollars :=
    usdAmount_value sixDollars _
  have htotal : usdAmount sixDollars.value "total_reserved_usd" = .ok sixDollars :=
    usdAmount_value sixDollars _
  have hnot : WhatIfSimulator.wouldExceed (some 4) = some false := by
    simp [WhatIfSimulator.wouldExceed]
  have hsimulate : lenientController.simulator.simulate .zero () =
      .ok ⟨sixDollars, .zero, sixDollars, some 4, some false⟩ := by
    simp only [lenientController, WhatIfSimulator.simulate, List.head?_cons, Option.getD_some, bind,
      Except.bind, sixDollars_spend, hprojected, sixDollars_headroom, pure, Except.pure, hnot]
  have hloop : lenientController.simulator.simulateLoop .zero [()] =
      .ok ([⟨sixDollars, .zero, sixDollars, some 4, some false⟩], sixDollars) := by
    simp only [WhatIfSimulator.simulateLoop, hsimulate, bind, Except.bind, pure, Except.pure]
  have hsum : contextual (0 + sixDollars.value) = .ok sixDollars.value := sixDollars_spend
  change (lenientController.simulator.simulateLoop .zero [()] >>= _) = _
  rw [hloop]
  simp only [List.foldlM, bind, Except.bind, pure, Except.pure, hsum, htotal, lenientController,
    sixDollars_headroom, hnot, sixDollarProjection]

theorem passed_lenient (priority : Int) {n : Nat} (accepted : ℚ) (hn : n < 2) :
    Passed lenientController
      ⟨.fromSignal (depthSignal priority), sixDollarProjection, n, accepted⟩ := by
  have hlimits : evaluateHardLimits lenientController.limits sixDollarProjection n accepted =
      .ok ⟨true, "hard limits passed"⟩ := by
    simp [lenientController, evaluateHardLimits, exceeds, not_le.mpr hn, pure, Except.pure]
  have hsimulation : simulate lenientController (.fromSignal (depthSignal priority)) =
      .ok ⟨true, "simulation passed", some sixDollarProjection⟩ := by
    simp [simulate, AutopilotAction.fromSignal, depthSignal, simulateWorkloads_lenient,
      sixDollarProjection]
  exact ⟨rfl, ⟨_, rfl, rfl⟩, ⟨_, hsimulation⟩, ⟨_, hlimits, rfl⟩, ⟨_, rfl, rfl⟩⟩

theorem accepted_lenient {s : RunState Unit} (priority : Int) (hraised : s.raised = none)
    (hcount : s.appliedCount < 2) :
    RunState.Accepted s (RunState.step lenientController s (.fromSignal (depthSignal priority)))
      (.fromSignal (depthSignal priority)) sixDollarProjection := by
  have happlies : Applies lenientController s (.fromSignal (depthSignal priority))
      sixDollarProjection :=
    ⟨hraised, passed_lenient priority _ hcount, _, _, rfl, rfl, rfl⟩
  rcases RunState.step_cases lenientController s (.fromSignal (depthSignal priority)) with
    ⟨simulation, hsimulation, haccepted⟩ | ⟨hnot, -⟩
  · have hsame : simulation = sixDollarProjection := by
      obtain ⟨reason, hgot⟩ := hsimulation.2.1.simulation
      obtain ⟨reason', hgot'⟩ := happlies.2.1.simulation
      dsimp only at hgot hgot'
      rw [hgot'] at hgot
      cases hgot
      rfl
    rwa [hsame] at haccepted
  · exact absurd happlies (hnot sixDollarProjection)

theorem run_lenient : lenientController.run (some 0) [depthSignal 0, depthSignal 1] [] =
    RunState.step lenientController
      (RunState.step lenientController .start (.fromSignal (depthSignal 0)))
        (.fromSignal (depthSignal 1)) := by
  have hsorted : NoDescent (fun a b => decide (a.sortKey < b.sortKey))
      ([depthSignal 0, depthSignal 1] ++ ([] : List (List (AutopilotSignal Unit))).flatten) := by
    simp [NoDescent, depthSignal, AutopilotSignal.sortKey, Prod.Lex.toLex_lt_toLex]
  have hcollected : collectSignals (some 0) [depthSignal 0, depthSignal 1] [] =
      .ok [depthSignal 0, depthSignal 1] := by
    change Except.ok (sortedBy _ ([depthSignal 0, depthSignal 1] ++ [].flatten)) = _
    rw [sortedBy_of_noDescent hsorted]
    rfl
  rw [AutopilotController.run, hcollected]
  rfl

/-- Two actions of six dollars each in one run, on a budget of ten. -/
theorem second_action_over_budget :
    ¬ ∀ (c : AutopilotController Unit) (signals : List (AutopilotSignal Unit)),
      Rails c (c.run (some 0) signals []) := by
  intro h
  have hfirst := accepted_lenient (s := .start) 0 rfl (by decide)
  have hsecond := accepted_lenient 1 (hfirst.raised _ sixDollars_spend)
    (by rw [hfirst.appliedCount]; decide)
  have hbudget := (h lenientController [depthSignal 0, depthSignal 1]).spend.budget tenDollars rfl
  rw [run_lenient, hsecond.appliedTotal, hfirst.appliedTotal] at hbudget
  norm_num [lenientController, sixDollarProjection, sixDollars, tenDollars, UsdAmount.dollars,
    UsdAmount.zero, RunState.appliedTotal, RunState.applied, RunState.start] at hbudget

end Example

end Pitwall.Autopilot
