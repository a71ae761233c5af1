import Mathlib
import Pitwall.Finops.Bidding
set_option autoImplicit false

/-!
The rails of a bidding plan. They hold of the bids that the plan records; a lane that is held
keeps its current bid, which the adjustment band and the decrease switch tie to the recorded one.
-/

namespace Pitwall

/-- What a lane bids once the plan is applied: a held lane keeps its current bid. -/
def BidAction.effectiveBid (a : BidAction) : ℚ :=
  match a.action, a.lane.currentBid with
  | .hold, some current => current.value
  | _, _ => a.bid.value

theorem effectiveBid_held {a : BidAction} {current : UsdAmount} (hheld : a.action = .hold)
    (hcurrent : a.lane.currentBid = some current) : a.effectiveBid = current.value := by
  rw [BidAction.effectiveBid, hheld, hcurrent]

theorem effectiveBid_moved {a : BidAction} (hmoved : a.action ≠ .hold) :
    a.effectiveBid = a.bid.value := by
  unfold BidAction.effectiveBid
  split
  · exact absurd ‹_› hmoved
  · rfl

theorem limit_le_roundHalfAway {value : ℚ} (h : 10 ^ 22 ≤ value) :
    10 ^ 22 ≤ roundHalfAway 6 value := by
  have hten : roundHalfAway 6 ((10 : ℚ) ^ 22) = 10 ^ 22 :=
    roundHalfAway_of_isMultiple ⟨10 ^ 28, by norm_num⟩
  rw [← hten]
  exact roundHalfAway_mono (by norm_num) h

theorem bidUsd_ok {value : ℚ} {amount : UsdAmount} (h : bidUsd value = .ok amount) :
    amount.value = roundHalfAway 6 value ∧ value < 10 ^ 22 := by
  unfold bidUsd at h
  split at h
  · cases h
  · split at h
    · cases h
    · rename_i hsmall
      obtain rfl := Except.ok.inj h
      exact ⟨rfl, not_le.mp fun hbig => hsmall (limit_le_roundHalfAway hbig)⟩

theorem addUsd_ok {a b sum : UsdAmount} (h : addUsd a b = .ok sum) :
    sum.value = a.value + b.value := by
  obtain ⟨total, htotal, hsum⟩ := Except.bind_eq_ok_iff.mp h
  obtain ⟨hvalue, hsmall⟩ := bidUsd_ok hsum
  have hquantized : IsMultiple 6 (a.value + b.value) := a.quantized.add b.quantized
  rw [hvalue, contextual_exact htotal hquantized (add_nonneg a.nonneg b.nonneg) hsmall]
  exact roundHalfAway_of_isMultiple hquantized

structure WithinRails (policy : BiddingPolicy) (a : BidAction) : Prop where
  available : a.lane.available = true
  minimum_le : a.lane.minimumBid.value ≤ a.bid.value
  le_max : a.bid.value ≤ policy.effectiveMaxPrice.value
  moved : a.action ≠ .hold → a.effectiveBid = a.bid.value
  held_ge : a.action = .hold → a.bid.value - policy.minAdjustment.value ≤ a.effectiveBid
  held_le : a.action = .hold → policy.allowBidDecrease = true →
    a.effectiveBid ≤ a.bid.value + policy.minAdjustment.value

section Candidates
variable {policy : BiddingPolicy} {price : SpotPrice} {a : BidAction}

theorem minimum_le_desiredBid {desired : UsdAmount} (h : desiredBid price policy = .ok desired) :
    price.minimumBid.value ≤ desired.value := by
  unfold desiredBid at h
  split at h
  · rename_i hle
    obtain rfl := Except.ok.inj h
    exact hle
  · rw [addUsd_ok h]
    linarith [policy.bidIncrement.nonneg]

theorem withinRails_actionForBid {desired : UsdAmount} (havailable : price.available = true)
    (hmin : price.minimumBid.value ≤ desired.value)
    (hmax : desired.value ≤ policy.effectiveMaxPrice.value) :
    WithinRails policy ⟨price, (actionForBid price policy desired).1, desired, false, none,
      policy.dryRun, (actionForBid price policy desired).2⟩ := by
  refine ⟨havailable, hmin, hmax, fun hmoved => effectiveBid_moved hmoved, ?_, ?_⟩
  · intro hheld
    cases hcurrent : price.currentBid with
    | none => simp [actionForBid, hcurrent] at hheld
    | some current =>
      rw [effectiveBid_held hheld hcurrent]
      simp only [actionForBid, hcurrent] at hheld
      split at hheld
      · cases hheld
      · linarith
  · intro hheld hdecrease
    cases hcurrent : price.currentBid with
    | none => simp [actionForBid, hcurrent] at hheld
    | some current =>
      rw [effectiveBid_held hheld hcurrent]
      simp only [actionForBid, hcurrent, hdecrease, if_true] at hheld
      split at hheld
      · cases hheld
      · split at hheld
        · cases hheld
        · linarith

theorem candidateAction_ok (h : candidateAction policy price = .ok a) :
    a.lane = price ∧ a.selected = false ∧ (a.action ≠ .block → WithinRails policy a) := by
  unfold candidateAction at h
  split at h
  · obtain rfl := Except.ok.inj h
    exact ⟨rfl, rfl, fun hblock => absurd rfl hblock⟩
  · rename_i havailable
    obtain ⟨desired, hdesired, h⟩ := Except.bind_eq_ok_iff.mp h
    split at h
    · obtain rfl := Except.pure_eq_ok_iff.mp h
      exact ⟨rfl, rfl, fun hblock => absurd rfl hblock⟩
    · rename_i hmax
      obtain rfl := Except.pure_eq_ok_iff.mp h
      refine ⟨rfl, rfl, fun _ => ?_⟩
      exact withinRails_actionForBid (by simpa using havailable)
        (minimum_le_desiredBid hdesired) (not_lt.mp hmax)

end Candidates

def recordedTotal (actions : List BidAction) : ℚ := (actions.map fun a => a.bid.value).sum

structure SelectionRails (policy : BiddingPolicy) (lanes : List SpotPrice) (s : Selection) :
    Prop where
  selected_eq : s.finalActions.filter BidAction.selected = s.selected
  within : ∀ a ∈ s.selected, a.lane ∈ lanes ∧ WithinRails policy a
  length_le : s.selected.length ≤ policy.selectionLimit
  total_eq : s.runningTotal.value = recordedTotal s.selected
  total_le : ∀ cap, policy.maxTotalBid = some cap → s.runningTotal.value ≤ cap.value

section Loop
variable {policy : BiddingPolicy} {lanes : List SpotPrice} {s s' : Selection} {a : BidAction}

theorem selectionRails_start (policy : BiddingPolicy) (lanes : List SpotPrice) :
    SelectionRails policy lanes ⟨[], [], .zero⟩ where
  selected_eq := rfl
  within := by simp
  length_le := Nat.zero_le _
  total_eq := rfl
  total_le := fun cap _ => cap.nonneg

theorem SelectionRails.skip (h : SelectionRails policy lanes s) (hskip : a.selected = false) :
    SelectionRails policy lanes { s with finalActions := s.finalActions ++ [a] } where
  selected_eq := by simp [List.filter_append, h.selected_eq, hskip]
  within := h.within
  length_le := h.length_le
  total_eq := h.total_eq
  total_le := h.total_le

theorem WithinRails.selectedCopy (h : WithinRails policy a) (rank : ℕ) (dryRun : Bool) :
    WithinRails policy (a.selectedCopy rank dryRun) :=
  ⟨h.available, h.minimum_le, h.le_max, h.moved, h.held_ge, h.held_le⟩

theorem selectAction_rails (h : SelectionRails policy lanes s) (hlane : a.lane ∈ lanes)
    (hunselected : a.selected = false) (hrails : a.action ≠ .block → WithinRails policy a)
    (hstep : selectAction policy s a = .ok s') : SelectionRails policy lanes s' := by
  unfold selectAction at hstep
  split at hstep
  · obtain rfl := Except.ok.inj hstep
    exact h.skip hunselected
  · rename_i hopen
    split at hstep
    · obtain rfl := Except.ok.inj hstep
      exact h.skip rfl
    · rename_i hroom
      obtain ⟨total, htotal, hstep⟩ := Except.bind_eq_ok_iff.mp hstep
      split at hstep
      · obtain rfl := Except.pure_eq_ok_iff.mp hstep
        exact h.skip rfl
      · rename_i hcap
        obtain rfl := Except.pure_eq_ok_iff.mp hstep
        refine ⟨?_, ?_, ?_, ?_, ?_⟩
        · simp [List.filter_append, h.selected_eq, BidAction.selectedCopy]
        · intro b hb
          rcases List.mem_append.mp hb with hb | hb
          · exact h.within b hb
          · obtain rfl := List.mem_singleton.mp hb
            exact ⟨hlane, (hrails hopen).selectedCopy _ _⟩
        · rw [List.length_append, List.length_singleton]
          omega
        · rw [addUsd_ok htotal, h.total_eq]
          simp [recordedTotal, BidAction.selectedCopy]
        · intro cap hsome
          rw [exceedsTotal, hsome] at hcap
          simpa using hcap

theorem foldlM_rails {candidates : List BidAction} (h : SelectionRails policy lanes s)
    (hcandidates : ∀ a ∈ candidates, a.lane ∈ lanes ∧ a.selected = false ∧
      (a.action ≠ .block → WithinRails policy a))
    (hrun : candidates.foldlM (selectAction policy) s = .ok s') :
    SelectionRails policy lanes s' := by
  induction candidates generalizing s with
  | nil =>
    obtain rfl := Except.ok.inj hrun
    exact h
  | cons a candidates ih =>
    rw [List.foldlM_cons] at hrun
    obtain ⟨next, hnext, hrun⟩ := Except.bind_eq_ok_iff.mp hrun
    obtain ⟨hlane, hunselected, hrails⟩ := hcandidates a (by simp)
    exact ih (selectAction_rails h hlane hunselected hrails hnext)
      (fun b hb => hcandidates b (by simp [hb])) hrun

end Loop

section Effective
variable {policy : BiddingPolicy} {actions : List BidAction}

theorem WithinRails.effective_le {a : BidAction} (h : WithinRails policy a)
    (hdecrease : policy.allowBidDecrease = true) :
    a.effectiveBid ≤ a.bid.value + policy.minAdjustment.value := by
  by_cases hheld : a.action = .hold
  · exact h.held_le hheld hdecrease
  · rw [h.moved hheld]
    linarith [policy.minAdjustment.nonneg]

theorem sum_effective_le (h : ∀ a ∈ actions, WithinRails policy a)
    (hdecrease : policy.allowBidDecrease = true) :
    (actions.map BidAction.effectiveBid).sum ≤
      recordedTotal actions + actions.length * policy.minAdjustment.value := by
  induction actions with
  | nil => simp [recordedTotal]
  | cons a actions ih =>
    have hhead := (h a (by simp)).effective_le hdecrease
    have htail := ih fun b hb => h b (by simp [hb])
    simp only [recordedTotal, List.map_cons, List.sum_cons, List.length_cons] at htail ⊢
    push_cast
    linarith

end Effective

section Plans
variable {snapshot : SpotPriceSnapshot} {policy : BiddingPolicy} {plan : BiddingPlan}

theorem hardBlockReason_isSome
    (h : policy.allowed = false ∨ policy.budgetAction = some .block) :
    ∃ reason, hardBlockReason policy = some reason := by
  unfold hardBlockReason
  split
  · split
    · exact ⟨_, rfl⟩
    · exact ⟨_, rfl⟩
  · rename_i hallowed
    have hblock := h.resolve_left hallowed
    rw [if_pos hblock]
    obtain ⟨decision, hdecision, -⟩ := Option.map_eq_some_iff.mp hblock
    exact ⟨decision.reason, by rw [hdecision]; rfl⟩

theorem evaluateBids_selection (h : evaluateBids snapshot policy = .ok plan) :
    plan.selectedActions.length ≤ policy.selectionLimit ∧
    (∀ a ∈ plan.selectedActions, a.lane ∈ snapshot.prices ∧ WithinRails policy a) ∧
    (∀ cap, policy.maxTotalBid = some cap → recordedTotal plan.selectedActions ≤ cap.value) ∧
    (policy.allowed = false ∨ policy.budgetAction = some .block → plan.selectedActions = []) := by
  unfold evaluateBids at h
  cases hreason : hardBlockReason policy with
  | some reason =>
    simp only [hreason] at h
    obtain rfl := Except.ok.inj h
    have hnone : BiddingPlan.selectedActions ⟨snapshot.observedAt, policy.effectiveMaxPrice,
        (sortedPrices snapshot.prices).map fun price =>
          blockedAction price reason policy.dryRun none,
        policy.dryRun, policy.budgetAction, policy.allowed⟩ = [] := by
      simp [BiddingPlan.selectedActions, blockedAction]
    rw [hnone]
    refine ⟨Nat.zero_le _, by simp, fun cap _ => ?_, fun _ => rfl⟩
    simpa [recordedTotal] using cap.nonneg
  | none =>
    simp only [hreason] at h
    obtain ⟨candidates, hcandidates, h⟩ := Except.bind_eq_ok_iff.mp h
    obtain ⟨s, hrun, h⟩ := Except.bind_eq_ok_iff.mp h
    obtain rfl := Except.pure_eq_ok_iff.mp h
    have hrails := foldlM_rails (selectionRails_start policy snapshot.prices) (fun a ha => by
      obtain ⟨price, hprice, hcandidate⟩ := List.mem_of_mapM_eq_ok hcandidates ha
      obtain ⟨hlane, hunselected, hwithin⟩ := candidateAction_ok hcandidate
      rw [hlane]
      exact ⟨mem_sortedBy.mp hprice, hunselected, hwithin⟩) hrun
    simp only [BiddingPlan.selectedActions, hrails.selected_eq]
    refine ⟨hrails.length_le, hrails.within, fun cap hcap => ?_, fun hblocked => ?_⟩
    · rw [← hrails.total_eq]
      exact hrails.total_le cap hcap
    · obtain ⟨reason, hsome⟩ := hardBlockReason_isSome hblocked
      rw [hreason] at hsome
      cases hsome

/-- The rails of every plan: the selection limit, the recorded bid of each selected lane between
its minimum and the effective maximum, their sum below the cap; how far the current bid of a
held lane is from the recorded one; and the cap on what the lanes bid when bids may decrease. -/
theorem evaluateBids_rails (h : evaluateBids snapshot policy = .ok plan) :
    plan.selectedActions.length ≤ policy.selectionLimit ∧
    (∀ a ∈ plan.selectedActions, a.lane ∈ snapshot.prices ∧ WithinRails policy a) ∧
    (∀ cap, policy.maxTotalBid = some cap → recordedTotal plan.selectedActions ≤ cap.value ∧
      (policy.allowBidDecrease = true → (plan.selectedActions.map BidAction.effectiveBid).sum ≤
        cap.value + policy.selectionLimit * policy.minAdjustment.value)) ∧
    (policy.allowed = false ∨ policy.budgetAction = some .block → plan.selectedActions = []) := by
  obtain ⟨hlimit, hwithin, htotal, hblocked⟩ := evaluateBids_selection h
  refine ⟨hlimit, hwithin, fun cap hcap => ⟨htotal cap hcap, fun hdecrease => ?_⟩, hblocked⟩
  have heffective := sum_effective_le (fun a ha => (hwithin a ha).2) hdecrease
  have hband : (plan.selectedActions.length : ℚ) * policy.minAdjustment.value ≤
      policy.selectionLimit * policy.minAdjustment.value :=
    mul_le_mul_of_nonneg_right (by exact_mod_cast hlimit) policy.minAdjustment.nonneg
  linarith [htotal cap hcap]

end Plans

def dollars (n : ℕ) (h : (n : ℚ) < 10 ^ 22) : UsdAmount where
  value := n
  nonneg := UsdAmount.whole_nonneg n
  quantized := UsdAmount.whole_quantized n
  small := h

theorem bidUsd_value (amount : UsdAmount) : bidUsd amount.value = .ok amount := by
  obtain ⟨value, hnonneg, hquantized, hsmall⟩ := amount
  have hrounded : roundHalfAway 6 value = value := roundHalfAway_of_isMultiple hquantized
  simp only [bidUsd, hrounded]
  rw [dif_neg (not_lt.mpr hnonneg), dif_neg (not_le.mpr hsmall)]

theorem addUsd_zero (amount : UsdAmount) : addUsd .zero amount = .ok amount := by
  have habs : |amount.value| < 10 ^ 22 := by
    rw [abs_of_nonneg amount.nonneg]
    exact amount.small
  have hsum : contextual (UsdAmount.zero.value + amount.value) = .ok amount.value := by
    rw [UsdAmount.zero, zero_add]
    exact contextual_of_isMultiple amount.quantized habs
  rw [addUsd, Except.bind_of_ok hsum, bidUsd_value]

/-- A lane with a minimum bid of one dollar that bids `current` dollars. -/
def biddingLane (current : ℕ) (h : (current : ℚ) < 10 ^ 22) : SpotPrice where
  providerId := "runpod"
  resourceId := "slot"
  gpu := "NVIDIA L4"
  minimumBid := dollars 1 (by norm_num)
  currentBid := some (dollars current h)
  gpuCount := 1
  available := true
  providerId_ne := by decide +kernel
  resourceId_ne := by decide +kernel
  gpu_ne := by decide +kernel
  gpuCount_pos := le_rfl

def twoDollarPolicy : BiddingPolicy where
  targetPrice := dollars 2 (by norm_num)
  maxPrice := dollars 3 (by norm_num)
  targetCapacityUnits := 1
  maxParallelBids := 1
  bidIncrement := .zero
  minAdjustment := .zero
  maxTotalBid := some (dollars 3 (by norm_num))
  allowBidDecrease := false
  dryRun := true
  policyEvaluation := none
  budgetDecision := none
  target_le_max := by norm_num [dollars]
  capacity_pos := le_rfl
  parallel_pos := le_rfl

def heldAction : BidAction where
  lane := biddingLane 5 (by norm_num)
  action := .hold
  bid := dollars 2 (by norm_num)
  selected := true
  rank := some 1
  dryRun := true
  reason := "current bid above desired; decrease disabled"

def heldPlan : BiddingPlan :=
  ⟨0, dollars 3 (by norm_num), [heldAction], true, none, true⟩

theorem candidateAction_held : candidateAction twoDollarPolicy (biddingLane 5 (by norm_num)) =
    .ok { heldAction with selected := false, rank := none } := by
  have hdesired : desiredBid (biddingLane 5 (by norm_num)) twoDollarPolicy =
      .ok (dollars 2 (by norm_num)) := by
    rw [desiredBid, if_pos (by norm_num [biddingLane, twoDollarPolicy, dollars])]
    rfl
  have hmax : twoDollarPolicy.effectiveMaxPrice = dollars 3 (by norm_num) := rfl
  have haction : actionForBid (biddingLane 5 (by norm_num)) twoDollarPolicy
      (dollars 2 (by norm_num)) = (.hold, "current bid above desired; decrease disabled") := by
    norm_num [actionForBid, biddingLane, twoDollarPolicy, dollars, UsdAmount.zero]
  rw [candidateAction, if_neg (by decide), Except.bind_of_ok hdesired, hmax,
    if_neg (by norm_num [dollars]), haction]
  rfl

theorem evaluateBids_held :
    evaluateBids ⟨0, [biddingLane 5 (by norm_num)]⟩ twoDollarPolicy = .ok heldPlan := by
  have hreason : hardBlockReason twoDollarPolicy = none := rfl
  have hcandidates : (sortedPrices [biddingLane 5 (by norm_num)]).mapM
      (candidateAction twoDollarPolicy) = .ok [{ heldAction with selected := false, rank := none }] := by
    rw [sortedPrices, sortedBy, List.insertionSort_cons, List.insertionSort_nil,
      List.orderedInsert_nil, List.mapM_cons, Except.bind_of_ok candidateAction_held]
    rfl
  have hstep : selectAction twoDollarPolicy ⟨[], [], .zero⟩
      { heldAction with selected := false, rank := none } =
        .ok ⟨[heldAction], [heldAction], dollars 2 (by norm_num)⟩ := by
    have hcap : exceedsTotal twoDollarPolicy (dollars 2 (by norm_num)) = false := by
      norm_num [exceedsTotal, twoDollarPolicy, dollars]
    rw [selectAction, if_neg (by decide), if_neg (by decide)]
    refine (Except.bind_of_ok (addUsd_zero (dollars 2 (by norm_num)))).trans ?_
    rw [hcap]
    rfl
  have hloop : [{ heldAction with selected := false, rank := none }].foldlM
      (selectAction twoDollarPolicy) ⟨[], [], .zero⟩ =
        .ok ⟨[heldAction], [heldAction], dollars 2 (by norm_num)⟩ := by
    rw [List.foldlM_cons, Except.bind_of_ok hstep]
    rfl
  simp only [evaluateBids, hreason]
  exact (Except.bind_of_ok hcandidates).trans (Except.bind_of_ok hloop)

def lane (id : String) (h : strip id ≠ "") (current : Option UsdAmount) : SpotPrice :=
  { biddingLane 5 (by norm_num) with
    resourceId := id
    currentBid := current
    resourceId_ne := h }

def threeLanes : List SpotPrice :=
  [lane "c" (by decide +kernel) none,
    lane "b" (by decide +kernel) (some (dollars 5 (by norm_num))),
    lane "a" (by decide +kernel) none]

def loweringPolicy : BiddingPolicy :=
  { twoDollarPolicy with
    targetCapacityUnits := 3
    maxParallelBids := 3
    maxTotalBid := some (dollars 5 (by norm_num))
    allowBidDecrease := true
    capacity_pos := by decide
    parallel_pos := by decide }

theorem evaluateBids_rails_lowered : ∃ plan,
    evaluateBids ⟨0, threeLanes⟩ loweringPolicy = .ok plan ∧
      plan.selectedActions.map (fun a => (a.lane.resourceId, a.action, a.bid.value)) =
        [("a", .place, 2), ("b", .lower, 2)] ∧
      (∀ a ∈ plan.selectedActions, a.lane ∈ threeLanes ∧ WithinRails loweringPolicy a) ∧
      recordedTotal plan.selectedActions ≤ 5 ∧
      (plan.selectedActions.map BidAction.effectiveBid).sum ≤ 5 := by
  have hselected : (evaluateBids ⟨0, threeLanes⟩ loweringPolicy).map (fun plan =>
      plan.selectedActions.map fun a => (a.lane.resourceId, a.action, a.bid.value)) =
        .ok [("a", .place, 2), ("b", .lower, 2)] := by decide +kernel
  obtain ⟨plan, hplan, hselected⟩ := Except.map_eq_ok_iff.mp hselected
  obtain ⟨-, hwithin, htotals, -⟩ := evaluateBids_rails hplan
  obtain ⟨htotal, heffective⟩ := htotals _ rfl
  have hband : (5 : ℚ) + loweringPolicy.selectionLimit * loweringPolicy.minAdjustment.value = 5 := by
    norm_num [loweringPolicy, twoDollarPolicy, UsdAmount.zero]
  exact ⟨plan, hplan, hselected, hwithin, htotal, hband ▸ heffective rfl⟩

/-- The held lane goes on bidding more than the maximum price and than the cap. -/
theorem held_lane_exceeds_maximum : ∃ plan,
    evaluateBids ⟨0, [biddingLane 5 (by norm_num)]⟩ twoDollarPolicy = .ok plan ∧
      (∃ a ∈ plan.selectedActions, twoDollarPolicy.effectiveMaxPrice.value < a.effectiveBid) ∧
      ∃ cap, twoDollarPolicy.maxTotalBid = some cap ∧
        cap.value < (plan.selectedActions.map BidAction.effectiveBid).sum := by
  have hselected : heldPlan.selectedActions = [heldAction] := rfl
  have heffective : heldAction.effectiveBid = 5 := by
    norm_num [BidAction.effectiveBid, heldAction, biddingLane, dollars]
  have hmax : twoDollarPolicy.effectiveMaxPrice.value = 3 := by
    have hprice : twoDollarPolicy.effectiveMaxPrice = dollars 3 (by norm_num) := rfl
    rw [hprice]
    norm_num [dollars]
  refine ⟨heldPlan, evaluateBids_held, ⟨heldAction, by simp [hselected], ?_⟩, _, rfl, ?_⟩
  · rw [hmax, heffective]
    norm_num
  · rw [hselected, List.map_cons, List.map_nil, List.sum_cons, List.sum_nil, heffective]
    norm_num [dollars]

end Pitwall
