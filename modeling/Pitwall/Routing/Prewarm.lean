import Pitwall.Routing.PlanReturns
import Pitwall.Routing.ScoreOrder
set_option autoImplicit false

/-!
The warm capacity of a provider as the prewarm planner counts it, and as the scorer reads it for
the bonus of a latency-sensitive request.
-/

namespace Pitwall.Routing

inductive PrewarmTargetKind where
  | endpointWorkers | podLease
  deriving DecidableEq, Repr

/-- `_target_kind_for_provider_type`. -/
def targetKindForProviderType (providerType : String) : Option PrewarmTargetKind :=
  if providerType = ProviderType.serverlessLb.value ∨
      providerType = ProviderType.serverlessQueue.value then some .endpointWorkers
  else if providerType = ProviderType.podLease.value then some .podLease
  else none

/-- `_non_negative_int`. -/
def nonNegativeCount (text : PyString) (value : PyValue) (default : Int) (fieldName : String) :
    Except PyError Int :=
  match value with
  | .none => .ok default
  | .bool _ => .error (valueError s!"{fieldName} must be a non-negative integer")
  | value => do
      let result ← text.intOf value
      if result < 0 then .error (valueError s!"{fieldName} must be >= 0") else pure result

namespace ProviderLike
variable (p : ProviderLike)

/-- `_prewarm_config`, one entry of it. -/
def prewarmValue (key : String) : PyValue :=
  (((p.configValue "prewarm").mapping?).bind (List.lookup key)).getD .none

/-- The nested entries of `workers`, where that is a mapping. -/
def workerMin : PyValue :=
  match (p.configValue "workers").mapping? with
  | some workers =>
      .firstPresent [(workers.lookup "workers_min").getD .none,
        (workers.lookup "workersMin").getD .none]
  | none => .none

/-- What `_current_warm_count` reads. -/
def currentWarmValue : PrewarmTargetKind → PyValue
  | .podLease =>
      .firstPresent [p.prewarmValue "warm_pods", p.configValue "warm_pods", p.field "warm_pods"]
  | .endpointWorkers =>
      .firstPresent [p.prewarmValue "workers_min", p.prewarmValue "workersMin", p.workerMin,
        p.configValue "workers_min", p.configValue "workersMin", p.configValue "warm_workers",
        p.field "warm_workers"]

end ProviderLike

section Count
variable (text : PyString) (p : ProviderLike)

/-- `_current_warm_count`. -/
def currentWarmCount (targetKind : PrewarmTargetKind) : Except PyError Int :=
  nonNegativeCount text (p.currentWarmValue targetKind) 0
    (match targetKind with
      | .podLease => "warm_pods"
      | .endpointWorkers => "workers_min")

def warmBonus : Except PyError Binary64 := do
  let warm ← warmWorkers text p
  pure (if warm.lt (.ofRat 1) then .ofRat 0 else .ofRat 20)

/-- The stored value is a number from one on for `int`. -/
def CountsWarm (value : PyValue) : Prop := ∃ n, text.intOf value = .ok n ∧ 1 ≤ n

/-- The stored value is nothing, or a numeral from zero on whose float is finite, and it stands
for a warm worker where it should. A container is no numeral. -/
def ReadsAs (warm : Prop) : PyValue → Prop
  | .none => ¬warm
  | .bool _ => False
  | value => ∃ number q, text.decimalOf value = some number ∧
      number.toBinary64 = some (.finite q) ∧ 0 ≤ q.1 ∧ (1 ≤ q.1 ↔ warm)

/-- What the scorer finds first can stand for what `_current_warm_count` finds first. -/
def ReadersAgree : Prop :=
  ReadsAs text (CountsWarm text (p.currentWarmValue .endpointWorkers)) p.warmWorkersValue

end Count

section Agree
variable {text : PyString} {p : ProviderLike}

theorem one_le_count_iff {value : PyValue} {fieldName : String} {n : Int}
    (h : nonNegativeCount text value 0 fieldName = .ok n) : 1 ≤ n ↔ CountsWarm text value := by
  unfold nonNegativeCount at h
  split at h
  · cases h
    refine iff_of_false (by omega) ?_
    rintro ⟨n, hn, -⟩
    cases hn
  · cases h
  · simp only [Except.bind_eq_ok_iff] at h
    obtain ⟨result, hresult, h⟩ := h
    split at h
    · cases h
    · cases h
      constructor
      · intro hn
        exact ⟨n, hresult, hn⟩
      · rintro ⟨n', hn', hle⟩
        rw [hresult] at hn'
        cases hn'
        exact hle

theorem bonus_of_lt (q : { q : ℚ // Representable q }) :
    (if (Binary64.finite q).lt (.ofRat 1) then Binary64.ofRat 0 else .ofRat 20) =
      if 1 ≤ q.1 then Binary64.ofRat 20 else .ofRat 0 := by
  obtain ⟨one, hone, hvalue⟩ := ofRat_natCast 1 (by norm_num)
  rw [Nat.cast_one] at hone hvalue
  rw [hone, ← ite_not]
  refine if_congr ?_ rfl rfl
  rw [Binary64.lt_finite, hvalue, not_lt]

theorem bonus_eq_iff (a b : Prop) [Decidable a] [Decidable b] :
    (if a then Binary64.ofRat 20 else .ofRat 0) = (if b then Binary64.ofRat 20 else .ofRat 0) ↔
      (a ↔ b) := by
  obtain ⟨twenty, htwenty, hvalue⟩ := ofRat_ofNat 20 (by norm_num)
  obtain ⟨zero, hzero, hvalue'⟩ := ofRat_zero
  have hne : Binary64.ofRat 20 ≠ Binary64.ofRat 0 := by
    rw [htwenty, hzero]
    intro h
    have hsame := congrArg Subtype.val (Binary64.finite.inj h)
    rw [hvalue, hvalue'] at hsame
    norm_num at hsame
  by_cases ha : a <;> by_cases hb : b <;> simp [ha, hb, hne, hne.symm]

theorem nonNegativeNumber_eq_ok_iff {value : PyValue} {name : String} {default w : Binary64}
    (hnone : value ≠ .none) (hbool : ∀ b, value ≠ .bool b) :
    nonNegativeNumber text value name default = .ok w ↔
      ∃ number q, text.decimalOf value = some number ∧ number.toBinary64 = some (.finite q) ∧
        0 ≤ q.1 ∧ w = .finite q := by
  unfold nonNegativeNumber
  split
  · exact absurd rfl hnone
  · exact absurd rfl (hbool _)
  · constructor
    · intro h
      split at h
      · cases h
      · rename_i q hread
        obtain ⟨number, hnumber, hq⟩ := Option.bind_eq_some_iff.mp hread
        split at h
        · cases h
        · cases h
          exact ⟨number, q, hnumber, hq, not_lt.mp ‹_›, rfl⟩
      · cases h
    · rintro ⟨number, q, hnumber, hq, hnonneg, rfl⟩
      rw [hnumber, Option.bind_some, hq]
      dsimp only
      rw [if_neg (not_lt.mpr hnonneg)]

theorem warmBonus_iff_of_number {warm : Prop} [Decidable warm]
    (hnone : p.warmWorkersValue ≠ .none) (hbool : ∀ b, p.warmWorkersValue ≠ .bool b) :
    warmBonus text p = .ok (if warm then .ofRat 20 else .ofRat 0) ↔
      ∃ number q, text.decimalOf p.warmWorkersValue = some number ∧
        number.toBinary64 = some (.finite q) ∧ 0 ≤ q.1 ∧ (1 ≤ q.1 ↔ warm) := by
  simp only [warmBonus, warmWorkers, Except.bind_eq_ok_iff, Except.pure_eq_ok_iff,
    nonNegativeNumber_eq_ok_iff hnone hbool]
  constructor
  · rintro ⟨w, ⟨number, q, hnumber, hq, hnonneg, rfl⟩, hbonus⟩
    rw [bonus_of_lt, bonus_eq_iff] at hbonus
    exact ⟨number, q, hnumber, hq, hnonneg, hbonus⟩
  · rintro ⟨number, q, hnumber, hq, hnonneg, hwarm⟩
    refine ⟨.finite q, ⟨number, q, hnumber, hq, hnonneg, rfl⟩, ?_⟩
    rw [bonus_of_lt, bonus_eq_iff]
    exact hwarm

theorem warmBonus_of_none (h : p.warmWorkersValue = .none) :
    warmBonus text p = .ok (.ofRat 0) := by
  obtain ⟨zero, hzero, hvalue⟩ := ofRat_zero
  have hwarm : warmWorkers text p = .ok (.finite zero) := by
    simp only [warmWorkers, h, nonNegativeNumber, hzero]
  refine (Except.bind_of_ok hwarm).trans ?_
  rw [bonus_of_lt, if_neg (by rw [hvalue]; norm_num)]
  rfl

theorem warmBonus_iff (warm : Prop) [Decidable warm] :
    warmBonus text p = .ok (if warm then .ofRat 20 else .ofRat 0) ↔
      ReadsAs text warm p.warmWorkersValue := by
  cases hvalue : p.warmWorkersValue with
  | none =>
    have hbonus := bonus_eq_iff False warm
    rw [if_neg not_false] at hbonus
    rw [warmBonus_of_none hvalue, Except.ok.injEq, hbonus, false_iff]
    rfl
  | bool b =>
    refine iff_of_false ?_ id
    simp [warmBonus, warmWorkers, hvalue, nonNegativeNumber]
  | _ =>
    rw [warmBonus_iff_of_number (by simp [hvalue]) (by simp [hvalue]), hvalue]
    rfl

theorem warmBonus_of_count {n : Int} (h : currentWarmCount text p .endpointWorkers = .ok n) :
    warmBonus text p = .ok (if 1 ≤ n then .ofRat 20 else .ofRat 0) ↔ ReadersAgree text p := by
  rw [warmBonus_iff, one_le_count_iff h]
  rfl

end Agree

section Plans
variable {text : PyString} {p : ProviderLike} {hints : Hints} {observed : ObservedMetrics}

theorem explainScore_bonus {e : ScoreExplanation} (hlatency : hints.latencySensitive = true)
    (h : explainScore text p hints observed = .ok e) :
    warmBonus text p = .ok e.warmWorkerBonus := by
  simp only [explainScore, Except.bind_eq_ok_iff, Except.pure_eq_ok_iff] at h
  obtain ⟨⟨latency, bonus⟩, hterms, cost, -, rate, -, multiplier, -, rfl⟩ := h
  simp only [latencyTerms, hlatency, if_true, Except.bind_eq_ok_iff,
    Except.pure_eq_ok_iff] at hterms
  obtain ⟨coldStart, -, warm, hwarm, hsame⟩ := hterms
  cases hsame
  exact Except.bind_of_ok hwarm

theorem explainScore_returns :
    (∃ e, explainScore text p hints observed = .ok e) ↔
      (∃ terms, latencyTerms text p hints = .ok terms) ∧
        (∃ cost, costTerm text p hints = .ok cost) ∧
        (∃ rate, recentErrorRate text p observed = .ok rate) ∧
        ∃ multiplier, priorityMultiplier text p = .ok multiplier := by
  simp only [explainScore, Except.bind_eq_ok_iff, Except.pure_eq_ok_iff]
  constructor
  · rintro ⟨e, terms, hterms, cost, hcost, rate, hrate, multiplier, hmultiplier, -⟩
    exact ⟨⟨terms, hterms⟩, ⟨cost, hcost⟩, ⟨rate, hrate⟩, multiplier, hmultiplier⟩
  · rintro ⟨⟨terms, hterms⟩, ⟨cost, hcost⟩, ⟨rate, hrate⟩, multiplier, hmultiplier⟩
    exact ⟨_, terms, hterms, cost, hcost, rate, hrate, multiplier, hmultiplier, rfl⟩

theorem latencyTerms_returns (hlatency : hints.latencySensitive = true) :
    (∃ terms, latencyTerms text p hints = .ok terms) ↔
      (∃ coldStart, coldStartP50Ms text p = .ok coldStart) ∧
        ∃ bonus, warmBonus text p = .ok bonus := by
  simp only [latencyTerms, hlatency, if_true, warmBonus, Except.bind_eq_ok_iff,
    Except.pure_eq_ok_iff]
  constructor
  · rintro ⟨terms, coldStart, hcold, warm, hwarm, -⟩
    exact ⟨⟨coldStart, hcold⟩, _, warm, hwarm, rfl⟩
  · rintro ⟨⟨coldStart, hcold⟩, bonus, warm, hwarm, -⟩
    exact ⟨_, coldStart, hcold, warm, hwarm, rfl⟩

theorem explainScore_returns_iff (hlatency : hints.latencySensitive = true) :
    (∃ e, explainScore text p hints observed = .ok e) ↔
      (∃ coldStart, coldStartP50Ms text p = .ok coldStart) ∧
        (∃ bonus, warmBonus text p = .ok bonus) ∧
        ∃ e, explainScore text p { hints with latencySensitive := false } observed = .ok e := by
  have hplain : ∃ terms, latencyTerms text p { hints with latencySensitive := false } =
      .ok terms := ⟨_, rfl⟩
  have hcost : costTerm text p { hints with latencySensitive := false } =
      costTerm text p hints := rfl
  rw [explainScore_returns, explainScore_returns, latencyTerms_returns hlatency, hcost]
  simp only [hplain, true_and, and_assoc]

theorem candidate_returns_iff (hlatency : hints.latencySensitive = true) (observed : Observed) :
    (∃ c, candidateForProvider text hints observed p = .ok c) ↔
      (∃ c, candidateForProvider text { hints with latencySensitive := false } observed p = .ok c) ∧
        (∃ coldStart, coldStartP50Ms text p = .ok coldStart) ∧
        ∃ bonus, warmBonus text p = .ok bonus := by
  simp only [candidateForProvider, Except.bind_eq_ok_iff, Except.pure_eq_ok_iff]
  constructor
  · rintro ⟨c, id, hid, metrics, hmetrics, e, he, fallbackFor, hfallbacks, chain, hchain, -⟩
    obtain ⟨hcold, hbonus, e', he'⟩ := (explainScore_returns_iff hlatency).mp ⟨e, he⟩
    exact ⟨⟨_, id, hid, metrics, hmetrics, e', he', fallbackFor, hfallbacks, chain, hchain, rfl⟩,
      hcold, hbonus⟩
  · rintro ⟨⟨c, id, hid, metrics, hmetrics, e', he', fallbackFor, hfallbacks, chain, hchain, -⟩,
      hcold, hbonus⟩
    obtain ⟨e, he⟩ := (explainScore_returns_iff hlatency).mpr ⟨hcold, hbonus, e', he'⟩
    exact ⟨_, id, hid, metrics, hmetrics, e, he, fallbackFor, hfallbacks, chain, hchain, rfl⟩

def PlanOptions.patient (options : PlanOptions) (request : RoutingRequest) : PlanOptions :=
  { options with hints := some { options.activeHints request with latencySensitive := false } }

variable {σ : Type} {reader : CapacityReader σ} {state : σ} {request : RoutingRequest}
  {options : PlanOptions} {now : Instant} {providers : List ProviderLike}

theorem plan_returns_iff (hreader : reader.Answers) (hfew : options.maxAttempts ≤ 1025)
    (hlatency : (options.activeHints request).latencySensitive = true) :
    (∃ plan, planRoute text reader state request options now providers = .ok plan) ↔
      (∃ plan, planRoute text reader state request (options.patient request) now providers =
        .ok plan) ∧
        ∀ q ∈ providers, PassesGates text request options now q →
          (∃ coldStart, coldStartP50Ms text q = .ok coldStart) ∧
            ∃ bonus, warmBonus text q = .ok bonus := by
  have hgates : GatesReturn text request (options.patient request) now providers ↔
      GatesReturn text request options now providers := Iff.rfl
  have hpasses : ∀ q, PassesGates text request (options.patient request) now q ↔
      PassesGates text request options now q := fun q =>
    ⟨fun h => ⟨h.1, h.2, h.3, h.4⟩, fun h => ⟨h.1, h.2, h.3, h.4⟩⟩
  have hplannable : ∀ q, Plannable text request options q ↔
      Plannable text request (options.patient request) q ∧
        (∃ coldStart, coldStartP50Ms text q = .ok coldStart) ∧
        ∃ bonus, warmBonus text q = .ok bonus := by
    intro q
    constructor
    · rintro ⟨hcandidate, hpriority, hcapacity⟩
      obtain ⟨hpatient, hreads⟩ := (candidate_returns_iff hlatency options.observed).mp hcandidate
      exact ⟨⟨hpatient, hpriority, hcapacity⟩, hreads⟩
    · rintro ⟨⟨hpatient, hpriority, hcapacity⟩, hreads⟩
      exact ⟨(candidate_returns_iff hlatency options.observed).mpr ⟨hpatient, hreads⟩, hpriority,
        hcapacity⟩
  have hfew' : (options.patient request).maxAttempts ≤ 1025 := hfew
  rw [planRoute_returns_iff hreader hfew, planRoute_returns_iff hreader hfew', hgates]
  simp only [hpasses, hplannable, and_assoc]
  constructor
  · rintro ⟨hreturn, h⟩
    exact ⟨hreturn, fun q hq hgate => (h q hq hgate).1, fun q hq hgate => (h q hq hgate).2⟩
  · rintro ⟨hreturn, hpatient, hreads⟩
    exact ⟨hreturn, fun q hq hgate => ⟨hpatient q hq hgate, hreads q hq hgate⟩⟩

end Plans

/-- For a record that `_current_warm_count` accepts, the scorer grants the right bonus exactly when
its own first value agrees; the bonus in a score is this one; and a latency-sensitive plan over the
record, all else being readable, returns exactly when the scorer can read it. -/
theorem warm_readers_agree_iff (text : PyString) (p : ProviderLike) (n : Int)
    (haccepts : currentWarmCount text p .endpointWorkers = .ok n) :
    (warmBonus text p = .ok (if 1 ≤ n then .ofRat 20 else .ofRat 0) ↔ ReadersAgree text p) ∧
      (∀ hints observed e, hints.latencySensitive = true →
        explainScore text p hints observed = .ok e → warmBonus text p = .ok e.warmWorkerBonus) ∧
      ∀ (σ : Type) (reader : CapacityReader σ) (state : σ) (request : RoutingRequest)
        (options : PlanOptions) (now : Instant) (providers : List ProviderLike),
        reader.Answers → options.maxAttempts ≤ 1025 →
        (options.activeHints request).latencySensitive = true →
        p ∈ providers → PassesGates text request options now p →
        (∃ plan, planRoute text reader state request (options.patient request) now providers =
          .ok plan) →
        (∀ q ∈ providers, PassesGates text request options now q →
          (∃ coldStart, coldStartP50Ms text q = .ok coldStart) ∧
            (q ≠ p → ∃ bonus, warmBonus text q = .ok bonus)) →
        ((∃ plan, planRoute text reader state request options now providers = .ok plan) ↔
          ∃ bonus, warmBonus text p = .ok bonus) := by
  refine ⟨warmBonus_of_count haccepts, fun hints observed e => explainScore_bonus, ?_⟩
  intro σ reader state request options now providers hreader hfew hlatency hp hpasses hpatient
    hothers
  rw [plan_returns_iff hreader hfew hlatency]
  constructor
  · rintro ⟨-, hreads⟩
    exact (hreads p hp hpasses).2
  · intro hbonus
    refine ⟨hpatient, fun q hq hgate => ⟨(hothers q hq hgate).1, ?_⟩⟩
    by_cases hsame : q = p
    · rw [hsame]
      exact hbonus
    · exact (hothers q hq hgate).2 hsame

def serverless (id : String) (id_ne : id ≠ "") (config : List (String × PyValue)) : ProviderLike :=
  .model (sampleProvider id id_ne .serverlessLb config)

def hurriedOptions : PlanOptions := { defaultOptions with hints := some latencyHints }

def flatWorkers : ProviderLike := serverless "flat" (by decide) [("warm_workers", .int 1)]

theorem flatWorkers_agree : ReadersAgree scoreText flatWorkers := by
  obtain ⟨q, hq, hvalue⟩ := ofRat_natCast 1 (by norm_num)
  rw [Nat.cast_one] at hq hvalue
  refine ⟨.finite 1, q, rfl, congrArg some hq, ?_, ?_⟩
  · rw [hvalue]
    norm_num
  · exact iff_of_true hvalue.ge ⟨1, rfl, le_rfl⟩

theorem flatWorkers_passes :
    PassesGates scoreText sampleRequest hurriedOptions 0 flatWorkers where
  constraints := rfl
  enabled := rfl
  healthy := by decide
  cooldown := rfl

theorem flatWorkers_patient : ∃ plan, planRoute scoreText openCapacity () sampleRequest
    (hurriedOptions.patient sampleRequest) 0 [serverless "plain" (by decide) [], flatWorkers] =
      .ok plan := by
  have hids : (planRoute scoreText openCapacity () sampleRequest
      (hurriedOptions.patient sampleRequest) 0 [serverless "plain" (by decide) [],
        flatWorkers]).map (fun plan => plan.rankedCandidates.map RouteCandidate.providerId) =
      .ok ["flat", "plain"] := by decide +kernel
  exact (Except.map_eq_ok_iff.mp hids).imp fun plan hplan => hplan.1

/-- The bonus is granted, in each score that is explained, and the plan for a latency-sensitive
request is returned. -/
theorem warm_readers_agree_on_flat :
    warmBonus scoreText flatWorkers = .ok (.ofRat 20) ∧
      (∀ e, explainScore scoreText flatWorkers latencyHints .default = .ok e →
        e.warmWorkerBonus = .ofRat 20) ∧
      ∃ plan, planRoute scoreText openCapacity () sampleRequest hurriedOptions 0
        [serverless "plain" (by decide) [], flatWorkers] = .ok plan := by
  obtain ⟨hbonus, hexplained, hplans⟩ := warm_readers_agree_iff scoreText flatWorkers 1 rfl
  have htwenty := hbonus.mpr flatWorkers_agree
  refine ⟨htwenty, fun e he => ?_, ?_⟩
  · exact Except.ok.inj ((hexplained latencyHints .default e rfl he).symm.trans htwenty)
  · refine (hplans Unit openCapacity () sampleRequest hurriedOptions 0
      [serverless "plain" (by decide) [], flatWorkers] (fun _ _ => ⟨_, rfl⟩) (by decide) rfl
      (by simp) flatWorkers_passes flatWorkers_patient fun q hq _ => ?_).mpr ⟨_, htwenty⟩
    rcases List.mem_pair.mp hq with rfl | rfl
    · exact ⟨⟨_, rfl⟩, fun _ => ⟨_, rfl⟩⟩
    · exact ⟨⟨_, rfl⟩, fun hne => absurd rfl hne⟩

def seededWorkers : ProviderLike :=
  serverless "seeded" (by decide) [("workers", .dict [("workers_min", .int 0)])]

def plannedIds (options : PlanOptions) (providers : List ProviderLike) :
    Except PyError (List String) :=
  (planRoute asciiText openCapacity () sampleRequest options 0 providers).map fun plan =>
    plan.rankedCandidates.map RouteCandidate.providerId

/-- The count accepts the seeded shape, and no latency-sensitive plan over it is returned, though
the plan without the hint and the one without the record are. -/
theorem seeded_workers_stop_plans :
    currentWarmCount asciiText seededWorkers .endpointWorkers = .ok 0 ∧
      warmBonus asciiText seededWorkers = .error (valueError "warm_workers must be numeric") ∧
      plannedIds hurriedOptions [serverless "plain" (by decide) [], seededWorkers] =
        .error (valueError "warm_workers must be numeric") ∧
      plannedIds defaultOptions [serverless "plain" (by decide) [], seededWorkers] =
        .ok ["plain", "seeded"] ∧
      plannedIds hurriedOptions [serverless "plain" (by decide) []] = .ok ["plain"] := by
  refine ⟨rfl, rfl, ?_, ?_, ?_⟩ <;> decide +kernel

end Pitwall.Routing
