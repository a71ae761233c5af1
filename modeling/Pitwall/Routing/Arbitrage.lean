import Mathlib.Data.Prod.Lex
import Pitwall.Library.Sorting
import Pitwall.Routing.Carbon
set_option autoImplicit false

/-!
Price-latency-carbon arbitrage: the weighted score of an option, the ranking, and which options
can come first.
-/

namespace Pitwall.Routing

structure ArbitrageOption where
  providerId : String
  gpu : String
  price : DecimalNumber
  latencyMs : DecimalNumber
  region : Option String
  deriving DecidableEq

structure ScoredOption where
  providerId : String
  gpu : String
  price : ℚ
  latencyMs : ℚ
  region : Option String
  deriving DecidableEq

structure ArbitrageScore where
  option : ScoredOption
  lambdaWeight : ℚ
  objective : ℚ
  costComponent : ℚ
  latencyComponent : ℚ
  carbonWeight : ℚ
  carbonIntensity : ℚ
  carbonComponent : ℚ
  costWeight : ℚ
  deriving DecidableEq

/-- The keyword arguments that the three entry points share. -/
structure ArbitrageCall where
  lambdaWeight : DecimalNumber
  carbonWeight : DecimalNumber
  carbonSource : Option CarbonIntensitySource
  costWeight : DecimalNumber

/-- The intensity that a score uses: zero where no source is given and carbon has no weight. -/
def ArbitrageCall.intensity (call : ArbitrageCall) (carbonWeight : ℚ) (providerId : String)
    (region : Option String) : Except PyError ℚ :=
  if call.carbonSource.isSome ∨ 0 < carbonWeight then do
    let source := call.carbonSource.getD defaultCarbonIntensitySource.source
    let intensity ← source.intensityFor providerId region
    nonNegativeOperand intensity "carbon intensity"
  else .ok 0

/-- `score_arbitrage_option`. -/
def scoreArbitrageOption (call : ArbitrageCall) (o : ArbitrageOption) :
    Except PyError ArbitrageScore := do
  let providerId ← requiredString o.providerId "provider_id"
  let gpu ← requiredString o.gpu "gpu"
  let price ← nonNegativeOperand o.price "price"
  let latencyMs ← nonNegativeOperand o.latencyMs "latency_ms"
  let region ← optionalNonEmptyString o.region "region"
  let costWeight ← nonNegativeOperand call.costWeight "cost_weight"
  let lambdaWeight ← nonNegativeOperand call.lambdaWeight "lambda_weight"
  let carbonWeight ← nonNegativeOperand call.carbonWeight "carbon_weight"
  let intensity ← call.intensity carbonWeight providerId region
  let blended := scoreCarbonObjective price latencyMs intensity
    ⟨costWeight, lambdaWeight, carbonWeight⟩
  pure
    { option := ⟨providerId, gpu, price, latencyMs, region⟩
      lambdaWeight := lambdaWeight
      objective := blended.objective
      costComponent := blended.costComponent
      latencyComponent := blended.latencyComponent
      carbonWeight := carbonWeight
      carbonIntensity := blended.carbonIntensity
      carbonComponent := blended.carbonComponent
      costWeight := costWeight }

/-- `_score_sort_key`. -/
def ArbitrageScore.sortKey (s : ArbitrageScore) : ℚ ×ₗ ℚ ×ₗ ℚ ×ₗ ℚ ×ₗ String ×ₗ String :=
  toLex (s.objective, toLex (s.costComponent, toLex (s.option.latencyMs,
    toLex (s.carbonComponent, toLex (s.option.providerId, s.option.gpu)))))

def scoreLt (a b : ArbitrageScore) : Bool := decide (a.sortKey < b.sortKey)

/-- `sort_arbitrage_options`. -/
def sortArbitrageOptions (call : ArbitrageCall) (options : List ArbitrageOption) :
    Except PyError (List ArbitrageScore) :=
  sortedBy scoreLt <$> options.mapM (scoreArbitrageOption call)

/-- `select_arbitrage_option`. -/
def selectArbitrageOption (call : ArbitrageCall) (options : List ArbitrageOption) :
    Except PyError ArbitrageScore := do
  match ← sortArbitrageOptions call options with
  | [] => .error (valueError "options must contain at least one option")
  | first :: _ => pure first

/-- No worse in any dimension and better in one. -/
def Dominates (a b : ArbitrageScore) : Prop :=
  (a.option.price ≤ b.option.price ∧ a.option.latencyMs ≤ b.option.latencyMs ∧
    a.carbonIntensity ≤ b.carbonIntensity) ∧
  (a.option.price < b.option.price ∨ a.option.latencyMs < b.option.latencyMs ∨
    a.carbonIntensity < b.carbonIntensity)

/-- No worse in any dimension, and better in latency or in a dimension that has a weight. -/
def DominatesWeighted (a b : ArbitrageScore) : Prop :=
  (a.option.price ≤ b.option.price ∧ a.option.latencyMs ≤ b.option.latencyMs ∧
    a.carbonIntensity ≤ b.carbonIntensity) ∧
  (0 < b.costWeight ∧ a.option.price < b.option.price ∨ a.option.latencyMs < b.option.latencyMs ∨
    0 < b.carbonWeight ∧ a.carbonIntensity < b.carbonIntensity)

section Score
variable {call : ArbitrageCall} {o o' : ArbitrageOption} {a b : ArbitrageScore}

theorem scoreArbitrageOption_ok (h : scoreArbitrageOption call o = .ok a) :
    a.option.providerId = o.providerId ∧ a.option.gpu = o.gpu ∧
    (call.costWeight = .finite a.costWeight ∧ 0 ≤ a.costWeight) ∧
    (call.lambdaWeight = .finite a.lambdaWeight ∧ 0 ≤ a.lambdaWeight) ∧
    (call.carbonWeight = .finite a.carbonWeight ∧ 0 ≤ a.carbonWeight) ∧
    a.costComponent = a.costWeight * a.option.price ∧
    a.carbonComponent = a.carbonWeight * a.carbonIntensity ∧
    a.objective = a.costWeight * a.option.price + a.lambdaWeight * a.option.latencyMs +
      a.carbonWeight * a.carbonIntensity := by
  simp only [scoreArbitrageOption, Except.bind_eq_ok_iff, Except.pure_eq_ok_iff] at h
  obtain ⟨providerId, hid, gpu, hgpu, price, -, latencyMs, -, region, -, costWeight, hcost,
    lambdaWeight, hlambda, carbonWeight, hcarbon, intensity, -, rfl⟩ := h
  exact ⟨requiredString_ok hid, requiredString_ok hgpu, nonNegativeOperand_ok hcost,
    nonNegativeOperand_ok hlambda, nonNegativeOperand_ok hcarbon, rfl, rfl, rfl⟩

theorem weights_eq (ha : scoreArbitrageOption call o = .ok a)
    (hb : scoreArbitrageOption call o' = .ok b) :
    a.costWeight = b.costWeight ∧ a.lambdaWeight = b.lambdaWeight ∧
      a.carbonWeight = b.carbonWeight := by
  obtain ⟨-, -, ⟨hcost, -⟩, ⟨hlambda, -⟩, ⟨hcarbon, -⟩, -⟩ := scoreArbitrageOption_ok ha
  obtain ⟨-, -, ⟨hcost', -⟩, ⟨hlambda', -⟩, ⟨hcarbon', -⟩, -⟩ := scoreArbitrageOption_ok hb
  simp_all

theorem sortKey_lt_of_dominates (ha : scoreArbitrageOption call o = .ok a)
    (hb : scoreArbitrageOption call o' = .ok b) (h : DominatesWeighted a b) :
    a.sortKey < b.sortKey := by
  obtain ⟨hcostWeight, hlambdaWeight, hcarbonWeight⟩ := weights_eq ha hb
  obtain ⟨-, -, -, -, -, hcostA, hcarbonA, hobjectiveA⟩ := scoreArbitrageOption_ok ha
  obtain ⟨-, -, ⟨-, hcost0⟩, ⟨-, hlambda0⟩, ⟨-, hcarbon0⟩, hcostB, hcarbonB, hobjectiveB⟩ :=
    scoreArbitrageOption_ok hb
  obtain ⟨⟨hprice, hlatency, hintensity⟩, hbetter⟩ := h
  rw [hcostWeight] at hcostA hobjectiveA
  rw [hlambdaWeight] at hobjectiveA
  rw [hcarbonWeight] at hcarbonA hobjectiveA
  have hcost := mul_le_mul_of_nonneg_left hprice hcost0
  have hlambda := mul_le_mul_of_nonneg_left hlatency hlambda0
  have hcarbon := mul_le_mul_of_nonneg_left hintensity hcarbon0
  have hobjective : a.objective ≤ b.objective := by
    rw [hobjectiveA, hobjectiveB]
    exact add_le_add (add_le_add hcost hlambda) hcarbon
  simp only [ArbitrageScore.sortKey, Prod.Lex.toLex_lt_toLex]
  rcases hbetter with ⟨hweight, hlt⟩ | hlt | ⟨hweight, hlt⟩
  · left
    have hstrict := mul_lt_mul_of_pos_left hlt hweight
    rw [hobjectiveA, hobjectiveB]
    exact add_lt_add_of_lt_of_le (add_lt_add_of_lt_of_le hstrict hlambda) hcarbon
  · rcases hobjective.lt_or_eq with hobjective | hobjective
    · exact .inl hobjective
    · refine .inr ⟨hobjective, ?_⟩
      rw [hcostA, hcostB]
      rcases hcost.lt_or_eq with hcost | hcost
      · exact .inl hcost
      · exact .inr ⟨hcost, .inl hlt⟩
  · left
    have hstrict := mul_lt_mul_of_pos_left hlt hweight
    rw [hobjectiveA, hobjectiveB]
    exact add_lt_add_of_le_of_lt (add_le_add hcost hlambda) hstrict

theorem comparesBy_sortKey (scores : List ArbitrageScore) :
    ComparesBy scoreLt ArbitrageScore.sortKey scores := fun a _ b _ => by simp [scoreLt]

theorem ids_of_scores {options : List ArbitrageOption} {scores : List ArbitrageScore}
    (h : options.mapM (scoreArbitrageOption call) = .ok scores) :
    scores.map (fun s => (s.option.providerId, s.option.gpu)) =
      options.map fun o => (o.providerId, o.gpu) :=
  List.map_of_mapM_eq_ok h fun o _ s hs => by
    obtain ⟨hid, hgpu, -⟩ := scoreArbitrageOption_ok hs
    rw [hid, hgpu]

end Score

/-- The selected option is not dominated in latency or in a dimension that has a weight, and the
ranking forgets the order of the options. -/
theorem select_not_dominated (call : ArbitrageCall) (options : List ArbitrageOption)
    (hdistinct : (options.map fun o => (o.providerId, o.gpu)).Nodup) :
    (∀ selected, selectArbitrageOption call options = .ok selected →
      ∀ o ∈ options, ∀ other, scoreArbitrageOption call o = .ok other →
        ¬ DominatesWeighted other selected) ∧
    ∀ options' ranked, options.Perm options' → sortArbitrageOptions call options = .ok ranked →
      sortArbitrageOptions call options' = .ok ranked := by
  constructor
  · intro selected hselected o ho other hother hdominates
    simp only [selectArbitrageOption, sortArbitrageOptions, Except.bind_eq_ok_iff,
      Except.map_eq_ok_iff] at hselected
    obtain ⟨ranked, ⟨scores, hscores, rfl⟩, hfirst⟩ := hselected
    cases hsorted : sortedBy scoreLt scores with
    | nil => simp [hsorted] at hfirst
    | cons first rest =>
      rw [hsorted] at hfirst
      obtain rfl := Except.pure_eq_ok_iff.mp hfirst
      have hhead : first ∈ sortedBy scoreLt scores := by
        rw [hsorted]
        exact List.mem_cons_self
      have hmem : first ∈ scores := mem_sortedBy.mp hhead
      obtain ⟨o', -, hscore⟩ := List.mem_of_mapM_eq_ok hscores hmem
      obtain ⟨other', hmem', hother'⟩ := List.exists_mem_of_mapM_eq_ok hscores ho
      obtain rfl := Except.ok.inj (hother.symm.trans hother')
      have hle := le_of_head?_sortedBy (comparesBy_sortKey scores) (by rw [hsorted]; rfl) other hmem'
      exact absurd (sortKey_lt_of_dominates hother hscore hdominates) (not_lt.mpr hle)
  · intro options' ranked hperm hranked
    obtain ⟨scores, hscores, rfl⟩ := Except.map_eq_ok_iff.mp hranked
    obtain ⟨scores', hscores', hperm'⟩ := hperm.mapM_eq_ok hscores
    refine Except.map_eq_ok_iff.mpr ⟨scores', hscores', ?_⟩
    refine (sortedBy_eq_of_perm (comparesBy_sortKey scores) (fun a ha b hb hkey => ?_) hperm').symm
    have hnodup : (scores.map fun s => (s.option.providerId, s.option.gpu)).Nodup := by
      rw [ids_of_scores hscores]
      exact hdistinct
    refine List.inj_on_of_nodup_map hnodup ha hb ?_
    simp only [ArbitrageScore.sortKey, toLex_inj, Prod.mk.injEq] at hkey
    exact Prod.ext hkey.2.2.2.2.1 hkey.2.2.2.2.2

def latencyOnly : ArbitrageCall := ⟨.finite 1, .finite 0, none, .finite 0⟩

def pricedOption (providerId : String) (price : ℚ) : ArbitrageOption :=
  ⟨providerId, "NVIDIA L4", .finite price, .finite 100, none⟩

/-- The score of `pricedOption` under `latencyOnly`. -/
def latencyScore (providerId : String) (price : ℚ) : ArbitrageScore :=
  ⟨⟨providerId, "NVIDIA L4", price, 100, none⟩, 1, 100, 0, 100, 0, 0, 0, 0⟩

theorem latencyOnly_selects :
    selectArbitrageOption latencyOnly [pricedOption "a" 2, pricedOption "b" 1] =
      .ok (latencyScore "a" 2) ∧
    scoreArbitrageOption latencyOnly (pricedOption "b" 1) = .ok (latencyScore "b" 1) := by
  decide +kernel

/-- Without a cost weight the dearer of two options that are alike otherwise is selected. -/
theorem zero_weight_selects_dominated :
    ¬ ∀ (call : ArbitrageCall) (options : List ArbitrageOption),
      (options.map fun o => (o.providerId, o.gpu)).Nodup →
      (∀ selected, selectArbitrageOption call options = .ok selected →
        ∀ o ∈ options, ∀ other, scoreArbitrageOption call o = .ok other →
          ¬ Dominates other selected) ∧
      ∀ options' ranked, options.Perm options' → sortArbitrageOptions call options = .ok ranked →
        sortArbitrageOptions call options' = .ok ranked := by
  intro h
  obtain ⟨hselected, -⟩ := h latencyOnly [pricedOption "a" 2, pricedOption "b" 1] (by decide)
  refine hselected _ latencyOnly_selects.1 (pricedOption "b" 1) (by simp) _
    latencyOnly_selects.2 ?_
  unfold Dominates latencyScore
  norm_num

/-- The same options in the other order. -/
theorem select_not_dominated_of_two :
    ¬ DominatesWeighted (latencyScore "b" 1) (latencyScore "a" 2) ∧
    ∀ ranked, sortArbitrageOptions latencyOnly [pricedOption "a" 2, pricedOption "b" 1] =
        .ok ranked →
      sortArbitrageOptions latencyOnly [pricedOption "b" 1, pricedOption "a" 2] = .ok ranked := by
  have h := select_not_dominated latencyOnly [pricedOption "a" 2, pricedOption "b" 1] (by decide)
  exact ⟨h.1 _ latencyOnly_selects.1 (pricedOption "b" 1) (by simp) _ latencyOnly_selects.2,
    fun ranked => h.2 _ ranked (List.Perm.swap _ _ _)⟩

end Pitwall.Routing
