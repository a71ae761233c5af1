import Mathlib
import Pitwall.Cost.Estimator
import Pitwall.Library.Dictionary
import Pitwall.Library.Binary64Order
import Pitwall.Routing.PlanSafety
import Pitwall.Routing.Scoring
set_option autoImplicit false

/-!
The rate that the scorer reads of a provider record beside the one that its pricing model is parsed
from.
-/

namespace Pitwall.Routing
open Pricing

section Parse
variable (text : PyString)

/-- `parse_pricing_model`, behind `_cost_mapping`. -/
def pricingOfCost (cost : List (String × PyValue)) (costMode : CostMode) :
    Except PyError TaggedPricingModel :=
  if (cost.lookup "kind").isSome || (cost.lookup "model").isSome then taggedPricingModel text cost
  else
    match costMode with
    | .perSecond => .gpuHour <$> requiredNonNegativeDecimal text cost "per_second_active"
    | .perRequest => .perRequest <$> requiredNonNegativeDecimal text cost "per_request"
    | .perToken => do
        let input ← requiredNonNegativeDecimal text cost "per_million_input_tokens"
        .perToken input <$> requiredNonNegativeDecimal text cost "per_million_output_tokens"

/-- `_cost_mapping` of a provider record; the model has no attribute `cost`. -/
def recordCost : ProviderLike → Except PyError (List (String × PyValue))
  | .mapping entries => .ok (costMapping entries)
  | .model p =>
      match mappingAt p.config "cost" with
      | some cost => .ok cost
      | none => .error (valueError "provider cost must be a mapping or expose a mapping 'cost'")

/-- `parse_pricing_model` of a provider record. -/
def parseRecordPricing (p : ProviderLike) (costMode : CostMode) :
    Except PyError TaggedPricingModel := do
  let cost ← recordCost p
  pricingOfCost text cost costMode

end Parse

def perSecondRate? : TaggedPricingModel → Option ℚ≥0
  | .gpuHour rate | .perSecond rate _ | .perVmSecond rate => some rate
  | .perRequest _ | .perToken _ _ => none

namespace ProviderLike
variable (p : ProviderLike)

/-- `cost`, where it is a mapping. -/
def topCost? : Option (List (String × PyValue)) := (p.field "cost").mapping?

/-- The `cost` of the config, where it is a mapping. -/
def configCost? : Option (List (String × PyValue)) := (p.scoreConfig "cost").mapping?

end ProviderLike

def nested (cost : List (String × PyValue)) : Bool :=
  (mappingAt cost "cost").isSome ||
    ((mappingAt cost "config").bind fun config => mappingAt config "cost").isSome

/-- `kind`, else `model`, which the pricing model is told by. -/
def pricingTag (cost : List (String × PyValue)) : Option PyValue :=
  (cost.lookup "kind").or (cost.lookup "model")

/-- The rate is one for the seconds of activity: an untagged one, or that of a GPU hour. -/
def namesActive (cost : List (String × PyValue)) : Bool :=
  match pricingTag cost with
  | none => true
  | some tag => tag.text? = some "gpu_hour"

def rateEntry (cost : List (String × PyValue)) : PyValue :=
  match pricingTag cost with
  | none => ((costMapping cost).lookup "per_second_active").getD .none
  | some _ => (cost.lookup
      (if namesActive cost then "per_second_active" else "rate_per_second")).getD .none

inductive RatePlace where
  | flat
  | underCost
  | elsewhere
  deriving DecidableEq

/-- The entry `per_second_active` stands in the record itself, under `cost` or under `config.cost`;
the scorer looks for no `rate_per_second`, and into no mapping under another one. -/
def ratePlace (p : ProviderLike) (cost : List (String × PyValue)) : RatePlace :=
  if namesActive cost && !nested cost then
    if (p.topCost?.or p.configCost?).isSome then .underCost else .flat
  else .elsewhere

def entriesBefore (p : ProviderLike) : RatePlace → List PyValue
  | .flat => [p.field "cost_per_second_active"]
  | .underCost => [p.field "cost_per_second_active", p.field "per_second_active",
      p.costValue "cost_per_second_active"]
  | .elsewhere => [p.field "cost_per_second_active", p.field "per_second_active",
      p.costValue "cost_per_second_active", p.costValue "per_second_active",
      p.scoreConfig "cost_per_second_active", p.scoreConfig "per_second_active"]

def SameNumber (text : PyString) (value : PyValue) (rate : ℚ) : Prop :=
  (∀ b, value ≠ .bool b) ∧ (Binary64.ofRat rate).isFinite = true ∧
    ∃ x, text.decimalOf value = some (.finite x) ∧ Binary64.ofRat x = Binary64.ofRat rate

/-- No entry that the scorer takes before the rate names another number, and without such an entry
the scorer looks where the rate stands, or the rate is as good as zero. -/
def FindsNumber (text : PyString) (p : ProviderLike) (place : RatePlace) (rate : ℚ) : Prop :=
  let first := PyValue.firstPresent (entriesBefore p place)
  if first.isNone then
    if place = .elsewhere then Binary64.ofRat rate = .ofRat 0
    else (Binary64.ofRat rate).isFinite = true
  else SameNumber text first rate

/-- The scorer finds the number that the rate of the record is written as. -/
def FindsRate (text : PyString) (p : ProviderLike) : Prop :=
  ∃ cost rate, recordCost p = .ok cost ∧ text.decimalOf (rateEntry cost) = some (.finite rate) ∧
    FindsNumber text p (ratePlace p cost) rate

section Read
variable {text : PyString} {p : ProviderLike} {rate : ℚ≥0} {value : PyValue}

theorem isNone_iff : value.isNone = true ↔ value = .none := by
  cases value <;> simp [PyValue.isNone]

theorem firstPresent_append (xs ys : List PyValue) :
    PyValue.firstPresent (xs ++ ys) =
      if (PyValue.firstPresent xs).isNone then PyValue.firstPresent ys
      else PyValue.firstPresent xs := by
  induction xs with
  | nil => rfl
  | cons v vs ih =>
    rw [List.cons_append, PyValue.firstPresent, PyValue.firstPresent, ih]
    cases hv : v.isNone with
    | true => rfl
    | false => simp [hv]

theorem nonNegativeDecimal_eq_ok {name : String}
    (h : Pricing.nonNegativeDecimal text value name = .ok rate) :
    (∀ b, value ≠ .bool b) ∧ text.decimalOf value = some (.finite rate) := by
  unfold Pricing.nonNegativeDecimal at h
  split at h
  · cases h
  · cases h
  · rename_i number hbool hnumber
    split at h
    · obtain rfl := Except.ok.inj h
      exact ⟨hbool, hnumber⟩
    · cases h
  · cases h

theorem nonNegativeNumber_eq_rate_iff {name : String} (hnone : value ≠ .none) :
    nonNegativeNumber text value name (.ofRat 0) = .ok (Binary64.ofRat rate) ↔
      SameNumber text value rate := by
  constructor
  · intro h
    unfold nonNegativeNumber at h
    split at h
    · exact absurd rfl hnone
    · cases h
    · rename_i hbool
      split at h
      · cases h
      · rename_i parsed hparsed
        split at h
        · cases h
        · have hrate : Binary64.finite parsed = Binary64.ofRat rate := Except.ok.inj h
          obtain ⟨number, hnumber, hfloat⟩ := Option.bind_eq_some_iff.mp hparsed
          refine ⟨hbool, by rw [← hrate]; rfl, ?_⟩
          cases number with
          | finite x => exact ⟨x, hnumber, (Option.some.inj hfloat).trans hrate⟩
          | infinite negative => cases hfloat
          | nan signaling =>
            cases signaling with
            | true => cases hfloat
            | false => cases hfloat
      · cases h
  · rintro ⟨hbool, hfinite, x, hx, hsame⟩
    have hparsed : (text.decimalOf value).bind DecimalNumber.toBinary64 =
        some (Binary64.ofRat rate) := by
      rw [hx, ← hsame]
      rfl
    have hnonneg : (Binary64.ofRat rate).NonNeg := Binary64.nonNeg_ofRat rate.coe_nonneg
    unfold nonNegativeNumber
    split
    · exact absurd rfl hnone
    · exact absurd rfl (hbool _)
    · rw [hparsed]
      cases hvalue : Binary64.ofRat rate with
      | finite parsed =>
        rw [hvalue] at hnonneg
        dsimp only
        rw [if_neg (not_lt.mpr hnonneg)]
      | infinite negative =>
        rw [hvalue] at hfinite
        cases hfinite
      | nan => exact absurd hvalue (Binary64.ofRat_ne_nan _)

end Read

section Entry
variable {text : PyString} {p : ProviderLike} {cost : List (String × PyValue)} {key : String}
  {value : PyValue}

theorem mapping?_getD (value : Option PyValue) :
    (value.getD .none).mapping? = value.bind PyValue.mapping? := by
  cases value with
  | none => rfl
  | some value => rfl

theorem topCost?_mapping (entries : List (String × PyValue)) :
    (ProviderLike.mapping entries).topCost? = mappingAt entries "cost" :=
  mapping?_getD (entries.lookup "cost")

theorem mapping?_scoreConfig (p : ProviderLike) (key : String) :
    (p.scoreConfig key).mapping? = mappingAt p.config key :=
  mapping?_getD (p.config.lookup key)

theorem configCost?_mapping (entries : List (String × PyValue)) :
    (ProviderLike.mapping entries).configCost? =
      (mappingAt entries "config").bind fun config => mappingAt config "cost" := by
  have hconfig : (ProviderLike.mapping entries).config = (mappingAt entries "config").getD [] :=
    congrArg (fun config => config.getD []) (mapping?_getD (entries.lookup "config"))
  rw [ProviderLike.configCost?, mapping?_scoreConfig, hconfig]
  cases mappingAt entries "config" with
  | none => rfl
  | some config => rfl

theorem recordCost_of_some (h : p.topCost?.or p.configCost? = some cost) :
    recordCost p = .ok cost := by
  cases p with
  | mapping entries =>
    rw [topCost?_mapping, configCost?_mapping] at h
    cases htop : mappingAt entries "cost" with
    | some top =>
      rw [htop] at h
      obtain rfl : top = cost := by simpa using h
      simp only [recordCost, costMapping, htop]
    | none =>
      rw [htop, Option.none_or] at h
      simp only [recordCost, costMapping, htop, h]
  | model p =>
    have htop : (ProviderLike.model p).topCost? = none := rfl
    have hconfig : (ProviderLike.model p).configCost? = mappingAt p.config "cost" :=
      mapping?_scoreConfig (.model p) "cost"
    rw [htop, hconfig, Option.none_or] at h
    simp only [recordCost, h]

theorem costMapping_of_not_nested (h : nested cost = false) : costMapping cost = cost := by
  simp only [nested, Bool.or_eq_false_iff, Option.isSome_eq_false_iff, Option.isNone_iff_eq_none]
    at h
  simp only [costMapping, h.1, h.2]

theorem recordCost_of_none (h : p.topCost?.or p.configCost? = none)
    (hok : recordCost p = .ok cost) : p = .mapping cost := by
  rw [Option.or_eq_none_iff] at h
  cases p with
  | mapping entries =>
    rw [topCost?_mapping, configCost?_mapping] at h
    have hflat : nested entries = false := by rw [nested, h.1, h.2]; rfl
    obtain rfl : entries = cost :=
      (costMapping_of_not_nested hflat).symm.trans (Except.ok.inj hok)
    rfl
  | model p =>
    have hconfig : mappingAt p.config "cost" = none :=
      (mapping?_scoreConfig (.model p) "cost").symm.trans h.2
    simp only [recordCost, hconfig] at hok
    cases hok

theorem costValue_of_lookup (h : p.topCost?.or p.configCost? = some cost)
    (hvalue : cost.lookup key = some value) : p.costValue key = value := by
  have htopCost : (p.field "cost").mapping? = p.topCost? := rfl
  have hconfigCost : (p.scoreConfig "cost").mapping? = p.configCost? := rfl
  rw [ProviderLike.costValue, htopCost, hconfigCost]
  cases htop : p.topCost? with
  | some top =>
    rw [htop] at h
    obtain rfl : top = cost := by simpa using h
    simp [hvalue]
  | none =>
    rw [htop, Option.none_or] at h
    simp [h, hvalue]

theorem pricingField_eq_ok {field : String} {rate : ℚ≥0}
    (h : pricingField text (cost.filter fun entry => entry.1 ≠ "model") field = .ok rate)
    (hfield : field ≠ "model") :
    Pricing.nonNegativeDecimal text ((cost.lookup field).getD .none) field = .ok rate := by
  unfold pricingField at h
  rw [List.lookup_filter_ne hfield] at h
  split at h
  · cases h
  · rename_i value hvalue
    rw [hvalue]
    split at h
    · rename_i number hnumber
      obtain rfl := Except.ok.inj h
      exact hnumber
    · cases h

theorem rateEntry_of_tagged {pricing : TaggedPricingModel} {rate : ℚ≥0}
    (htag : (pricingTag cost).isSome = true)
    (h : taggedPricingModel text cost = .ok pricing) (hrate : perSecondRate? pricing = some rate) :
    ∃ name, Pricing.nonNegativeDecimal text (rateEntry cost) name = .ok rate := by
  have hdata : ((cost.filter fun entry => entry.1 ≠ "model").lookup "kind").or
      (cost.lookup "model") = pricingTag cost := by
    rw [List.lookup_filter_ne (by decide)]
    rfl
  obtain ⟨tag, htag⟩ := Option.isSome_iff_exists.mp htag
  have hentry : rateEntry cost = (cost.lookup
      (if tag.text? = some "gpu_hour" then "per_second_active" else "rate_per_second")).getD
        .none := by
    simp only [rateEntry, namesActive, htag, decide_eq_true_eq]
  unfold taggedPricingModel at h
  dsimp only at h
  rw [hdata, htag, Option.bind_some] at h
  rw [hentry]
  split at h
  · rename_i hkind
    obtain ⟨-, -, h⟩ := Except.bind_eq_ok_iff.mp h
    obtain ⟨read, hread, rfl⟩ := Except.map_eq_ok_iff.mp h
    obtain rfl : read = rate := Option.some.inj hrate
    rw [if_pos hkind]
    exact ⟨_, pricingField_eq_ok hread (by decide)⟩
  · obtain ⟨-, -, h⟩ := Except.bind_eq_ok_iff.mp h
    obtain ⟨_, -, rfl⟩ := Except.map_eq_ok_iff.mp h
    cases hrate
  · rename_i hkind
    obtain ⟨-, -, h⟩ := Except.bind_eq_ok_iff.mp h
    obtain ⟨read, hread, h⟩ := Except.bind_eq_ok_iff.mp h
    obtain ⟨_, -, rfl⟩ := Except.map_eq_ok_iff.mp h
    obtain rfl : read = rate := Option.some.inj hrate
    rw [if_neg (by rw [hkind]; decide)]
    exact ⟨_, pricingField_eq_ok hread (by decide)⟩
  · obtain ⟨-, -, h⟩ := Except.bind_eq_ok_iff.mp h
    obtain ⟨_, -, h⟩ := Except.bind_eq_ok_iff.mp h
    obtain ⟨_, -, rfl⟩ := Except.map_eq_ok_iff.mp h
    cases hrate
  · rename_i hkind
    obtain ⟨-, -, h⟩ := Except.bind_eq_ok_iff.mp h
    obtain ⟨read, hread, rfl⟩ := Except.map_eq_ok_iff.mp h
    obtain rfl : read = rate := Option.some.inj hrate
    rw [if_neg (by rw [hkind]; decide)]
    exact ⟨_, pricingField_eq_ok hread (by decide)⟩
  · cases h

theorem rateEntry_of_pricing {pricing : TaggedPricingModel} {rate : ℚ≥0} {costMode : CostMode}
    (h : pricingOfCost text cost costMode = .ok pricing)
    (hrate : perSecondRate? pricing = some rate) :
    ∃ name, Pricing.nonNegativeDecimal text (rateEntry cost) name = .ok rate := by
  have htag : ((cost.lookup "kind").isSome || (cost.lookup "model").isSome) =
      (pricingTag cost).isSome := (Option.isSome_or).symm
  unfold pricingOfCost at h
  rw [htag] at h
  split at h
  · rename_i hsome
    exact rateEntry_of_tagged hsome h hrate
  · rename_i hnone
    rw [Option.not_isSome_iff_eq_none] at hnone
    have hentry : rateEntry cost =
        ((costMapping cost).lookup "per_second_active").getD .none := by
      simp only [rateEntry, hnone]
    rw [hentry]
    split at h
    · obtain ⟨read, hread, rfl⟩ := Except.map_eq_ok_iff.mp h
      obtain rfl : read = rate := Option.some.inj hrate
      unfold requiredNonNegativeDecimal at hread
      split at hread
      · cases hread
      · rename_i value hvalue
        rw [hvalue]
        exact ⟨_, hread⟩
    · obtain ⟨_, -, rfl⟩ := Except.map_eq_ok_iff.mp h
      cases hrate
    · obtain ⟨_, -, h⟩ := Except.bind_eq_ok_iff.mp h
      obtain ⟨_, -, rfl⟩ := Except.map_eq_ok_iff.mp h
      cases hrate

theorem rateEntry_of_active (hactive : namesActive cost = true) (hflat : nested cost = false) :
    rateEntry cost = (cost.lookup "per_second_active").getD .none := by
  unfold rateEntry
  split
  · rw [costMapping_of_not_nested hflat]
  · rw [if_pos hactive]

end Entry

section Uses
variable {text : PyString} {p : ProviderLike} {pricing : TaggedPricingModel} {rate : ℚ≥0}
  {costMode : CostMode}

/-- The scorer takes the float of the rate. -/
def UsesRate (text : PyString) (p : ProviderLike) (rate : ℚ) : Prop :=
  costPerSecondActive text p = .ok (Binary64.ofRat rate)

theorem costPerSecondValue_flat (p : ProviderLike) : p.costPerSecondValue =
    .firstPresent (entriesBefore p .flat ++ p.field "per_second_active" ::
      [p.costValue "cost_per_second_active", p.costValue "per_second_active",
        p.scoreConfig "cost_per_second_active", p.scoreConfig "per_second_active"]) := rfl

theorem costPerSecondValue_underCost (p : ProviderLike) : p.costPerSecondValue =
    .firstPresent (entriesBefore p .underCost ++ p.costValue "per_second_active" ::
      [p.scoreConfig "cost_per_second_active", p.scoreConfig "per_second_active"]) := rfl

theorem costPerSecondValue_elsewhere (p : ProviderLike) : p.costPerSecondValue =
    .firstPresent (entriesBefore p .elsewhere) := rfl

theorem usesRate_iff_of_entry {before after : List PyValue} {entry : PyValue} {name : String}
    (hvalue : p.costPerSecondValue = .firstPresent (before ++ entry :: after))
    (hnone : text.decimalOf .none = none)
    (hentry : Pricing.nonNegativeDecimal text entry name = .ok rate) :
    UsesRate text p rate ↔
      if (PyValue.firstPresent before).isNone then (Binary64.ofRat rate).isFinite = true
      else SameNumber text (PyValue.firstPresent before) rate := by
  obtain ⟨hbool, hnumber⟩ := nonNegativeDecimal_eq_ok hentry
  have hsome : entry ≠ .none := by
    rintro rfl
    rw [hnone] at hnumber
    cases hnumber
  unfold UsesRate costPerSecondActive
  rw [hvalue, firstPresent_append, PyValue.firstPresent, if_neg (isNone_iff.not.mpr hsome)]
  split
  · rw [nonNegativeNumber_eq_rate_iff hsome]
    exact ⟨fun h => h.2.1, fun h => ⟨hbool, h, rate, hnumber, rfl⟩⟩
  · rename_i hfirst
    exact nonNegativeNumber_eq_rate_iff (isNone_iff.not.mp hfirst)

theorem ratePlace_eq_flat_iff {cost : List (String × PyValue)} : ratePlace p cost = .flat ↔
    (namesActive cost = true ∧ nested cost = false) ∧ p.topCost?.or p.configCost? = none := by
  unfold ratePlace
  split_ifs with hactive hsome
  · simp [Option.isSome_iff_ne_none.mp hsome]
  · simp_all
  · simp_all

theorem ratePlace_eq_underCost_iff {cost : List (String × PyValue)} :
    ratePlace p cost = .underCost ↔ (namesActive cost = true ∧ nested cost = false) ∧
      (p.topCost?.or p.configCost?).isSome = true := by
  unfold ratePlace
  split_ifs with hactive hsome
  · simp_all
  · simp [hsome]
  · simp_all

theorem usesRate_iff (hnone : text.decimalOf .none = none)
    (hparse : parseRecordPricing text p costMode = .ok pricing)
    (hrate : perSecondRate? pricing = some rate) : UsesRate text p rate ↔ FindsRate text p := by
  obtain ⟨cost, hcost, hpricing⟩ := Except.bind_eq_ok_iff.mp hparse
  obtain ⟨name, hentry⟩ := rateEntry_of_pricing hpricing hrate
  obtain ⟨-, hnumber⟩ := nonNegativeDecimal_eq_ok hentry
  have hfinds : FindsRate text p ↔ FindsNumber text p (ratePlace p cost) rate := by
    constructor
    · rintro ⟨cost', rate', hcost', hnumber', hfinds⟩
      obtain rfl : cost = cost' := Except.ok.inj (hcost.symm.trans hcost')
      obtain rfl : (rate : ℚ) = rate' :=
        DecimalNumber.finite.inj (Option.some.inj (hnumber.symm.trans hnumber'))
      exact hfinds
    · exact fun hfinds => ⟨cost, rate, hcost, hnumber, hfinds⟩
  have hsome : rateEntry cost ≠ .none := by
    intro hrateNone
    rw [hrateNone, hnone] at hnumber
    cases hnumber
  rw [hfinds]
  unfold FindsNumber
  cases hplace : ratePlace p cost with
  | elsewhere =>
    unfold UsesRate costPerSecondActive
    rw [costPerSecondValue_elsewhere]
    dsimp only
    rw [if_pos rfl]
    split
    · rename_i hfirst
      rw [isNone_iff.mp hfirst]
      exact ⟨fun h => (Except.ok.inj h).symm, fun h => congrArg Except.ok h.symm⟩
    · rename_i hfirst
      exact nonNegativeNumber_eq_rate_iff (isNone_iff.not.mp hfirst)
  | flat =>
    obtain ⟨⟨hactive, hflat⟩, hprices⟩ := ratePlace_eq_flat_iff.mp hplace
    obtain rfl := recordCost_of_none hprices hcost
    have hvalue := costPerSecondValue_flat (.mapping cost)
    have hfield : (ProviderLike.mapping cost).field "per_second_active" = rateEntry cost :=
      (rateEntry_of_active hactive hflat).symm
    rw [hfield] at hvalue
    exact usesRate_iff_of_entry hvalue hnone hentry
  | underCost =>
    obtain ⟨⟨hactive, hflat⟩, hprices⟩ := ratePlace_eq_underCost_iff.mp hplace
    obtain ⟨prices, hprices⟩ := Option.isSome_iff_exists.mp hprices
    obtain rfl : prices = cost := Except.ok.inj ((recordCost_of_some hprices).symm.trans hcost)
    have hvalue := costPerSecondValue_underCost p
    have hlookup := rateEntry_of_active hactive hflat
    cases hread : prices.lookup "per_second_active" with
    | none =>
      rw [hread] at hlookup
      exact absurd hlookup hsome
    | some value =>
      rw [hread] at hlookup
      rw [costValue_of_lookup hprices hread, ← (show rateEntry prices = value from hlookup)]
        at hvalue
      exact usesRate_iff_of_entry hvalue hnone hentry

end Uses

/-- Two records that are the same but for what a rate is written in. -/
structure DifferInRate (p p' : ProviderLike) : Prop where
  field : ∀ key, key ∉ ["cost", "config", "per_second_active", "rate_per_second"] →
    p.field key = p'.field key
  config : ∀ key, key ≠ "cost" → p.scoreConfig key = p'.scoreConfig key

section Cheaper
variable {text : PyString} {p p' : ProviderLike} {rate rate' : ℚ≥0} {hints : Hints}
  {observed : ObservedMetrics}

theorem terms_of_differInRate (h : DifferInRate p p') :
    latencyTerms text p hints = latencyTerms text p' hints ∧
      recentErrorRate text p observed = recentErrorRate text p' observed ∧
      priorityMultiplier text p = priorityMultiplier text p' ∧
      regionBonus p hints = regionBonus p' hints := by
  have hcold : p.coldStartValue = p'.coldStartValue := by
    unfold ProviderLike.coldStartValue
    rw [h.field "cold_start_p50_ms" (by decide), h.config "cold_start_p50_ms" (by decide)]
  have hwarm : p.warmWorkersValue = p'.warmWorkersValue := by
    unfold ProviderLike.warmWorkersValue
    rw [h.field "warm_workers" (by decide), h.field "warmWorkers" (by decide),
      h.field "workers" (by decide), h.field "workers_min" (by decide),
      h.field "workersMin" (by decide), h.config "warm_workers" (by decide),
      h.config "warmWorkers" (by decide), h.config "workers" (by decide),
      h.config "workers_min" (by decide), h.config "workersMin" (by decide)]
  have herror : p.recentErrorRateValue observed = p'.recentErrorRateValue observed := by
    unfold ProviderLike.recentErrorRateValue
    rw [h.field "recent_error_rate" (by decide), h.config "recent_error_rate" (by decide)]
  have hmultiplier : p.priorityMultiplierValue = p'.priorityMultiplierValue := by
    unfold ProviderLike.priorityMultiplierValue
    rw [h.field "priority_multiplier" (by decide), h.field "priorityMultiplier" (by decide),
      h.config "priority_multiplier" (by decide), h.config "priorityMultiplier" (by decide)]
  have hregion : p.stringField "region" = p'.stringField "region" := by
    unfold ProviderLike.stringField
    rw [h.field "region" (by decide)]
  refine ⟨?_, ?_, ?_, ?_⟩
  · unfold latencyTerms coldStartP50Ms warmWorkers
    rw [hcold, hwarm]
  · unfold recentErrorRate
    rw [herror]
  · unfold priorityMultiplier
    rw [hmultiplier]
  · unfold regionBonus
    rw [hregion]

theorem ne_nan_of_add {x y : Binary64} (h : x.add y ≠ .nan) : x ≠ .nan := by
  rintro rfl
  exact h rfl

theorem level_scoreSum_anti {latency warm cost cost' region error : Binary64}
    (h : cost.level ≤ cost'.level)
    (hsum : scoreSum latency warm cost' region error ≠ .nan) :
    (scoreSum latency warm cost' region error).level ≤
      (scoreSum latency warm cost region error).level := by
  unfold scoreSum at hsum ⊢
  have hregion := ne_nan_of_add hsum
  have hcost := ne_nan_of_add hregion
  refine Binary64.level_add_mono hsum ?_
  refine Binary64.level_add_mono hregion ?_
  exact Binary64.level_sub_anti hcost h

theorem costTerm_mono (huses : UsesRate text p rate) (huses' : UsesRate text p' rate')
    (hle : rate ≤ rate') {cost cost' : Binary64} (hcost : costTerm text p hints = .ok cost)
    (hcost' : costTerm text p' hints = .ok cost') : cost.level ≤ cost'.level := by
  unfold costTerm at hcost hcost'
  cases hsensitive : hints.costSensitive with
  | false =>
    rw [hsensitive] at hcost hcost'
    cases hcost
    cases hcost'
    exact le_rfl
  | true =>
    rw [hsensitive, if_pos rfl] at hcost hcost'
    obtain ⟨q, hq, -⟩ := nonNegativeNumber_default huses
    obtain ⟨q', hq', -⟩ := nonNegativeNumber_default huses'
    unfold UsesRate at huses huses'
    rw [huses] at hcost
    rw [huses'] at hcost'
    obtain rfl := Except.ok.inj hcost
    obtain rfl := Except.ok.inj hcost'
    obtain ⟨factor, hfactor, hvalue⟩ := ofRat_ofNat 10000 (by norm_num)
    have hrates : (Binary64.ofRat rate).level ≤ (Binary64.ofRat rate').level :=
      Binary64.level_ofRat_mono (by exact_mod_cast hle)
    rw [hq, hq'] at hrates
    rw [hq, hq', hfactor]
    refine Binary64.level_ofRat_mono ?_
    refine mul_le_mul_of_nonneg_right (Binary64.level_finite_le.mp hrates) ?_
    rw [hvalue]
    norm_num

theorem cheaper_scores_no_lower (hdiffer : DifferInRate p p') (huses : UsesRate text p rate)
    (huses' : UsesRate text p' rate') (hle : rate ≤ rate') {e e' : ScoreExplanation}
    (he : explainScore text p hints observed = .ok e)
    (he' : explainScore text p' hints observed = .ok e') :
    e.finalScore.lt e'.finalScore = false := by
  obtain ⟨hterms, herror, hmultiplier, hregion⟩ :=
    @terms_of_differInRate text _ _ hints observed hdiffer
  simp only [explainScore, Except.bind_eq_ok_iff, Except.pure_eq_ok_iff] at he he'
  obtain ⟨⟨latency, warm⟩, hlatency, cost, hcost, error, herrorRate, m, hm, rfl⟩ := he
  obtain ⟨⟨latency', warm'⟩, hlatency', cost', hcost', error', herrorRate', m', hm', rfl⟩ := he'
  -- The terms besides the cost are those of the same values.
  obtain ⟨rfl, rfl⟩ : latency = latency' ∧ warm = warm' :=
    Prod.mk.inj (Except.ok.inj (hlatency.symm.trans (hterms.trans hlatency')))
  obtain rfl : error = error' :=
    Except.ok.inj (herrorRate.symm.trans (herror.trans herrorRate'))
  obtain rfl : m = m' := Except.ok.inj (hm.symm.trans (hmultiplier.trans hm'))
  obtain ⟨one, hone, hone'⟩ := ofRat_natCast 1 (by norm_num)
  rw [Nat.cast_one] at hone hone'
  obtain ⟨multiplier, rfl, hnonneg⟩ : ∃ q, m = .finite q ∧ 0 ≤ q.1 :=
    nonNegativeNumber_eq_ok ⟨one, hone, by rw [hone']; norm_num⟩ hm
  obtain ⟨hnonnegLatency, warm, rfl, hwarm⟩ := latencyTerms_eq_ok hlatency
  obtain ⟨region, hbonus, hsmall⟩ := regionBonus_finite p' hints
  have hsum := scoreSum_ne_nan hnonnegLatency hwarm (costTerm_eq_ok hcost') hsmall
    (nonNeg_mul_ofNat (recentErrorRate_eq_ok herrorRate) 50 (by norm_num))
  dsimp only
  rw [hregion, hbonus]
  exact Binary64.mul_lt_mul_eq_false hnonneg
    (level_scoreSum_anti (costTerm_mono huses huses' hle hcost hcost') hsum)

end Cheaper

/-- The scorer reads the rates of the pricing models of two providers, and ranks no dearer one
before a cheaper one that is otherwise the same, exactly when it finds both rates. -/
theorem scoring_reads_pricing_rate_iff {text : PyString} {p p' : ProviderLike}
    {costMode costMode' : CostMode} {pricing pricing' : TaggedPricingModel} {rate rate' : ℚ≥0}
    (hnone : text.decimalOf .none = none) (hdiffer : DifferInRate p p')
    (hparse : parseRecordPricing text p costMode = .ok pricing)
    (hrate : perSecondRate? pricing = some rate)
    (hparse' : parseRecordPricing text p' costMode' = .ok pricing')
    (hrate' : perSecondRate? pricing' = some rate') :
    (UsesRate text p rate ∧ UsesRate text p' rate' ∧
      (rate ≤ rate' → ∀ hints observed e e', explainScore text p hints observed = .ok e →
        explainScore text p' hints observed = .ok e' → e.finalScore.lt e'.finalScore = false)) ↔
    FindsRate text p ∧ FindsRate text p' := by
  rw [← usesRate_iff hnone hparse hrate, ← usesRate_iff hnone hparse' hrate']
  constructor
  · rintro ⟨huses, huses', -⟩
    exact ⟨huses, huses'⟩
  · rintro ⟨huses, huses'⟩
    exact ⟨huses, huses', fun hle _ _ _ _ => cheaper_scores_no_lower hdiffer huses huses' hle⟩

def rateText : PyString := { asciiText with
  str := fun
    | .str s => some s
    | _ => none
  parseDecimal := fun s =>
    if s = "1" then some (.finite 1) else if s = "2" then some (.finite 2) else none }

/-- A provider whose prices stand under `cost`. -/
def pricedProvider (cost : List (String × PyValue)) : ProviderLike :=
  .mapping [("cost", .dict cost)]

theorem pricedProvider_field {cost : List (String × PyValue)} {key : String} (h : key ≠ "cost") :
    (pricedProvider cost).field key = .none := by
  change (List.lookup key [("cost", PyValue.dict cost)]).getD .none = .none
  rw [List.lookup_cons, beq_false_of_ne h]
  rfl

theorem pricedProvider_differ (cost cost' : List (String × PyValue)) :
    DifferInRate (pricedProvider cost) (pricedProvider cost') where
  field key hkey := by
    have hne : key ≠ "cost" := fun h => hkey (by rw [h]; exact List.mem_cons_self)
    rw [pricedProvider_field hne, pricedProvider_field hne]
  config _ _ := rfl

/-- Rates for the second of activity are read as they stand under `cost`. -/
theorem active_rates_read :
    UsesRate rateText (pricedProvider [("per_second_active", .str "1")]) 1 ∧
      UsesRate rateText (pricedProvider [("kind", .str "gpu_hour"),
        ("per_second_active", .str "2")]) 2 ∧
      ((1 : ℚ≥0) ≤ 2 → ∀ hints observed e e',
        explainScore rateText (pricedProvider [("per_second_active", .str "1")]) hints observed =
          .ok e →
        explainScore rateText (pricedProvider [("kind", .str "gpu_hour"),
          ("per_second_active", .str "2")]) hints observed = .ok e' →
        e.finalScore.lt e'.finalScore = false) := by
  have hone : (Binary64.ofRat ((1 : ℚ≥0) : ℚ)).isFinite = true := by
    obtain ⟨q, hq, -⟩ := ofRat_natCast 1 (by norm_num)
    rw [NNRat.cast_one, ← Nat.cast_one, hq]
    rfl
  have htwo : (Binary64.ofRat ((2 : ℚ≥0) : ℚ)).isFinite = true := by
    obtain ⟨q, hq, -⟩ := ofRat_ofNat 2 (by norm_num)
    rw [NNRat.cast_ofNat, hq]
    rfl
  exact (@scoring_reads_pricing_rate_iff rateText _ _ .perSecond .perSecond (.gpuHour 1)
    (.gpuHour 2) 1 2 rfl (pricedProvider_differ _ _) rfl rfl rfl rfl).mpr
      ⟨⟨_, _, rfl, rfl, hone⟩, ⟨_, _, rfl, rfl, htwo⟩⟩

/-- A rate by the second that is billed counts as zero in the score. -/
theorem per_second_rate_not_read :
    ∃ pricing, parseRecordPricing rateText (pricedProvider [("kind", .str "per_second"),
        ("rate_per_second", .str "2")]) .perSecond = .ok pricing ∧
      perSecondRate? pricing = some 2 ∧
      ¬ UsesRate rateText (pricedProvider [("kind", .str "per_second"),
        ("rate_per_second", .str "2")]) 2 := by
  refine ⟨.perSecond 2 none, rfl, rfl, ?_⟩
  intro huses
  obtain ⟨two, htwo, hvalue⟩ := ofRat_ofNat 2 (by norm_num)
  obtain ⟨zero, hzero, hzero'⟩ := ofRat_zero
  have hread : Binary64.ofRat 0 = .ofRat ((2 : ℚ≥0) : ℚ) := Except.ok.inj huses
  rw [NNRat.cast_ofNat, hzero, htwo] at hread
  have hequal := congrArg Subtype.val (Binary64.finite.inj hread)
  rw [hzero', hvalue] at hequal
  exact absurd hequal (by norm_num)

end Pitwall.Routing
