import Mathlib
import Pitwall.Core.Text
import Pitwall.Cost.SubBudgets
import Pitwall.Library.Counting
import Pitwall.Library.Grouping
import Pitwall.Library.Traversal
set_option autoImplicit false

/-!
`generate_chargeback_report`: spend by the tag that the resolver names, reported by the tags
that the configuration has.
-/

namespace Pitwall
open DecimalNumber (finite nan infinite)

def invalidOperation : PyError :=
  ⟨"InvalidOperation", "[<class 'decimal.InvalidOperation'>]"⟩

/-- `a + b`. -/
def addDecimals : DecimalNumber → DecimalNumber → Except PyError DecimalNumber
  | .finite a, .finite b => (contextual (a + b)).map .finite
  | .nan true, _ | _, .nan true => .error invalidOperation
  | .nan false, _ | _, .nan false => .ok (.nan false)
  | .infinite a, .infinite b => if a = b then .ok (.infinite a) else .error invalidOperation
  | .infinite a, .finite _ | .finite _, .infinite a => .ok (.infinite a)

def negateDecimal : DecimalNumber → DecimalNumber
  | .finite a => .finite (-a)
  | .infinite negative => .infinite (!negative)
  | .nan signaling => .nan signaling

/-- `a < 0`: a NaN has no order. -/
def decimalIsNegative : DecimalNumber → Except PyError Bool
  | .finite a => .ok (decide (a < 0))
  | .infinite negative => .ok negative
  | .nan _ => .error invalidOperation

/-- `_quantize_usd`. The text of the error ends with the amount. -/
def quantizeUsd : DecimalNumber → Except PyError DecimalNumber
  | .finite a =>
      if 10 ^ 22 ≤ |roundHalfAway 6 a| then
        .error ⟨"ValueError", "USD value is out of representable range"⟩
      else .ok (.finite (roundHalfAway 6 a))
  | .nan false => .ok (.nan false)
  | .infinite _ | .nan true => .error ⟨"ValueError", "USD value is out of representable range"⟩

structure ChargebackLineItem where
  tag : String
  allocationUsd : ℚ
  spendUsd : DecimalNumber
  remainingUsd : DecimalNumber

structure ChargebackReport where
  totalSpendUsd : DecimalNumber
  lineItems : List ChargebackLineItem
  unallocatedSpendUsd : DecimalNumber

structure ChargebackState where
  tagSpend : List (String × DecimalNumber)
  unallocated : DecimalNumber

section Report
variable {W : Type}
  /- `Decimal(str(...))` of the value that a workload has at a key; nothing for no value and for
  one that does not parse. -/
  (decimalAt : W → String → Option DecimalNumber)
  (tagResolver : Option (W → Option String))

/-- `_decimal_from_mapping`. -/
def decimalFromMapping (workload : W) (key : String) : Option DecimalNumber :=
  (decimalAt workload key).bind fun raw => (quantizeUsd raw).toOption

def workloadCost (workload : W) : Option DecimalNumber :=
  match decimalFromMapping decimalAt workload "cost_actual_usd" with
  | some cost => some cost
  | none => decimalFromMapping decimalAt workload "cost_estimate_usd"

def resolvedTag (workload : W) : Option String := tagResolver.bind fun resolve => resolve workload

def chargeWorkload (s : ChargebackState) (workload : W) : Except PyError ChargebackState :=
  match workloadCost decimalAt workload with
  | none => .ok s
  | some cost =>
      match resolvedTag tagResolver workload with
      | some tag => do
          let spend ← addDecimals ((s.tagSpend.lookup tag).getD (.finite 0)) cost
          return { s with tagSpend := setEntry tag spend s.tagSpend }
      | none => do
          let unallocated ← addDecimals s.unallocated cost
          return { s with unallocated := unallocated }

def lineItem (tagSpend : List (String × DecimalNumber)) (budget : SubBudget) :
    Except PyError ChargebackLineItem := do
  let spend := (tagSpend.lookup budget.tag).getD (.finite 0)
  let remaining ← addDecimals (.finite budget.allocationUsd) (negateDecimal spend)
  let negative ← decimalIsNegative remaining
  return ⟨budget.tag, budget.allocationUsd, spend, if negative then .finite 0 else remaining⟩

def generateChargebackReport (config : SubBudgetConfig) (workloads : List W) :
    Except PyError ChargebackReport := do
  let s ← workloads.foldlM (chargeWorkload decimalAt tagResolver) ⟨[], .finite 0⟩
  let tagged ← (s.tagSpend.map Prod.snd).foldlM addDecimals (.finite 0)
  let totalSpend ← addDecimals tagged s.unallocated
  let lineItems ← config.budgets.mapM (lineItem s.tagSpend)
  let total ← quantizeUsd totalSpend
  let unallocated ← quantizeUsd s.unallocated
  return ⟨total, lineItems, unallocated⟩

def charge (workload : W) : Option (Option String × ℚ) :=
  match workloadCost decimalAt workload with
  | some (.finite cost) => some (resolvedTag tagResolver workload, cost)
  | _ => none

def charges (workloads : List W) : List (Option String × ℚ) :=
  workloads.filterMap (charge decimalAt tagResolver)

end Report

def unknownTagSpend (config : SubBudgetConfig) (rows : List (Option String × ℚ)) : ℚ :=
  sumWhere (fun r => r.1.any fun tag => !decide (tag ∈ config.budgets.map SubBudget.tag))
    Prod.snd rows

def ChargebackReport.Conserves (report : ChargebackReport) : Prop :=
  ∃ spends : List ℚ, ∃ total unallocated : ℚ,
    report.lineItems.map ChargebackLineItem.spendUsd = spends.map .finite ∧
    report.totalSpendUsd = .finite total ∧ report.unallocatedSpendUsd = .finite unallocated ∧
    spends.sum + unallocated = total

def Within (signed : Bool) (x : ℚ) : Prop :=
  IsMultiple 6 x ∧ if signed then |x| < 10 ^ 22 else 0 ≤ x

/-- A computed sum is the exact one, or both have left the range that `quantize` holds. -/
def Tracks (computed exact : ℚ) : Prop :=
  computed = exact ∨ (10 ^ 22 ≤ computed ∧ 10 ^ 22 ≤ exact)

theorem Tracks.nonneg {computed exact : ℚ} (h : Tracks computed exact) (hexact : 0 ≤ exact) :
    0 ≤ computed := by
  rcases h with rfl | ⟨hbig, -⟩
  · exact hexact
  · linarith [show (0 : ℚ) ≤ 10 ^ 22 by norm_num]

theorem Tracks.eq_of_lt {computed exact : ℚ} (h : Tracks computed exact)
    (hlt : |computed| < 10 ^ 22 ∨ |exact| < 10 ^ 22) : computed = exact := by
  rcases h with heq | ⟨hcomputed, hexact⟩
  · exact heq
  · have := le_abs_self computed
    have := le_abs_self exact
    rcases hlt with hlt | hlt
    · linarith
    · linarith

theorem Tracks.add {signed : Bool} {a b x y r : ℚ} (ha : Tracks a x) (hb : Tracks b y)
    (hx : Within signed x) (hy : Within signed y) (hsum : Within signed (x + y))
    (h : contextual (a + b) = .ok r) : Tracks r (x + y) := by
  cases signed with
  | true =>
    obtain rfl := ha.eq_of_lt (.inr hx.2)
    obtain rfl := hb.eq_of_lt (.inr hy.2)
    rw [contextual_of_isMultiple hsum.1 hsum.2] at h
    exact .inl (Except.ok.inj h).symm
  | false =>
    have hx0 : 0 ≤ x := hx.2
    have hy0 : 0 ≤ y := hy.2
    have hcap : 10 ^ 22 ≤ a + b → 10 ^ 22 ≤ x + y → Tracks r (x + y) := by
      intro hab hxy
      rw [contextual_eq h]
      exact .inr ⟨DecimalNumber.le_rounded hab, hxy⟩
    rcases ha with rfl | ⟨ha, hxbig⟩
    · rcases hb with rfl | ⟨hb, hybig⟩
      · by_cases hbig : 10 ^ 22 ≤ a + b
        · exact hcap hbig hbig
        · have hsmall : |a + b| < 10 ^ 22 := by
            rw [abs_of_nonneg (add_nonneg hx0 hy0)]
            exact not_le.mp hbig
          rw [contextual_of_isMultiple hsum.1 hsmall] at h
          exact .inl (Except.ok.inj h).symm
      · exact hcap (by linarith) (by linarith)
    · have hb0 : 0 ≤ b := hb.nonneg hy0
      exact hcap (by linarith) (by linarith)

theorem foldlM_addDecimals {signed : Bool} (spend : String → ℚ) {entries : List (String × ℚ)}
    {start x : ℚ} {total : DecimalNumber} (hstart : Tracks start x)
    (htracks : ∀ e ∈ entries, Tracks e.2 (spend e.1))
    (hwithin : ∀ e ∈ entries, Within signed (spend e.1))
    (hrunning : ∀ n, Within signed (x + ((entries.take n).map fun e => spend e.1).sum))
    (h : (entries.map fun e => DecimalNumber.finite e.2).foldlM addDecimals (.finite start) =
      .ok total) :
    ∃ sum, total = .finite sum ∧ Tracks sum (x + (entries.map fun e => spend e.1).sum) := by
  induction entries generalizing start x with
  | nil =>
    refine ⟨start, (Except.ok.inj h).symm, ?_⟩
    simpa using hstart
  | cons e entries ih =>
    rw [List.map_cons, List.foldlM_cons] at h
    obtain ⟨next, hnext, h⟩ := Except.bind_eq_ok_iff.mp h
    obtain ⟨sum, hsum, rfl⟩ := Except.map_eq_ok_iff.mp hnext
    have hzero : Within signed x := by simpa using hrunning 0
    have hone : Within signed (x + spend e.1) := by simpa using hrunning 1
    have hnext_tracks : Tracks sum (x + spend e.1) :=
      hstart.add (htracks e (by simp)) hzero (hwithin e (by simp)) hone hsum
    rw [List.map_cons, List.sum_cons, ← add_assoc]
    refine ih hnext_tracks (fun e' he' => htracks e' (by simp [he']))
      (fun e' he' => hwithin e' (by simp [he'])) (fun n => ?_) h
    have := hrunning (n + 1)
    rwa [List.take_succ_cons, List.map_cons, List.sum_cons, ← add_assoc] at this

def spendOf (rows : List (Option String × ℚ)) (tag : Option String) : ℚ :=
  groupSum Prod.fst Prod.snd rows tag

structure Charged (rows : List (Option String × ℚ)) (entries : List (String × ℚ))
    (unallocated : ℚ) : Prop where
  nodup : (entries.map Prod.fst).Nodup
  covers : ∀ r ∈ rows, ∀ tag, r.1 = some tag → tag ∈ entries.map Prod.fst
  tracks : ∀ tag, Tracks ((entries.lookup tag).getD 0) (spendOf rows (some tag))
  tracksUnallocated : Tracks unallocated (spendOf rows none)

theorem spendOf_append (rows : List (Option String × ℚ)) (r : Option String × ℚ)
    (tag : Option String) :
    spendOf (rows ++ [r]) tag = spendOf rows tag + if r.1 = tag then r.2 else 0 := by
  by_cases h : r.1 = tag
  · simp [spendOf, groupSum, h]
  · simp [spendOf, groupSum, h]

theorem charged_nil : Charged [] [] 0 where
  nodup := List.nodup_nil
  covers := by simp
  tracks := fun tag => .inl (by simp [spendOf, groupSum])
  tracksUnallocated := .inl (by simp [spendOf, groupSum])

section Step
variable {signed : Bool} {rows : List (Option String × ℚ)} {entries : List (String × ℚ)}
  {unallocated cost sum : ℚ}

theorem Charged.tagged (h : Charged rows entries unallocated) {tag : String}
    (hbefore : Within signed (spendOf rows (some tag))) (hcost : Within signed cost)
    (hafter : Within signed (spendOf (rows ++ [(some tag, cost)]) (some tag)))
    (hsum : contextual ((entries.lookup tag).getD 0 + cost) = .ok sum) :
    Charged (rows ++ [(some tag, cost)]) (setEntry tag sum entries) unallocated where
  nodup := nodup_keys_setEntry h.nodup
  covers := by
    intro r hr tag' htag'
    rw [mem_keys_setEntry]
    rcases List.mem_append.mp hr with hold | hnew
    · exact .inr (h.covers r hold tag' htag')
    · obtain rfl := List.mem_singleton.mp hnew
      exact .inl (Option.some.inj htag').symm
  tracks := by
    intro tag'
    rw [lookup_setEntry, spendOf_append]
    by_cases hsame : tag' = tag
    · subst hsame
      rw [spendOf_append, if_pos rfl] at hafter
      rw [if_pos rfl, if_pos rfl]
      exact (h.tracks tag').add (.inl rfl) hbefore hcost hafter hsum
    · have hother : ¬some tag = some tag' := fun heq => hsame (Option.some.inj heq).symm
      rw [if_neg hsame, if_neg hother, add_zero]
      exact h.tracks tag'
  tracksUnallocated := by
    rw [spendOf_append, if_neg (by simp), add_zero]
    exact h.tracksUnallocated

theorem Charged.untagged (h : Charged rows entries unallocated)
    (hbefore : Within signed (spendOf rows none)) (hcost : Within signed cost)
    (hafter : Within signed (spendOf (rows ++ [(none, cost)]) none))
    (hsum : contextual (unallocated + cost) = .ok sum) :
    Charged (rows ++ [(none, cost)]) entries sum where
  nodup := h.nodup
  covers := by
    intro r hr tag htag
    rcases List.mem_append.mp hr with hold | hnew
    · exact h.covers r hold tag htag
    · obtain rfl := List.mem_singleton.mp hnew
      cases htag
  tracks := by
    intro tag
    rw [spendOf_append, if_neg (by simp), add_zero]
    exact h.tracks tag
  tracksUnallocated := by
    rw [spendOf_append, if_pos rfl] at hafter
    rw [spendOf_append, if_pos rfl]
    exact h.tracksUnallocated.add (.inl rfl) hbefore hcost hafter hsum

end Step

def Fits (signed : Bool) (rows : List (Option String × ℚ)) : Prop :=
  ∀ part : List (Option String × ℚ), part.Sublist rows → Within signed (part.map Prod.snd).sum

theorem abs_sum_le (xs : List ℚ) : |xs.sum| ≤ (xs.map fun x => |x|).sum := by
  induction xs with
  | nil => simp
  | cons x xs ih =>
    rw [List.sum_cons, List.map_cons, List.sum_cons]
    exact (abs_add_le x xs.sum).trans (by linarith)

theorem fits_of {rows : List (Option String × ℚ)} (hquantized : ∀ r ∈ rows, IsMultiple 6 r.2)
    (hsize : (∀ r ∈ rows, 0 ≤ r.2) ∨ (rows.map fun r => |r.2|).sum < 10 ^ 22) :
    ∃ signed, Fits signed rows := by
  have hmultiple : ∀ part : List (Option String × ℚ), part.Sublist rows →
      IsMultiple 6 (part.map Prod.snd).sum := by
    intro part hpart
    refine IsMultiple.sum (fun x hx => ?_)
    obtain ⟨r, hr, rfl⟩ := List.mem_map.mp hx
    exact hquantized r (hpart.subset hr)
  rcases hsize with hnonneg | hgross
  · refine ⟨false, fun part hpart => ⟨hmultiple part hpart, ?_⟩⟩
    refine List.sum_nonneg (fun x hx => ?_)
    obtain ⟨r, hr, rfl⟩ := List.mem_map.mp hx
    exact hnonneg r (hpart.subset hr)
  · refine ⟨true, fun part hpart => ⟨hmultiple part hpart, lt_of_le_of_lt ?_ hgross⟩⟩
    have habs := abs_sum_le (part.map Prod.snd)
    rw [List.map_map] at habs
    refine habs.trans ((hpart.map _).sum_le_sum (fun x hx => ?_))
    obtain ⟨r, -, rfl⟩ := List.mem_map.mp hx
    exact abs_nonneg r.2

section Fit
variable {signed : Bool} {rows : List (Option String × ℚ)}

theorem Fits.sublist {part : List (Option String × ℚ)} (h : Fits signed rows)
    (hpart : part.Sublist rows) : Fits signed part :=
  fun inner hinner => h inner (hinner.trans hpart)

theorem Fits.spendOf (h : Fits signed rows) (tag : Option String) :
    Within signed (spendOf rows tag) := h _ List.filter_sublist

theorem Fits.cost (h : Fits signed rows) {r : Option String × ℚ} (hr : r ∈ rows) :
    Within signed r.2 := by
  have hone := h [r] (List.singleton_sublist.mpr hr)
  simpa using hone

theorem Fits.groups (h : Fits signed rows) {tags : List (Option String)} (htags : tags.Nodup) :
    Within signed (tags.map (Pitwall.spendOf rows)).sum := by
  have hsum := sum_groupSum htags Prod.fst Prod.snd rows
  rw [show Pitwall.spendOf rows = groupSum Prod.fst Prod.snd rows from rfl, hsum]
  exact h _ List.filter_sublist

end Fit

def chargebackState (entries : List (String × ℚ)) (unallocated : ℚ) : ChargebackState :=
  ⟨entries.map (Prod.map id DecimalNumber.finite), .finite unallocated⟩

theorem lookup_finite (entries : List (String × ℚ)) (tag : String) :
    ((entries.map (Prod.map id DecimalNumber.finite)).lookup tag).getD (.finite 0) =
      .finite ((entries.lookup tag).getD 0) := by
  rw [lookup_map]
  cases entries.lookup tag with
  | none => rfl
  | some v => rfl

section Run
variable {W : Type} {decimalAt : W → String → Option DecimalNumber}
  {tagResolver : Option (W → Option String)} {signed : Bool}

theorem charge_quantized {workload : W} {r : Option String × ℚ}
    (h : charge decimalAt tagResolver workload = some r) : IsMultiple 6 r.2 := by
  have hread : ∀ {key : String} {q : ℚ},
      decimalFromMapping decimalAt workload key = some (.finite q) → IsMultiple 6 q := by
    intro key q hq
    obtain ⟨raw, -, hraw⟩ := Option.bind_eq_some_iff.mp hq
    cases raw with
    | finite a =>
      simp only [quantizeUsd] at hraw
      split at hraw
      · cases hraw
      · obtain rfl := DecimalNumber.finite.inj (Option.some.inj hraw)
        exact isMultiple_roundHalfAway 6 a
    | infinite negative => cases hraw
    | nan signaling => cases signaling <;> cases hraw
  unfold charge at h
  split at h
  · rename_i cost hcost
    obtain rfl := Option.some.inj h
    unfold workloadCost at hcost
    split at hcost
    · rename_i actual hactual
      obtain rfl := Option.some.inj hcost
      exact hread hactual
    · exact hread hcost
  · cases h

theorem charged_step {rows : List (Option String × ℚ)} {entries : List (String × ℚ)}
    {unallocated : ℚ} {workload : W} {s : ChargebackState}
    (hcharged : Charged rows entries unallocated)
    (hfinite : ∀ cost, workloadCost decimalAt workload = some cost → ∃ q, cost = .finite q)
    (hfits : Fits signed (rows ++ charges decimalAt tagResolver [workload]))
    (h : chargeWorkload decimalAt tagResolver (chargebackState entries unallocated) workload =
      .ok s) :
    ∃ entries' unallocated', s = chargebackState entries' unallocated' ∧
      Charged (rows ++ charges decimalAt tagResolver [workload]) entries' unallocated' := by
  unfold chargeWorkload at h
  cases hcost : workloadCost decimalAt workload with
  | none =>
    rw [hcost] at h
    refine ⟨entries, unallocated, (Except.ok.inj h).symm, ?_⟩
    simpa [charges, charge, hcost] using hcharged
  | some cost =>
    obtain ⟨q, rfl⟩ := hfinite cost hcost
    have hcharges : charges decimalAt tagResolver [workload] =
        [(resolvedTag tagResolver workload, q)] := by
      simp [charges, charge, hcost]
    rw [hcharges] at hfits ⊢
    rw [hcost] at h
    have hq : Within signed q := hfits.cost (r := (resolvedTag tagResolver workload, q)) (by simp)
    have hbefore := hfits.sublist (List.sublist_append_left rows _)
    cases htag : resolvedTag tagResolver workload with
    | none =>
      rw [htag] at hfits
      simp only [htag] at h
      obtain ⟨sum, hsum, h⟩ := Except.bind_eq_ok_iff.mp h
      obtain ⟨total, htotal, rfl⟩ := Except.map_eq_ok_iff.mp hsum
      refine ⟨entries, total, (Except.pure_eq_ok_iff.mp h).symm, ?_⟩
      exact hcharged.untagged (hbefore.spendOf none) hq (hfits.spendOf none) htotal
    | some tag =>
      rw [htag] at hfits
      simp only [htag, chargebackState, lookup_finite] at h
      obtain ⟨sum, hsum, h⟩ := Except.bind_eq_ok_iff.mp h
      obtain ⟨total, htotal, rfl⟩ := Except.map_eq_ok_iff.mp hsum
      refine ⟨setEntry tag total entries, unallocated, ?_, ?_⟩
      · rw [← Except.pure_eq_ok_iff.mp h, chargebackState, map_setEntry]
      · exact hcharged.tagged (hbefore.spendOf (some tag)) hq (hfits.spendOf (some tag)) htotal

theorem charged_run {rows : List (Option String × ℚ)} {entries : List (String × ℚ)}
    {unallocated : ℚ} {workloads : List W} {s : ChargebackState}
    (hcharged : Charged rows entries unallocated)
    (hfinite : ∀ workload ∈ workloads, ∀ cost, workloadCost decimalAt workload = some cost →
      ∃ q, cost = .finite q)
    (hfits : Fits signed (rows ++ charges decimalAt tagResolver workloads))
    (h : workloads.foldlM (chargeWorkload decimalAt tagResolver)
      (chargebackState entries unallocated) = .ok s) :
    ∃ entries' unallocated', s = chargebackState entries' unallocated' ∧
      Charged (rows ++ charges decimalAt tagResolver workloads) entries' unallocated' := by
  induction workloads generalizing rows entries unallocated with
  | nil =>
    refine ⟨entries, unallocated, (Except.ok.inj h).symm, ?_⟩
    simpa [charges] using hcharged
  | cons workload workloads ih =>
    rw [List.foldlM_cons] at h
    obtain ⟨next, hnext, h⟩ := Except.bind_eq_ok_iff.mp h
    have hsplit : charges decimalAt tagResolver (workload :: workloads) =
        charges decimalAt tagResolver [workload] ++ charges decimalAt tagResolver workloads := by
      rw [charges, charges, charges, ← List.filterMap_append, List.singleton_append]
    rw [hsplit, ← List.append_assoc] at hfits ⊢
    obtain ⟨entries', unallocated', rfl, hcharged'⟩ := charged_step hcharged
      (hfinite workload (by simp)) (hfits.sublist (List.sublist_append_left _ _)) hnext
    exact ih hcharged' (fun w hw => hfinite w (by simp [hw])) hfits h

end Run

section Parts
variable {rows : List (Option String × ℚ)} {entries : List (String × ℚ)} {unallocated : ℚ}

theorem Charged.sum_groups (h : Charged rows entries unallocated) :
    (entries.map fun e => spendOf rows (some e.1)).sum + spendOf rows none =
      (rows.map Prod.snd).sum := by
  have hnodup : (none :: (entries.map Prod.fst).map some).Nodup := by
    refine List.nodup_cons.mpr ⟨by simp, ?_⟩
    exact h.nodup.map (Option.some_injective _)
  have hsum := sum_groupSum hnodup Prod.fst Prod.snd rows
  rw [List.map_cons, List.sum_cons, List.map_map, List.map_map, add_comm] at hsum
  refine hsum.trans ?_
  congr 2
  refine List.filter_eq_self.mpr (fun r hr => ?_)
  cases htag : r.1 with
  | none => simp
  | some tag => simpa using h.covers r hr tag htag

theorem sum_charges (config : SubBudgetConfig) (rows : List (Option String × ℚ)) :
    (config.budgets.map fun b => spendOf rows (some b.tag)).sum + spendOf rows none +
      unknownTagSpend config rows = (rows.map Prod.snd).sum := by
  have hnodup : (none :: (config.budgets.map SubBudget.tag).map some).Nodup := by
    refine List.nodup_cons.mpr ⟨by simp, ?_⟩
    exact config.tags_nodup.map (Option.some_injective _)
  have hsum := sum_groupSum hnodup Prod.fst Prod.snd rows
  rw [List.map_cons, List.sum_cons, List.map_map, List.map_map, add_comm] at hsum
  have hall : (rows.map Prod.snd).sum = sumWhere (fun _ => true) Prod.snd rows := by
    simp [sumWhere]
  rw [hall, sumWhere_split _
    (fun r => decide (r.1 ∈ none :: (config.budgets.map SubBudget.tag).map some))]
  congr 1
  · refine hsum.trans ?_
    rw [sumWhere]
    congr 2
    refine List.filter_congr (fun r _ => ?_)
    simp
  · refine sumWhere_congr (fun r _ => ?_)
    cases r.1 with
    | none => simp
    | some tag => simp

end Parts

theorem quantizeUsd_ok {computed exact : ℚ} {result : DecimalNumber}
    (htracks : Tracks computed exact) (hquantized : IsMultiple 6 exact)
    (h : quantizeUsd (.finite computed) = .ok result) :
    result = .finite exact ∧ |exact| < 10 ^ 22 := by
  simp only [quantizeUsd] at h
  split at h
  · simp at h
  · rename_i hsmall
    rcases htracks with rfl | ⟨hbig, -⟩
    · rw [roundHalfAway_of_isMultiple hquantized] at h hsmall
      exact ⟨(Except.ok.inj h).symm, not_le.mp hsmall⟩
    · have hlimit : roundHalfAway 6 (10 ^ 22) = 10 ^ 22 :=
        roundHalfAway_of_isMultiple ⟨10 ^ 28, by norm_num⟩
      have hround : roundHalfAway 6 (10 ^ 22) ≤ roundHalfAway 6 computed :=
        roundHalfAway_mono (by norm_num) hbig
      rw [hlimit] at hround
      exact absurd (hround.trans (le_abs_self _)) hsmall

/-- A part of a total that `quantize` holds is held too. -/
theorem Fits.abs_lt {signed : Bool} {rows part : List (Option String × ℚ)}
    (h : Fits signed rows) (hpart : part.Sublist rows)
    (htotal : |(rows.map Prod.snd).sum| < 10 ^ 22) : |(part.map Prod.snd).sum| < 10 ^ 22 := by
  have hwithin := (h part hpart).2
  cases signed with
  | true => exact hwithin
  | false =>
    have hcost : ∀ x ∈ rows.map Prod.snd, 0 ≤ x := by
      intro x hx
      obtain ⟨r, hr, rfl⟩ := List.mem_map.mp hx
      exact (h.cost hr).2
    have hle := (hpart.map Prod.snd).sum_le_sum hcost
    rw [abs_of_nonneg hwithin]
    exact lt_of_le_of_lt (hle.trans (le_abs_self _)) htotal

section Conservation
variable {W : Type} {decimalAt : W → String → Option DecimalNumber}
  {tagResolver : Option (W → Option String)} {config : SubBudgetConfig} {workloads : List W}
  {report : ChargebackReport}

theorem generateChargebackReport_ok
    (hfinite : ∀ workload ∈ workloads, ∀ cost, workloadCost decimalAt workload = some cost →
      ∃ q, cost = .finite q)
    {signed : Bool} (hfits : Fits signed (charges decimalAt tagResolver workloads))
    (h : generateChargebackReport decimalAt tagResolver config workloads = .ok report) :
    report.lineItems.map ChargebackLineItem.spendUsd =
        (config.budgets.map fun b =>
          spendOf (charges decimalAt tagResolver workloads) (some b.tag)).map .finite ∧
      report.totalSpendUsd =
        .finite ((charges decimalAt tagResolver workloads).map Prod.snd).sum ∧
      report.unallocatedSpendUsd =
        .finite (spendOf (charges decimalAt tagResolver workloads) none) := by
  obtain ⟨s, hrun, h⟩ := Except.bind_eq_ok_iff.mp h
  obtain ⟨tagged, htagged, h⟩ := Except.bind_eq_ok_iff.mp h
  obtain ⟨totalSpend, htotal, h⟩ := Except.bind_eq_ok_iff.mp h
  obtain ⟨lineItems, hitems, h⟩ := Except.bind_eq_ok_iff.mp h
  obtain ⟨total, hquantized, h⟩ := Except.bind_eq_ok_iff.mp h
  obtain ⟨unallocated, hunallocated, h⟩ := Except.bind_eq_ok_iff.mp h
  obtain rfl := Except.pure_eq_ok_iff.mp h
  obtain ⟨entries, u, rfl, hcharged⟩ := charged_run charged_nil hfinite
    (by simpa using hfits) hrun
  rw [List.nil_append] at hcharged
  -- the sum over the dictionary, then the unallocated spend
  have hgroups : ∀ n, Within signed (0 + ((entries.take n).map fun e =>
      spendOf (charges decimalAt tagResolver workloads) (some e.1)).sum) := by
    intro n
    have hkeys : ((entries.take n).map Prod.fst).Nodup := by
      rw [List.map_take]
      exact hcharged.nodup.sublist (List.take_sublist _ _)
    have hsum := hfits.groups (hkeys.map (Option.some_injective _))
    rw [List.map_map, List.map_map] at hsum
    rw [zero_add]
    exact hsum
  have htracks : ∀ e ∈ entries, Tracks e.2
      (spendOf (charges decimalAt tagResolver workloads) (some e.1)) := by
    intro e he
    have hentry := hcharged.tracks e.1
    rwa [lookup_of_mem hcharged.nodup he] at hentry
  rw [chargebackState, List.map_map] at htagged
  obtain ⟨sum, rfl, hsum⟩ := foldlM_addDecimals
    (fun tag => spendOf (charges decimalAt tagResolver workloads) (some tag)) (.inl rfl) htracks
    (fun e _ => hfits.spendOf (some e.1)) hgroups htagged
  obtain ⟨value, hvalue, rfl⟩ := Except.map_eq_ok_iff.mp htotal
  have hall := hcharged.sum_groups
  have hwhole := hfits _ (List.Sublist.refl _)
  have hgroupsAll := hgroups entries.length
  rw [List.take_length] at hgroupsAll
  rw [zero_add] at hsum hgroupsAll
  have hvalueTracks := hsum.add hcharged.tracksUnallocated hgroupsAll (hfits.spendOf none)
    (by rwa [hall]) hvalue
  rw [hall] at hvalueTracks
  obtain ⟨rfl, hsmall⟩ := quantizeUsd_ok hvalueTracks hwhole.1 hquantized
  obtain ⟨rfl, -⟩ := quantizeUsd_ok hcharged.tracksUnallocated (hfits.spendOf none).1 hunallocated
  refine ⟨?_, rfl, rfl⟩
  -- a line item has the entry of its tag
  rw [List.map_map]
  refine List.map_of_mapM_eq_ok hitems (fun b _ item hitem => ?_)
  obtain ⟨remaining, -, hitem⟩ := Except.bind_eq_ok_iff.mp hitem
  obtain ⟨negative, -, hitem⟩ := Except.bind_eq_ok_iff.mp hitem
  obtain rfl := Except.pure_eq_ok_iff.mp hitem
  have hexact := (hcharged.tracks b.tag).eq_of_lt
    (.inr (hfits.abs_lt List.filter_sublist hsmall))
  simp only [chargebackState, lookup_finite, hexact, Function.comp_apply]

/-- A report conserves money exactly if the spend under unknown tags sums to zero. -/
theorem chargeback_conserves_iff
    (hfinite : ∀ workload ∈ workloads, ∀ cost, workloadCost decimalAt workload = some cost →
      ∃ q, cost = .finite q)
    (hsize : (∀ r ∈ charges decimalAt tagResolver workloads, 0 ≤ r.2) ∨
      ((charges decimalAt tagResolver workloads).map fun r => |r.2|).sum < 10 ^ 22)
    (h : generateChargebackReport decimalAt tagResolver config workloads = .ok report) :
    report.Conserves ↔
      unknownTagSpend config (charges decimalAt tagResolver workloads) = 0 := by
  have hquantized : ∀ r ∈ charges decimalAt tagResolver workloads, IsMultiple 6 r.2 := by
    intro r hr
    obtain ⟨workload, -, hcharge⟩ := List.mem_filterMap.mp hr
    exact charge_quantized hcharge
  obtain ⟨signed, hfits⟩ := fits_of hquantized hsize
  obtain ⟨hitems, htotal, hunallocated⟩ := generateChargebackReport_ok hfinite hfits h
  have hsum := sum_charges config (charges decimalAt tagResolver workloads)
  have hfinite_injective : Function.Injective DecimalNumber.finite :=
    fun _ _ heq => DecimalNumber.finite.inj heq
  constructor
  · rintro ⟨spends, total, unallocated, hspends, htotal', hunallocated', hconserved⟩
    obtain rfl := List.map_injective_iff.mpr hfinite_injective (hspends.symm.trans hitems)
    obtain rfl := DecimalNumber.finite.inj (htotal'.symm.trans htotal)
    obtain rfl := DecimalNumber.finite.inj (hunallocated'.symm.trans hunallocated)
    linarith
  · intro hzero
    refine ⟨_, _, _, hitems, htotal, hunallocated, ?_⟩
    rwa [hzero, add_zero] at hsum

end Conservation

def inferenceBudget : SubBudgetConfig where
  totalBudgetUsd := 100
  budgets := [⟨"inference", 60, by decide, by norm_num⟩]
  total_pos := hundred_dollars_pos
  tags_nodup := List.nodup_singleton _
  sum_le := by
    refine ⟨60, ?_, by norm_num⟩
    have hsum : contextual (0 + 60) = .ok 60 := by
      rw [zero_add]
      exact contextual_of_isMultiple ⟨60 * 10 ^ 6, by norm_num⟩ (by norm_num)
    rw [allocationSum, List.foldlM_cons, Except.bind_of_ok hsum]
    rfl

def oneDollar : Unit → String → Option DecimalNumber := fun _ key =>
  if key = "cost_actual_usd" then some (.finite 1) else none

def researchTeam : Option (Unit → Option String) := some fun _ => some "research"

theorem contextual_int {n : ℤ} (h : |(n : ℚ)| < 10 ^ 22) : contextual n = .ok (n : ℚ) :=
  contextual_of_isMultiple ⟨n * 10 ^ 6, by push_cast; ring⟩ h

theorem quantizeUsd_int {n : ℤ} (h : |(n : ℚ)| < 10 ^ 22) :
    quantizeUsd (.finite n) = .ok (.finite n) := by
  have hround : roundHalfAway 6 (n : ℚ) = n :=
    roundHalfAway_of_isMultiple ⟨n * 10 ^ 6, by push_cast; ring⟩
  rw [quantizeUsd, hround, if_neg (not_le.mpr h)]

theorem oneDollar_cost : workloadCost oneDollar () = some (.finite 1) := by
  have hquantize := quantizeUsd_int (n := 1) (by norm_num)
  rw [Int.cast_one] at hquantize
  simp [workloadCost, decimalFromMapping, oneDollar, hquantize, Except.toOption]

theorem research_report :
    generateChargebackReport oneDollar researchTeam inferenceBudget [()] =
      .ok ⟨.finite 1, [⟨"inference", 60, .finite 0, .finite 60⟩], .finite 0⟩ := by
  have hzero := contextual_int (n := 0) (by norm_num)
  have hone := contextual_int (n := 1) (by norm_num)
  have hsixty := contextual_int (n := 60) (by norm_num)
  have hquantizeZero := quantizeUsd_int (n := 0) (by norm_num)
  have hquantizeOne := quantizeUsd_int (n := 1) (by norm_num)
  push_cast at hzero hone hsixty hquantizeZero hquantizeOne
  have hstep : chargeWorkload oneDollar researchTeam ⟨[], .finite 0⟩ () =
      .ok ⟨[("research", .finite 1)], .finite 0⟩ := by
    simp [chargeWorkload, oneDollar_cost, resolvedTag, researchTeam, addDecimals, hone, setEntry]
    rfl
  have hloop : [()].foldlM (chargeWorkload oneDollar researchTeam) ⟨[], .finite 0⟩ =
      .ok ⟨[("research", .finite 1)], .finite 0⟩ := by
    rw [List.foldlM_cons, Except.bind_of_ok hstep]
    rfl
  have hadd : addDecimals (.finite 0) (.finite 1) = .ok (.finite 1) := by
    rw [addDecimals, zero_add, hone]
    rfl
  have hadd' : addDecimals (.finite 1) (.finite 0) = .ok (.finite 1) := by
    rw [addDecimals, add_zero, hone]
    rfl
  have htagged : [DecimalNumber.finite 1].foldlM addDecimals (.finite 0) = .ok (.finite 1) := by
    rw [List.foldlM_cons, Except.bind_of_ok hadd]
    rfl
  have hremaining : addDecimals (.finite 60) (negateDecimal (.finite 0)) = .ok (.finite 60) := by
    rw [negateDecimal, addDecimals, neg_zero, add_zero, hsixty]
    rfl
  have hitem : lineItem [("research", .finite 1)] ⟨"inference", 60, by decide, by norm_num⟩ =
      .ok ⟨"inference", 60, .finite 0, .finite 60⟩ := by
    have hlookup : (([("research", DecimalNumber.finite 1)].lookup "inference").getD (.finite 0)) =
        .finite 0 := by decide
    have hnegative : decimalIsNegative (.finite 60) = .ok false := by
      simp [decimalIsNegative]
    simp only [lineItem, hlookup]
    rw [Except.bind_of_ok hremaining, Except.bind_of_ok hnegative]
    rfl
  have hitems : inferenceBudget.budgets.mapM (lineItem [("research", .finite 1)]) =
      .ok [⟨"inference", 60, .finite 0, .finite 60⟩] := by
    rw [inferenceBudget, List.mapM_cons, Except.bind_of_ok hitem]
    rfl
  rw [generateChargebackReport, Except.bind_of_ok hloop]
  refine (Except.bind_of_ok htagged).trans ((Except.bind_of_ok hadd').trans ?_)
  refine (Except.bind_of_ok hitems).trans ((Except.bind_of_ok hquantizeOne).trans ?_)
  exact Except.bind_of_ok hquantizeZero

def taggedCost : Option String × ℚ → String → Option DecimalNumber := fun workload key =>
  if key = "cost_actual_usd" then some (.finite workload.2) else none

def taggedTeam : Option (Option String × ℚ → Option String) := some Prod.fst

theorem workloadCost_taggedCost (workload : Option String × ℚ) {cost : DecimalNumber}
    (h : workloadCost taggedCost workload = some cost) : ∃ q, cost = .finite q := by
  have hestimate : decimalFromMapping taggedCost workload "cost_estimate_usd" = none := rfl
  have hactual : decimalFromMapping taggedCost workload "cost_actual_usd" =
      (quantizeUsd (.finite workload.2)).toOption := rfl
  unfold workloadCost at h
  rw [hestimate, hactual, quantizeUsd] at h
  split_ifs at h with hbig
  · cases h
  · exact ⟨_, (Option.some.inj h).symm⟩

/-- With a workload of a tag that the configuration has and one of none, the report conserves the
spend; with one of another tag besides, it does not. -/
theorem chargeback_conserves_iff_tagged :
    (∃ report, generateChargebackReport taggedCost taggedTeam inferenceBudget
        [(some "inference", 3), (none, 2)] = .ok report ∧ report.Conserves) ∧
      ∃ report, generateChargebackReport taggedCost taggedTeam inferenceBudget
        [(some "inference", 3), (some "research", 1), (none, 2)] = .ok report ∧
          ¬report.Conserves := by
  have htotals : ∀ workloads : List (Option String × ℚ), ∀ total : ℚ,
      (generateChargebackReport taggedCost taggedTeam inferenceBudget workloads).map
        ChargebackReport.totalSpendUsd = .ok (.finite total) → ∃ report,
          generateChargebackReport taggedCost taggedTeam inferenceBudget workloads = .ok report :=
    fun workloads total htotal =>
      (Except.map_eq_ok_iff.mp htotal).imp fun report hreport => hreport.1
  obtain ⟨known, hknown⟩ := htotals [(some "inference", 3), (none, 2)] 5 (by decide +kernel)
  obtain ⟨mixed, hmixed⟩ :=
    htotals [(some "inference", 3), (some "research", 1), (none, 2)] 6 (by decide +kernel)
  refine ⟨⟨known, hknown, ?_⟩, mixed, hmixed, ?_⟩
  · exact (chargeback_conserves_iff (fun workload _ _ => workloadCost_taggedCost workload)
      (.inl (by decide +kernel)) hknown).mpr (by decide +kernel)
  · exact (chargeback_conserves_iff (fun workload _ _ => workloadCost_taggedCost workload)
      (.inl (by decide +kernel)) hmixed).not.mpr (by decide +kernel)

/-- The dollar is in no line item and not in the unallocated spend. -/
theorem research_not_conserved : ∃ report,
    generateChargebackReport oneDollar researchTeam inferenceBudget [()] = .ok report ∧
      ¬report.Conserves := by
  refine ⟨_, research_report, ?_⟩
  rintro ⟨spends, total, unallocated, hspends, htotal, hunallocated, hsum⟩
  obtain rfl := DecimalNumber.finite.inj htotal
  obtain rfl := DecimalNumber.finite.inj hunallocated
  have hone : [(0 : ℚ)].map DecimalNumber.finite = spends.map DecimalNumber.finite := hspends
  obtain rfl := List.map_injective_iff.mpr
    (fun _ _ heq => DecimalNumber.finite.inj heq) hone
  norm_num at hsum

end Pitwall
