import Pitwall.Core.Decimals
import Pitwall.Cost.BudgetGate
set_option autoImplicit false

/-!
`SubBudgetGate.try_launch` without an external spend resolver: any number of calls on one gate,
which switch at their awaits.
-/

namespace Pitwall
open Machine

structure SubBudget where
  tag : String
  allocationUsd : ℚ
  tag_ne : tag ≠ ""
  allocation_nonneg : 0 ≤ allocationUsd

/-- `sum(b.allocation_usd for b in budgets)`. -/
def allocationSum (budgets : List SubBudget) : Except PyError ℚ :=
  budgets.foldlM (fun total b => contextual (total + b.allocationUsd)) 0

/-- `SubBudgetConfig`, with what its validators check. -/
structure SubBudgetConfig where
  totalBudgetUsd : ℚ
  budgets : List SubBudget
  total_pos : 0 < totalBudgetUsd
  tags_nodup : (budgets.map SubBudget.tag).Nodup
  sum_le : ∃ total, allocationSum budgets = .ok total ∧ total ≤ totalBudgetUsd

def SubBudgetConfig.allocationFor (config : SubBudgetConfig) (tag : String) : ℚ :=
  ((config.budgets.find? (fun b => decide (b.tag = tag))).map SubBudget.allocationUsd).getD 0

structure SubBudgetSnapshot where
  tag : String
  tagAllocationUsd : ℚ
  tagMtdSpendUsd : ℚ
  tagEstimateUsd : ℚ
  tagRemainingUsd : ℚ
  deriving DecidableEq

inductive SubLaunchError where
  | subBudgetRejected (reason : String) (snapshot : SubBudgetSnapshot)
  | decimal (e : PyError)
  | admission (e : AdmissionError)
  deriving DecidableEq

def contextualUsd (value : ℚ) : Except SubLaunchError ℚ :=
  match contextual value with
  | .ok result => .ok result
  | .error e => .error (.decimal e)

/-- `_validate_new_tag_admission`, with the spend that the gate remembers. -/
def validateNewTagAdmission (config : SubBudgetConfig) (memorySpend : String → Option ℚ)
    (tag : String) (estimate : ℚ) : Except SubLaunchError ℚ :=
  let allocation := config.allocationFor tag
  if allocation ≤ 0 then
    .error (.subBudgetRejected "unknown_tag" ⟨tag, allocation, 0, estimate, 0⟩)
  else
    let mtd := (memorySpend tag).getD 0
    match contextualUsd (mtd + estimate) with
    | .error e => .error e
    | .ok total =>
        if allocation < total then
          match contextualUsd (allocation - mtd) with
          | .error e => .error e
          | .ok remaining => .error (.subBudgetRejected "sub_budget"
              ⟨tag, allocation, mtd, estimate, if 0 < remaining then remaining else 0⟩)
        else .ok mtd

structure SubLaunchRequest where
  tag : String
  capabilityId : String
  providerId : String
  estimateUsd : BudgetEstimateInput
  workloadType : String
  submittedAt : Option Instant
  idempotencyKey : Option String

/-- What `try_launch` passes to the account gate. The hook is run before. -/
def SubLaunchRequest.launchRequest (req : SubLaunchRequest) (estimate : ℚ) : LaunchRequest where
  capabilityId := req.capabilityId
  providerId := req.providerId
  estimateUsd := .amount (.finite estimate)
  workloadType := req.workloadType
  submittedAt := req.submittedAt
  idempotencyKey := req.idempotencyKey
  beforeNewAdmission := none

/-- Where a call stands; `mtd` is the spend it has read. -/
inductive SubLaunchState where
  | called
  | waiting (estimate : ℚ) (mtd : Option ℚ)
  | locked (estimate : ℚ) (mtd : Option ℚ)
  | admitted (estimate : ℚ) (mtd : Option ℚ) (workloadId : String)
  | returned (workloadId : String)
  | raised (e : SubLaunchError)
  deriving DecidableEq

/-- The memory of the gate, the table and the holder of the advisory lock. `newlyAdmitted`
keeps the tags and estimates of the workloads inserted so far. -/
structure SubShared (ι : Type) where
  memorySpend : String → Option ℚ
  table : Workloads
  lockedBy : Option ι
  newlyAdmitted : List (String × ℚ)

section Step
variable {ι : Type} (gate : BudgetGate) (config : SubBudgetConfig)

/-- The next step of call `i`, up to its next await. -/
def subLaunchStep (request : ι → SubLaunchRequest) (i : ι) (l : SubLaunchState) (s : SubShared ι)
    (env : LaunchEnv) : SubShared ι × SubLaunchState :=
  let req := request i
  match l with
  | .called =>
      match positiveEstimate req.estimateUsd with
      | .error e => (s, .raised (.admission e))
      | .ok estimate =>
          match req.idempotencyKey with
          | some _ => (s, .waiting estimate none)
          | none =>
              match validateNewTagAdmission config s.memorySpend req.tag estimate with
              | .error e => (s, .raised e)
              | .ok mtd =>
                  if gate.perRequestMaxUsd < estimate then
                    (s, .raised (.admission
                      (.budgetRejected .perRequestCap (gate.snapshot 0 estimate))))
                  else (s, .waiting estimate (some mtd))
  | .waiting estimate mtd =>
      -- The call has the lock, looks its key up and runs the hook.
      match s.lockedBy, req.idempotencyKey with
      | some _, _ => (s, l)
      | none, none => ({ s with lockedBy := some i }, .locked estimate mtd)
      | none, some key =>
          match s.table.byKey key with
          | some existing => (s, .returned existing.id)
          | none =>
              match validateNewTagAdmission config s.memorySpend req.tag estimate with
              | .error e => (s, .raised e)
              | .ok mtd => ({ s with lockedBy := some i }, .locked estimate (some mtd))
  | .locked estimate mtd =>
      match gate.launch (req.launchRequest estimate) env s.table with
      | (.error e, table) =>
          ({ s with
              table := table
              lockedBy := none }, .raised (.admission e))
      | (.ok admission, table) =>
          if admission.isNew then
            ({ s with
                table := table
                lockedBy := none
                newlyAdmitted := s.newlyAdmitted ++ [(req.tag, estimate)] },
              .admitted estimate mtd admission.workloadId)
          else
            ({ s with
                table := table
                lockedBy := none }, .returned admission.workloadId)
  | .admitted estimate mtd workloadId =>
      let read : Except SubLaunchError ℚ :=
        match mtd with
        | some mtd => .ok mtd
        | none => validateNewTagAdmission config s.memorySpend req.tag estimate
      match read with
      | .error e => (s, .raised e)
      | .ok mtd =>
          match contextualUsd (mtd + estimate) with
          | .error e => (s, .raised e)
          | .ok total =>
              ({ s with memorySpend := Function.update s.memorySpend req.tag (some total) },
                .returned workloadId)
  | .returned _ | .raised _ => (s, l)

end Step

def SubShared.start (ι : Type) (table : Workloads) : Config (SubShared ι) ι SubLaunchState where
  shared := ⟨fun _ => none, table, none, []⟩
  procs := fun _ => .called

def SubShared.spent {ι : Type} (s : SubShared ι) (tag : String) : ℚ :=
  ((s.newlyAdmitted.filter (fun entry => decide (entry.1 = tag))).map Prod.snd).sum

def SubShared.remembered {ι : Type} (s : SubShared ι) (tag : String) : ℚ :=
  (s.memorySpend tag).getD 0

theorem validateNewTagAdmission_ok {config : SubBudgetConfig} {memorySpend : String → Option ℚ}
    {tag : String} {estimate mtd : ℚ}
    (h : validateNewTagAdmission config memorySpend tag estimate = .ok mtd) :
    mtd = (memorySpend tag).getD 0 ∧ ∃ total, contextualUsd (mtd + estimate) = .ok total ∧
      total ≤ config.allocationFor tag := by
  unfold validateNewTagAdmission at h
  dsimp only at h
  split at h
  · contradiction
  · cases htotal : contextualUsd ((memorySpend tag).getD 0 + estimate) with
    | error e =>
      rw [htotal] at h
      contradiction
    | ok total =>
      rw [htotal] at h
      dsimp only at h
      split at h
      · split at h <;> contradiction
      · rename_i hfits
        obtain rfl := Except.ok.inj h
        exact ⟨rfl, total, htotal, not_lt.mp hfits⟩

theorem SubBudgetConfig.allocationFor_nonneg (config : SubBudgetConfig) (tag : String) :
    0 ≤ config.allocationFor tag := by
  unfold allocationFor
  cases config.budgets.find? (fun b => decide (b.tag = tag)) with
  | none => exact le_rfl
  | some b => exact b.allocation_nonneg

theorem spent_append {ι : Type} (s : SubShared ι) (table : Workloads) (lockedBy : Option ι)
    (tag tag' : String) (estimate : ℚ) :
    SubShared.spent ⟨s.memorySpend, table, lockedBy, s.newlyAdmitted ++ [(tag, estimate)]⟩ tag' =
      s.spent tag' + if tag = tag' then estimate else 0 := by
  unfold SubShared.spent
  by_cases h : tag = tag' <;> simp [h]

theorem hundred_dollars_pos : (0 : ℚ) < 100 := by norm_num

end Pitwall
