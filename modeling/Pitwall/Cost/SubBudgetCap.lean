import Mathlib
import Pitwall.Cost.BudgetCap
import Pitwall.Cost.SubBudgets
set_option autoImplicit false

/-!
The cap of a sub-budget holds in the runs in which a launch is admitted only on the spend that
it has read in full.
-/

namespace Pitwall
open Machine

section Calls
variable {ι : Type} (gate : BudgetGate) (config : SubBudgetConfig)
  (request : ι → SubLaunchRequest)

def SubLaunchState.unwritten : SubLaunchState → Bool
  | .admitted _ _ _ => true
  | _ => false

/-- What is admitted under a tag fits in its allocation, and is what the gate remembers once
every admitted call has written it. -/
def TagCapKept (c : Config (SubShared ι) ι SubLaunchState) : Prop :=
  ∀ tag, c.shared.spent tag ≤ config.allocationFor tag ∧
    ((∀ i, (request i).tag = tag → (c.procs i).unwritten = false) →
      c.shared.remembered tag = c.shared.spent tag)

/-- A launch that is newly admitted has read the sum of all that was admitted under its tag
before, and its own estimate adds to it without rounding. -/
def ReadsInFull (c : Config (SubShared ι) ι SubLaunchState) (a : ι × LaunchEnv) : Prop :=
  match c.procs a.1 with
  | .locked estimate mtd =>
      match (gate.launch ((request a.1).launchRequest estimate) a.2 c.shared.table).1 with
      | .ok admission => admission.isNew = true →
          mtd = some (c.shared.spent (request a.1).tag) ∧
            contextualUsd (c.shared.spent (request a.1).tag + estimate) =
              .ok (c.shared.spent (request a.1).tag + estimate)
      | .error _ => True
  | _ => True

instance (c : Config (SubShared ι) ι SubLaunchState) (a : ι × LaunchEnv) :
    Decidable (ReadsInFull gate request c a) := by
  unfold ReadsInFull
  split
  · split <;> infer_instance
  · infer_instance

/-- What a call has read is at most what the gate remembers now, and leaves room for it. -/
def SubLaunchState.ReadOk (allocation remembered spent : ℚ) : SubLaunchState → Prop
  | .waiting estimate (some mtd) | .locked estimate (some mtd) =>
      0 < estimate ∧ mtd ≤ remembered ∧
        ∃ total, contextualUsd (mtd + estimate) = .ok total ∧ total ≤ allocation
  | .waiting estimate none | .locked estimate none => 0 < estimate
  | .admitted estimate mtd _ =>
      0 < estimate ∧ mtd = some remembered ∧ remembered + estimate = spent ∧
        contextualUsd (remembered + estimate) = .ok (remembered + estimate)
  | _ => True

/-- The invariant: the cap, what each call has read, and no two admitted calls of one tag
waiting to write. -/
structure Accounted (c : Config (SubShared ι) ι SubLaunchState) : Prop where
  kept : TagCapKept config request c
  read : ∀ i, (c.procs i).ReadOk (config.allocationFor (request i).tag)
    (c.shared.remembered (request i).tag) (c.shared.spent (request i).tag)
  alone : ∀ i j, (c.procs i).unwritten = true → (c.procs j).unwritten = true →
    (request i).tag = (request j).tag → i = j

end Calls

theorem SubLaunchState.ReadOk.mono {allocation remembered remembered' spent spent' : ℚ}
    {l : SubLaunchState} (h : l.ReadOk allocation remembered spent) (hl : l.unwritten = false)
    (hle : remembered ≤ remembered') : l.ReadOk allocation remembered' spent' := by
  match l, h with
  | .waiting _ (some _), ⟨hpos, hread, hroom⟩ => exact ⟨hpos, hread.trans hle, hroom⟩
  | .locked _ (some _), ⟨hpos, hread, hroom⟩ => exact ⟨hpos, hread.trans hle, hroom⟩
  | .waiting _ none, hpos => exact hpos
  | .locked _ none, hpos => exact hpos
  | .called, _ | .returned _, _ | .raised _, _ => trivial

section Steps
variable {ι : Type} {gate : BudgetGate} {config : SubBudgetConfig}
  {request : ι → SubLaunchRequest} {c c' : Config (SubShared ι) ι SubLaunchState} {i : ι}
  {estimate : ℚ} {mtd : Option ℚ} {workloadId : String}

theorem accounted_of_local (h : Accounted config request c)
    (hself : (c'.procs i).ReadOk (config.allocationFor (request i).tag)
      (c.shared.remembered (request i).tag) (c.shared.spent (request i).tag))
    (hbefore : (c.procs i).unwritten = false) (hafter : (c'.procs i).unwritten = false)
    (hother : ∀ j, j ≠ i → c'.procs j = c.procs j)
    (hmemory : c'.shared.memorySpend = c.shared.memorySpend)
    (hadmitted : c'.shared.newlyAdmitted = c.shared.newlyAdmitted) :
    Accounted config request c' := by
  have hspent : ∀ tag, c'.shared.spent tag = c.shared.spent tag := fun tag => by
    unfold SubShared.spent
    rw [hadmitted]
  have hremembered : ∀ tag, c'.shared.remembered tag = c.shared.remembered tag := fun tag => by
    unfold SubShared.remembered
    rw [hmemory]
  have hunwritten : ∀ j, (c'.procs j).unwritten = (c.procs j).unwritten := by
    intro j
    by_cases hj : j = i
    · rw [hj, hafter, hbefore]
    · rw [hother j hj]
  refine ⟨fun tag => ?_, fun j => ?_, fun j k => ?_⟩
  · simp only [hspent, hremembered, hunwritten]
    exact h.kept tag
  · rw [hspent, hremembered]
    by_cases hj : j = i
    · exact hj ▸ hself
    · rw [hother j hj]
      exact h.read j
  · rw [hunwritten, hunwritten]
    exact h.alone j k

theorem nothing_unwritten (h : Accounted config request c) {tag : String}
    (hread : c.shared.spent tag ≤ c.shared.remembered tag) :
    ∀ j, (request j).tag = tag → (c.procs j).unwritten = false := by
  intro j hj
  have hjread := h.read j
  rw [hj] at hjread
  cases hl : c.procs j with
  | admitted estimate' mtd' workloadId' =>
    rw [hl] at hjread
    obtain ⟨hpos, -, hsum, -⟩ := hjread
    linarith
  | called => rfl
  | waiting => rfl
  | locked => rfl
  | returned => rfl
  | raised => rfl

theorem accounted_of_admission (h : Accounted config request c)
    (hl : c.procs i = .locked estimate mtd)
    (hfull : mtd = some (c.shared.spent (request i).tag))
    (hexact : contextualUsd (c.shared.spent (request i).tag + estimate) =
      .ok (c.shared.spent (request i).tag + estimate))
    (hself : c'.procs i = .admitted estimate mtd workloadId)
    (hother : ∀ j, j ≠ i → c'.procs j = c.procs j)
    (hmemory : c'.shared.memorySpend = c.shared.memorySpend)
    (hadmitted : c'.shared.newlyAdmitted =
      c.shared.newlyAdmitted ++ [((request i).tag, estimate)]) :
    Accounted config request c' := by
  subst hfull
  have hread := h.read i
  rw [hl] at hread
  obtain ⟨hpos, hle, total, htotal, hroom⟩ := hread
  obtain rfl := Except.ok.inj (hexact.symm.trans htotal)
  have hnone := nothing_unwritten h hle
  have hremembers := (h.kept (request i).tag).2 hnone
  have hspent : ∀ tag, c'.shared.spent tag =
      c.shared.spent tag + if (request i).tag = tag then estimate else 0 := by
    intro tag
    rw [← spent_append c.shared c.shared.table c.shared.lockedBy]
    unfold SubShared.spent
    rw [hadmitted]
  have hremembered : ∀ tag, c'.shared.remembered tag = c.shared.remembered tag := fun tag => by
    unfold SubShared.remembered
    rw [hmemory]
  refine ⟨fun tag => ?_, fun j => ?_, fun j k hj hk htag => ?_⟩
  · by_cases htag : (request i).tag = tag
    · subst htag
      refine ⟨?_, fun hwritten => ?_⟩
      · rw [hspent, if_pos rfl]
        exact hroom
      · have hi := hwritten i rfl
        rw [hself] at hi
        cases hi
    · rw [hspent, if_neg htag, add_zero, hremembered]
      refine ⟨(h.kept tag).1, fun hwritten => (h.kept tag).2 (fun j hj => ?_)⟩
      have hne : j ≠ i := fun heq => htag (heq ▸ hj)
      rw [← hother j hne]
      exact hwritten j hj
  · by_cases hj : j = i
    · subst hj
      rw [hself, hspent, if_pos rfl, hremembered, hremembers]
      exact ⟨hpos, rfl, rfl, hexact⟩
    · rw [hother j hj, hremembered]
      by_cases htag : (request i).tag = (request j).tag
      · exact (h.read j).mono (hnone j htag.symm) le_rfl
      · rw [hspent, if_neg htag, add_zero]
        exact h.read j
  · have hnot : ∀ k, (request k).tag = (request i).tag → (c'.procs k).unwritten = true →
        k = i := by
      intro k htag hk
      by_contra hne
      rw [hother k hne, hnone k htag] at hk
      cases hk
    by_cases hji : j = i
    · subst hji
      exact (hnot k htag.symm hk).symm
    · by_cases hki : k = i
      · subst hki
        exact hnot j htag hj
      · rw [hother j hji] at hj
        rw [hother k hki] at hk
        exact h.alone j k hj hk htag

theorem accounted_of_write (h : Accounted config request c)
    (hl : c.procs i = .admitted estimate mtd workloadId)
    (hself : c'.procs i = .returned workloadId)
    (hother : ∀ j, j ≠ i → c'.procs j = c.procs j)
    (hmemory : c'.shared.memorySpend = Function.update c.shared.memorySpend (request i).tag
      (some (c.shared.remembered (request i).tag + estimate)))
    (hadmitted : c'.shared.newlyAdmitted = c.shared.newlyAdmitted) :
    Accounted config request c' := by
  have hread := h.read i
  rw [hl] at hread
  obtain ⟨hpos, -, hsum, -⟩ := hread
  have hunwritten : (c.procs i).unwritten = true := by rw [hl]; rfl
  have hspent : ∀ tag, c'.shared.spent tag = c.shared.spent tag := fun tag => by
    unfold SubShared.spent
    rw [hadmitted]
  have hown : c'.shared.remembered (request i).tag =
      c.shared.remembered (request i).tag + estimate := by
    unfold SubShared.remembered
    rw [hmemory, Function.update_self]
    rfl
  have hforeign : ∀ tag, tag ≠ (request i).tag →
      c'.shared.remembered tag = c.shared.remembered tag := by
    intro tag htag
    unfold SubShared.remembered
    rw [hmemory, Function.update_of_ne htag]
  refine ⟨fun tag => ?_, fun j => ?_, fun j k hj hk htag => ?_⟩
  · rw [hspent]
    refine ⟨(h.kept tag).1, fun hwritten => ?_⟩
    by_cases htag : tag = (request i).tag
    · subst htag
      rw [hown, hsum]
    · rw [hforeign tag htag]
      refine (h.kept tag).2 (fun j hj => ?_)
      have hne : j ≠ i := fun heq => htag (heq ▸ hj.symm)
      rw [← hother j hne]
      exact hwritten j hj
  · by_cases hj : j = i
    · subst hj
      rw [hself]
      trivial
    · rw [hother j hj, hspent]
      by_cases htag : (request j).tag = (request i).tag
      · have hwritten : (c.procs j).unwritten = false :=
          Bool.eq_false_iff.mpr (fun hj' => hj (h.alone j i hj' hunwritten htag))
        refine (h.read j).mono hwritten ?_
        rw [htag, hown]
        linarith
      · rw [hforeign _ htag]
        exact h.read j
  · have hne : ∀ j, (c'.procs j).unwritten = true → j ≠ i := by
      rintro j hj rfl
      rw [hself] at hj
      cases hj
    rw [hother j (hne j hj)] at hj
    rw [hother k (hne k hk)] at hk
    exact h.alone j k hj hk htag

end Steps

/-- What one step does: it keeps to its own state, admits a workload or writes the memory. -/
inductive SubLaunchCase {ι : Type} (gate : BudgetGate) (config : SubBudgetConfig)
    (req : SubLaunchRequest) (l : SubLaunchState) (s : SubShared ι) (env : LaunchEnv) :
    SubShared ι × SubLaunchState → Prop
  | own {s' : SubShared ι} {l' : SubLaunchState} (before : l.unwritten = false)
      (after : l'.unwritten = false) (memory : s'.memorySpend = s.memorySpend)
      (admissions : s'.newlyAdmitted = s.newlyAdmitted)
      (read : l'.ReadOk (config.allocationFor req.tag) (s.remembered req.tag)
        (s.spent req.tag)) : SubLaunchCase gate config req l s env (s', l')
  | admission {s' : SubShared ι} {estimate : ℚ} {mtd : Option ℚ} {workloadId : String}
      (locked : l = .locked estimate mtd)
      (launched : (gate.launch (req.launchRequest estimate) env s.table).1 =
        .ok ⟨workloadId, true⟩)
      (memory : s'.memorySpend = s.memorySpend)
      (admissions : s'.newlyAdmitted = s.newlyAdmitted ++ [(req.tag, estimate)]) :
      SubLaunchCase gate config req l s env (s', .admitted estimate mtd workloadId)
  | write {s' : SubShared ι} {estimate : ℚ} {mtd : Option ℚ} {workloadId : String}
      (admitted : l = .admitted estimate mtd workloadId)
      (memory : s'.memorySpend = Function.update s.memorySpend req.tag
        (some (s.remembered req.tag + estimate)))
      (admissions : s'.newlyAdmitted = s.newlyAdmitted) :
      SubLaunchCase gate config req l s env (s', .returned workloadId)

theorem readOk_of_validated {ι : Type} {config : SubBudgetConfig} {s : SubShared ι} {tag : String}
    {estimate mtd : ℚ} (hpos : 0 < estimate)
    (h : validateNewTagAdmission config s.memorySpend tag estimate = .ok mtd) :
    0 < estimate ∧ mtd ≤ s.remembered tag ∧
      ∃ total, contextualUsd (mtd + estimate) = .ok total ∧ total ≤ config.allocationFor tag := by
  obtain ⟨hread, hroom⟩ := validateNewTagAdmission_ok h
  exact ⟨hpos, hread.le, hroom⟩

theorem subLaunch_cases {ι : Type} (gate : BudgetGate) (config : SubBudgetConfig)
    (request : ι → SubLaunchRequest) (i : ι) {l : SubLaunchState} {s : SubShared ι}
    (env : LaunchEnv)
    (hread : l.ReadOk (config.allocationFor (request i).tag) (s.remembered (request i).tag)
      (s.spent (request i).tag)) :
    SubLaunchCase gate config (request i) l s env (subLaunchStep gate config request i l s env) := by
  cases l with
  | called =>
    unfold subLaunchStep
    dsimp only
    cases hestimate : positiveEstimate (request i).estimateUsd with
    | error e => exact .own rfl rfl rfl rfl trivial
    | ok estimate =>
      have hpos := positiveEstimate_pos hestimate
      dsimp only
      cases (request i).idempotencyKey with
      | some key => exact .own rfl rfl rfl rfl hpos
      | none =>
        dsimp only
        cases hvalid : validateNewTagAdmission config s.memorySpend (request i).tag estimate with
        | error e => exact .own rfl rfl rfl rfl trivial
        | ok mtd =>
          dsimp only
          split
          · exact .own rfl rfl rfl rfl trivial
          · exact .own rfl rfl rfl rfl (readOk_of_validated hpos hvalid)
  | waiting estimate mtd =>
    unfold subLaunchStep
    dsimp only
    have hpos : 0 < estimate := by
      cases mtd with
      | none => exact hread
      | some mtd => exact hread.1
    cases s.lockedBy with
    | some holder => exact .own rfl rfl rfl rfl hread
    | none =>
      cases (request i).idempotencyKey with
      | none =>
        refine .own rfl rfl rfl rfl ?_
        cases mtd with
        | none => exact hread
        | some mtd => exact hread
      | some key =>
        dsimp only
        cases s.table.byKey key with
        | some existing => exact .own rfl rfl rfl rfl trivial
        | none =>
          dsimp only
          cases hvalid : validateNewTagAdmission config s.memorySpend (request i).tag estimate with
          | error e => exact .own rfl rfl rfl rfl trivial
          | ok mtd => exact .own rfl rfl rfl rfl (readOk_of_validated hpos hvalid)
  | locked estimate mtd =>
    unfold subLaunchStep
    dsimp only
    cases hlaunch : gate.launch ((request i).launchRequest estimate) env s.table with
    | mk result table =>
    cases result with
    | error e => exact .own rfl rfl rfl rfl trivial
    | ok admission =>
      obtain ⟨workloadId, isNew⟩ := admission
      cases isNew with
      | true => exact .admission rfl (by rw [hlaunch]) rfl rfl
      | false => exact .own rfl rfl rfl rfl trivial
  | admitted estimate mtd workloadId =>
    obtain ⟨-, rfl, -, hexact⟩ := hread
    unfold subLaunchStep
    dsimp only
    rw [hexact]
    exact .write rfl rfl rfl
  | returned workloadId => exact .own rfl rfl rfl rfl trivial
  | raised e => exact .own rfl rfl rfl rfl trivial

section Runs
variable {ι : Type} (gate : BudgetGate) (config : SubBudgetConfig)
  (request : ι → SubLaunchRequest)

theorem accounted_start (table : Workloads) :
    Accounted config request (SubShared.start ι table) := by
  refine ⟨fun tag => ⟨config.allocationFor_nonneg tag, fun _ => rfl⟩, fun i => trivial, ?_⟩
  intro i j hi
  cases hi

variable [DecidableEq ι]

def subLaunchNext (c : Config (SubShared ι) ι SubLaunchState) (a : ι × LaunchEnv) :
    Config (SubShared ι) ι SubLaunchState :=
  c.next (subLaunchStep gate config request) a

theorem accounted_step (c : Config (SubShared ι) ι SubLaunchState) (a : ι × LaunchEnv)
    (h : Accounted config request c) (hfull : ReadsInFull gate request c a) :
    Accounted config request (subLaunchNext gate config request c a) := by
  obtain ⟨i, env⟩ := a
  have hother : ∀ j, j ≠ i → (subLaunchNext gate config request c (i, env)).procs j = c.procs j :=
    fun j hj => Config.next_procs_of_ne _ c hj
  have hself : (subLaunchNext gate config request c (i, env)).procs i =
      (subLaunchStep gate config request i (c.procs i) c.shared env).2 :=
    Config.next_procs_self _ c (i, env)
  have hshared : (subLaunchNext gate config request c (i, env)).shared =
      (subLaunchStep gate config request i (c.procs i) c.shared env).1 := rfl
  have hcase := subLaunch_cases gate config request i env (h.read i)
  generalize subLaunchStep gate config request i (c.procs i) c.shared env = result
    at hself hshared hcase
  generalize subLaunchNext gate config request c (i, env) = c' at hother hself hshared ⊢
  cases hcase with
  | own before after memory admissions read =>
    exact accounted_of_local h (hself ▸ read) before (hself ▸ after) hother (hshared ▸ memory)
      (hshared ▸ admissions)
  | @admission s' estimate mtd workloadId locked launched memory admissions =>
    have hread : mtd = some (c.shared.spent (request i).tag) ∧
        contextualUsd (c.shared.spent (request i).tag + estimate) =
          .ok (c.shared.spent (request i).tag + estimate) := by
      unfold ReadsInFull at hfull
      dsimp only at hfull
      rw [locked] at hfull
      dsimp only at hfull
      rw [launched] at hfull
      exact hfull rfl
    exact accounted_of_admission h locked hread.1 hread.2 hself hother (hshared ▸ memory)
      (hshared ▸ admissions)
  | write admitted memory admissions =>
    exact accounted_of_write h admitted hself hother (hshared ▸ memory) (hshared ▸ admissions)

/-- In a run in which every launch that is newly admitted has read its tag's spend in full, the
caps hold and the memory agrees. -/
theorem sub_budget_kept (table : Workloads) (es : List (ι × LaunchEnv))
    (h : Along (subLaunchNext gate config request) (ReadsInFull gate request)
      (SubShared.start ι table) es) :
    TagCapKept config request
      (run (subLaunchNext gate config request) (SubShared.start ι table) es) :=
  (run_invariant (I := Accounted config request)
    (fun c a hc ha => accounted_step gate config request c a hc ha)
    (accounted_start config request table) h).kept

end Runs

def mlConfig : SubBudgetConfig where
  totalBudgetUsd := 10
  budgets := [⟨"ml", 10, by decide, by decide⟩]
  total_pos := by decide
  tags_nodup := by decide
  sum_le := ⟨10, by decide +kernel, by decide⟩

def hundredDollarGate : BudgetGate := ⟨100, 100, hundred_dollars_pos, hundred_dollars_pos⟩

/-- An un-keyed and a keyed launch of six dollars each. -/
def sixDollarLaunches : Bool → SubLaunchRequest
  | false => ⟨"ml", "chat", "prov", .amount (.finite 6), "inference", none, none⟩
  | true => ⟨"ml", "chat", "prov", .amount (.finite 6), "inference", none, some "key"⟩

def noWorkloads : Workloads := ⟨[], by decide⟩

/-- Steps of the two calls, each with the id of a workload that it may insert. -/
def launchSteps (steps : List (Bool × String)) : List (Bool × LaunchEnv) :=
  steps.map (fun step => (step.1, ⟨.utc, 0, 0, step.2⟩))

theorem sub_budget_kept_in_turn :
    TagCapKept mlConfig sixDollarLaunches
      (run (subLaunchNext hundredDollarGate mlConfig sixDollarLaunches)
        (SubShared.start Bool noWorkloads)
        (launchSteps [(false, "a"), (false, "a"), (false, "a"), (false, "a"), (true, "b"),
          (true, "b")])) :=
  sub_budget_kept hundredDollarGate mlConfig sixDollarLaunches noWorkloads _ (by decide +kernel)

/-- Both launches read the memory before either has written it, and twelve dollars are admitted
under an allocation of ten. -/
theorem sub_budget_overrun :
    ¬ TagCapKept mlConfig sixDollarLaunches
      (run (subLaunchNext hundredDollarGate mlConfig sixDollarLaunches)
        (SubShared.start Bool noWorkloads)
        (launchSteps [(false, "a"), (true, "b"), (false, "a"), (false, "a"), (true, "b"),
          (true, "b"), (true, "b"), (false, "a")])) := by
  intro h
  have hspent := (h "ml").1
  revert hspent
  decide +kernel

end Pitwall
