import Pitwall.Cost.MonthViews
import Pitwall.Library.Machine
set_option autoImplicit false

/-!
`check_and_send_budget_alert` beside itself. The workloads query, each Redis call and the
send are one step each. The dedup key outlives the month it names, so its expiry never shows
within that month.
-/

namespace Pitwall
open Machine

def thresholdPct : Int := 80

def alertKey (month : String) (thresholdPct : Int) : String :=
  s!"pitwall:budget-alert:{month}:{thresholdPct}"

/-- `strftime("%Y-%m")`, `float(spend / budget * 100)`, and the formats `.1f` and `.2f`. -/
structure AlertText where
  month : Instant → String
  pct : ℚ → ℚ → ℚ
  fixed1 : ℚ → String
  fixed2 : ℚ → String

/-- What answers `redis_client.exists`: a count, or a coroutine that nobody awaits. -/
inductive RedisClient where
  | blocking | asyncio
  deriving DecidableEq, Repr

structure AlertCall where
  now : Instant
  /-- `_get_monthly_budget`, the environment being read once. -/
  monthlyBudget : Except PyError ℚ
  client : RedisClient

structure BudgetAlertResult where
  thresholdPct : Int
  mtdSpendUsd : ℚ
  monthlyBudgetUsd : ℚ
  budgetPct : ℚ
  emailSent : Bool
  emailId : Option String
  error : Option String
  skippedDuplicate : Bool

structure BudgetNotification where
  key : String
  subject : String
  body : String

structure AlertWorld where
  keys : String → Option String
  delivered : List BudgetNotification

structure AlertFigures where
  spend : ℚ
  budget : ℚ
  pct : ℚ

inductive AlertState where
  | starting
  | querying (budget : ℚ)
  | checking (f : AlertFigures)
  | sending (f : AlertFigures)
  | setting (f : AlertFigures) (emailId : Option String)
  | setFailed (exc : PyError)
  | returned (result : BudgetAlertResult)
  | raised (exc : PyError)

/-- What the world supplies to one step: the failure of the query, the Redis call or the
send, the workloads that the query sees, and the id that the notifier answers. -/
structure AlertInput where
  fault : Option PyError
  workloads : Workloads
  emailId : Option String

def AlertFigures.result (f : AlertFigures) (emailSent : Bool) (emailId error : Option String)
    (skippedDuplicate : Bool) : BudgetAlertResult :=
  ⟨thresholdPct, f.spend, f.budget, f.pct, emailSent, emailId, error, skippedDuplicate⟩

def AlertText.notification (text : AlertText) (key : String) (f : AlertFigures) :
    BudgetNotification where
  key := key
  subject := s!"[Pitwall] Budget alert: {text.fixed1 f.pct}% of monthly budget"
  body := "Budget Alert: 80% threshold crossed\n\n" ++
    s!"Spend: ${text.fixed2 f.spend}\nBudget: ${text.fixed2 f.budget}\n" ++
    s!"Percent: {text.fixed1 f.pct}%\nThreshold: 80%"

/-- `redis_client.exists(key)` as the `if` takes it. -/
def AlertCall.alreadySent (call : AlertCall) (s : AlertWorld) (key : String) : Bool :=
  match call.client with
  | .blocking => (s.keys key).isSome
  | .asyncio => true

section Step
variable (text : AlertText)

def AlertCall.key (call : AlertCall) : String := alertKey (text.month call.now) thresholdPct

def alertStep (call : AlertCall) (l : AlertState) (s : AlertWorld) (i : AlertInput) :
    AlertWorld × AlertState :=
  match l with
  | .starting =>
      match call.monthlyBudget with
      | .error e => (s, .raised e)
      | .ok budget =>
          if budget ≤ 0 then
            (s, .returned ⟨thresholdPct, 0, budget, 0, false, none,
              some "Monthly budget is not positive", false⟩)
          else (s, .querying budget)
  | .querying budget =>
      match i.fault with
      | some e => (s, .raised e)
      | none =>
          let spend := computeMtdSpend call.now i.workloads
          let f : AlertFigures := ⟨spend, budget, text.pct spend budget⟩
          if f.pct < thresholdPct then (s, .returned (f.result false none none false))
          else (s, .checking f)
  | .checking f =>
      match i.fault with
      | some e => (s, .raised e)
      | none =>
          if call.alreadySent s (call.key text) then (s, .returned (f.result false none none true))
          else (s, .sending f)
  | .sending f =>
      match i.fault with
      | some e => (s, .returned (f.result false none (some e.message) false))
      | none =>
          ({ s with delivered := s.delivered ++ [text.notification (call.key text) f] },
            .setting f i.emailId)
  | .setting f emailId =>
      match i.fault with
      | some e => (s, .setFailed e)
      | none =>
          ({ s with
            keys := Function.update s.keys (call.key text) (some ((nonEmpty emailId).getD "ok")) },
            .returned (f.result true emailId none false))
  | .setFailed e => (s, .setFailed e)
  | .returned result => (s, .returned result)
  | .raised e => (s, .raised e)

/-- Any number of calls over one Redis, interleaved step by step. -/
def alertSystemStep {ι : Type} [DecidableEq ι] (calls : ι → AlertCall)
    (c : Config AlertWorld ι AlertState) (a : ι × AlertInput) : Config AlertWorld ι AlertState :=
  c.next (fun i => alertStep text (calls i)) a

end Step

/-- Where a call stands between its check and its `SET`. -/
inductive AlertPhase where
  | idle | sending | sent
  deriving DecidableEq

/-- A call whose `SET` failed has sent and will never record it. -/
def AlertState.phase : AlertState → AlertPhase
  | .sending _ => .sending
  | .setting _ _ | .setFailed _ => .sent
  | _ => .idle

def AlertWorld.deliveries (s : AlertWorld) (key : String) : Nat :=
  s.delivered.countP fun n => n.key = key

/-- At most one notification is delivered for the pair, and the key is there only if one was. -/
def SentOnce (key : String) (s : AlertWorld) : Prop :=
  s.deliveries key ≤ 1 ∧ ((s.keys key).isSome → ∃ n ∈ s.delivered, n.key = key)

section Steps
variable (text : AlertText) (call : AlertCall) (s : AlertWorld) (i : AlertInput)

theorem alertStep_cases (l : AlertState) :
    ((alertStep text call l s i).1 = s ∧ (alertStep text call l s i).2.phase = l.phase) ∨
    (∃ f, l = .checking f ∧ call.alreadySent s (call.key text) = false ∧ i.fault = none ∧
      alertStep text call l s i = (s, .sending f)) ∨
    (l.phase = .sending ∧ (alertStep text call l s i).1 = s ∧
      (alertStep text call l s i).2.phase = .idle) ∨
    (∃ f, l = .sending f ∧
      (alertStep text call l s i).1 =
        { s with delivered := s.delivered ++ [text.notification (call.key text) f] } ∧
      (alertStep text call l s i).2.phase = .sent) ∨
    (∃ value, l.phase = .sent ∧ (alertStep text call l s i).1 =
        { s with keys := Function.update s.keys (call.key text) (some value) } ∧
      (alertStep text call l s i).2.phase = .idle) := by
  cases l with
  | starting =>
    left
    simp only [alertStep]
    split
    · exact ⟨rfl, rfl⟩
    · split <;> exact ⟨rfl, rfl⟩
  | querying budget =>
    left
    simp only [alertStep]
    split
    · exact ⟨rfl, rfl⟩
    · split <;> exact ⟨rfl, rfl⟩
  | checking f =>
    simp only [alertStep]
    cases hfault : i.fault with
    | some e => exact .inl ⟨rfl, rfl⟩
    | none =>
      cases hsent : call.alreadySent s (call.key text) with
      | true => exact .inl ⟨rfl, rfl⟩
      | false => exact .inr (.inl ⟨f, rfl, rfl, rfl, rfl⟩)
  | sending f =>
    simp only [alertStep]
    cases hfault : i.fault with
    | some e => exact .inr (.inr (.inl ⟨rfl, rfl, rfl⟩))
    | none => exact .inr (.inr (.inr (.inl ⟨f, rfl, rfl, rfl⟩)))
  | setting f emailId =>
    simp only [alertStep]
    cases hfault : i.fault with
    | some e => exact .inl ⟨rfl, rfl⟩
    | none => exact .inr (.inr (.inr (.inr ⟨_, rfl, rfl, rfl⟩)))
  | setFailed e => exact .inl ⟨rfl, rfl⟩
  | returned result => exact .inl ⟨rfl, rfl⟩
  | raised e => exact .inl ⟨rfl, rfl⟩

end Steps

section System
variable {ι : Type} [DecidableEq ι] (text : AlertText) (calls : ι → AlertCall)

/-- Where a check finds no key, every other call is before its own check or is done: it
found the key or too little spent, its send failed, or its `SET` went through. -/
def ChecksAlone (c : Config AlertWorld ι AlertState) (a : ι × AlertInput) : Prop :=
  ∀ f, c.procs a.1 = .checking f → a.2.fault = none →
    (calls a.1).alreadySent c.shared ((calls a.1).key text) = false →
    ∀ j, j ≠ a.1 → (c.procs j).phase = .idle

/-- At most one call is between its check and its `SET`, and the count of notifications
tells how far it has come. -/
structure AlertInvariant (key : String) (c : Config AlertWorld ι AlertState) : Prop where
  alone : ∀ i j, (c.procs i).phase ≠ .idle → (c.procs j).phase ≠ .idle → i = j
  absent : ∀ i, (c.procs i).phase ≠ .idle → c.shared.keys key = none
  unsent : ∀ i, (c.procs i).phase = .sending → c.shared.deliveries key = 0
  sent : ∀ i, (c.procs i).phase = .sent → c.shared.deliveries key = 1
  quiet : c.shared.keys key = none → (∀ i, (c.procs i).phase = .idle) →
    c.shared.deliveries key = 0
  recorded : c.shared.keys key ≠ none → c.shared.deliveries key = 1

variable {text calls} {key : String} {c : Config AlertWorld ι AlertState} {a : ι × AlertInput}

theorem phase_next (j : ι) :
    ((alertSystemStep text calls c a).procs j).phase =
      if j = a.1 then (alertStep text (calls a.1) (c.procs a.1) c.shared a.2).2.phase
      else (c.procs j).phase := by
  unfold alertSystemStep
  by_cases hj : j = a.1
  · rw [if_pos hj, hj, Config.next_procs_self]
  · rw [if_neg hj, Config.next_procs_of_ne _ _ hj]

omit [DecidableEq ι] in
theorem AlertInvariant.other_idle (h : AlertInvariant key c) {i : ι}
    (hi : (c.procs i).phase ≠ .idle) {j : ι} (hj : j ≠ i) : (c.procs j).phase = .idle := by
  by_contra hne
  exact hj (h.alone j i hne hi)

theorem deliveries_append (s : AlertWorld) (n : BudgetNotification) (hn : n.key = key) :
    AlertWorld.deliveries { s with delivered := s.delivered ++ [n] } key =
      s.deliveries key + 1 := by
  simp [AlertWorld.deliveries, List.countP_append, hn]

omit [DecidableEq ι] in
theorem AlertInvariant.of_others_idle {c' : Config AlertWorld ι AlertState} {i : ι}
    (hidle : ∀ j, j ≠ i → (c'.procs j).phase = .idle)
    (habsent : (c'.procs i).phase ≠ .idle → c'.shared.keys key = none)
    (hunsent : (c'.procs i).phase = .sending → c'.shared.deliveries key = 0)
    (hsent : (c'.procs i).phase = .sent → c'.shared.deliveries key = 1)
    (hquiet : c'.shared.keys key = none → (c'.procs i).phase = .idle →
      c'.shared.deliveries key = 0)
    (hrecorded : c'.shared.keys key ≠ none → c'.shared.deliveries key = 1) :
    AlertInvariant key c' := by
  have hself : ∀ j, (c'.procs j).phase ≠ .idle → j = i := by
    intro j hj
    by_contra hne
    exact hj (hidle j hne)
  refine ⟨?_, ?_, ?_, ?_, fun hnone hall => hquiet hnone (hall i), hrecorded⟩
  · intro j k hj hk
    rw [hself j hj, hself k hk]
  · intro j hj
    have heq := hself j hj
    exact habsent (heq ▸ hj)
  · intro j hj
    have heq := hself j (by simp [hj])
    exact hunsent (heq ▸ hj)
  · intro j hj
    have heq := hself j (by simp [hj])
    exact hsent (heq ▸ hj)

section Moves
variable {c' : Config AlertWorld ι AlertState} {i : ι}

omit [DecidableEq ι] in
theorem AlertInvariant.unmoved (h : AlertInvariant key c) (hshared : c'.shared = c.shared)
    (hphases : ∀ j, (c'.procs j).phase = (c.procs j).phase) : AlertInvariant key c' := by
  constructor
  · simpa only [hphases] using h.alone
  · simpa only [hphases, hshared] using h.absent
  · simpa only [hphases, hshared] using h.unsent
  · simpa only [hphases, hshared] using h.sent
  · simpa only [hphases, hshared] using h.quiet
  · simpa only [hshared] using h.recorded

omit [DecidableEq ι] in
theorem AlertInvariant.begun (h : AlertInvariant key c) (hshared : c'.shared = c.shared)
    (hidle : ∀ j, (c.procs j).phase = .idle) (hnone : c.shared.keys key = none)
    (hothers : ∀ j, j ≠ i → (c'.procs j).phase = (c.procs j).phase)
    (hphase : (c'.procs i).phase = .sending) : AlertInvariant key c' := by
  have hcount : c'.shared.deliveries key = 0 := by
    rw [hshared]
    exact h.quiet hnone hidle
  refine .of_others_idle (fun j hj => (hothers j hj).trans (hidle j)) (fun _ => ?_)
    (fun _ => hcount) (fun hsent => ?_) (fun _ _ => hcount) (fun hsome => ?_)
  · rw [hshared]
    exact hnone
  · rw [hphase] at hsent
    cases hsent
  · rw [hshared] at hsome
    exact absurd hnone hsome

omit [DecidableEq ι] in
theorem AlertInvariant.failed (h : AlertInvariant key c) (hshared : c'.shared = c.shared)
    (hsending : (c.procs i).phase = .sending)
    (hothers : ∀ j, j ≠ i → (c'.procs j).phase = (c.procs j).phase)
    (hphase : (c'.procs i).phase = .idle) : AlertInvariant key c' := by
  have hbusy : (c.procs i).phase ≠ .idle := by simp [hsending]
  have hcount : c'.shared.deliveries key = 0 := by
    rw [hshared]
    exact h.unsent i hsending
  refine .of_others_idle (fun j hj => (hothers j hj).trans (h.other_idle hbusy hj))
    (fun hne => absurd hphase hne) (fun _ => hcount) (fun hsent => ?_) (fun _ _ => hcount)
    (fun hsome => ?_)
  · rw [hphase] at hsent
    cases hsent
  · rw [hshared] at hsome
    exact absurd (h.absent i hbusy) hsome

omit [DecidableEq ι] in
theorem AlertInvariant.delivered (h : AlertInvariant key c)
    (hsending : (c.procs i).phase = .sending) (hkeys : c'.shared.keys = c.shared.keys)
    (hcount : c'.shared.deliveries key = c.shared.deliveries key + 1)
    (hothers : ∀ j, j ≠ i → (c'.procs j).phase = (c.procs j).phase)
    (hphase : (c'.procs i).phase = .sent) : AlertInvariant key c' := by
  have hbusy : (c.procs i).phase ≠ .idle := by simp [hsending]
  have hone : c'.shared.deliveries key = 1 := by rw [hcount, h.unsent i hsending]
  refine .of_others_idle (fun j hj => (hothers j hj).trans (h.other_idle hbusy hj))
    (fun _ => ?_) (fun hsend => ?_) (fun _ => hone) (fun _ hidle => ?_) (fun _ => hone)
  · rw [hkeys]
    exact h.absent i hbusy
  · rw [hphase] at hsend
    cases hsend
  · rw [hphase] at hidle
    cases hidle

omit [DecidableEq ι] in
theorem AlertInvariant.keySet (h : AlertInvariant key c) (hsent : (c.procs i).phase = .sent)
    (hsome : c'.shared.keys key ≠ none)
    (hcount : c'.shared.deliveries key = c.shared.deliveries key)
    (hothers : ∀ j, j ≠ i → (c'.procs j).phase = (c.procs j).phase)
    (hphase : (c'.procs i).phase = .idle) : AlertInvariant key c' := by
  have hbusy : (c.procs i).phase ≠ .idle := by simp [hsent]
  have hone : c'.shared.deliveries key = 1 := hcount.trans (h.sent i hsent)
  refine .of_others_idle (fun j hj => (hothers j hj).trans (h.other_idle hbusy hj))
    (fun hne => absurd hphase hne) (fun hsending => ?_) (fun _ => hone)
    (fun hnone => absurd hnone hsome) (fun _ => hone)
  rw [hphase] at hsending
  cases hsending

end Moves

theorem alreadySent_eq_false {call : AlertCall} {s : AlertWorld}
    (h : call.alreadySent s key = false) : s.keys key = none := by
  unfold AlertCall.alreadySent at h
  cases hclient : call.client with
  | blocking => simpa [hclient] using h
  | asyncio => simp [hclient] at h

theorem alertInvariant_step (hkey : ∀ i, (calls i).key text = key) (h : AlertInvariant key c)
    (ha : ChecksAlone text calls c a) : AlertInvariant key (alertSystemStep text calls c a) := by
  have hshared : (alertSystemStep text calls c a).shared =
      (alertStep text (calls a.1) (c.procs a.1) c.shared a.2).1 := rfl
  have hself : ((alertSystemStep text calls c a).procs a.1).phase =
      (alertStep text (calls a.1) (c.procs a.1) c.shared a.2).2.phase := by
    rw [phase_next, if_pos rfl]
  have hothers : ∀ j, j ≠ a.1 →
      ((alertSystemStep text calls c a).procs j).phase = (c.procs j).phase := by
    intro j hj
    rw [phase_next, if_neg hj]
  rcases alertStep_cases text (calls a.1) c.shared a.2 (c.procs a.1) with
    ⟨hsame, hphase⟩ | ⟨f, hl, hfree, hfault, hstep⟩ | ⟨hl, hsame, hphase⟩ |
    ⟨f, hl, hdelivered, hphase⟩ | ⟨value, hl, hset, hphase⟩
  · refine h.unmoved (hshared.trans hsame) (fun j => ?_)
    by_cases hj : j = a.1
    · rw [hj, hself, hphase]
    · exact hothers j hj
  · have hidle : ∀ j, (c.procs j).phase = .idle := by
      intro j
      by_cases hj : j = a.1
      · rw [hj, hl]
        rfl
      · exact ha f hl hfault hfree j hj
    rw [hkey] at hfree
    rw [hstep] at hshared hself
    exact h.begun hshared hidle (alreadySent_eq_false hfree) hothers hself
  · exact h.failed (hshared.trans hsame) hl hothers (hself.trans hphase)
  · refine h.delivered (by rw [hl]; rfl) ?_ ?_ hothers (hself.trans hphase)
    · rw [hshared, hdelivered]
    · rw [hshared, hdelivered, deliveries_append c.shared _ (hkey a.1)]
  · refine h.keySet hl ?_ ?_ hothers (hself.trans hphase)
    · rw [hshared, hset, hkey]
      simp
    · rw [hshared, hset]
      rfl

omit [DecidableEq ι] in
theorem AlertInvariant.sentOnce (h : AlertInvariant key c) : SentOnce key c.shared := by
  by_cases hkeys : c.shared.keys key = none
  · refine ⟨?_, by simp [hkeys]⟩
    by_cases hidle : ∀ i, (c.procs i).phase = .idle
    · rw [h.quiet hkeys hidle]
      omega
    · obtain ⟨i, hi⟩ := not_forall.mp hidle
      cases hphase : (c.procs i).phase with
      | idle => exact absurd hphase hi
      | sending =>
        rw [h.unsent i hphase]
        omega
      | sent => rw [h.sent i hphase]
  · have hone := h.recorded hkeys
    refine ⟨le_of_eq hone, fun _ => ?_⟩
    have hpos : 0 < c.shared.deliveries key := by omega
    obtain ⟨n, hn, hnkey⟩ := List.countP_pos_iff.mp hpos
    exact ⟨n, hn, by simpa using hnkey⟩

end System

def alertsBegin (ι : Type) (keys : String → Option String) : Config AlertWorld ι AlertState :=
  ⟨⟨keys, []⟩, fun _ => .starting⟩

/-- In every run of any number of calls in one month in which no check finds the key missing
while another call has sent or is about to, the alert is delivered once at most and the key
tells the truth, in every state reached. -/
theorem budget_alert_sent_once {ι : Type} [DecidableEq ι] (text : AlertText)
    (calls : ι → AlertCall) (month : String) (hmonth : ∀ i, text.month (calls i).now = month)
    (keys : String → Option String) (hkeys : keys (alertKey month thresholdPct) = none)
    (actions : List (ι × AlertInput))
    (hrun : Along (alertSystemStep text calls) (ChecksAlone text calls) (alertsBegin ι keys)
      actions) (done : List (ι × AlertInput)) (hdone : done <+: actions) :
    SentOnce (alertKey month thresholdPct)
      (run (alertSystemStep text calls) (alertsBegin ι keys) done).shared := by
  have hkey : ∀ i, (calls i).key text = alertKey month thresholdPct := by
    intro i
    unfold AlertCall.key
    rw [hmonth]
  have hstart : AlertInvariant (alertKey month thresholdPct) (alertsBegin ι keys) := by
    have hidle : ∀ i, ((alertsBegin ι keys).procs i).phase = .idle := fun _ => rfl
    refine ⟨fun i _ hi => absurd (hidle i) hi, fun _ _ => hkeys, fun _ _ => rfl, ?_,
      fun _ _ => rfl, fun hsome => absurd hkeys hsome⟩
    intro i hi
    rw [hidle] at hi
    cases hi
  have hend := run_invariant (I := AlertInvariant (alertKey month thresholdPct))
    (fun c a h ha => alertInvariant_step hkey h ha) hstart (hrun.of_prefix hdone)
  exact hend.sentOnce

section Twice

def plainAlertText : AlertText where
  month := fun _ => "1970-01"
  pct := fun spend budget => spend / budget * 100
  fixed1 := fun _ => ""
  fixed2 := fun _ => ""

def twoWorkers : Bool → AlertCall := fun _ => ⟨0, .ok 5, .blocking⟩

def allSpent : AlertInput := ⟨none, oneWorkload .completed, none⟩

def oneAfterTheOther : List (Bool × AlertInput) :=
  List.replicate 5 (false, allSpent) ++ List.replicate 3 (true, allSpent)

def bothCheckFirst : List (Bool × AlertInput) :=
  List.replicate 3 (false, allSpent) ++ List.replicate 3 (true, allSpent) ++
    [(false, allSpent), (true, allSpent)]

theorem oneAfterTheOther_sentOnce :
    SentOnce (alertKey "1970-01" thresholdPct)
      (run (alertSystemStep plainAlertText twoWorkers) (alertsBegin Bool fun _ => none)
        oneAfterTheOther).shared := by
  have hidle : Along (alertSystemStep plainAlertText twoWorkers)
      (fun c a => ∀ j, j ≠ a.1 → (c.procs j).phase = .idle) (alertsBegin Bool fun _ => none)
      oneAfterTheOther := by decide +kernel
  refine budget_alert_sent_once plainAlertText twoWorkers "1970-01" (fun _ => rfl) _ rfl
    oneAfterTheOther ?_ _ (List.prefix_refl _)
  exact along_of_invariant (I := fun _ => True)
    (fun c a _ ha => ⟨trivial, fun _ _ _ _ => ha⟩) trivial hidle

theorem both_workers_send :
    ¬ ∀ (text : AlertText) (calls : Bool → AlertCall) (month : String),
      (∀ i, text.month (calls i).now = month) →
      ∀ keys : String → Option String, keys (alertKey month thresholdPct) = none →
      ∀ actions : List (Bool × AlertInput),
        SentOnce (alertKey month thresholdPct)
          (run (alertSystemStep text calls) (alertsBegin Bool keys) actions).shared := by
  intro h
  have honce := (h plainAlertText twoWorkers "1970-01" (fun _ => rfl) (fun _ => none) rfl
    bothCheckFirst).1
  exact absurd honce (by decide +kernel)

end Twice

end Pitwall
