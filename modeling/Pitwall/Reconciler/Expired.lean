import Pitwall.Leases.StateMachine
import Pitwall.Reconciler.LeaseExpiry
set_option autoImplicit false

/-!
Which expired leases the job reaches.
-/

namespace Pitwall
open Machine

structure Outcome (s : Fleet) (id : String) (attempts : List (String × String)) (ok : Prop)
    (r : Fleet × TeardownState) : Prop where
  terminations : r.1.terminations = s.terminations ++ attempts
  frame : ∀ k, k ≠ id → r.1.store.leases.get k = s.store.leases.get k
  raised : (∃ e, r.2 = .raised e) ↔ ¬ ok

theorem Outcome.of_eq {s s' : Fleet} {id : String} {attempts : List (String × String)} {ok : Prop}
    {r : Fleet × TeardownState} (h : Outcome s' id attempts ok r)
    (hterminations : s'.terminations = s.terminations)
    (hframe : ∀ k, k ≠ id → s'.store.leases.get k = s.store.leases.get k) :
    Outcome s id attempts ok r :=
  ⟨by rw [h.terminations, hterminations], fun k hk => (h.frame k hk).trans (hframe k hk), h.raised⟩

theorem Outcome.congr {s : Fleet} {id : String} {attempts : List (String × String)}
    {ok ok' : Prop} {r : Fleet × TeardownState} (h : Outcome s id attempts ok r)
    (hok : ok ↔ ok') : Outcome s id attempts ok' r :=
  ⟨h.terminations, h.frame, by rw [h.raised, hok]⟩

theorem closeLeaseCost_withState (text : PyText) {l l' : Lease} {state : LeaseState}
    (h : l.withState state = .ok l') (provider : Option JsonObject) (terminatedAt : Instant) :
    closeLeaseCost text l' provider terminatedAt = closeLeaseCost text l provider terminatedAt := by
  unfold Lease.withState at h
  split at h
  · cases h
    rfl
  · contradiction

section Teardown
variable (text : PyText) (c : TeardownCall) {s : Fleet} {lease : Lease}

theorem outcome_raised (s : Fleet) (e : PyError) (id : String) (inputs : List TeardownInput)
    {ok : Prop} (hok : ¬ ok) :
    Outcome s id [] ok (run (teardownAlone text c) (s, .raised e) inputs) := by
  rw [run_teardown_of_done rfl]
  exact ⟨by simp, fun _ _ => rfl, iff_of_true ⟨e, rfl⟩ hok⟩

theorem outcome_publishing (id : String) (a₅ : TeardownInput) :
    Outcome s id [] (c.hasRedis = true → a₅.publishError = none)
      (run (teardownAlone text c) (s, .publishing lease) [a₅]) := by
  simp only [run_cons, run_nil, teardownAlone, teardownStep]
  split
  · rename_i hredis
    split
    · rename_i e herror
      exact ⟨by simp, fun _ _ => rfl, by simp [hredis, herror]⟩
    · rename_i herror
      exact ⟨by simp, fun _ _ => rfl, by simp [herror]⟩
  · rename_i hredis
    exact ⟨by simp, fun _ _ => rfl, by simp [hredis]⟩

theorem outcome_closing (hstate : lease.state = .stopping) (hexpired : c.terminalState = .expired)
    (hrow : (s.store.leases.get lease.id).isSome = true) (cost : ℚ) (terminatedAt : Instant)
    (a₄ a₅ : TeardownInput) :
    Outcome s lease.id [] (a₄.fault = none ∧ (numeric 12 6 cost).isSome = true ∧
        (c.hasRedis = true → a₅.publishError = none))
      (run (teardownAlone text c) (s, .closing lease cost terminatedAt)
        [a₄, a₅]) := by
  obtain ⟨row, hrow⟩ := Option.isSome_iff_exists.mp hrow
  have hpresent : s.store.leases.stateOf lease.id = some row.state := by
    simp [Leases.stateOf, hrow]
  have hinactive : LeaseState.expired ≠ .active := by decide
  have hguard : transitionLeaseState lease.state c.terminalState = .ok .expired := by
    rw [hstate, hexpired]
    rfl
  rw [run_cons]
  simp only [teardownAlone, teardownStep, hguard]
  cases hfault : a₄.fault with
  | some e => exact outcome_raised text c s e lease.id [a₅] (by simp)
  | none =>
    cases hfits : numeric 12 6 cost with
    | none =>
      obtain ⟨e, hclose⟩ := closeTeardown_overflow hrow hinactive hfits terminatedAt
        (normalizeReason text c.reason c.terminalState)
      rw [hclose]
      exact outcome_raised text c s _ lease.id [a₅] (by simp)
    | some q =>
      obtain ⟨l, t', hclose, hid⟩ := closeTeardown_present hpresent hinactive
        (by rw [hfits]; rfl) terminatedAt (normalizeReason text c.reason c.terminalState)
      rcases closeTeardown_wrote hclose with ⟨h, -⟩ | ⟨_, -, -, -, -, hwrote⟩
      · contradiction
      · rw [hclose]
        refine ((outcome_publishing text c lease.id a₅).congr (by simp)).of_eq rfl ?_
        exact hwrote.others

def Settles (text : PyText) (hasRedis : Bool) (terminatedAt : Instant) (lease : Lease)
    (a₃ a₄ a₅ : TeardownInput) : Prop :=
  a₃.fault = none ∧ a₄.fault = none ∧ (hasRedis = true → a₅.publishError = none) ∧
    ∃ cost, closeLeaseCost text lease a₃.provider terminatedAt = .ok cost ∧
      (numeric 12 6 cost).isSome = true

theorem outcome_loadingProvider (hstate : lease.state = .stopping)
    (hexpired : c.terminalState = .expired)
    (hrow : (s.store.leases.get lease.id).isSome = true) (terminatedAt : Instant)
    (a₃ a₄ a₅ : TeardownInput) :
    Outcome s lease.id [] (Settles text c.hasRedis terminatedAt lease a₃ a₄ a₅)
      (run (teardownAlone text c) (s, .loadingProvider lease terminatedAt)
        [a₃, a₄, a₅]) := by
  rw [run_cons]
  simp only [teardownAlone, teardownStep]
  cases hfault : a₃.fault with
  | some e => exact outcome_raised text c s e lease.id _ (by simp [Settles, hfault])
  | none =>
    cases hcost : closeLeaseCost text lease a₃.provider terminatedAt with
    | error e => exact outcome_raised text c s e lease.id _ (by simp [Settles, hcost])
    | ok cost =>
      refine (outcome_closing text c hstate hexpired hrow cost terminatedAt a₄ a₅).congr ?_
      constructor
      · rintro ⟨h₄, hfits, h₅⟩
        exact ⟨hfault, h₄, h₅, cost, hcost, hfits⟩
      · rintro ⟨-, h₄, h₅, cost', hcost', hfits⟩
        rw [hcost] at hcost'
        cases hcost'
        exact ⟨h₄, hfits, h₅⟩

theorem outcome_terminating (hstate : lease.state = .stopping)
    (hexpired : c.terminalState = .expired) {now : Instant} (hnow : c.now = some now)
    (hrow : (s.store.leases.get lease.id).isSome = true) (a₂ a₃ a₄ a₅ : TeardownInput) :
    Outcome s lease.id [(lease.id, lease.runpodPodId)]
      (a₂.terminateError = none ∧ Settles text c.hasRedis now lease a₃ a₄ a₅)
      (run (teardownAlone text c) (s, .terminating lease)
        [a₂, a₃, a₄, a₅]) := by
  rw [run_cons]
  simp only [teardownAlone, teardownStep, hnow, Option.getD_some]
  cases hterminate : a₂.terminateError with
  | some e =>
    have hend : Outcome _ _ _ False _ := outcome_raised text c
      { s with terminations := s.terminations ++ [(lease.id, lease.runpodPodId)] } e lease.id
      [a₃, a₄, a₅] not_false
    exact ⟨by simpa using hend.terminations, hend.frame, by simpa using hend.raised⟩
  | none =>
    have hend := outcome_loadingProvider text c (s := Fleet.deletePod
      { s with terminations := s.terminations ++ [(lease.id, lease.runpodPodId)] }
      lease.runpodPodId) hstate hexpired hrow now a₃ a₄ a₅
    exact ⟨by simpa [Fleet.deletePod] using hend.terminations, hend.frame,
      by simpa using hend.raised⟩

end Teardown

section Sweep
variable (text : PyText) (job : ExpiryJob)

def Arrives (answers : Nat → TeardownInput) : Prop :=
  (answers 0).fault = none ∧ (answers 1).fault = none

instance (answers : Nat → TeardownInput) : Decidable (Arrives answers) :=
  inferInstanceAs (Decidable (_ ∧ _))

def attempts (answers : Nat → TeardownInput) (row : Lease) : List (String × String) :=
  if Arrives answers then [(row.id, row.runpodPodId)] else []

theorem id_of_mem_attempts {answers : Nat → TeardownInput} {row : Lease} {p : String × String}
    (h : p ∈ attempts answers row) : p.1 = row.id := by
  unfold attempts at h
  split at h
  · rw [List.mem_singleton.mp h]
  · simp at h

def Completes (answers : Nat → TeardownInput) (row : Lease) : Prop :=
  Arrives answers ∧ (answers 2).terminateError = none ∧
    Settles text job.hasRedis job.now row (answers 3) (answers 4) (answers 5)

variable {row : Lease} {s : Fleet}

theorem outcome_runTeardown {answers : Nat → TeardownInput}
    (hrow : s.store.leases.get row.id = some row)
    (hactive : row.state = .active) :
    Outcome s row.id (attempts answers row)
      (Completes text job answers row)
      (runTeardown text (job.teardownCall row) answers s) := by
  have hrun : runTeardown text (job.teardownCall row) answers s =
      run (teardownAlone text (job.teardownCall row)) (s, .reading)
        [answers 0, answers 1, answers 2, answers 3, answers 4, answers 5] := rfl
  rw [hrun, run_cons]
  have hterminal : teardownTerminalState (job.teardownCall row).terminalState = .ok .expired := rfl
  have hget : s.store.leases.get (job.teardownCall row).leaseId = some row := hrow
  cases hread : (answers 0).fault with
  | some e =>
    have harrives : ¬ Arrives answers := by simp [Arrives, hread]
    simp only [teardownAlone, teardownStep, hterminal, hread, attempts, if_neg harrives]
    exact outcome_raised text (job.teardownCall row) s e row.id _ (fun h => harrives h.1)
  | none =>
    have hmarking : teardownAlone text (job.teardownCall row) (s, .reading) (answers 0) =
        (s, .marking row) := by
      simp [teardownAlone, teardownStep, hterminal, hread, hget, hactive, LeaseState.terminal]
    rw [hmarking, run_cons]
    cases hmark : (answers 1).fault with
    | some e =>
      have harrives : ¬ Arrives answers := by simp [Arrives, hmark]
      simp only [teardownAlone, teardownStep, hmark, attempts, if_neg harrives]
      exact outcome_raised text (job.teardownCall row) s e row.id _ (fun h => harrives h.1)
    | none =>
      have harrives : Arrives answers := ⟨hread, hmark⟩
      obtain ⟨stopping, hstopping⟩ : ∃ l, row.withState .stopping = .ok l := by
        simp [Lease.withState]
      obtain ⟨hid, hstate, -, hpod⟩ := Lease.withState_ok hstopping
      have hupdate : s.store.leases.updateState row.id .stopping =
          .ok (some stopping, s.store.leases.put stopping) := by
        simp [Leases.updateState, Leases.modify, hrow, hstopping]
      have hput : ∀ k, (s.store.leases.put stopping).get k =
          if k = row.id then some stopping else s.store.leases.get k := by
        intro k
        rw [Keyed.get_put k (by rw [hid, hrow]; rfl), hid]
      have hterminating :
          teardownAlone text (job.teardownCall row) (s, .marking row) (answers 1) =
          (s.withLeases (s.store.leases.put stopping), .terminating stopping) := by
        simp [teardownAlone, teardownStep, hmark, hupdate]
      have hend := outcome_terminating text (job.teardownCall row)
        (s := s.withLeases (s.store.leases.put stopping)) hstate rfl rfl
        (by simp [hput, hid]) (answers 2) (answers 3) (answers 4) (answers 5)
      rw [hterminating, attempts, if_pos harrives]
      rw [hid, hpod] at hend
      refine (hend.congr ?_).of_eq rfl ?_
      · simp only [Completes, harrives, true_and, Settles, closeLeaseCost_withState text hstopping]
        rfl
      · intro k hk
        simp [hput, hk]

structure Fresh (rows : List Lease) (s : Fleet) : Prop where
  stored : ∀ r ∈ rows, s.store.leases.get r.id = some r ∧ r.state = .active
  nodup : (rows.map Lease.id).Nodup

variable (answers : String → Nat → TeardownInput) {rows : List Lease}

theorem Fresh.outcome (h : Fresh (row :: rows) s) :
    Outcome s row.id (attempts (answers row.id) row)
      (Completes text job (answers row.id) row)
      (runTeardown text (job.teardownCall row) (answers row.id) s) :=
  outcome_runTeardown text job (h.stored row (by simp)).1 (h.stored row (by simp)).2

theorem Fresh.tail (h : Fresh (row :: rows) s) {s' : Fleet}
    (hframe : ∀ k, k ≠ row.id → s'.store.leases.get k = s.store.leases.get k) :
    Fresh rows s' := by
  have hnodup : row.id ∉ rows.map Lease.id ∧ (rows.map Lease.id).Nodup :=
    List.nodup_cons.mp h.nodup
  refine ⟨fun r hr => ?_, hnodup.2⟩
  have hne : r.id ≠ row.id := by
    intro hid
    exact hnodup.1 (hid ▸ List.mem_map_of_mem hr)
  obtain ⟨hget, hactive⟩ := h.stored r (by simp [hr])
  exact ⟨(hframe r.id hne).trans hget, hactive⟩

theorem sweepRows_due (h : Fresh (row :: rows) s) (hdue : row.expiresAt ≤ job.now) :
    (Completes text job (answers row.id) row ∧
      sweepRows text job answers (row :: rows) s = sweepRows text job answers rows
        (runTeardown text (job.teardownCall row) (answers row.id) s).1) ∨
    (¬ Completes text job (answers row.id) row ∧
      (sweepRows text job answers (row :: rows) s).1 =
        (runTeardown text (job.teardownCall row) (answers row.id) s).1) := by
  have hraised := (h.outcome text job answers).raised
  have hdone := done_runTeardown text (job.teardownCall row) (answers row.id) s
  simp only [sweepRows, if_pos hdue]
  cases hrun : runTeardown text (job.teardownCall row) (answers row.id) s with
  | mk s' l =>
    rw [hrun] at hraised hdone
    cases l with
    | raised e => exact .inr ⟨hraised.mp ⟨e, rfl⟩, rfl⟩
    | returned lease event =>
      refine .inl ⟨?_, rfl⟩
      by_contra hnot
      obtain ⟨e, he⟩ := hraised.mpr hnot
      contradiction
    | _ => simp [TeardownState.done] at hdone

theorem terminations_sweepRows (h : Fresh rows s) :
    ∃ more, (sweepRows text job answers rows s).1.terminations = s.terminations ++ more ∧
      ∀ p ∈ more, p.1 ∈ rows.map Lease.id := by
  induction rows generalizing s with
  | nil => exact ⟨[], by simp [sweepRows], by simp⟩
  | cons row rows ih =>
    by_cases hdue : row.expiresAt ≤ job.now
    · have houtcome := h.outcome text job answers
      have hown : ∀ p ∈ attempts (answers row.id) row, p.1 ∈ (row :: rows).map Lease.id := by
        intro p hp
        simp [id_of_mem_attempts hp]
      rcases sweepRows_due text job answers h hdue with ⟨-, hnext⟩ | ⟨-, hend⟩
      · obtain ⟨more, hattempts, hids⟩ := ih (h.tail houtcome.frame)
        refine ⟨attempts (answers row.id) row ++ more, ?_, ?_⟩
        · rw [hnext, hattempts, houtcome.terminations, List.append_assoc]
        · intro p hp
          rcases List.mem_append.mp hp with hp | hp
          · exact hown p hp
          · exact List.mem_cons_of_mem _ (hids p hp)
      · exact ⟨_, by rw [hend, houtcome.terminations], hown⟩
    · obtain ⟨more, hattempts, hids⟩ := ih (h.tail (fun _ _ => rfl))
      refine ⟨more, ?_, fun p hp => List.mem_cons_of_mem _ (hids p hp)⟩
      simpa [sweepRows, hdue] using hattempts

theorem mem_terminations_sweepRows (h : Fresh rows s) {l : Lease} (hl : l ∈ rows)
    (hdue : l.expiresAt ≤ job.now) (hnew : ∀ p ∈ s.terminations, p.1 ≠ l.id) :
    (l.id, l.runpodPodId) ∈ (sweepRows text job answers rows s).1.terminations ↔
      Arrives (answers l.id) ∧ ∀ r ∈ rows.takeWhile (fun r => r.id ≠ l.id),
        r.expiresAt ≤ job.now → Completes text job (answers r.id) r := by
  induction rows generalizing s with
  | nil => simp at hl
  | cons row rows ih =>
    have hnodup : row.id ∉ rows.map Lease.id ∧ (rows.map Lease.id).Nodup :=
      List.nodup_cons.mp h.nodup
    have houtcome := h.outcome text job answers
    have hunsent : (l.id, l.runpodPodId) ∉ s.terminations := fun hmem => hnew _ hmem rfl
    by_cases hid : row.id = l.id
    · have hself : row = l := by
        rcases List.mem_cons.mp hl with rfl | hmem
        · rfl
        · exact absurd (hid ▸ List.mem_map_of_mem hmem) hnodup.1
      subst hself
      simp only [ne_eq, not_true_eq_false, decide_false, List.takeWhile_cons_of_neg,
        Bool.false_eq_true, not_false_eq_true, List.not_mem_nil, false_implies, implies_true,
        and_true]
      rcases sweepRows_due text job answers h hdue with
        ⟨hcompletes, hnext⟩ | ⟨-, hend⟩
      · obtain ⟨more, hattempts, -⟩ := terminations_sweepRows text job answers
          (h.tail houtcome.frame)
        rw [hnext, hattempts, houtcome.terminations, attempts, if_pos hcompletes.1]
        simp [hcompletes.1]
      · rw [hend, houtcome.terminations, attempts]
        split
        · rename_i harrives
          simp [harrives]
        · rename_i harrives
          simp [harrives, hunsent]
    · have hmem : l ∈ rows := by
        rcases List.mem_cons.mp hl with rfl | hmem
        · exact absurd rfl hid
        · exact hmem
      have hbefore : (row :: rows).takeWhile (fun r => r.id ≠ l.id) =
          row :: rows.takeWhile (fun r => r.id ≠ l.id) := by simp [hid]
      rw [hbefore]
      by_cases hrow : row.expiresAt ≤ job.now
      · have hnew' : ∀ p ∈ (runTeardown text (job.teardownCall row) (answers row.id)
            s).1.terminations, p.1 ≠ l.id := by
          rw [houtcome.terminations]
          intro p hp
          rcases List.mem_append.mp hp with hp | hp
          · exact hnew p hp
          · rw [id_of_mem_attempts hp]
            exact hid
        rcases sweepRows_due text job answers h hrow with
          ⟨hcompletes, hnext⟩ | ⟨hfails, hend⟩
        · rw [hnext, ih (h.tail houtcome.frame) hmem hnew']
          simp [hcompletes]
        · rw [hend]
          refine iff_of_false (fun hsent => hnew' _ hsent rfl) ?_
          rintro ⟨-, hall⟩
          exact hfails (hall row (by simp) hrow)
      · have hskip : sweepRows text job answers (row :: rows) s =
            sweepRows text job answers rows s := by simp [sweepRows, hrow]
        rw [hskip, ih (h.tail (fun _ _ => rfl)) hmem hnew]
        simp [hrow]

end Sweep

section Job
variable (text : PyText) (job : ExpiryJob) (world : ExpiryWorld) (s : Fleet)

/-- The leases that must not escape: marked for teardown, expired, not yet closed. -/
def Lease.due (l : Lease) (now : Instant) : Bool :=
  l.autoTeardownOnExpiry && !l.state.terminal && decide (l.expiresAt ≤ now)

def attempted : List (String × String) :=
  (leaseExpiryReconcile text job world { s with terminations := [] }).1.terminations

/-- The job selects the lease and gets as far as its pod. -/
structure Swept (l : Lease) : Prop where
  active : l.state = .active
  window : l.expiresAt ≤ world.dbNow + 60 * microsPerMinute
  selected : world.fault = none
  arrives : Arrives (world.teardown l.id)
  before : ∀ r ∈ (s.store.leases.expiringIn world.dbNow world.planOrder).takeWhile
    (fun r => r.id ≠ l.id), r.expiresAt ≤ job.now → Completes text job (world.teardown r.id) r

theorem mem_expiringIn {t : Leases} {dbNow : Instant} {planOrder : Lease → Lease → Bool}
    {l : Lease} :
    l ∈ t.expiringIn dbNow planOrder ↔ l ∈ t.rows ∧ l.state = .active ∧
      l.autoTeardownOnExpiry = true ∧ l.expiresAt ≤ dbNow + 60 * microsPerMinute := by
  rw [Leases.expiringIn, (List.perm_insertionSort _ _).mem_iff]
  simp [Leases.expiring, and_assoc]

theorem fresh_expiringIn :
    Fresh (s.store.leases.expiringIn world.dbNow world.planOrder)
      { s with terminations := [] } := by
  refine ⟨fun r hr => ?_, ?_⟩
  · obtain ⟨hmem, hactive, -⟩ := mem_expiringIn.mp hr
    exact ⟨Keyed.get_eq_some_iff.mpr ⟨hmem, rfl⟩, hactive⟩
  · rw [Leases.expiringIn, ((List.perm_insertionSort _ _).map Lease.id).nodup_iff]
    have hids : (s.store.leases.rows.map Lease.id).Nodup := by
      have hnodup := s.store.leases.nodup
      rwa [← List.map_eq_flatMap] at hnodup
    exact hids.sublist ((List.filter_sublist).map Lease.id)

/-- The job asks for the termination of every due lease exactly when each of them is
active and inside the window of the query, the statements before its termination go
through, and no teardown before it in the loop raises. -/
theorem expired_leases_attempted_iff :
    (∀ l ∈ s.store.leases.rows, l.due job.now = true →
      (l.id, l.runpodPodId) ∈ attempted text job world s) ↔
    ∀ l ∈ s.store.leases.rows, l.due job.now = true → Swept text job world s l := by
  refine forall₃_congr (fun l hl hdue => ?_)
  simp only [Lease.due, Bool.and_eq_true, Bool.not_eq_true', decide_eq_true_eq] at hdue
  obtain ⟨⟨hauto, -⟩, hexpired⟩ := hdue
  unfold attempted leaseExpiryReconcile
  cases hfault : world.fault with
  | some e =>
    refine iff_of_false (by simp) (fun h => ?_)
    have hselected := h.selected
    simp [hfault] at hselected
  | none =>
    have hfresh := fresh_expiringIn world s
    by_cases hmem : l ∈ s.store.leases.expiringIn world.dbNow world.planOrder
    · obtain ⟨-, hactive, -, hwindow⟩ := mem_expiringIn.mp hmem
      rw [mem_terminations_sweepRows text job world.teardown hfresh hmem hexpired (by simp)]
      exact ⟨fun h => ⟨hactive, hwindow, hfault, h.1, h.2⟩, fun h => ⟨h.arrives, h.before⟩⟩
    · refine iff_of_false ?_ (fun h => hmem (mem_expiringIn.mpr ⟨hl, h.active, hauto, h.window⟩))
      intro hattempted
      obtain ⟨more, hattempts, hids⟩ := terminations_sweepRows text job world.teardown hfresh
      rw [hattempts, List.nil_append] at hattempted
      obtain ⟨r, hr, hid⟩ := List.mem_map.mp (hids _ hattempted)
      have hsame : r = l := Table.eq_of_uniq _ (mem_expiringIn.mp hr).1 hl (k := l.id)
        (by simp [hid]) (by simp)
      exact hmem (hsame ▸ hr)

end Job

def smoothTeardown : TeardownInput := ⟨0, none, none, none, none⟩

/-- A launch that dies once its lease is persisted leaves a pod behind that the job does
not ask RunPod to terminate. -/
theorem crashed_launch_escapes :
    ¬ ∀ (c : LaunchCall) (steps : List LaunchInput) (text : PyText) (job : ExpiryJob)
        (world : ExpiryWorld),
      ∀ l ∈ (run (launchAlone c) (emptyFleet, .admitting) steps).1.store.leases.rows,
        l.due job.now = true → (l.id, l.runpodPodId) ∈ attempted text job world
          (run (launchAlone c) (emptyFleet, .admitting) steps).1 := by
  intro h
  have hswept := h (oneDollarLaunch none "lease_1")
    (List.replicate 4 (smoothInput "wkl_1" "pod_1")) trimmedText ⟨7200000000, true⟩
    ⟨7200000000, fun _ _ => true, none, fun _ _ => smoothTeardown⟩
  revert hswept
  decide +kernel

end Pitwall
