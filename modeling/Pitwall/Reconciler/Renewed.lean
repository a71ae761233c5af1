import Pitwall.Leases.ExactlyOnce
import Pitwall.Leases.StateMachine
import Pitwall.Reconciler.LeaseExpiry
set_option autoImplicit false

/-!
Renewals beside the expiry job. The job acts on leases as it read them at its start, and
`run_teardown` reads the state of a lease again but never its expiry.
-/

namespace Pitwall
open Machine

def Fleet.expiryOf (s : Fleet) (id : String) : Option Instant :=
  (s.store.leases.get id).map Lease.expiresAt

/-- A step of the job, or a whole transaction of a renewal or a patch. -/
inductive ExpiryEvent where
  | job (input : ExpiryInput)
  | mutate (request : MutationRequest) (input : MutationInput)

def expiryRaceStep (text : PyText) (hashes : MutationText) (job : ExpiryJob)
    (x : Fleet × ExpiryState) : ExpiryEvent → Fleet × ExpiryState
  | .job i => expiryStep text job x.2 x.1 i
  | .mutate r i => ({ x.1 with store := (mutateLease hashes r i x.1.store).2 }, x.2)

def dueIds (now : Instant) (rows : List Lease) : List String :=
  (rows.filter (fun r => r.expiresAt ≤ now)).map Lease.id

namespace ExpiryState

def awaits (now : Instant) : ExpiryState → List String
  | .sweeping rows => dueIds now rows
  | .tearingDown row .reading rows | .tearingDown row (.marking _) rows =>
      row.id :: dueIds now rows
  | .tearingDown _ _ rows => dueIds now rows
  | _ => []

/-- The lease that the next step of the job stops, or whose pod it terminates. -/
def stops : ExpiryState → Option String
  | .tearingDown _ (.marking lease) _ | .tearingDown _ (.terminating lease) _
  | .tearingDown _ (.closing lease _ _) _ => some lease.id
  | _ => none

/-- The lease that the job has put in `stopping` and not closed yet. -/
def holds : ExpiryState → Option String
  | .tearingDown _ l _ => l.stopping.map Lease.id
  | _ => none

def marks : ExpiryState → Option (String × String)
  | .tearingDown row (.marking lease) _ => some (row.id, lease.id)
  | _ => none

end ExpiryState

structure SweepInvariant (now : Instant) (x : Fleet × ExpiryState) : Prop where
  awaited : ∀ id ∈ x.2.awaits now, ∀ t, x.1.expiryOf id = some t → t ≤ now
  held : ∀ id, x.2.holds = some id → (∀ t, x.1.expiryOf id = some t → t ≤ now) ∧
    ∀ a, x.1.stateOf id = some a → a.mutable = false
  marked : ∀ id id', x.2.marks = some (id, id') → id' = id

section Expiry
variable {s s' : Fleet}

theorem Wrote.expiryOf {id : String} {state : LeaseState}
    (h : Wrote s.store.leases s'.store.leases id state) (k : String) :
    s'.expiryOf k = s.expiryOf k := by
  by_cases hk : k = id
  · obtain ⟨l, l', hl, hl', -, hexpires⟩ := h.row
    simp [Fleet.expiryOf, hk, hl, hl', hexpires]
  · simp [Fleet.expiryOf, h.others k hk]

theorem TeardownMove.expiryOf {c : TeardownCall} {i : TeardownInput} {l l' : TeardownState}
    (h : TeardownMove c i s s' l l') (k : String) : s'.expiryOf k = s.expiryOf k := by
  rcases h.store with hstore | ⟨lease, state, hwrote, -⟩
  · simp [Fleet.expiryOf, hstore]
  · exact hwrote.expiryOf k

theorem expiryOf_expiryStep (text : PyText) (job : ExpiryJob) (l : ExpiryState)
    (i : ExpiryInput) (k : String) :
    (expiryStep text job l s i).1.expiryOf k = s.expiryOf k := by
  cases l with
  | selecting =>
    simp only [expiryStep]
    split <;> rfl
  | sweeping rows =>
    cases rows with
    | nil => rfl
    | cons row rows =>
      simp only [expiryStep]
      split <;> rfl
  | tearingDown row l rows =>
    exact (teardownStep_move text (job.teardownCall row) l s i.teardown).expiryOf k
  | finished => rfl
  | raised e => rfl

theorem extendsMinutes_nonneg {hashes : MutationText} {r : MutationRequest} {i : MutationInput}
    {store : LeaseStore} {result : MutationResult}
    (h : (mutateLease hashes r i store).1 = .ok result) : 0 ≤ r.extendsMinutes := by
  unfold mutateLease at h
  unfold MutationRequest.extendsMinutes
  cases hbody : r.body with
  | renew m =>
    simp only [hbody] at h ⊢
    split at h
    · omega
    · contradiction
  | patch policy auto => simp

theorem mutateLease_expiry (hashes : MutationText) (r : MutationRequest) (i : MutationInput)
    (s : Fleet) :
    (∀ k, Fleet.stateOf { s with store := (mutateLease hashes r i s.store).2 } k = s.stateOf k) ∧
    ∀ k, Fleet.expiryOf { s with store := (mutateLease hashes r i s.store).2 } k =
        s.expiryOf k ∨
      (k = r.leaseId ∧ (∃ a, s.stateOf k = some a ∧ a.mutable = true) ∧
        ∃ t t', s.expiryOf k = some t ∧ t ≤ t' ∧
          Fleet.expiryOf { s with store := (mutateLease hashes r i s.store).2 } k = some t') := by
  rcases mutateLease_cases hashes r i s.store with ⟨e, hm⟩ | ⟨row, key, rec, hm, -⟩ |
    ⟨row, updated, s', hm, happlied⟩
  · rw [hm]
    exact ⟨fun _ => rfl, fun _ => .inl rfl⟩
  · rw [hm]
    exact ⟨fun _ => rfl, fun _ => .inl rfl⟩
  · have hminutes := extendsMinutes_nonneg (congrArg Prod.fst hm)
    rw [hm]
    refine ⟨fun k => ?_, fun k => ?_⟩
    · by_cases hk : k = r.leaseId
      · simp [Fleet.stateOf, Leases.stateOf, happlied.leases, hk, happlied.found, happlied.state]
      · simp [Fleet.stateOf, Leases.stateOf, happlied.leases, hk]
    · by_cases hk : k = r.leaseId
      · refine .inr ⟨hk, ⟨row.state, ?_, happlied.mutable⟩, row.expiresAt, updated.expiresAt,
          ?_, ?_, ?_⟩
        · simp [Fleet.stateOf, Leases.stateOf, hk, happlied.found]
        · simp [Fleet.expiryOf, hk, happlied.found]
        · rw [happlied.expires]
          exact le_add_of_nonneg_right (mul_nonneg hminutes (by decide))
        · simp [Fleet.expiryOf, happlied.leases, hk]
      · exact .inl (by simp [Fleet.expiryOf, happlied.leases, hk])

end Expiry

section Steps
variable {text : PyText} {hashes : MutationText} {job : ExpiryJob}

theorem mem_dueIds {now : Instant} {rows : List Lease} {id : String} :
    id ∈ dueIds now rows ↔ ∃ r ∈ rows, r.expiresAt ≤ now ∧ r.id = id := by
  simp [dueIds, and_assoc]

theorem sweepInvariant_sweeping {now : Instant} {s : Fleet} {rows : List Lease}
    (h : ∀ id ∈ dueIds now rows, ∀ t, s.expiryOf id = some t → t ≤ now) :
    SweepInvariant now (s, .sweeping rows) :=
  ⟨h, by simp [ExpiryState.holds], by simp [ExpiryState.marks]⟩

theorem sweepInvariant_ended {now : Instant} {s : Fleet} {l : ExpiryState}
    (h : l = .finished ∨ ∃ e, l = .raised e) : SweepInvariant now (s, l) := by
  rcases h with rfl | ⟨e, rfl⟩
  · exact ⟨by simp [ExpiryState.awaits], by simp [ExpiryState.holds], by simp [ExpiryState.marks]⟩
  · exact ⟨by simp [ExpiryState.awaits], by simp [ExpiryState.holds], by simp [ExpiryState.marks]⟩

theorem awaits_of_stopping {now : Instant} {l : TeardownState} {lease row : Lease}
    {rows : List Lease} (h : l.stopping = some lease) :
    (ExpiryState.tearingDown row l rows).awaits now = dueIds now rows := by
  cases l <;> simp [TeardownState.stopping, ExpiryState.awaits] at h ⊢

theorem dueIds_subset_awaits (now : Instant) (l : TeardownState) (row : Lease)
    (rows : List Lease) :
    ∀ id ∈ dueIds now rows, id ∈ (ExpiryState.tearingDown row l rows).awaits now := by
  intro id hid
  cases l <;> simp [ExpiryState.awaits, hid]

theorem afterTeardown_of_stopping {l : TeardownState} {lease row : Lease} {rows : List Lease}
    (h : l.stopping = some lease) : afterTeardown row l rows = .tearingDown row l rows := by
  cases l <;> simp [TeardownState.stopping, afterTeardown] at h ⊢

theorem sweepInvariant_stopping {now : Instant} {s : Fleet} {l : TeardownState} {lease row : Lease}
    {rows : List Lease} (hl : l.stopping = some lease)
    (hrest : ∀ id ∈ dueIds now rows, ∀ t, s.expiryOf id = some t → t ≤ now)
    (hexpired : ∀ t, s.expiryOf lease.id = some t → t ≤ now)
    (hstate : ∀ a, s.stateOf lease.id = some a → a.mutable = false) :
    SweepInvariant now (s, afterTeardown row l rows) := by
  rw [afterTeardown_of_stopping hl]
  refine ⟨?_, ?_, ?_⟩
  · simp only [awaits_of_stopping hl]
    exact hrest
  · intro id hid
    simp only [ExpiryState.holds, hl, Option.map_some, Option.some.injEq] at hid
    subst hid
    exact ⟨hexpired, hstate⟩
  · intro id id' hid
    cases l <;> simp [TeardownState.stopping, ExpiryState.marks] at hl hid

theorem sweepInvariant_teardown {row : Lease} {rows : List Lease} {s s' : Fleet}
    {l l' : TeardownState} {i : TeardownInput}
    (h : SweepInvariant job.now (s, .tearingDown row l rows))
    (hmove : TeardownMove (job.teardownCall row) i s s' l l') :
    SweepInvariant job.now (s', afterTeardown row l' rows) := by
  have hexpiry := hmove.expiryOf
  have hrest : ∀ id ∈ dueIds job.now rows, ∀ t, s'.expiryOf id = some t → t ≤ job.now := by
    intro id hid t ht
    rw [hexpiry] at ht
    exact h.awaited id (dueIds_subset_awaits job.now l row rows id hid) t ht
  cases hmove with
  | returned quiet => exact sweepInvariant_sweeping hrest
  | raised quiet => exact sweepInvariant_ended (.inr ⟨_, rfl⟩)
  | published store closed published => exact sweepInvariant_sweeping hrest
  | readActive quiet stored state =>
    rename_i lease
    refine ⟨?_, by simp [afterTeardown, ExpiryState.holds, TeardownState.stopping], ?_⟩
    · intro id hid t ht
      rw [hexpiry] at ht
      exact h.awaited id hid t ht
    · intro id id' hid
      simp only [afterTeardown, ExpiryState.marks, Option.some.injEq, Prod.mk.injEq] at hid
      rw [← hid.1, ← hid.2]
      exact Keyed.key_of_get stored
  | readStopping quiet stored state =>
    rename_i lease
    have hid : lease.id = row.id := Keyed.key_of_get stored
    refine sweepInvariant_stopping rfl hrest ?_ ?_
    · intro t ht
      rw [hexpiry, hid] at ht
      exact h.awaited row.id (by simp [ExpiryState.awaits]) t ht
    · intro a ha
      have hstored : s.stateOf lease.id = some .stopping := by
        simp [Fleet.stateOf, Leases.stateOf, Keyed.key_of_get stored, stored, state]
      rw [quiet.stateOf, hstored] at ha
      cases ha
      rfl
  | marked fault id state wrote closed published =>
    rename_i lease updated
    have hrow : lease.id = row.id := h.marked row.id lease.id rfl
    refine sweepInvariant_stopping rfl hrest ?_ ?_
    · intro t ht
      rw [hexpiry, id, hrow] at ht
      exact h.awaited row.id (by simp [ExpiryState.awaits]) t ht
    · intro a ha
      rw [id, Fleet.stateOf, wrote.self] at ha
      cases ha
      rfl
  | advanced quiet before after =>
    rename_i lease
    obtain ⟨hexpired, hstate⟩ := h.held lease.id (by simp [ExpiryState.holds, before])
    refine sweepInvariant_stopping after hrest ?_ ?_
    · intro t ht
      rw [hexpiry] at ht
      exact hexpired t ht
    · intro a ha
      rw [quiet.stateOf] at ha
      exact hstate a ha
  | closed fault fits id lawful wrote closed published =>
    refine ⟨?_, by simp [afterTeardown, ExpiryState.holds, TeardownState.stopping],
      by simp [afterTeardown, ExpiryState.marks]⟩
    simp only [afterTeardown, ExpiryState.awaits]
    exact hrest

theorem sweepInvariant_job {x : Fleet × ExpiryState} (i : ExpiryInput)
    (h : SweepInvariant job.now x) : SweepInvariant job.now (expiryStep text job x.2 x.1 i) := by
  obtain ⟨s, l⟩ := x
  cases l with
  | selecting =>
    simp only [expiryStep]
    split
    · exact sweepInvariant_ended (.inr ⟨_, rfl⟩)
    · refine sweepInvariant_sweeping (fun id hid t ht => ?_)
      obtain ⟨r, hr, hexpired, rfl⟩ := mem_dueIds.mp hid
      rw [Leases.expiringIn, (List.perm_insertionSort _ _).mem_iff] at hr
      have hget : s.store.leases.get r.id = some r :=
        Keyed.get_eq_some_iff.mpr ⟨List.mem_of_mem_filter hr, rfl⟩
      simp only [Fleet.expiryOf, hget, Option.map_some, Option.some.injEq] at ht
      rwa [← ht]
  | sweeping rows =>
    cases rows with
    | nil => exact sweepInvariant_ended (.inl rfl)
    | cons row rows =>
      simp only [expiryStep]
      split
      · rename_i hdue
        refine ⟨?_, by simp [ExpiryState.holds, TeardownState.stopping],
          by simp [ExpiryState.marks]⟩
        have hawaits : (ExpiryState.tearingDown row .reading rows).awaits job.now =
            (ExpiryState.sweeping (row :: rows)).awaits job.now := by
          simp [ExpiryState.awaits, dueIds, hdue]
        rw [hawaits]
        exact h.awaited
      · rename_i hdue
        have hawaits : (ExpiryState.sweeping rows).awaits job.now =
            (ExpiryState.sweeping (row :: rows)).awaits job.now := by
          simp [ExpiryState.awaits, dueIds, hdue]
        refine sweepInvariant_sweeping ?_
        rw [ExpiryState.awaits] at hawaits
        rw [hawaits]
        exact h.awaited
  | tearingDown row l rows =>
    exact sweepInvariant_teardown h
      (teardownStep_move text (job.teardownCall row) l s i.teardown)
  | finished => exact sweepInvariant_ended (.inl rfl)
  | raised e => exact sweepInvariant_ended (.inr ⟨e, rfl⟩)

/-- A request leaves no lease that the job awaits with an expiry beyond the job's time. -/
def NotOvertaking (hashes : MutationText) (job : ExpiryJob) (x : Fleet × ExpiryState) :
    ExpiryEvent → Prop
  | .job _ => True
  | .mutate r i => ∀ t,
      Fleet.expiryOf { x.1 with store := (mutateLease hashes r i x.1.store).2 } r.leaseId = some t →
        job.now < t → r.leaseId ∉ x.2.awaits job.now

theorem sweepInvariant_step {x : Fleet × ExpiryState} {e : ExpiryEvent}
    (h : SweepInvariant job.now x) (he : NotOvertaking hashes job x e) :
    SweepInvariant job.now (expiryRaceStep text hashes job x e) := by
  cases e with
  | job i => exact sweepInvariant_job i h
  | mutate r i =>
    obtain ⟨hstate, hexpiry⟩ := mutateLease_expiry hashes r i x.1
    refine ⟨fun id hid t ht => ?_, fun id hid => ⟨fun t ht => ?_, fun a ha => ?_⟩, h.marked⟩
    · rcases hexpiry id with hsame | ⟨rfl, -⟩
      · exact h.awaited id hid t (hsame ▸ ht)
      · by_contra hlate
        exact he t ht (not_le.mp hlate) hid
    · rcases hexpiry id with hsame | ⟨-, ⟨a, ha, hmutable⟩, -⟩
      · exact (h.held id hid).1 t (hsame ▸ ht)
      · have hfixed := (h.held id hid).2 a ha
        simp [hmutable] at hfixed
    · rw [expiryRaceStep, hstate] at ha
      exact (h.held id hid).2 a ha

theorem expiry_of_stops {x : Fleet × ExpiryState} (h : SweepInvariant job.now x) {id : String}
    (hid : x.2.stops = some id) {t : Instant} (ht : x.1.expiryOf id = some t) : t ≤ job.now := by
  obtain ⟨s, l⟩ := x
  cases l with
  | tearingDown row l rows =>
    cases l with
    | marking lease =>
      cases hid
      have hrow : lease.id = row.id := h.marked row.id lease.id rfl
      exact h.awaited lease.id (by simp [ExpiryState.awaits, hrow]) t ht
    | terminating lease => exact (h.held id hid).1 t ht
    | closing lease cost terminatedAt => exact (h.held id hid).1 t ht
    | _ => simp [ExpiryState.stops] at hid
  | _ => simp [ExpiryState.stops] at hid

def Later (s s' : Fleet) : Prop :=
  ∀ id t, s.expiryOf id = some t → ∃ t', s'.expiryOf id = some t' ∧ t ≤ t'

theorem later_step (text : PyText) (hashes : MutationText) (job : ExpiryJob)
    (x : Fleet × ExpiryState) (e : ExpiryEvent) :
    Later x.1 (expiryRaceStep text hashes job x e).1 := by
  intro id t ht
  cases e with
  | job i => exact ⟨t, (expiryOf_expiryStep text job x.2 i id).trans ht, le_rfl⟩
  | mutate r i =>
    rcases (mutateLease_expiry hashes r i x.1).2 id with hsame | ⟨-, -, t₀, t', ht₀, hle, ht'⟩
    · exact ⟨t, hsame.trans ht, le_rfl⟩
    · rw [ht] at ht₀
      cases ht₀
      exact ⟨t', ht', hle⟩

theorem later_run (text : PyText) (hashes : MutationText) (job : ExpiryJob)
    (x : Fleet × ExpiryState) (es : List ExpiryEvent) :
    Later x.1 (run (expiryRaceStep text hashes job) x es).1 := by
  refine Along.run_of_prefix (R := fun a b : Fleet × ExpiryState => Later a.1 b.1)
    (fun _ _ t ht => ⟨t, ht, le_rfl⟩) ?_ (along_of_forall (later_step text hashes job) x es)
    (List.prefix_refl es)
  intro a b c hab hbc id t ht
  obtain ⟨t', ht', hle⟩ := hab id t ht
  obtain ⟨t'', ht'', hle'⟩ := hbc id t' ht'
  exact ⟨t'', ht'', hle.trans hle'⟩

/-- A renewal that moves an expiry beyond the job's time keeps the job from the lease, in
every run in which no such renewal commits between the job's query and its first write. -/
theorem renewal_wins (text : PyText) (hashes : MutationText) (job : ExpiryJob) (s : Fleet)
    (events : List ExpiryEvent)
    (hrun : Along (expiryRaceStep text hashes job) (NotOvertaking hashes job) (s, .selecting)
      events) :
    ∀ es r i fs, es ++ .mutate r i :: fs <+: events → ∀ t,
      (run (expiryRaceStep text hashes job) (s, .selecting)
        (es ++ [.mutate r i])).1.expiryOf r.leaseId = some t → job.now < t →
      (run (expiryRaceStep text hashes job) (s, .selecting)
        (es ++ .mutate r i :: fs)).2.stops ≠ some r.leaseId := by
  intro es r i fs hp t ht hlate hstops
  have hstart : SweepInvariant job.now (s, .selecting) :=
    ⟨by simp [ExpiryState.awaits], by simp [ExpiryState.holds], by simp [ExpiryState.marks]⟩
  have hend : SweepInvariant job.now (run (expiryRaceStep text hashes job) (s, .selecting)
      (es ++ .mutate r i :: fs)) :=
    run_invariant (fun _ _ h he => sweepInvariant_step h he) hstart (hrun.of_prefix hp)
  have hsplit : run (expiryRaceStep text hashes job) (s, .selecting) (es ++ .mutate r i :: fs) =
      run (expiryRaceStep text hashes job) (run (expiryRaceStep text hashes job) (s, .selecting)
        (es ++ [.mutate r i])) fs := by
    simp [run, List.foldl_append]
  obtain ⟨t', ht', hle⟩ := later_run text hashes job _ fs r.leaseId t ht
  rw [← hsplit] at ht'
  have hexpired : t' ≤ job.now := expiry_of_stops hend hstops ht'
  exact absurd (hle.trans hexpired) (not_le.mpr hlate)

end Steps

def expiringLease : Lease :=
  { creatingLease with
    state := .active
    endpoints := some (.obj [("http", .obj []), ("tcp", .obj [])])
    readiness := some ⟨some 0, some 0, some 0, none⟩
    active_ready := fun _ => rfl }

def expiringFleet : Fleet :=
  { emptyFleet with store := ⟨⟨[expiringLease], by simp⟩, Table.empty, []⟩ }

def jobAtExpiry : ExpiryJob := ⟨7200000000, true⟩

def smoothJobStep : ExpiryEvent :=
  .job ⟨7200000000, fun _ _ => true, none, ⟨7200000000, none, none, none, none⟩⟩

def renewAnHour : ExpiryEvent :=
  .mutate ⟨"lease_1", .renew 60, "rest:lease", some "k"⟩ ⟨7200000000, none⟩

/-- A renewal that commits before the job's query: the lease is not touched. -/
theorem renewal_wins_early :
    (run (expiryRaceStep trimmedText renewalHashes jobAtExpiry) (expiringFleet, .selecting)
      (renewAnHour :: List.replicate 5 smoothJobStep)).2.stops ≠ some "lease_1" := by
  have hrun : Along (expiryRaceStep trimmedText renewalHashes jobAtExpiry)
      (NotOvertaking renewalHashes jobAtExpiry) (expiringFleet, .selecting)
      (renewAnHour :: List.replicate 5 smoothJobStep) := by
    refine ⟨?_, trivial, trivial, trivial, trivial, trivial, trivial⟩
    intro t _ _
    simp [ExpiryState.awaits]
  exact renewal_wins trimmedText renewalHashes jobAtExpiry expiringFleet _ hrun [] _ _
    (List.replicate 5 smoothJobStep) (List.prefix_refl _) 10800000000 (by decide +kernel)
    (by decide)

/-- The job queries, a renewal commits, and the job stops the renewed lease. -/
theorem renewed_lease_stopped :
    ¬ ∀ (text : PyText) (hashes : MutationText) (job : ExpiryJob) (s : Fleet)
        (es fs : List ExpiryEvent) (r : MutationRequest) (i : MutationInput) (t₀ t : Instant),
      (∀ es', es' <+: es → (run (expiryRaceStep text hashes job) (s, .selecting)
        es').2.stops ≠ some r.leaseId) →
      (run (expiryRaceStep text hashes job) (s, .selecting) es).1.expiryOf r.leaseId = some t₀ →
      t₀ ≤ job.now →
      (run (expiryRaceStep text hashes job) (s, .selecting)
        (es ++ [.mutate r i])).1.expiryOf r.leaseId = some t → job.now < t →
      (run (expiryRaceStep text hashes job) (s, .selecting)
        (es ++ .mutate r i :: fs)).2.stops ≠ some r.leaseId := by
  intro h
  have hspared := h trimmedText renewalHashes jobAtExpiry expiringFleet
    [smoothJobStep, smoothJobStep] [smoothJobStep] ⟨"lease_1", .renew 60, "rest:lease", some "k"⟩
    ⟨7200000000, none⟩ 7200000000 10800000000 ?_ (by decide +kernel) (by decide)
    (by decide +kernel) (by decide)
  · revert hspared
    decide +kernel
  · intro es' hp
    rw [List.prefix_cons_iff] at hp
    rcases hp with rfl | ⟨_, rfl, hp⟩
    · decide +kernel
    · rw [List.prefix_cons_iff] at hp
      rcases hp with rfl | ⟨_, rfl, hp⟩
      · decide +kernel
      · rw [List.prefix_nil.mp hp]
        decide +kernel

end Pitwall
