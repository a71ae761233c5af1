import Pitwall.Leases.Teardown
set_option autoImplicit false

/-!
Everything that one step of a launch or of a teardown can do to the states of the leases,
to the closings and to the events.
-/

namespace Pitwall

/-- The state of the lease `id` was set; its expiry and the other leases are as before. -/
structure Wrote (t t' : Leases) (id : String) (state : LeaseState) : Prop where
  row : ∃ l l', t.get id = some l ∧ t'.get id = some l' ∧ l'.state = state ∧
    l'.expiresAt = l.expiresAt
  others : ∀ k, k ≠ id → t'.get k = t.get k

theorem Wrote.present {t t' : Leases} {id : String} {state : LeaseState}
    (h : Wrote t t' id state) : (t.stateOf id).isSome = true := by
  obtain ⟨l, l', hl, -⟩ := h.row
  simp [Leases.stateOf, hl]

theorem Wrote.self {t t' : Leases} {id : String} {state : LeaseState}
    (h : Wrote t t' id state) : t'.stateOf id = some state := by
  obtain ⟨l, l', -, hl', hstate, -⟩ := h.row
  simp [Leases.stateOf, hl', hstate]

theorem Wrote.stateOf_others {t t' : Leases} {id : String} {state : LeaseState}
    (h : Wrote t t' id state) (k : String) (hk : k ≠ id) : t'.stateOf k = t.stateOf k := by
  simp [Leases.stateOf, h.others k hk]

section Statements
variable {t t' : Leases} {id : String} {state : LeaseState} {updated : Option Lease}

theorem modify_wrote {f : Lease → Except PyError Lease} {P : Prop}
    (hf : ∀ l l', f l = .ok l' →
      l'.id = l.id ∧ l'.state = state ∧ l'.expiresAt = l.expiresAt ∧ P)
    (h : t.modify id f = .ok (updated, t')) :
    (updated = none ∧ t' = t ∧ t.stateOf id = none) ∨
    ∃ l, updated = some l ∧ l.id = id ∧ l.state = state ∧ P ∧ Wrote t t' id state := by
  rcases Leases.modify_ok (fun l l' hl => (hf l l' hl).1) h with ⟨hnone, hupdated, ht⟩ |
    ⟨l, l', hl, hl', hupdated, hget⟩
  · exact .inl ⟨hupdated, ht, by simp [Leases.stateOf, hnone]⟩
  · obtain ⟨hid, hstate, hexpires, hP⟩ := hf l l' hl'
    refine .inr ⟨l', hupdated, hid.trans (Keyed.key_of_get hl), hstate, hP, ?_, ?_⟩
    · exact ⟨l, l', hl, by simp [hget], hstate, hexpires⟩
    · intro k hk
      simp [hget, hk]

theorem updateState_wrote (h : t.updateState id state = .ok (updated, t')) :
    (updated = none ∧ t' = t ∧ t.stateOf id = none) ∨
    ∃ l, updated = some l ∧ l.id = id ∧ l.state = state ∧ True ∧ Wrote t t' id state := by
  refine modify_wrote (fun l l' hl => ?_) h
  obtain ⟨hid, hstate, hexpires, -⟩ := Lease.withState_ok hl
  exact ⟨hid, hstate, hexpires, trivial⟩

theorem closeTeardown_wrote {cost : ℚ} {terminatedAt : Instant} {reason : String}
    (h : t.closeTeardown id state cost terminatedAt reason = .ok (updated, t')) :
    (updated = none ∧ t' = t ∧ t.stateOf id = none) ∨
    ∃ l, updated = some l ∧ l.id = id ∧ l.state = state ∧ (numeric 12 6 cost).isSome = true ∧
      Wrote t t' id state := by
  refine modify_wrote (fun l l' hl => ?_) h
  cases hs : l.withState state with
  | error e => simp [hs] at hl
  | ok l₁ =>
    simp only [hs] at hl
    obtain ⟨hid, hstate, hexpires, -⟩ := Lease.withState_ok hs
    obtain ⟨hid', hstate', hexpires', -⟩ := Lease.closed_ok hl
    refine ⟨hid'.trans hid, hstate'.trans hstate, hexpires'.trans hexpires, ?_⟩
    unfold Lease.closed at hl
    split at hl
    · contradiction
    · rename_i hcost
      rw [hcost]
      rfl

theorem updateState_present {a : LeaseState} (ha : t.stateOf id = some a)
    (hstate : state ≠ .active) :
    ∃ l t', t.updateState id state = .ok (some l, t') ∧ t'.stateOf id = some state := by
  obtain ⟨l, hl, -⟩ := Option.map_eq_some_iff.mp ha
  have hok : ∃ l', l.withState state = .ok l' := by simp [Lease.withState, hstate]
  obtain ⟨l', hl'⟩ := hok
  have hupdate : t.updateState id state = .ok (some l', t.put l') := by
    simp [Leases.updateState, Leases.modify, hl, hl']
  rcases updateState_wrote hupdate with ⟨h, -⟩ | ⟨_, -, -, -, -, hwrote⟩
  · contradiction
  · exact ⟨l', t.put l', hupdate, hwrote.self⟩

theorem closeTeardown_present {a : LeaseState} {cost : ℚ} (ha : t.stateOf id = some a)
    (hstate : state ≠ .active) (hfits : (numeric 12 6 cost).isSome = true)
    (terminatedAt : Instant) (reason : String) :
    ∃ l t', t.closeTeardown id state cost terminatedAt reason = .ok (some l, t') ∧ l.id = id := by
  obtain ⟨l, hl, -⟩ := Option.map_eq_some_iff.mp ha
  have hok : ∃ l', l.withState state = .ok l' := by simp [Lease.withState, hstate]
  obtain ⟨l₁, hl₁⟩ := hok
  obtain ⟨q, hq⟩ := Option.isSome_iff_exists.mp hfits
  have hok : ∃ l', l₁.closed cost terminatedAt reason = .ok l' := by
    unfold Lease.closed
    rw [hq]
    exact ⟨_, rfl⟩
  obtain ⟨l', hl'⟩ := hok
  have hclose : t.closeTeardown id state cost terminatedAt reason = .ok (some l', t.put l') := by
    simp [Leases.closeTeardown, Leases.modify, hl, hl₁, hl']
  rcases closeTeardown_wrote hclose with ⟨h, -⟩ | ⟨_, h, hid, -⟩
  · contradiction
  · cases h
    exact ⟨l', t.put l', hclose, hid⟩

theorem closeTeardown_overflow {l : Lease} {cost : ℚ} (hl : t.get id = some l)
    (hstate : state ≠ .active) (hoverflow : numeric 12 6 cost = none) (terminatedAt : Instant)
    (reason : String) :
    ∃ e, t.closeTeardown id state cost terminatedAt reason = .error e := by
  obtain ⟨l₁, hl₁⟩ : ∃ l₁, l.withState state = .ok l₁ := by simp [Lease.withState, hstate]
  obtain ⟨e, he⟩ : ∃ e, l₁.closed cost terminatedAt reason = .error e := by
    unfold Lease.closed
    rw [hoverflow]
    exact ⟨_, rfl⟩
  exact ⟨e, by simp [Leases.closeTeardown, Leases.modify, hl, hl₁, he]⟩

end Statements

namespace Fleet

def stateOf (s : Fleet) (id : String) : Option LeaseState := s.store.leases.stateOf id

end Fleet

section Launch

def LaunchState.rowState : LaunchState → Option LeaseState
  | .admitting | .planning _ | .provisioning _ | .persisting _ _ _ | .waiting _ _
  | .markingRuntime _ => some .creating
  | .markingProbe _ => some .waitingRuntime
  | .savingReadiness _ | .markingActive _ => some .waitingProbe
  | .coolingDown _ _ | .returned _ _ | .fallback _ _ | .raised _ _ => none

/-- Everything a step of a launch can do to the leases; it never touches the events. -/
inductive LaunchMove (c : LaunchCall) (s s' : Fleet) (l l' : LaunchState) : Prop
  | quiet (same : ∀ k, s'.stateOf k = s.stateOf k)
      (row : ∀ a, l'.rowState = some a → l.rowState = some a ∨ s.stateOf c.leaseId = none)
      (events : s'.closed = s.closed ∧ s'.published = s.published)
  | wrote {a state : LeaseState} (row : l.rowState = some a)
      (lawful : state = a ∨ state ∈ a.transitions) (alive : state.terminal = false)
      (self : s'.stateOf c.leaseId = some state)
      (others : ∀ k, k ≠ c.leaseId → s'.stateOf k = s.stateOf k)
      (row' : ∀ a', l'.rowState = some a' → a' = state)
      (events : s'.closed = s.closed ∧ s'.published = s.published)

variable (c : LaunchCall) {s : Fleet}

theorem LaunchMove.of_store {s' : Fleet} {l l' : LaunchState} (store : s'.store = s.store)
    (events : s'.closed = s.closed ∧ s'.published = s.published)
    (row : ∀ a, l'.rowState = some a → l.rowState = some a) : LaunchMove c s s' l l' :=
  .quiet (by simp [Fleet.stateOf, store]) (fun a ha => .inl (row a ha)) events

theorem LaunchMove.events {s' : Fleet} {l l' : LaunchState} (h : LaunchMove c s s' l l') :
    s'.closed = s.closed ∧ s'.published = s.published := by
  cases h with
  | quiet same row events => exact events
  | wrote row lawful alive self others row' events => exact events

theorem launchMove_persistStep {l next : LaunchState} {r : ReadyLaunch} {fault : Option PyError}
    {a state : LeaseState} (row : l.rowState = some a) (lawful : state ∈ a.transitions)
    (alive : state.terminal = false) (hnext : ∀ a', next.rowState = some a' → a' = state) :
    LaunchMove c s
      (persistStep r next s fault (s.store.leases.updateState c.leaseId state)).1 l
      (persistStep r next s fault (s.store.leases.updateState c.leaseId state)).2 := by
  unfold persistStep
  split
  · exact .of_store c rfl ⟨rfl, rfl⟩ (by simp [LaunchState.rowState])
  · exact .of_store c rfl ⟨rfl, rfl⟩ (by simp [LaunchState.rowState])
  · rename_i hupdate
    rcases updateState_wrote hupdate with ⟨-, rfl, hnone⟩ | ⟨-, -, -, -, -, hwrote⟩
    · exact .quiet (fun _ => rfl) (fun _ _ => .inr hnone) ⟨rfl, rfl⟩
    · exact .wrote row (.inr lawful) alive hwrote.self hwrote.stateOf_others hnext ⟨rfl, rfl⟩

theorem rowState_afterPodError (workloadId : String) (err : PodError) :
    (afterPodError workloadId err).rowState = none := by
  cases err <;> rfl

theorem launchStep_move (l : LaunchState) (i : LaunchInput) :
    LaunchMove c s (launchStep c l s i).1 l (launchStep c l s i).2 := by
  cases l with
  | admitting =>
    simp only [launchStep]
    split
    · exact .of_store c rfl ⟨rfl, rfl⟩ (by simp [LaunchState.rowState])
    · exact .of_store c rfl ⟨rfl, rfl⟩ (by simp [LaunchState.rowState])
    · split <;> exact .of_store c rfl ⟨rfl, rfl⟩ (by simp [LaunchState.rowState])
  | planning id =>
    simp only [launchStep]
    split <;> exact .of_store c rfl ⟨rfl, rfl⟩ (by simp [LaunchState.rowState])
  | provisioning p =>
    simp only [launchStep]
    split
    · exact .of_store c rfl ⟨rfl, rfl⟩ (by simp [LaunchState.rowState])
    · exact .of_store c rfl ⟨rfl, rfl⟩ (by simp [LaunchState.rowState])
    · exact .of_store c rfl ⟨rfl, rfl⟩ (by simp [LaunchState.rowState])
    · exact .of_store c rfl ⟨rfl, rfl⟩ (by simp [LaunchState.rowState])
    · exact .of_store c rfl ⟨rfl, rfl⟩ (by simp [rowState_afterPodError])
  | persisting p podId bodyId =>
    simp only [launchStep]
    split
    · exact .of_store c rfl ⟨rfl, rfl⟩ (by simp [LaunchState.rowState])
    · split
      · exact .of_store c rfl ⟨rfl, rfl⟩ (by simp [LaunchState.rowState])
      · exact .of_store c rfl ⟨rfl, rfl⟩ (by simp [LaunchState.rowState])
      · rename_i hlease
        obtain ⟨hid, hstate⟩ := LaunchCall.initialLease_ok hlease
        have hwritten : LeaseState.creating.terminal = false := rfl
        refine .wrote (a := .creating) rfl (.inl rfl) hwritten ?_ ?_ ?_ ⟨rfl, rfl⟩
        · simp [Fleet.stateOf, Leases.stateOf_upsert, hid, hstate]
        · intro k hk
          simp [Fleet.stateOf, Leases.stateOf_upsert, hid, hk]
        · simp [LaunchState.rowState]
  | waiting p podId =>
    simp only [launchStep]
    split
    · split <;> exact .of_store c rfl ⟨rfl, rfl⟩ (by simp [LaunchState.rowState])
    · exact .of_store c rfl ⟨rfl, rfl⟩ (by simp [LaunchState.rowState])
    · exact .of_store c rfl ⟨rfl, rfl⟩ (by simp [rowState_afterPodError])
  | coolingDown id reason =>
    simp only [launchStep]
    split <;> exact .of_store c rfl ⟨rfl, rfl⟩ (by simp [LaunchState.rowState])
  | markingRuntime r =>
    exact launchMove_persistStep c (a := .creating) rfl (by decide) rfl
      (by simp [LaunchState.rowState])
  | markingProbe r =>
    exact launchMove_persistStep c (a := .waitingRuntime) rfl (by decide) rfl
      (by simp [LaunchState.rowState])
  | savingReadiness r =>
    simp only [launchStep, persistStep]
    split
    · exact .of_store c rfl ⟨rfl, rfl⟩ (by simp [LaunchState.rowState])
    · exact .of_store c rfl ⟨rfl, rfl⟩ (by simp [LaunchState.rowState])
    · rename_i hupdate
      exact .quiet (Leases.stateOf_updateReadiness hupdate)
        (fun _ h => .inl (by simpa [LaunchState.rowState] using h)) ⟨rfl, rfl⟩
  | markingActive r =>
    exact launchMove_persistStep c (a := .waitingProbe) rfl (by decide) rfl
      (by simp [LaunchState.rowState])
  | returned id podId =>
    exact .of_store c rfl ⟨rfl, rfl⟩ (by simp [launchStep, LaunchState.rowState])
  | fallback id reason =>
    exact .of_store c rfl ⟨rfl, rfl⟩ (by simp [launchStep, LaunchState.rowState])
  | raised id err => exact .of_store c rfl ⟨rfl, rfl⟩ (by simp [launchStep, LaunchState.rowState])

end Launch

section Teardown

/-- The lease that a teardown has found or put in `stopping` and goes on to close. -/
def TeardownState.stopping : TeardownState → Option Lease
  | .terminating lease | .loadingProvider lease _ | .closing lease _ _ => some lease
  | _ => none

structure Quiet (s s' : Fleet) : Prop where
  store : s'.store = s.store
  closed : s'.closed = s.closed
  published : s'.published = s.published

theorem Quiet.refl (s : Fleet) : Quiet s s := ⟨rfl, rfl, rfl⟩

inductive TeardownMove (c : TeardownCall) (i : TeardownInput) (s s' : Fleet) :
    TeardownState → TeardownState → Prop
  | returned {l : TeardownState} {lease : Lease} {event : Bool} (quiet : Quiet s s') :
      TeardownMove c i s s' l (.returned lease event)
  | raised {l : TeardownState} {e : PyError} (quiet : Quiet s s') :
      TeardownMove c i s s' l (.raised e)
  | readActive {lease : Lease} (quiet : Quiet s s')
      (row : s.store.leases.get c.leaseId = some lease) (state : lease.state = .active) :
      TeardownMove c i s s' .reading (.marking lease)
  | readStopping {lease : Lease} (quiet : Quiet s s')
      (row : s.store.leases.get c.leaseId = some lease) (state : lease.state = .stopping) :
      TeardownMove c i s s' .reading (.terminating lease)
  | marked {lease updated : Lease} (fault : i.fault = none) (id : updated.id = lease.id)
      (state : updated.state = .stopping)
      (wrote : Wrote s.store.leases s'.store.leases lease.id .stopping)
      (closed : s'.closed = s.closed) (published : s'.published = s.published) :
      TeardownMove c i s s' (.marking lease) (.terminating updated)
  | advanced {l l' : TeardownState} {lease : Lease} (quiet : Quiet s s')
      (before : l.stopping = some lease) (after : l'.stopping = some lease) :
      TeardownMove c i s s' l l'
  | closed {lease updated : Lease} {cost : ℚ} {terminatedAt : Instant} (fault : i.fault = none)
      (fits : (numeric 12 6 cost).isSome = true) (id : updated.id = lease.id)
      (lawful : c.terminalState ∈ lease.state.transitions)
      (wrote : Wrote s.store.leases s'.store.leases lease.id c.terminalState)
      (closed : s'.closed = s.closed ++ [lease.id]) (published : s'.published = s.published) :
      TeardownMove c i s s' (.closing lease cost terminatedAt) (.publishing updated)
  | published {lease : Lease} (store : s'.store = s.store) (closed : s'.closed = s.closed)
      (published : s'.published = s.published ++ [lease.id]) :
      TeardownMove c i s s' (.publishing lease) (.returned lease true)

theorem TeardownMove.store {c : TeardownCall} {i : TeardownInput} {s s' : Fleet}
    {l l' : TeardownState} (h : TeardownMove c i s s' l l') :
    s'.store = s.store ∨ ∃ lease state, Wrote s.store.leases s'.store.leases lease.id state ∧
      (l = .marking lease ∨ ∃ cost terminatedAt, l = .closing lease cost terminatedAt) := by
  cases h with
  | returned quiet => exact .inl quiet.store
  | raised quiet => exact .inl quiet.store
  | readActive quiet row state => exact .inl quiet.store
  | readStopping quiet row state => exact .inl quiet.store
  | advanced quiet before after => exact .inl quiet.store
  | published store closed published => exact .inl store
  | marked fault id state wrote closed published => exact .inr ⟨_, _, wrote, .inl rfl⟩
  | closed fault fits id lawful wrote closed published =>
    exact .inr ⟨_, _, wrote, .inr ⟨_, _, rfl⟩⟩

theorem transitionLeaseState_ok {a b state : LeaseState}
    (h : transitionLeaseState a b = .ok state) : state = b ∧ b ∈ a.transitions := by
  unfold transitionLeaseState at h
  split at h
  · rename_i hmem
    cases h
    exact ⟨rfl, hmem⟩
  · contradiction

theorem teardownStep_move (text : PyText) (c : TeardownCall) (l : TeardownState) (s : Fleet)
    (i : TeardownInput) :
    TeardownMove c i s (teardownStep text c l s i).1 l (teardownStep text c l s i).2 := by
  cases l with
  | reading =>
    simp only [teardownStep]
    split
    · exact .raised (.refl s)
    · exact .raised (.refl s)
    · exact .raised (.refl s)
    · rename_i hrow
      split
      · exact .returned (.refl s)
      · split
        · rename_i hstate
          exact .readStopping (.refl s) hrow hstate
        · rename_i hstate
          exact .readActive (.refl s) hrow hstate
        · exact .raised (.refl s)
  | marking lease =>
    simp only [teardownStep]
    split
    · exact .raised (.refl s)
    · exact .raised (.refl s)
    · rename_i hupdate
      rcases updateState_wrote hupdate with ⟨-, rfl, -⟩ | ⟨_, h, -⟩
      · exact .raised ⟨rfl, rfl, rfl⟩
      · contradiction
    · rename_i hfault hupdate
      rcases updateState_wrote hupdate with ⟨h, -⟩ | ⟨_, h, hid, hstate, -, hwrote⟩
      · contradiction
      · cases h
        exact .marked hfault hid hstate hwrote rfl rfl
  | terminating lease =>
    simp only [teardownStep]
    split
    · exact .raised ⟨rfl, rfl, rfl⟩
    · exact .advanced ⟨rfl, rfl, rfl⟩ rfl rfl
  | loadingProvider lease terminatedAt =>
    simp only [teardownStep]
    split
    · exact .raised (.refl s)
    · exact .raised (.refl s)
    · exact .advanced (.refl s) rfl rfl
  | closing lease cost terminatedAt =>
    simp only [teardownStep]
    split
    · exact .raised (.refl s)
    · rename_i hstate
      obtain ⟨rfl, hlawful⟩ := transitionLeaseState_ok hstate
      split
      · exact .raised (.refl s)
      · exact .raised (.refl s)
      · rename_i hclose
        rcases closeTeardown_wrote hclose with ⟨-, rfl, -⟩ | ⟨_, h, -⟩
        · exact .raised ⟨rfl, rfl, rfl⟩
        · contradiction
      · rename_i hfault hclose
        rcases closeTeardown_wrote hclose with ⟨h, -⟩ | ⟨_, h, hid, -, hfits, hwrote⟩
        · contradiction
        · cases h
          exact .closed hfault hfits hid hlawful hwrote (by rw [hid]) rfl
  | publishing lease =>
    simp only [teardownStep]
    split
    · split
      · exact .raised (.refl s)
      · exact .published rfl rfl rfl
    · exact .returned (.refl s)
  | returned lease event => exact .returned (.refl s)
  | raised e => exact .raised (.refl s)

end Teardown

end Pitwall
