import Pitwall.Leases.Moves
import Pitwall.Leases.OnePod
set_option autoImplicit false

/-!
The lease state machine over interleaved launches and teardowns. The guard
`transition_lease_state` is asked about a state read earlier, while the `UPDATE` that
follows is keyed by id only.
-/

namespace Pitwall
open Machine

namespace LeaseState

def rank : LeaseState → Nat
  | creating => 0
  | waitingRuntime => 1
  | waitingProbe => 2
  | active => 3
  | stopping => 4
  | stopped | failed | expired => 5

theorem rank_lt_of_mem_transitions {a b : LeaseState} (h : b ∈ a.transitions) :
    a.rank < b.rank := by
  cases a <;> cases b <;> simp [transitions, rank] at h ⊢

theorem rank_le (a : LeaseState) : a.rank ≤ 5 := by
  cases a <;> simp [rank]

theorem terminal_iff_rank {a : LeaseState} : a.terminal = true ↔ a.rank = 5 := by
  cases a <;> simp [terminal, rank]

end LeaseState

theorem rank_of_rowState {l : LaunchState} {a : LeaseState} (h : l.rowState = some a) :
    a.rank < 3 := by
  cases l <;> simp [LaunchState.rowState] at h <;> subst h <;> decide

inductive LeaseProcess where
  | launch (call : LaunchCall) (state : LaunchState)
  | teardown (call : TeardownCall) (state : TeardownState)

structure LeaseInput where
  launch : LaunchInput
  teardown : TeardownInput

def leaseStep (text : PyText) (p : LeaseProcess) (s : Fleet) (i : LeaseInput) :
    Fleet × LeaseProcess :=
  match p with
  | .launch c l => ((launchStep c l s i.launch).1, .launch c (launchStep c l s i.launch).2)
  | .teardown c l =>
      ((teardownStep text c l s i.teardown).1, .teardown c (teardownStep text c l s i.teardown).2)

namespace LeaseProcess

def fresh : LeaseProcess → Bool
  | .launch _ .admitting | .teardown _ .reading => true
  | _ => false

def launchId : LeaseProcess → Option String
  | .launch c _ => some c.leaseId
  | .teardown _ _ => none

def publishes : LeaseProcess → Option String
  | .teardown _ (.publishing lease) => some lease.id
  | _ => none

/-- The lease whose state the step sets, in a teardown: neither of its two statements asks
for the state they replace. -/
def unguardedWrite (p : LeaseProcess) (i : LeaseInput) : Option String :=
  match p with
  | .teardown _ (.marking lease) => if i.teardown.fault.isNone then some lease.id else none
  | .teardown c (.closing lease cost _) =>
      if i.teardown.fault.isNone && (numeric 12 6 cost).isSome &&
          decide (c.terminalState ∈ lease.state.transitions) then some lease.id
      else none
  | _ => none

end LeaseProcess

/-- States of leases move along `LEASE_STATE_TRANSITIONS`, and into a terminal state
only when the lease is closed. -/
structure LeaseAdvance (s s' : Fleet) : Prop where
  lawful : ∀ id a, s.stateOf id = some a → ∃ a', s'.stateOf id = some a' ∧
    (a' = a ∨ a' ∈ a.transitions ∧ (a'.terminal = true → id ∈ s'.closed))
  closed : ∀ id ∈ s.closed, id ∈ s'.closed

/-- The lease has come at least as far as `n`, and was closed here if it is terminal. -/
def Fleet.Reached (s : Fleet) (n : Nat) (id : String) : Prop :=
  ∃ a, s.stateOf id = some a ∧ n ≤ a.rank ∧ (a.terminal = true → id ∈ s.closed)

theorem Fleet.Reached.advance {s s' : Fleet} {n : Nat} {id : String} (h : s.Reached n id)
    (hs : LeaseAdvance s s') : s'.Reached n id := by
  obtain ⟨a, ha, hrank, hclosed⟩ := h
  obtain ⟨a', ha', hlawful⟩ := hs.lawful id a ha
  refine ⟨a', ha', ?_, ?_⟩
  · rcases hlawful with rfl | ⟨hmem, -⟩
    · exact hrank
    · have hlt := LeaseState.rank_lt_of_mem_transitions hmem
      omega
  · intro hterminal
    rcases hlawful with rfl | ⟨-, hclosed'⟩
    · exact hs.closed id (hclosed hterminal)
    · exact hclosed' hterminal

theorem LeaseAdvance.of_states {s s' : Fleet} (h : ∀ id, s'.stateOf id = s.stateOf id)
    (hclosed : ∀ id ∈ s.closed, id ∈ s'.closed) : LeaseAdvance s s' :=
  ⟨fun id a ha => ⟨a, (h id).trans ha, .inl rfl⟩, hclosed⟩

theorem Quiet.stateOf {s s' : Fleet} (h : Quiet s s') (id : String) :
    s'.stateOf id = s.stateOf id := by
  simp [Fleet.stateOf, h.store]

theorem Quiet.advance {s s' : Fleet} (h : Quiet s s') : LeaseAdvance s s' :=
  .of_states h.stateOf (by simp [h.closed])

theorem leaseAdvance_of_write {s s' : Fleet} {id : String} {a state : LeaseState}
    (hself : s'.stateOf id = some state)
    (hothers : ∀ k, k ≠ id → s'.stateOf k = s.stateOf k)
    (hold : ∀ a', s.stateOf id = some a' → a' = a) (hlawful : state = a ∨ state ∈ a.transitions)
    (hterminal : state.terminal = true → id ∈ s'.closed)
    (hclosed : ∀ id ∈ s.closed, id ∈ s'.closed) : LeaseAdvance s s' := by
  refine ⟨fun k b hb => ?_, hclosed⟩
  by_cases hk : k = id
  · subst hk
    obtain rfl := hold b hb
    exact ⟨state, hself, hlawful.imp_right (fun h => ⟨h, hterminal⟩)⟩
  · exact ⟨b, (hothers k hk).trans hb, .inl rfl⟩

def TeardownState.Relies (s : Fleet) : TeardownState → Prop
  | .marking lease => s.Reached 3 lease.id
  | .terminating lease | .loadingProvider lease _ | .closing lease _ _ =>
      lease.state = .stopping ∧ s.Reached 4 lease.id
  | .publishing lease => lease.id ∈ s.closed ∧ lease.id ∉ s.published
  | _ => True

def LeaseProcess.Relies (s : Fleet) : LeaseProcess → Prop
  | .launch c l => ∀ a, l.rowState = some a → ∀ a', s.stateOf c.leaseId = some a' → a' = a
  | .teardown _ l => l.Relies s

theorem relies_of_stopping {s : Fleet} {l : TeardownState} {lease : Lease}
    (h : l.stopping = some lease) :
    l.Relies s ↔ lease.state = .stopping ∧ s.Reached 4 lease.id := by
  cases l <;> simp [TeardownState.stopping] at h <;> subst h <;> exact Iff.rfl

theorem TeardownState.Relies.advance {s s' : Fleet} {l : TeardownState} (h : l.Relies s)
    (hs : LeaseAdvance s s')
    (hpublished : ∀ lease, l = .publishing lease → lease.id ∉ s'.published) :
    l.Relies s' := by
  cases l with
  | marking lease => exact Fleet.Reached.advance h hs
  | terminating lease => exact ⟨h.1, h.2.advance hs⟩
  | loadingProvider lease terminatedAt => exact ⟨h.1, h.2.advance hs⟩
  | closing lease cost terminatedAt => exact ⟨h.1, h.2.advance hs⟩
  | publishing lease => exact ⟨hs.closed _ h.1, hpublished lease rfl⟩
  | reading => trivial
  | returned lease event => trivial
  | raised e => trivial

section Moves
variable {c : TeardownCall} {i : LeaseInput} {s s' : Fleet} {l l' : TeardownState}

def Fleet.Open (s : Fleet) (w : Option String) : Prop :=
  ∀ id, w = some id → ∀ a, s.stateOf id = some a → a.terminal = false

theorem TeardownMove.advance (h : TeardownMove c i.teardown s s' l l') (hrelies : l.Relies s)
    (hopen : s.Open ((LeaseProcess.teardown c l).unguardedWrite i)) : LeaseAdvance s s' := by
  cases h with
  | returned quiet => exact quiet.advance
  | raised quiet => exact quiet.advance
  | readActive quiet row state => exact quiet.advance
  | readStopping quiet row state => exact quiet.advance
  | advanced quiet before after => exact quiet.advance
  | published store closed published =>
    exact .of_states (by simp [Fleet.stateOf, store]) (by simp [closed])
  | marked fault id state wrote closed published =>
    rename_i lease updated
    obtain ⟨a, ha, hrank, -⟩ := hrelies
    have halive := hopen lease.id (by simp [LeaseProcess.unguardedWrite, fault]) a ha
    refine leaseAdvance_of_write (a := a) wrote.self wrote.stateOf_others (fun a' ha' => ?_) ?_
      (by simp [LeaseState.terminal]) (by simp [closed])
    · exact Option.some.inj (ha'.symm.trans ha)
    · cases a <;> simp [LeaseState.rank, LeaseState.terminal, LeaseState.transitions] at *
  | closed fault fits id lawful wrote closed published =>
    rename_i lease updated cost terminatedAt
    obtain ⟨hstate, a, ha, hrank, -⟩ := hrelies
    have halive := hopen lease.id (by simp [LeaseProcess.unguardedWrite, fault, fits, lawful]) a ha
    have hstopping : a = .stopping := by
      cases a <;> simp [LeaseState.rank, LeaseState.terminal] at hrank halive ⊢
    subst hstopping
    refine leaseAdvance_of_write (a := .stopping) wrote.self wrote.stateOf_others
      (fun a' ha' => ?_) ?_ (by simp [closed]) ?_
    · exact Option.some.inj (ha'.symm.trans ha)
    · exact .inr (hstate ▸ lawful)
    · intro k hk
      simp [closed, hk]

theorem TeardownMove.stateOf_young (h : TeardownMove c i.teardown s s' l l') (hrelies : l.Relies s)
    {k : String} (hk : ∀ a, s.stateOf k = some a → a.rank < 3) :
    s'.stateOf k = s.stateOf k := by
  have hne : ∀ n id, 3 ≤ n → s.Reached n id → k ≠ id := by
    rintro n id hn ⟨a, ha, hrank, -⟩ rfl
    have hlt := hk a ha
    omega
  rcases h.store with hstore | ⟨lease, state, hwrote, rfl | ⟨cost, terminatedAt, rfl⟩⟩
  · simp [Fleet.stateOf, hstore]
  · exact hwrote.stateOf_others k (hne 3 lease.id (by omega) hrelies)
  · exact hwrote.stateOf_others k (hne 4 lease.id (by omega) hrelies.2)

theorem TeardownMove.relies (h : TeardownMove c i.teardown s s' l l') (hrelies : l.Relies s)
    (hopen : s.Open ((LeaseProcess.teardown c l).unguardedWrite i))
    (hterminal : ∀ id ∈ s.closed, ∃ a, s.stateOf id = some a ∧ a.terminal = true)
    (hannounced : ∀ id ∈ s.published, id ∈ s.closed) : l'.Relies s' := by
  have hs : LeaseAdvance s s' := h.advance hrelies hopen
  have hread : ∀ lease : Lease, s.store.leases.get c.leaseId = some lease →
      s.stateOf lease.id = some lease.state := by
    intro lease row
    simp [Fleet.stateOf, Leases.stateOf, Keyed.key_of_get row, row]
  cases h with
  | returned quiet => trivial
  | raised quiet => trivial
  | published store closed published => trivial
  | readActive quiet row state =>
    rename_i lease
    have hreached : s.Reached 3 lease.id :=
      ⟨.active, by rw [hread lease row, state], by decide, by simp [LeaseState.terminal]⟩
    exact hreached.advance hs
  | readStopping quiet row state =>
    rename_i lease
    have hreached : s.Reached 4 lease.id :=
      ⟨.stopping, by rw [hread lease row, state], by decide, by simp [LeaseState.terminal]⟩
    exact ⟨state, hreached.advance hs⟩
  | advanced quiet before after =>
    obtain ⟨hstate, hreached⟩ := (relies_of_stopping before).mp hrelies
    exact (relies_of_stopping after).mpr ⟨hstate, hreached.advance hs⟩
  | marked fault id state wrote closed published =>
    refine ⟨state, .stopping, ?_, by decide, by simp [LeaseState.terminal]⟩
    rw [id]
    exact wrote.self
  | closed fault fits id lawful wrote closed published =>
    rename_i lease updated cost terminatedAt
    refine ⟨by simp [closed, id], ?_⟩
    rw [id, published]
    intro hmem
    obtain ⟨a, ha, ha'⟩ := hterminal lease.id (hannounced lease.id hmem)
    have halive := hopen lease.id (by simp [LeaseProcess.unguardedWrite, fault, fits, lawful]) a ha
    simp [ha'] at halive

inductive LogMove (p : LeaseProcess) (i : LeaseInput) (s s' : Fleet) (p' : LeaseProcess) : Prop
  | same (closed : s'.closed = s.closed) (published : s'.published = s.published)
      (silent : p'.publishes = none)
  | closed {id : String} {a : LeaseState} (write : p.unguardedWrite i = some id)
      (present : (s.stateOf id).isSome = true) (state : s'.stateOf id = some a)
      (terminal : a.terminal = true) (closed : s'.closed = s.closed ++ [id])
      (published : s'.published = s.published) (publishes : p'.publishes = some id)
  | published {id : String} (publishes : p.publishes = some id) (closed : s'.closed = s.closed)
      (published : s'.published = s.published ++ [id]) (silent : p'.publishes = none)

theorem TeardownMove.log (h : TeardownMove c i.teardown s s' l l') (hrelies : l.Relies s) :
    LogMove (.teardown c l) i s s' (.teardown c l') := by
  cases h with
  | returned quiet => exact .same quiet.closed quiet.published rfl
  | raised quiet => exact .same quiet.closed quiet.published rfl
  | readActive quiet row state => exact .same quiet.closed quiet.published rfl
  | readStopping quiet row state => exact .same quiet.closed quiet.published rfl
  | marked fault id state wrote closed published => exact .same closed published rfl
  | advanced quiet before after =>
    refine .same quiet.closed quiet.published ?_
    cases l' <;> simp [TeardownState.stopping, LeaseProcess.publishes] at after ⊢
  | closed fault fits id lawful wrote closed published =>
    refine .closed (by simp [LeaseProcess.unguardedWrite, fault, fits, lawful]) wrote.present
      wrote.self ?_ closed published (by simp [LeaseProcess.publishes, id])
    rw [hrelies.1] at lawful
    have hlt : 4 < c.terminalState.rank := LeaseState.rank_lt_of_mem_transitions lawful
    have hle := LeaseState.rank_le c.terminalState
    exact LeaseState.terminal_iff_rank.mpr (by omega)
  | published store closed published => exact .published rfl closed published rfl

end Moves

section Runs
variable {ι : Type} (text : PyText)

def leasesStep [DecidableEq ι] (c : Config Fleet ι LeaseProcess) (e : ι × LeaseInput) :
    Config Fleet ι LeaseProcess :=
  c.next (fun _ => leaseStep text) e

/-- The step does not write over a lease that has become terminal meanwhile. -/
def OnTime (c : Config Fleet ι LeaseProcess) (e : ι × LeaseInput) : Prop :=
  c.shared.Open ((c.procs e.1).unguardedWrite e.2)

structure LeaseInvariant (c : Config Fleet ι LeaseProcess) : Prop where
  distinct : ∀ i j id, (c.procs i).launchId = some id → (c.procs j).launchId = some id → i = j
  relies : ∀ i, (c.procs i).Relies c.shared
  terminal : ∀ id ∈ c.shared.closed, ∃ a, c.shared.stateOf id = some a ∧ a.terminal = true
  closed : c.shared.closed.Nodup
  announced : ∀ id ∈ c.shared.published, id ∈ c.shared.closed
  published : c.shared.published.Nodup
  publishers : ∀ i j id, (c.procs i).publishes = some id → (c.procs j).publishes = some id →
    i = j

variable {text} {c : Config Fleet ι LeaseProcess} {e : ι × LeaseInput}

theorem LeaseInvariant.open_notMem (h : LeaseInvariant c) (he : OnTime c e) {id : String}
    (hwrite : (c.procs e.1).unguardedWrite e.2 = some id) : id ∉ c.shared.closed := by
  intro hmem
  obtain ⟨a, ha, hterminal⟩ := h.terminal id hmem
  have halive := he id hwrite a ha
  simp [hterminal] at halive

theorem LeaseInvariant.publisher (h : LeaseInvariant c) {j : ι} {id : String}
    (hj : (c.procs j).publishes = some id) :
    id ∈ c.shared.closed ∧ id ∉ c.shared.published := by
  have hrelies := h.relies j
  cases hp : c.procs j with
  | launch call l => simp [hp, LeaseProcess.publishes] at hj
  | teardown call l =>
    rw [hp] at hrelies hj
    cases l with
    | publishing lease =>
      cases hj
      exact hrelies
    | _ => simp [LeaseProcess.publishes] at hj

theorem leaseInvariant_start {s : Fleet} {procs : ι → LeaseProcess}
    (hfresh : ∀ i, (procs i).fresh = true)
    (hids : ∀ i j id, (procs i).launchId = some id → (procs j).launchId = some id → i = j)
    (hnew : ∀ i id, (procs i).launchId = some id → s.stateOf id = none)
    (hclosed : s.closed = []) (hpublished : s.published = []) :
    LeaseInvariant (⟨s, procs⟩ : Config Fleet ι LeaseProcess) := by
  refine ⟨hids, ?_, by simp [hclosed], by simp [hclosed], by simp [hpublished],
    by simp [hpublished], ?_⟩
  · intro i
    have hi := hfresh i
    show (procs i).Relies s
    cases hp : procs i with
    | launch call l =>
      intro a _ a' ha'
      rw [hnew i call.leaseId (by rw [hp]; rfl)] at ha'
      contradiction
    | teardown call l =>
      rw [hp] at hi
      cases l <;> simp [LeaseProcess.fresh] at hi
      trivial
  · intro i j id hi
    have hfi := hfresh i
    cases hp : procs i with
    | launch call l => simp [hp, LeaseProcess.publishes] at hi
    | teardown call l =>
      cases l <;> simp [hp, LeaseProcess.publishes, LeaseProcess.fresh] at hi hfi

variable [DecidableEq ι]

theorem leaseAdvance_step (h : LeaseInvariant c) (he : OnTime c e) :
    LeaseAdvance c.shared (leasesStep text c e).shared := by
  have hrelies := h.relies e.1
  unfold OnTime at he
  simp only [leasesStep, Config.next_shared]
  cases hp : c.procs e.1 with
  | launch call l =>
    rw [hp] at hrelies
    simp only [leaseStep]
    cases launchStep_move call (s := c.shared) l e.2.launch with
    | quiet same row events => exact .of_states same (by simp [events.1])
    | wrote row lawful alive self others row' events =>
      exact leaseAdvance_of_write self others (hrelies _ row) lawful (by simp [alive])
        (by simp [events.1])
  | teardown call l =>
    rw [hp] at hrelies he
    exact (teardownStep_move text call l c.shared e.2.teardown).advance hrelies he

theorem log_step (text : PyText) (e : ι × LeaseInput) (h : LeaseInvariant c) :
    LogMove (c.procs e.1) e.2 c.shared (leasesStep text c e).shared
      ((leasesStep text c e).procs e.1) := by
  have hrelies := h.relies e.1
  simp only [leasesStep, Config.next_shared, Config.next_procs_self]
  cases hp : c.procs e.1 with
  | launch call l =>
    obtain ⟨hclosed, hpublished⟩ := (launchStep_move call (s := c.shared) l e.2.launch).events
    exact .same hclosed hpublished rfl
  | teardown call l =>
    rw [hp] at hrelies
    exact (teardownStep_move text call l c.shared e.2.teardown).log hrelies

theorem relies_step_self (h : LeaseInvariant c) (he : OnTime c e) :
    ((leasesStep text c e).procs e.1).Relies (leasesStep text c e).shared := by
  have hrelies := h.relies e.1
  unfold OnTime at he
  simp only [leasesStep, Config.next_shared, Config.next_procs_self]
  cases hp : c.procs e.1 with
  | launch call l =>
    rw [hp] at hrelies
    simp only [leaseStep]
    cases launchStep_move call (s := c.shared) l e.2.launch with
    | quiet same row events =>
      intro a ha a' ha'
      rw [same] at ha'
      rcases row a ha with hrow | hnone
      · exact hrelies a hrow a' ha'
      · simp [hnone] at ha'
    | wrote row lawful alive self others row' events =>
      intro a ha a' ha'
      rw [self] at ha'
      cases ha'
      exact (row' a ha).symm
  | teardown call l =>
    rw [hp] at hrelies he
    exact (teardownStep_move text call l c.shared e.2.teardown).relies hrelies he h.terminal
      h.announced

theorem stateOf_step_of_launch (h : LeaseInvariant c) {j : ι} (hj : j ≠ e.1) {call : LaunchCall}
    {l : LaunchState} (hp : c.procs j = .launch call l) {a : LeaseState}
    (ha : l.rowState = some a) :
    (leasesStep text c e).shared.stateOf call.leaseId = c.shared.stateOf call.leaseId := by
  have hrelies := h.relies e.1
  have hown := h.relies j
  rw [hp] at hown
  simp only [leasesStep, Config.next_shared]
  cases hq : c.procs e.1 with
  | launch call' l' =>
    have hne : call.leaseId ≠ call'.leaseId := by
      intro hid
      exact hj (h.distinct j e.1 call.leaseId (by rw [hp]; rfl) (by rw [hq, hid]; rfl))
    simp only [leaseStep]
    cases launchStep_move call' (s := c.shared) l' e.2.launch with
    | quiet same row events => exact same _
    | wrote row lawful alive self others row' events => exact others _ hne
  | teardown call' l' =>
    rw [hq] at hrelies
    refine (teardownStep_move text call' l' c.shared e.2.teardown).stateOf_young hrelies ?_
    intro a' ha'
    rw [hown a ha a' ha']
    exact rank_of_rowState ha

theorem relies_step_other (h : LeaseInvariant c) (he : OnTime c e) {j : ι} (hj : j ≠ e.1) :
    (c.procs j).Relies (leasesStep text c e).shared := by
  have hown := h.relies j
  cases hp : c.procs j with
  | launch call l =>
    rw [hp] at hown
    intro a ha a' ha'
    rw [stateOf_step_of_launch h hj hp ha] at ha'
    exact hown a ha a' ha'
  | teardown call l =>
    rw [hp] at hown
    refine TeardownState.Relies.advance hown (leaseAdvance_step h he) ?_
    rintro lease rfl
    have hsilent : lease.id ∉ c.shared.published := hown.2
    cases log_step text e h with
    | same closed published silent => rwa [published]
    | closed write present state terminal closed published publishes => rwa [published]
    | published publishes closed published silent =>
      rename_i id
      rw [published]
      intro hmem
      rcases List.mem_append.mp hmem with hmem | hmem
      · exact hsilent hmem
      · rw [List.mem_singleton.mp hmem] at hsilent
        refine hj (h.publishers j e.1 id ?_ publishes)
        rw [hp, ← List.mem_singleton.mp hmem]
        rfl

theorem launchId_leaseStep (p : LeaseProcess) (s : Fleet) (i : LeaseInput) :
    (leaseStep text p s i).2.launchId = p.launchId := by
  cases p <;> rfl

theorem launchId_step (j : ι) :
    ((leasesStep text c e).procs j).launchId = (c.procs j).launchId := by
  by_cases hj : j = e.1
  · rw [hj, leasesStep, Config.next_procs_self, launchId_leaseStep]
  · rw [leasesStep, Config.next_procs_of_ne _ c hj]

theorem LeaseAdvance.terminal {s s' : Fleet} (h : LeaseAdvance s s') {id : String} {a : LeaseState}
    (ha : s.stateOf id = some a) (hterminal : a.terminal = true) : s'.stateOf id = some a := by
  obtain ⟨a', ha', hlawful⟩ := h.lawful id a ha
  rcases hlawful with rfl | ⟨hmem, -⟩
  · exact ha'
  · simp [LeaseState.transitions_of_terminal hterminal] at hmem

theorem publishes_step_other {j : ι} (hj : j ≠ e.1) :
    ((leasesStep text c e).procs j).publishes = (c.procs j).publishes := by
  rw [leasesStep, Config.next_procs_of_ne _ c hj]

theorem LeaseInvariant.distinct_step (h : LeaseInvariant c) {i j : ι} {id : String}
    (hi : ((leasesStep text c e).procs i).launchId = some id)
    (hj : ((leasesStep text c e).procs j).launchId = some id) : i = j := by
  rw [launchId_step] at hi hj
  exact h.distinct i j id hi hj

theorem LeaseInvariant.relies_step (h : LeaseInvariant c) (he : OnTime c e) (j : ι) :
    ((leasesStep text c e).procs j).Relies (leasesStep text c e).shared := by
  by_cases hj : j = e.1
  · rw [hj]
    exact relies_step_self h he
  · have hkept : (leasesStep text c e).procs j = c.procs j := Config.next_procs_of_ne _ c hj
    rw [hkept]
    exact relies_step_other h he hj

theorem LeaseInvariant.terminal_step (h : LeaseInvariant c) (he : OnTime c e) {id : String}
    (hid : id ∈ c.shared.closed) :
    ∃ a, (leasesStep text c e).shared.stateOf id = some a ∧ a.terminal = true := by
  obtain ⟨a, ha, hterminal⟩ := h.terminal id hid
  exact ⟨a, (leaseAdvance_step h he).terminal ha hterminal, hterminal⟩

theorem LeaseInvariant.publishers_of_silent (h : LeaseInvariant c)
    (hsilent : ((leasesStep text c e).procs e.1).publishes = none) {i j : ι} {id : String}
    (hi : ((leasesStep text c e).procs i).publishes = some id)
    (hj : ((leasesStep text c e).procs j).publishes = some id) : i = j := by
  have hne : ∀ k, ((leasesStep text c e).procs k).publishes = some id → k ≠ e.1 := by
    rintro k hk rfl
    rw [hsilent] at hk
    cases hk
  have hi' : (c.procs i).publishes = some id := by rwa [publishes_step_other (hne i hi)] at hi
  have hj' : (c.procs j).publishes = some id := by rwa [publishes_step_other (hne j hj)] at hj
  exact h.publishers i j id hi' hj'

theorem LeaseInvariant.publishers_of_closing (h : LeaseInvariant c) {id : String}
    (hopen : id ∉ c.shared.closed)
    (hcloser : ((leasesStep text c e).procs e.1).publishes = some id) {i j : ι} {k : String}
    (hi : ((leasesStep text c e).procs i).publishes = some k)
    (hj : ((leasesStep text c e).procs j).publishes = some k) : i = j := by
  have hnobody : ∀ j, j ≠ e.1 → ((leasesStep text c e).procs j).publishes ≠ some id := by
    intro j hj hid
    rw [publishes_step_other hj] at hid
    exact hopen (h.publisher hid).1
  by_cases hk : k = id
  · subst hk
    have hself : ∀ j, ((leasesStep text c e).procs j).publishes = some k → j = e.1 :=
      fun j hj => by_contra fun hne => hnobody j hne hj
    rw [hself i hi, hself j hj]
  · have hother : ∀ j, ((leasesStep text c e).procs j).publishes = some k →
        (c.procs j).publishes = some k := by
      intro j hj
      by_cases hje : j = e.1
      · rw [hje, hcloser, Option.some.injEq] at hj
        exact absurd hj.symm hk
      · rwa [publishes_step_other hje] at hj
    exact h.publishers i j k (hother i hi) (hother j hj)

theorem leaseInvariant_step (h : LeaseInvariant c) (he : OnTime c e) :
    LeaseInvariant (leasesStep text c e) := by
  cases log_step text e h with
  | same closed published silent =>
    refine ⟨fun _ _ _ => h.distinct_step, h.relies_step he, ?_, ?_, ?_, ?_,
      fun _ _ _ => h.publishers_of_silent silent⟩
    · rw [closed]
      exact fun _ => h.terminal_step he
    · rw [closed]
      exact h.closed
    · rw [closed, published]
      exact h.announced
    · rw [published]
      exact h.published
  | closed write present state terminal closed published publishes =>
    rename_i id a
    have hopen : id ∉ c.shared.closed := h.open_notMem he write
    refine ⟨fun _ _ _ => h.distinct_step, h.relies_step he, ?_, ?_, ?_, ?_,
      fun _ _ _ => h.publishers_of_closing hopen publishes⟩
    · rw [closed]
      intro k hk
      rcases List.mem_append.mp hk with hk | hk
      · exact h.terminal_step he hk
      · rw [List.mem_singleton.mp hk]
        exact ⟨a, state, terminal⟩
    · rw [closed]
      simpa using List.Nodup.concat hopen h.closed
    · rw [closed, published]
      intro k hk
      exact List.mem_append_left _ (h.announced k hk)
    · rw [published]
      exact h.published
  | published publishes closed published silent =>
    rename_i id
    refine ⟨fun _ _ _ => h.distinct_step, h.relies_step he, ?_, ?_, ?_, ?_,
      fun _ _ _ => h.publishers_of_silent silent⟩
    · rw [closed]
      exact fun _ => h.terminal_step he
    · rw [closed]
      exact h.closed
    · rw [closed, published]
      intro k hk
      rcases List.mem_append.mp hk with hk | hk
      · exact h.announced k hk
      · rw [List.mem_singleton.mp hk]
        exact (h.publisher publishes).1
    · rw [published]
      simpa using List.Nodup.concat (h.publisher publishes).2 h.published

def Fleet.Lawful (s s' : Fleet) : Prop :=
  ∀ id a a', s.stateOf id = some a → s'.stateOf id = some a' → a' = a ∨ a' ∈ a.transitions

def Fleet.KeepsTerminal (s s' : Fleet) : Prop :=
  ∀ id a, s.stateOf id = some a → a.terminal = true → s'.stateOf id = some a

theorem LeaseAdvance.toLawful {s s' : Fleet} (h : LeaseAdvance s s') : s.Lawful s' := by
  intro id a a' ha ha'
  obtain ⟨b, hb, hlawful⟩ := h.lawful id a ha
  cases hb.symm.trans ha'
  exact hlawful.imp_right And.left

theorem onTime_of_lawful (h : LeaseInvariant c)
    (hlawful : c.shared.Lawful (leasesStep text c e).shared)
    (hclosed : (leasesStep text c e).shared.closed.Nodup) : OnTime c e := by
  intro id hwrite a ha
  have hrelies := h.relies e.1
  simp only [leasesStep, Config.next_shared] at hlawful hclosed
  cases hp : c.procs e.1 with
  | launch call l => simp [hp, LeaseProcess.unguardedWrite] at hwrite
  | teardown call l =>
    rw [hp] at hrelies hwrite hlawful hclosed
    simp only [leaseStep] at hlawful hclosed
    cases l with
    | marking lease =>
      simp only [LeaseProcess.unguardedWrite, Option.ite_none_right_eq_some,
        Option.isNone_iff_eq_none, Option.some.injEq] at hwrite
      obtain ⟨hfault, rfl⟩ := hwrite
      have hinactive : LeaseState.stopping ≠ .active := by decide
      obtain ⟨l', t', hupdate, hself⟩ := updateState_present ha hinactive
      have hstep : (teardownStep text call (.marking lease) c.shared e.2.teardown).1 =
          c.shared.withLeases t' := by
        simp [teardownStep, hfault, hupdate]
      rw [hstep] at hlawful
      have harrow := hlawful lease.id a .stopping ha hself
      cases a <;> simp [LeaseState.transitions] at harrow <;> rfl
    | closing lease cost terminatedAt =>
      simp only [LeaseProcess.unguardedWrite, Option.ite_none_right_eq_some, Bool.and_eq_true,
        Option.isNone_iff_eq_none, Option.some.injEq, decide_eq_true_eq] at hwrite
      obtain ⟨⟨⟨hfault, hfits⟩, harrow⟩, rfl⟩ := hwrite
      cases hterminal : a.terminal with
      | false => rfl
      | true =>
        exfalso
        obtain ⟨hstate, a', ha', -, hmem⟩ := hrelies
        cases ha'.symm.trans ha
        have htransition : transitionLeaseState lease.state call.terminalState =
            .ok call.terminalState := by simp [transitionLeaseState, harrow]
        have hinactive : call.terminalState ≠ .active := by
          rintro hactive
          simp [hstate, hactive, LeaseState.transitions] at harrow
        obtain ⟨l', t', hclose, hid⟩ := closeTeardown_present ha hinactive hfits
          terminatedAt (normalizeReason text call.reason call.terminalState)
        have hstep : (teardownStep text call (.closing lease cost terminatedAt) c.shared
            e.2.teardown).1.closed = c.shared.closed ++ [lease.id] := by
          simp [teardownStep, htransition, hfault, hclose, hid]
        rw [hstep, List.nodup_append] at hclosed
        exact hclosed.2.2 _ (hmem hterminal) _ (by simp) rfl
    | _ => simp [LeaseProcess.unguardedWrite] at hwrite

/-- Launches and teardowns in any order keep to the transitions, never leave a terminal
state, and close and announce each lease at most once, in exactly the runs in which no
teardown writes over a lease that another one has closed since it was read. -/
theorem lease_state_machine_iff (text : PyText) (s : Fleet) (procs : ι → LeaseProcess)
    (hfresh : ∀ i, (procs i).fresh = true)
    (hids : ∀ i j id, (procs i).launchId = some id → (procs j).launchId = some id → i = j)
    (hnew : ∀ i id, (procs i).launchId = some id → s.stateOf id = none)
    (hclosed : s.closed = []) (hpublished : s.published = [])
    (events : List (ι × LeaseInput)) :
    (Along (leasesStep text) (fun c e => c.shared.Lawful (leasesStep text c e).shared) ⟨s, procs⟩
        events ∧
      (∀ es fs, es ++ fs <+: events →
        (run (leasesStep text) ⟨s, procs⟩ es).shared.KeepsTerminal
          (run (leasesStep text) ⟨s, procs⟩ (es ++ fs)).shared) ∧
      ∀ es, es <+: events → (run (leasesStep text) ⟨s, procs⟩ es).shared.closed.Nodup ∧
        (run (leasesStep text) ⟨s, procs⟩ es).shared.published.Nodup) ↔
      Along (leasesStep text) OnTime ⟨s, procs⟩ events := by
  have hstart := leaseInvariant_start hfresh hids hnew hclosed hpublished
  constructor
  · rintro ⟨hlawful, -, hnodup⟩
    have honce : Along (leasesStep text) (fun c e => (leasesStep text c e).shared.closed.Nodup)
        ⟨s, procs⟩ events :=
      along_of_forall_prefix (P := fun c : Config Fleet ι LeaseProcess => c.shared.closed.Nodup)
        (fun es hes => (hnodup es hes).1)
    refine along_of_invariant (fun c e h hstep => ?_) hstart (hlawful.and honce)
    have he : OnTime c e := onTime_of_lawful h hstep.1 hstep.2
    exact ⟨leaseInvariant_step h he, he⟩
  · intro hrun
    refine ⟨?_, ?_, ?_⟩
    · exact along_of_invariant
        (fun c e h he => ⟨leaseInvariant_step h he, (leaseAdvance_step h he).toLawful⟩) hstart hrun
    · refine (along_iff_forall_run
        (R := fun a b : Config Fleet ι LeaseProcess => a.shared.KeepsTerminal b.shared)
        (fun _ _ _ ha _ => ha)
        (fun hab hbc id a ha hterminal => hbc id a (hab id a ha hterminal) hterminal)).mp ?_
      exact along_of_invariant (fun c e h he => ⟨leaseInvariant_step h he,
        fun _ _ ha hterminal => (leaseAdvance_step h he).terminal ha hterminal⟩) hstart hrun
    · intro es hes
      have hend := run_invariant (fun _ _ h he => leaseInvariant_step h he) hstart
        (hrun.of_prefix hes)
      exact ⟨hend.closed, hend.published⟩

end Runs

def trimmedText : PyText where
  str := fun _ => ""
  repr := fun _ => ""
  strip := fun text => text
  upper := fun text => text
  parseFloat := fun _ => none
  parseDecimal := fun _ => .unparsable
  fixed2 := fun _ => .ok ""
  floatRepr := fun _ => ""

/-- A launch of `lease_1`, an operator's stop and the expiry job's teardown. -/
def launchAndTwoStops : Fin 3 → LeaseProcess
  | 0 => .launch (oneDollarLaunch none "lease_1") .admitting
  | 1 => .teardown ⟨"lease_1", .stopped, none, none, true⟩ .reading
  | 2 => .teardown ⟨"lease_1", .expired, some "lease_expired", some 60, true⟩ .reading

def smoothLease : LeaseInput :=
  ⟨smoothInput "wkl_1" "pod_1", ⟨60, none, none, none, none⟩⟩

/-- The launch up to `active`, then one teardown after the other. -/
def oneStopAtATime : List (Fin 3 × LeaseInput) :=
  List.replicate 9 (0, smoothLease) ++ List.replicate 6 (1, smoothLease) ++ [(2, smoothLease)]

def twoStopsAtOnce : List (Fin 3 × LeaseInput) :=
  List.replicate 9 (0, smoothLease) ++ [(1, smoothLease), (2, smoothLease)] ++
    List.replicate 5 (1, smoothLease) ++ List.replicate 5 (2, smoothLease)

theorem lease_state_machine_one_stop :
    (run (leasesStep trimmedText) ⟨emptyFleet, launchAndTwoStops⟩ oneStopAtATime).shared.closed =
      ["lease_1"] ∧
    (run (leasesStep trimmedText) ⟨emptyFleet, launchAndTwoStops⟩
      oneStopAtATime).shared.published.Nodup := by
  refine ⟨by decide +kernel, ?_⟩
  have hall := lease_state_machine_iff trimmedText emptyFleet launchAndTwoStops (by decide)
    (by decide) (by decide) rfl rfl oneStopAtATime
  refine ((hall.mpr ?_).2.2 oneStopAtATime (List.prefix_refl _)).2
  unfold OnTime Fleet.Open
  decide +kernel

theorem lease_closed_twice :
    ¬ ∀ (text : PyText) (procs : Fin 3 → LeaseProcess), (∀ i, (procs i).fresh = true) →
      (∀ i j id, (procs i).launchId = some id → (procs j).launchId = some id → i = j) →
      ∀ events : List (Fin 3 × LeaseInput),
      Along (leasesStep text) (fun c e => c.shared.Lawful (leasesStep text c e).shared)
        ⟨emptyFleet, procs⟩ events ∧
      (run (leasesStep text) ⟨emptyFleet, procs⟩ events).shared.closed.Nodup := by
  intro h
  have honce := (h trimmedText launchAndTwoStops (by decide) (by decide) twoStopsAtOnce).2
  revert honce
  decide +kernel

end Pitwall
