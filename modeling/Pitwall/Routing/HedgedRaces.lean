import Mathlib.Tactic.Linarith
import Pitwall.Routing.Hedging
set_option autoImplicit false

/-!
Hedged races in every order of ends, callbacks, timers and cancellations.
-/

namespace Pitwall.Routing
open Machine

namespace HedgedRace
variable {V : Type}

def Succeeded (s : HedgedRace V) (i : Nat) (value : V) : Prop :=
  s.outcomeOf i = some (.value value)

def Failed (s : HedgedRace V) (i : Nat) : Prop :=
  ∃ outcome, s.outcomeOf i = some outcome ∧ ∀ value, outcome ≠ .value value

def AllFailed (s : HedgedRace V) : Prop := ∀ i < s.attempts.length, s.Failed i

def NoSuccess (s : HedgedRace V) : Prop := ∀ i value, ¬ s.Succeeded i value

def running (s : HedgedRace V) : List Nat :=
  (List.range s.attempts.length).filter fun i => !s.isDone i

structure Base (p : SelectedProviders) (s : HedgedRace V) : Prop where
  called : ∃ k, k ≤ p.ids.length ∧ s.called = List.range k
  length : s.attempts.length = s.nextIndex
  ids : s.attemptedProviderIds = p.ids.take s.nextIndex
  next_le : s.nextIndex ≤ p.ids.length
  nodup : s.active.Nodup
  active_lt : ∀ i ∈ s.active, i < s.nextIndex
  active_le : s.active.length ≤ p.maxConcurrency
  running : ∀ i < s.nextIndex, s.isDone i = false → i ∈ s.active
  completed : ∀ i ∈ s.completed, s.isDone i = true
  hedge : s.hedgeOpen = true → s.startedAt + p.delay ≤ s.now

structure Live (p : SelectedProviders) (s : HedgedRace V) : Prop extends Base p s where
  called_eq : s.called = List.range s.nextIndex
  settled : ∀ i < s.nextIndex, i ∉ s.active → s.Failed i

def PhaseOk (p : SelectedProviders) (s : HedgedRace V) : Prop :=
  match s.phase with
  | .created => Live p s ∧ s.active = [] ∧ s.nextIndex = 0 ∧ s.hedgeOpen = false
  | .waiting timer fired => Live p s ∧ s.active ≠ [] ∧
      (∀ t, timer = some t → s.startedAt + p.delay ≤ t ∧ (fired = true → t ≤ s.now)) ∧
      (timer = none → fired = false)
  | .closing i value => Base p s ∧ s.Succeeded i value
  | .aborting | .exited _ => Base p s

def ExitOk (s : HedgedRace V) (exit : RaceExit V) : Prop :=
  (∀ i < s.attempts.length, s.isDone i = true) ∧
  match exit with
  | .returned r => s.Succeeded r.index r.value
  | _ => s.NoSuccess

def Clean (s : HedgedRace V) : Prop :=
  match s.phase with
  | .aborting => s.NoSuccess
  | .exited exit => s.ExitOk exit
  | _ => True

section Lemmas
variable {p : SelectedProviders} {s : HedgedRace V}

theorem outcomeOf_eq_none_of_le {i : Nat} (h : s.attempts.length ≤ i) : s.outcomeOf i = none := by
  unfold outcomeOf attempt
  rw [List.getElem?_eq_none h]
  rfl

theorem isDone_of_failed {i : Nat} (h : s.Failed i) : s.isDone i = true := by
  obtain ⟨outcome, houtcome, -⟩ := h
  simp [isDone, houtcome]

theorem noSuccess_of_allFailed (h : s.AllFailed) : s.NoSuccess := by
  intro i value hsuccess
  by_cases hi : i < s.attempts.length
  · obtain ⟨outcome, houtcome, hne⟩ := h i hi
    exact hne value (Option.some.inj (houtcome.symm.trans hsuccess))
  · rw [Succeeded, outcomeOf_eq_none_of_le (by omega)] at hsuccess
    cases hsuccess

theorem Live.allFailed (h : Live p s) (hactive : s.active = []) : s.AllFailed := by
  intro i hi
  rw [h.length] at hi
  exact h.settled i hi (by simp [hactive])

theorem Base.all_done (h : Base p s) (hactive : ∀ i ∈ s.active, s.isDone i = true) :
    ∀ i < s.attempts.length, s.isDone i = true := by
  intro i hi
  rw [h.length] at hi
  by_contra hrunning
  exact hrunning (hactive i (h.running i hi (by simpa using hrunning)))

theorem Base.running_le (h : Base p s) : s.running.length ≤ p.maxConcurrency := by
  refine le_trans (List.Subperm.length_le ?_) h.active_le
  refine List.subperm_of_subset (List.nodup_range.filter _) (fun i hi => ?_)
  simp only [HedgedRace.running, List.mem_filter, List.mem_range, Bool.not_eq_true'] at hi
  exact h.running i (h.length ▸ hi.1) hi.2

theorem Base.withPhase (h : Base p s) (phase : RacePhase V) (cancelRequested : Bool) :
    Base p { s with phase, cancelRequested } :=
  ⟨h.called, h.length, h.ids, h.next_le, h.nodup, h.active_lt, h.active_le, h.running, h.completed,
    h.hedge⟩

theorem Live.withPhase (h : Live p s) (phase : RacePhase V) (cancelRequested : Bool) :
    Live p { s with phase, cancelRequested } :=
  ⟨h.toBase.withPhase phase cancelRequested, h.called_eq, h.settled⟩

theorem phaseOk_exit {exit : RaceExit V} (h : Base p s) : PhaseOk p (s.exit exit) :=
  h.withPhase _ _

theorem phaseOk_loop (h : Live p s) : PhaseOk p (s.loop p) ∧ (s.loop p).Clean := by
  unfold loop
  by_cases hactive : s.active = []
  · rw [if_pos hactive]
    have hfailed := h.allFailed hactive
    exact ⟨phaseOk_exit h.toBase, fun i hi => isDone_of_failed (hfailed i hi),
      noSuccess_of_allFailed hfailed⟩
  · rw [if_neg hactive]
    refine ⟨⟨h.withPhase _ _, hactive, fun t ht => ⟨?_, by simp⟩, by simp⟩, trivial⟩
    split at ht
    · cases ht
      have hmax := le_max_right 0 (p.delay - (s.now - s.startedAt))
      simp only
      linarith
    · cases ht

theorem phaseOk_abort (h : Base p s) : PhaseOk p s.abort ∧ (s.NoSuccess → s.abort.Clean) := by
  unfold abort
  by_cases hactive : s.active = []
  · rw [if_pos hactive]
    exact ⟨phaseOk_exit h, fun hno => ⟨h.all_done (by simp [hactive]), hno⟩⟩
  · rw [if_neg hactive]
    exact ⟨h.withPhase _ _, id⟩

theorem phaseOk_close {i : Nat} {value : V} (h : Base p s) (hvalue : s.Succeeded i value) :
    PhaseOk p (s.close i value) ∧ (s.close i value).Clean := by
  unfold close
  by_cases hactive : s.active = []
  · rw [if_pos hactive]
    exact ⟨phaseOk_exit h, h.all_done (by simp [hactive]), hvalue⟩
  · rw [if_neg hactive]
    exact ⟨⟨h.withPhase _ _, hvalue⟩, trivial⟩

end Lemmas

section Starting
variable {p : SelectedProviders} {calls : Nat → ProviderCall} {s t u : HedgedRace V}
  {call : ProviderCall}

/-- Attempts have been started since `s`, the last of which raised if `call` says so. -/
structure Starts (p : SelectedProviders) (calls : Nat → ProviderCall) (s t : HedgedRace V)
    (call : ProviderCall) : Prop where
  base : Base p t
  live : call = .started → Live p t
  failure : call ≠ .started → calls t.nextIndex = call
  next_le : s.nextIndex ≤ t.nextIndex
  news : ∃ news, t.attempts = s.attempts ++ news ∧ ∀ x ∈ news, x.outcome = none

theorem Starts.refl (h : Live p s) : Starts p calls s s .started where
  base := h.toBase
  live := fun _ => h
  failure := fun hcall => absurd rfl hcall
  next_le := le_refl _
  news := ⟨[], by simp⟩

theorem Starts.trans (hst : Starts p calls s t .started) (htu : Starts p calls t u call) :
    Starts p calls s u call where
  base := htu.base
  live := htu.live
  failure := htu.failure
  next_le := hst.next_le.trans htu.next_le
  news := by
    obtain ⟨news, hnews, hnone⟩ := hst.news
    obtain ⟨news', hnews', hnone'⟩ := htu.news
    refine ⟨news ++ news', by rw [hnews', hnews, List.append_assoc], fun x hx => ?_⟩
    rcases List.mem_append.mp hx with hx | hx
    · exact hnone x hx
    · exact hnone' x hx

theorem outcomeOf_append {news : List (HedgedAttempt V)} (hnews : t.attempts = s.attempts ++ news)
    (hnone : ∀ x ∈ news, x.outcome = none) (i : Nat) : t.outcomeOf i = s.outcomeOf i := by
  by_cases hi : i < s.attempts.length
  · unfold HedgedRace.outcomeOf attempt
    rw [hnews, List.getElem?_append_left hi]
  · rw [outcomeOf_eq_none_of_le (s := s) (by omega)]
    unfold HedgedRace.outcomeOf attempt
    rw [hnews, List.getElem?_append_right (by omega)]
    cases hx : news[i - s.attempts.length]? with
    | none => rfl
    | some x => exact hnone x (List.mem_of_getElem? hx)

theorem Starts.outcomeOf (h : Starts p calls s t call) (i : Nat) :
    t.outcomeOf i = s.outcomeOf i := by
  obtain ⟨news, hnews, hnone⟩ := h.news
  exact outcomeOf_append hnews hnone i

theorem Starts.noSuccess (h : Starts p calls s t call) (hno : s.NoSuccess) : t.NoSuccess := by
  intro i value hsuccess
  rw [Succeeded, h.outcomeOf] at hsuccess
  exact hno i value hsuccess

theorem Starts.allFailed (h : Starts p calls s t call) (hs : Base p s)
    (hnext : t.nextIndex = s.nextIndex) (hfailed : s.AllFailed) : t.AllFailed := by
  intro i hi
  rw [h.base.length, hnext, ← hs.length] at hi
  obtain ⟨outcome, houtcome, hne⟩ := hfailed i hi
  exact ⟨outcome, (h.outcomeOf i).trans houtcome, hne⟩

theorem starts_startNext (calls : Nat → ProviderCall) (h : Live p s)
    (hroom : s.active.length < p.maxConcurrency) (hnext : s.nextIndex < p.ids.length) :
    Starts p calls s (startNext p calls s).1 (startNext p calls s).2 := by
  have hid : p.ids[s.nextIndex]? = some p.ids[s.nextIndex] := List.getElem?_eq_getElem hnext
  have hcalled : s.called ++ [s.nextIndex] = List.range (s.nextIndex + 1) := by
    rw [h.called_eq, List.range_succ]
  have hfailure : ∀ failure, calls s.nextIndex = failure → failure ≠ .started →
      Starts p calls s { s with called := s.called ++ [s.nextIndex] } failure := by
    intro failure hcall hne
    exact ⟨⟨⟨s.nextIndex + 1, hnext, hcalled⟩, h.length, h.ids, h.next_le, h.nodup, h.active_lt,
      h.active_le, h.running, h.completed, h.hedge⟩, fun hstarted => absurd hstarted hne,
      fun _ => hcall, le_refl _, [], by simp⟩
  unfold startNext
  rw [hid]
  dsimp only
  cases hcall : calls s.nextIndex with
  | raised exc => exact hfailure _ hcall (by simp)
  | cancelled => exact hfailure _ hcall (by simp)
  | started =>
    dsimp only
    generalize ht : ({ s with
      called := s.called ++ [s.nextIndex]
      attempts := s.attempts ++ [⟨s.nextIndex, p.ids[s.nextIndex], none⟩]
      active := s.active ++ [s.nextIndex]
      nextIndex := s.nextIndex + 1 } : HedgedRace V) = t
    have hnews : t.attempts = s.attempts ++ [⟨s.nextIndex, p.ids[s.nextIndex], none⟩] := by
      rw [← ht]
    have hactive : t.active = s.active ++ [s.nextIndex] := by rw [← ht]
    have hsucc : t.nextIndex = s.nextIndex + 1 := by rw [← ht]
    have hlength : t.attempts.length = t.nextIndex := by
      rw [hnews, hsucc, List.length_append, h.length, List.length_singleton]
    have houtcome := outcomeOf_append hnews (by simp)
    have hdone : ∀ i, t.isDone i = s.isDone i := by
      intro i
      unfold isDone
      rw [houtcome]
    have hbase : Base p t := by
      refine ⟨⟨s.nextIndex + 1, hnext, by rw [← ht, ← hcalled]⟩, hlength, ?_, by omega, ?_, ?_,
        ?_, ?_, ?_, by rw [← ht]; exact h.hedge⟩
      · unfold attemptedProviderIds
        have hids := h.ids
        unfold attemptedProviderIds at hids
        rw [hnews, hsucc, List.map_append, hids, List.take_add_one, hid]
        rfl
      · rw [hactive]
        refine List.nodup_append.mpr ⟨h.nodup, by simp, fun a ha b hb => ?_⟩
        have hlt := h.active_lt a ha
        have heq := List.mem_singleton.mp hb
        omega
      · intro i hi
        rw [hactive] at hi
        rcases List.mem_append.mp hi with hi | hi
        · have hlt := h.active_lt i hi
          omega
        · have heq := List.mem_singleton.mp hi
          omega
      · rw [hactive, List.length_append, List.length_singleton]
        omega
      · intro i hi hrunning
        rw [hactive]
        by_cases hlast : i = s.nextIndex
        · simp [hlast]
        · rw [hdone] at hrunning
          have hmem := h.running i (by omega) hrunning
          simp [hmem]
      · intro i hi
        rw [hdone]
        rw [← ht] at hi
        exact h.completed i hi
    have hlive : Live p t := by
      refine ⟨hbase, by rw [hsucc, ← hcalled, ← ht], fun i hi hinactive => ?_⟩
      rw [hactive] at hinactive
      simp only [List.mem_append, List.mem_singleton, not_or] at hinactive
      obtain ⟨outcome, ho, hne⟩ := h.settled i (by omega) hinactive.1
      exact ⟨outcome, (houtcome i).trans ho, hne⟩
    exact ⟨hbase, fun _ => hlive, fun hcall => absurd rfl hcall, by omega, _, hnews, by simp⟩

theorem startNext_failure (p : SelectedProviders) (calls : Nat → ProviderCall) (s : HedgedRace V)
    (h : (startNext p calls s).2 ≠ .started) : (startNext p calls s).1.attempts = s.attempts := by
  unfold startNext at h ⊢
  cases hid : p.ids[s.nextIndex]? with
  | none => rfl
  | some providerId =>
    rw [hid] at h
    dsimp only at h ⊢
    cases hcall : calls s.nextIndex with
    | started =>
      rw [hcall] at h
      exact absurd rfl h
    | raised exc => rfl
    | cancelled => rfl

theorem starts_fillRounds (calls : Nat → ProviderCall) (fuel : Nat) (h : Live p s) :
    Starts p calls s (fillRounds p calls fuel s).1 (fillRounds p calls fuel s).2 := by
  induction fuel generalizing s with
  | zero => exact .refl h
  | succ fuel ih =>
    unfold fillRounds
    split
    · rename_i hroom
      have hstart := starts_startNext calls h hroom.1 hroom.2
      generalize startNext p calls s = r at hstart ⊢
      obtain ⟨t, call⟩ := r
      cases call with
      | started => exact hstart.trans (ih (hstart.live rfl))
      | raised exc => exact hstart
      | cancelled => exact hstart
    · exact .refl h

/-- No call that the race makes for a backup raises while an attempt may still succeed. -/
structure CallsOk (s : HedgedRace V) (calls : Nat → ProviderCall) : Prop where
  raised : ∀ j exc, calls j = .raised exc → j = s.nextIndex ∧ s.AllFailed
  cancelled : ∀ j, calls j = .cancelled → s.NoSuccess

theorem phaseOk_continueLoop (hs : Base p s) (h : Starts p calls s t call) :
    PhaseOk p (continueLoop p (t, call)) ∧ (s.CallsOk calls → (continueLoop p (t, call)).Clean) := by
  cases call with
  | started =>
    obtain ⟨hphase, hclean⟩ := phaseOk_loop (h.live rfl)
    exact ⟨hphase, fun _ => hclean⟩
  | raised exc =>
    refine ⟨phaseOk_exit h.base, fun hcalls => ?_⟩
    obtain ⟨hnext, hfailed⟩ := hcalls.raised _ exc (h.failure (by simp))
    have hfailed' := h.allFailed hs hnext hfailed
    exact ⟨fun i hi => isDone_of_failed (hfailed' i hi), noSuccess_of_allFailed hfailed'⟩
  | cancelled =>
    obtain ⟨hphase, hclean⟩ := phaseOk_abort h.base
    exact ⟨hphase, fun hcalls => hclean (h.noSuccess (hcalls.cancelled _ (h.failure (by simp))))⟩

end Starting

section Waking
variable {p : SelectedProviders} {calls : Nat → ProviderCall} {s t : HedgedRace V}

/-- The attempts of `is` have been taken off, up to a winner. -/
structure Settles (p : SelectedProviders) (s t : HedgedRace V) (winner : Option (Nat × V)) :
    Prop where
  base : Base p t
  live : winner = none → Live p t
  attempts : t.attempts = s.attempts
  nextIndex : t.nextIndex = s.nextIndex
  called : t.called = s.called
  hedgeOpen : t.hedgeOpen = s.hedgeOpen
  won : ∀ i value, winner = some (i, value) → t.Succeeded i value

theorem base_pop (h : Base p s) {i : Nat} (hi : s.attempts.length ≤ i ∨ s.isDone i = true) :
    Base p { s with active := s.active.erase i } where
  called := h.called
  length := h.length
  ids := h.ids
  next_le := h.next_le
  nodup := h.nodup.erase i
  active_lt := fun j hj => h.active_lt j (List.mem_of_mem_erase hj)
  active_le := (List.length_erase_le).trans h.active_le
  running := by
    intro j hj hrunning
    refine (List.mem_erase_of_ne ?_).mpr (h.running j hj hrunning)
    rintro rfl
    rcases hi with hi | hi
    · have hlength := h.length
      simp only at hj
      omega
    · rw [show s.isDone j = false from hrunning] at hi
      cases hi
  completed := h.completed
  hedge := h.hedge

theorem live_pop (h : Live p s) {i : Nat} (hi : s.attempts.length ≤ i ∨ s.Failed i) :
    Live p { s with active := s.active.erase i } where
  toBase := base_pop h.toBase (hi.imp_right isDone_of_failed)
  called_eq := h.called_eq
  settled := by
    intro j hj hinactive
    by_cases hji : j = i
    · subst hji
      rcases hi with hi | hi
      · have hlength := h.length
        simp only at hj
        omega
      · exact hi
    · exact h.settled j hj (fun hmem => hinactive ((List.mem_erase_of_ne hji).mpr hmem))

theorem Live.fail (h : Live p s) (providerId : String) (exc : PyError) :
    Live p (s.fail providerId exc) :=
  ⟨⟨h.called, h.length, h.ids, h.next_le, h.nodup, h.active_lt, h.active_le, h.running, h.completed,
    h.hedge⟩, h.called_eq, h.settled⟩

theorem settles_settle (h : Live p s) (is : List Nat) (hdone : ∀ i ∈ is, s.isDone i = true) :
    Settles p s (s.settle is).1 (s.settle is).2 := by
  induction is generalizing s with
  | nil => exact ⟨h.toBase, fun _ => h, rfl, rfl, rfl, rfl, by simp [settle]⟩
  | cons i is ih =>
    have hi := hdone i (by simp)
    have hrest : ∀ {t : HedgedRace V}, Live p t → t.attempts = s.attempts →
        t.nextIndex = s.nextIndex → t.called = s.called → t.hedgeOpen = s.hedgeOpen →
        Settles p s (t.settle is).1 (t.settle is).2 := by
      intro t ht hattempts hnext hcalled hhedge
      have hsettles := ih ht (fun j hj => by
        have hj' := hdone j (by simp [hj])
        unfold isDone outcomeOf attempt at hj' ⊢
        rw [hattempts]
        exact hj')
      exact ⟨hsettles.base, hsettles.live, hsettles.attempts.trans hattempts,
        hsettles.nextIndex.trans hnext, hsettles.called.trans hcalled,
        hsettles.hedgeOpen.trans hhedge, hsettles.won⟩
    unfold settle
    cases hx : s.attempt i with
    | none =>
      dsimp only
      exact hrest (live_pop h (.inl (List.getElem?_eq_none_iff.mp hx))) rfl rfl rfl rfl
    | some x =>
      have houtcome : s.outcomeOf i = x.outcome := by
        unfold outcomeOf
        rw [hx]
        rfl
      dsimp only
      cases ho : x.outcome with
      | none =>
        unfold isDone at hi
        rw [houtcome, ho] at hi
        cases hi
      | some outcome =>
        rw [ho] at houtcome
        cases outcome with
        | value value =>
          refine ⟨base_pop h.toBase (.inr hi), by simp, rfl, rfl, rfl, rfl, fun j v hj => ?_⟩
          cases hj
          exact houtcome
        | exception exc =>
          have hfailed : s.Failed i := ⟨_, houtcome, by simp⟩
          exact hrest ((live_pop h (.inr hfailed)).fail _ _) rfl rfl rfl rfl
        | cancelled =>
          have hfailed : s.Failed i := ⟨_, houtcome, by simp⟩
          exact hrest ((live_pop h (.inr hfailed)).fail _ _) rfl rfl rfl rfl

@[simp] theorem loop_called (s : HedgedRace V) : (s.loop p).called = s.called := by
  unfold loop
  split <;> rfl

@[simp] theorem abort_called (s : HedgedRace V) : s.abort.called = s.called := by
  unfold abort
  split <;> rfl

@[simp] theorem close_called (s : HedgedRace V) (i : Nat) (value : V) :
    (s.close i value).called = s.called := by
  unfold close
  split <;> rfl

def MayBackUp (p : SelectedProviders) (s : HedgedRace V) : Prop :=
  s.startedAt + p.delay ≤ s.now ∨ s.AllFailed

theorem Live.afterWait (calls : Nat → ProviderCall) (h : Live p s)
    (hexpired : s.active.filter s.isDone = [] → s.startedAt + p.delay ≤ s.now) :
    PhaseOk p (s.afterWait p calls) ∧ (s.CallsOk calls → (s.afterWait p calls).Clean) ∧
    ((s.afterWait p calls).called ≠ s.called → s.MayBackUp p) := by
  unfold HedgedRace.afterWait
  dsimp only
  split
  · rename_i hnone
    have hopened : Live p { s with hedgeOpen := true } :=
      ⟨⟨h.called, h.length, h.ids, h.next_le, h.nodup, h.active_lt, h.active_le, h.running,
        h.completed, fun _ => hexpired hnone⟩, h.called_eq, h.settled⟩
    have hstarts := starts_fillRounds calls (p.ids.length - s.nextIndex) hopened
    obtain ⟨hphase, hclean⟩ := phaseOk_continueLoop hopened.toBase hstarts
    exact ⟨hphase, fun hcalls => hclean ⟨hcalls.raised, hcalls.cancelled⟩,
      fun _ => .inl (hexpired hnone)⟩
  · have hkept : Live p { s with
        completed := s.completed.filter (· ∉ s.active.filter s.isDone) } :=
      ⟨⟨h.called, h.length, h.ids, h.next_le, h.nodup, h.active_lt, h.active_le, h.running,
        fun i hi => h.completed i (List.mem_of_mem_filter hi), h.hedge⟩, h.called_eq, h.settled⟩
    have hsettles := settles_settle hkept (s.completed.filter (· ∈ s.active.filter s.isDone))
      (fun i hi => h.completed i (List.mem_of_mem_filter hi))
    generalize settle _ _ = r at hsettles ⊢
    obtain ⟨t, winner⟩ := r
    cases winner with
    | some won =>
      obtain ⟨i, value⟩ := won
      obtain ⟨hphase, hclean⟩ := phaseOk_close hsettles.base (hsettles.won i value rfl)
      refine ⟨hphase, fun _ => hclean, fun hne => absurd ?_ hne⟩
      rw [close_called]
      exact hsettles.called
    | none =>
      have hlive := hsettles.live rfl
      have hattempts : t.attempts = s.attempts := hsettles.attempts
      have houtcome : ∀ i, t.outcomeOf i = s.outcomeOf i := by
        intro i
        unfold outcomeOf attempt
        rw [hattempts]
      have hfailed : s.AllFailed ↔ t.AllFailed := by
        simp only [AllFailed, Failed, houtcome, hattempts]
      have hcallsOk : s.CallsOk calls → t.CallsOk calls := by
        intro hcalls
        refine ⟨fun j exc hj => ?_, fun j hj i value hsuccess => ?_⟩
        · obtain ⟨hnext, hall⟩ := hcalls.raised j exc hj
          exact ⟨hnext.trans hsettles.nextIndex.symm, hfailed.mp hall⟩
        · rw [Succeeded, houtcome] at hsuccess
          exact hcalls.cancelled j hj i value hsuccess
      dsimp only
      split
      · rename_i hempty
        have hroom : t.active.length < p.maxConcurrency := by
          rw [hempty.1]
          exact p.maxConcurrency_pos
        have hstarts := starts_startNext calls hlive hroom hempty.2
        obtain ⟨hphase, hclean⟩ := phaseOk_continueLoop hlive.toBase hstarts
        exact ⟨hphase, fun hcalls => hclean (hcallsOk hcalls),
          fun _ => .inr (hfailed.mpr (hlive.allFailed hempty.1))⟩
      · split
        · rename_i hopen
          have hstarts := starts_fillRounds calls (p.ids.length - t.nextIndex) hlive
          obtain ⟨hphase, hclean⟩ := phaseOk_continueLoop hlive.toBase hstarts
          exact ⟨hphase, fun hcalls => hclean (hcallsOk hcalls),
            fun _ => .inl (h.hedge (hsettles.hedgeOpen.symm.trans hopen.1))⟩
        · obtain ⟨hphase, hclean⟩ := phaseOk_loop hlive
          refine ⟨hphase, fun _ => hclean, fun hne => absurd ?_ hne⟩
          rw [loop_called]
          exact hsettles.called

/-- Where the race goes on after an `await`, if nothing disturbs it: its own cancellation finds
no attempt that has succeeded. -/
theorem phaseOk_resume (calls : Nat → ProviderCall) (h : PhaseOk p s) (hready : s.ready = true) :
    PhaseOk p (s.resume p calls) ∧
    (s.Clean → s.CallsOk calls → (s.cancelRequested = true → s.NoSuccess) →
      (s.resume p calls).Clean) ∧
    ((s.resume p calls).called ≠ s.called → s.MayBackUp p) := by
  unfold resume
  cases hphase : s.phase with
  | created => simp [ready, hphase] at hready
  | exited exit => simp [ready, hphase] at hready
  | waiting timer fired =>
    simp only [PhaseOk, hphase] at h
    obtain ⟨hlive, -, htimer, hnotimer⟩ := h
    dsimp only
    split
    · rename_i hcancel
      obtain ⟨hok, hclean⟩ := phaseOk_abort (hlive.withPhase s.phase false).toBase
      exact ⟨hok, fun _ _ hno => hclean (hno hcancel), fun hne => absurd (abort_called _) hne⟩
    · rename_i hcancel
      have hexpired : s.active.filter s.isDone = [] → s.startedAt + p.delay ≤ s.now := by
        intro hnone
        have hfired : fired = true := by
          cases fired with
          | true => rfl
          | false =>
            simp only [ready, hphase, hcancel, Bool.false_or, List.any_eq_true,
              decide_eq_true_eq] at hready
            obtain ⟨i, hi, hcompleted⟩ := hready
            have hmem : i ∈ s.active.filter s.isDone :=
              List.mem_filter.mpr ⟨hi, hlive.completed i hcompleted⟩
            rw [hnone] at hmem
            cases hmem
        cases timer with
        | none =>
          rw [hnotimer rfl] at hfired
          cases hfired
        | some t =>
          obtain ⟨hdelay, hnow⟩ := htimer t rfl
          exact hdelay.trans (hnow hfired)
      obtain ⟨hok, hclean, hbackup⟩ :=
        (hlive.withPhase s.phase false).afterWait calls hexpired
      rw [hphase] at hok hclean hbackup
      exact ⟨hok, fun _ hcalls _ => hclean ⟨hcalls.raised, hcalls.cancelled⟩, hbackup⟩
  | closing i value =>
    simp only [PhaseOk, hphase] at h
    obtain ⟨hbase, hvalue⟩ := h
    simp only [ready, hphase, List.all_eq_true] at hready
    dsimp only
    split
    · rename_i hcancel
      obtain ⟨hok, hclean⟩ := phaseOk_abort (hbase.withPhase s.phase false)
      exact ⟨hok, fun _ _ hno => hclean (hno hcancel), fun hne => absurd (abort_called _) hne⟩
    · exact ⟨phaseOk_exit (hbase.withPhase _ false),
        fun _ _ _ => ⟨hbase.all_done hready, hvalue⟩, fun hne => absurd rfl hne⟩
  | aborting =>
    simp only [PhaseOk, hphase] at h
    simp only [ready, hphase, List.all_eq_true] at hready
    refine ⟨phaseOk_exit (h.withPhase _ false), fun hclean _ _ => ?_,
      fun hne => absurd rfl hne⟩
    simp only [Clean, hphase] at hclean
    exact ⟨h.all_done hready, hclean⟩

theorem phaseOk_begin (calls : Nat → ProviderCall) (h : PhaseOk p s) (hcreated : s.phase = .created) :
    PhaseOk p (s.begin p calls) ∧ (s.begin p calls).Clean := by
  simp only [PhaseOk, hcreated] at h
  obtain ⟨hlive, hactive, hnext, hclosed⟩ := h
  have hempty : ∀ i, ¬ i < s.attempts.length := by
    intro i
    have hlength := hlive.length
    omega
  unfold begin
  split
  · exact ⟨phaseOk_exit hlive.toBase, fun i hi => absurd hi (hempty i),
      noSuccess_of_allFailed (fun i hi => absurd hi (hempty i))⟩
  · have hstarted : Live p { s with startedAt := s.now } :=
      ⟨⟨hlive.called, hlive.length, hlive.ids, hlive.next_le, hlive.nodup, hlive.active_lt,
        hlive.active_le, hlive.running, hlive.completed, fun hopen => by
          rw [show s.hedgeOpen = true from hopen] at hclosed
          cases hclosed⟩, hlive.called_eq, hlive.settled⟩
    have hone := p.maxConcurrency_pos
    have hlen := p.maxConcurrency_le
    have hstarts := starts_startNext calls hstarted
      (by simp only [hactive, List.length_nil]; omega) (by simp only [hnext]; omega)
    have hfailure := startNext_failure p calls { s with startedAt := s.now }
    generalize startNext p calls { s with startedAt := s.now } = r at hstarts hfailure ⊢
    obtain ⟨t, call⟩ := r
    have hnothing : call ≠ .started → ∀ i, ¬ i < t.attempts.length := by
      intro hcall i
      rw [show t.attempts = s.attempts from hfailure hcall]
      exact hempty i
    cases call with
    | started => exact phaseOk_loop (hstarts.live rfl)
    | raised exc =>
      have hnone := hnothing (by simp)
      exact ⟨phaseOk_exit hstarts.base, fun i hi => absurd hi (hnone i),
        noSuccess_of_allFailed (fun i hi => absurd hi (hnone i))⟩
    | cancelled =>
      have hnone := hnothing (by simp)
      exact ⟨phaseOk_exit hstarts.base, fun i hi => absurd hi (hnone i),
        noSuccess_of_allFailed (fun i hi => absurd hi (hnone i))⟩

end Waking

end HedgedRace

end Pitwall.Routing
