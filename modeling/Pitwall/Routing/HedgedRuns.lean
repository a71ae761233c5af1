import Mathlib
import Pitwall.Routing.HedgedRaces
set_option autoImplicit false

/-!
What a hedged race promises at the end of every run, and the calls for backups that break it.
-/

namespace Pitwall.Routing
open Machine

namespace HedgedRace
variable {V : Type}

section Steps
variable {p : SelectedProviders} {s t : HedgedRace V}

structure SameRace (s t : HedgedRace V) : Prop where
  phase : t.phase = s.phase
  startedAt : t.startedAt = s.startedAt
  called : t.called = s.called
  attempts : t.attempts = s.attempts
  active : t.active = s.active
  nextIndex : t.nextIndex = s.nextIndex
  hedgeOpen : t.hedgeOpen = s.hedgeOpen
  now : s.now ≤ t.now
  completed : ∀ i ∈ t.completed, i ∈ s.completed ∨ s.isDone i = true

theorem SameRace.outcomeOf (h : SameRace s t) (i : Nat) : t.outcomeOf i = s.outcomeOf i := by
  unfold HedgedRace.outcomeOf attempt
  rw [h.attempts]

theorem SameRace.base (h : SameRace s t) (hs : Base p s) : Base p t where
  called := by rw [h.called]; exact hs.called
  length := by rw [h.attempts, h.nextIndex]; exact hs.length
  ids := by
    unfold attemptedProviderIds
    rw [h.attempts, h.nextIndex]
    exact hs.ids
  next_le := by rw [h.nextIndex]; exact hs.next_le
  nodup := by rw [h.active]; exact hs.nodup
  active_lt := by rw [h.active, h.nextIndex]; exact hs.active_lt
  active_le := by rw [h.active]; exact hs.active_le
  running := by
    intro i hi hrunning
    unfold isDone at hrunning
    rw [h.outcomeOf] at hrunning
    rw [h.nextIndex] at hi
    rw [h.active]
    exact hs.running i hi hrunning
  completed := by
    intro i hi
    unfold isDone
    rw [h.outcomeOf]
    rcases h.completed i hi with hbefore | hdone
    · exact hs.completed i hbefore
    · exact hdone
  hedge := by
    intro hopen
    rw [h.hedgeOpen] at hopen
    rw [h.startedAt]
    exact (hs.hedge hopen).trans h.now

theorem SameRace.live (h : SameRace s t) (hs : Live p s) : Live p t where
  toBase := h.base hs.toBase
  called_eq := by rw [h.called, h.nextIndex]; exact hs.called_eq
  settled := by
    intro i hi hinactive
    rw [h.nextIndex] at hi
    rw [h.active] at hinactive
    obtain ⟨outcome, houtcome, hne⟩ := hs.settled i hi hinactive
    exact ⟨outcome, (h.outcomeOf i).trans houtcome, hne⟩

theorem SameRace.clean (h : SameRace s t) (hs : s.Clean) : t.Clean := by
  have hno : s.NoSuccess → t.NoSuccess := by
    intro hno i value hsuccess
    rw [Succeeded, h.outcomeOf] at hsuccess
    exact hno i value hsuccess
  unfold Clean at hs ⊢
  rw [h.phase]
  cases hphase : s.phase with
  | aborting =>
    rw [hphase] at hs
    exact hno hs
  | exited exit =>
    rw [hphase] at hs
    refine ⟨fun i hi => ?_, ?_⟩
    · rw [h.attempts] at hi
      unfold isDone
      rw [h.outcomeOf]
      exact hs.1 i hi
    · cases exit with
      | returned r => exact (h.outcomeOf r.index).trans hs.2
      | _ => exact hno hs.2
  | _ => trivial

theorem SameRace.phaseOk (h : SameRace s t) (hs : PhaseOk p s) : PhaseOk p t := by
  unfold PhaseOk at hs ⊢
  rw [h.phase]
  cases hphase : s.phase with
  | created =>
    rw [hphase] at hs
    rw [h.active, h.nextIndex, h.hedgeOpen]
    exact ⟨h.live hs.1, hs.2⟩
  | waiting timer fired =>
    rw [hphase] at hs
    obtain ⟨hlive, hactive, htimer, hnotimer⟩ := hs
    rw [h.active, h.startedAt]
    exact ⟨h.live hlive, hactive, fun t' ht => ⟨(htimer t' ht).1,
      fun hfired => ((htimer t' ht).2 hfired).trans h.now⟩, hnotimer⟩
  | closing i value =>
    rw [hphase] at hs
    exact ⟨h.base hs.1, (h.outcomeOf i).trans hs.2⟩
  | aborting =>
    rw [hphase] at hs
    exact h.base hs
  | exited exit =>
    rw [hphase] at hs
    exact h.base hs

theorem outcomeOf_finished (s : HedgedRace V) (i : Nat) (outcome : TaskOutcome V) (j : Nat) :
    (s.finished i outcome).outcomeOf j =
      if i = j ∧ j < s.attempts.length then (s.outcomeOf j).or (some outcome)
      else s.outcomeOf j := by
  unfold HedgedRace.outcomeOf attempt finished
  rw [List.getElem?_modify]
  by_cases hj : j < s.attempts.length
  · rw [List.getElem?_eq_getElem hj]
    by_cases hij : i = j <;> simp [hij, hj]
  · rw [List.getElem?_eq_none (by omega)]
    simp [hj]

theorem outcomeOf_finished_of_done {i j : Nat} {outcome : TaskOutcome V}
    (h : s.isDone j = true) : (s.finished i outcome).outcomeOf j = s.outcomeOf j := by
  obtain ⟨o, ho⟩ := Option.isSome_iff_exists.mp h
  rw [outcomeOf_finished, ho]
  split <;> rfl

theorem isDone_finished_of_done {i j : Nat} {outcome : TaskOutcome V}
    (h : s.isDone j = true) : (s.finished i outcome).isDone j = true := by
  unfold isDone at h ⊢
  rw [outcomeOf_finished_of_done h]
  exact h

theorem failed_finished {i j : Nat} {outcome : TaskOutcome V} (h : s.Failed j) :
    (s.finished i outcome).Failed j := by
  have hdone := isDone_of_failed h
  obtain ⟨o, ho, hne⟩ := h
  exact ⟨o, (outcomeOf_finished_of_done hdone).trans ho, hne⟩

theorem succeeded_finished {i j : Nat} {outcome : TaskOutcome V} {value : V}
    (h : s.Succeeded j value) : (s.finished i outcome).Succeeded j value := by
  refine Eq.trans (outcomeOf_finished_of_done ?_) h
  unfold isDone
  rw [h]
  rfl

theorem base_finished (h : Base p s) (i : Nat) (outcome : TaskOutcome V) :
    Base p (s.finished i outcome) where
  called := h.called
  length := by
    unfold finished
    rw [List.length_modify]
    exact h.length
  ids := by
    refine Eq.trans ?_ h.ids
    unfold attemptedProviderIds finished
    refine List.ext_getElem? (fun j => ?_)
    rw [List.getElem?_map, List.getElem?_map, List.getElem?_modify]
    cases s.attempts[j]? with
    | none => rfl
    | some x => by_cases hij : i = j <;> simp [hij]
  next_le := h.next_le
  nodup := h.nodup
  active_lt := h.active_lt
  active_le := h.active_le
  running := by
    intro j hj hrunning
    refine h.running j hj (Bool.eq_false_iff.mpr (fun hdone => ?_))
    rw [isDone_finished_of_done hdone] at hrunning
    cases hrunning
  completed := fun j hj => isDone_finished_of_done (h.completed j hj)
  hedge := h.hedge

theorem live_finished (h : Live p s) (i : Nat) (outcome : TaskOutcome V) :
    Live p (s.finished i outcome) :=
  ⟨base_finished h.toBase i outcome, h.called_eq,
    fun j hj hinactive => failed_finished (h.settled j hj hinactive)⟩

theorem phaseOk_finished (h : PhaseOk p s) (i : Nat) (outcome : TaskOutcome V) :
    PhaseOk p (s.finished i outcome) := by
  have hsame : (s.finished i outcome).phase = s.phase := rfl
  unfold PhaseOk at h ⊢
  rw [hsame]
  cases hphase : s.phase with
  | created =>
    rw [hphase] at h
    exact ⟨live_finished h.1 i outcome, h.2⟩
  | waiting timer fired =>
    rw [hphase] at h
    exact ⟨live_finished h.1 i outcome, h.2⟩
  | closing j value =>
    rw [hphase] at h
    exact ⟨base_finished h.1 i outcome, succeeded_finished h.2⟩
  | aborting =>
    rw [hphase] at h
    exact base_finished h i outcome
  | exited exit =>
    rw [hphase] at h
    exact base_finished h i outcome

theorem noSuccess_finished {i : Nat} {outcome : TaskOutcome V} (h : s.NoSuccess)
    (hi : s.isDone i = true ∨ s.attempts.length ≤ i ∨ ∀ value, outcome ≠ .value value) :
    (s.finished i outcome).NoSuccess := by
  intro j value hsuccess
  rw [Succeeded, outcomeOf_finished] at hsuccess
  split at hsuccess
  · rename_i hij
    obtain ⟨rfl, hlt⟩ := hij
    cases hbefore : s.outcomeOf i with
    | some o =>
      rw [hbefore] at hsuccess
      exact h i value (hbefore.trans hsuccess)
    | none =>
      rw [hbefore] at hsuccess
      rcases hi with hdone | hle | hne
      · simp [isDone, hbefore] at hdone
      · omega
      · exact hne value (Option.some.inj hsuccess)
  · exact h j value hsuccess

theorem clean_finished (h : s.Clean) {i : Nat} {outcome : TaskOutcome V}
    (hvalue : s.phase = .aborting → ∀ value, outcome ≠ .value value) :
    (s.finished i outcome).Clean := by
  have hsame : (s.finished i outcome).phase = s.phase := rfl
  unfold Clean at h ⊢
  rw [hsame]
  cases hphase : s.phase with
  | aborting =>
    rw [hphase] at h
    exact noSuccess_finished h (.inr (.inr (hvalue hphase)))
  | exited exit =>
    rw [hphase] at h
    obtain ⟨hdone, hexit⟩ := h
    have hover : s.isDone i = true ∨ s.attempts.length ≤ i ∨ ∀ value, outcome ≠ .value value := by
      by_cases hi : i < s.attempts.length
      · exact .inl (hdone i hi)
      · exact .inr (.inl (by omega))
    refine ⟨fun j hj => ?_, ?_⟩
    · have hlt : j < s.attempts.length := by
        unfold finished at hj
        rwa [List.length_modify] at hj
      exact isDone_finished_of_done (hdone j hlt)
    · cases exit with
      | returned r => exact succeeded_finished hexit
      | failed error => exact noSuccess_finished hexit hover
      | raised exc => exact noSuccess_finished hexit hover
      | cancelled => exact noSuccess_finished hexit hover
  | _ => trivial

/-- The step neither lets a call raise while an attempt may still succeed, nor cancels the race
once one has succeeded, nor lets one succeed once it is cancelled. -/
def Undisturbed (s : HedgedRace V) : RaceEvent V → Prop
  | .resume calls =>
      s.ready = true → s.CallsOk calls ∧ (s.cancelRequested = true → s.NoSuccess)
  | .finish _ outcome => s.phase = .aborting → ∀ value, outcome ≠ .value value
  | _ => True

theorem phaseOk_step (h : PhaseOk p s) (ev : RaceEvent V) :
    PhaseOk p (s.step p ev) ∧ (s.Clean → s.Undisturbed ev → (s.step p ev).Clean) ∧
    ((s.step p ev).called ≠ s.called → s.called = [] ∨ s.MayBackUp p) := by
  have hsame : ∀ {t : HedgedRace V}, SameRace s t →
      PhaseOk p t ∧ (s.Clean → s.Undisturbed ev → t.Clean) ∧
        (t.called ≠ s.called → s.called = [] ∨ s.MayBackUp p) := fun ht =>
    ⟨ht.phaseOk h, fun hclean _ => ht.clean hclean, fun hne => absurd ht.called hne⟩
  have hrefl : SameRace s s :=
    ⟨rfl, rfl, rfl, rfl, rfl, rfl, rfl, le_refl _, fun i hi => .inl hi⟩
  cases ev with
  | begin calls =>
    cases hphase : s.phase with
    | created =>
      simp only [step, hphase]
      obtain ⟨hok, hclean⟩ := phaseOk_begin calls h hphase
      refine ⟨hok, fun _ _ => hclean, fun _ => .inl ?_⟩
      simp only [PhaseOk, hphase] at h
      rw [h.1.called_eq, h.2.2.1]
      rfl
    | _ =>
      simp only [step, hphase]
      exact hsame hrefl
  | elapse seconds =>
    refine hsame ⟨rfl, rfl, rfl, rfl, rfl, rfl, rfl, ?_, fun i hi => .inl hi⟩
    simp [step]
  | finish i outcome =>
    exact ⟨phaseOk_finished h i outcome, fun hclean hvalue => clean_finished hclean hvalue,
      fun hne => absurd rfl hne⟩
  | callback i =>
    unfold step
    dsimp only
    split
    · rename_i hi
      refine hsame ⟨rfl, rfl, rfl, rfl, rfl, rfl, rfl, le_refl _, fun j hj => ?_⟩
      rcases List.mem_append.mp hj with hbefore | hnew
      · exact .inl hbefore
      · rw [List.mem_singleton.mp hnew]
        exact .inr hi.1
    · exact hsame hrefl
  | timeout =>
    cases hphase : s.phase with
    | waiting timer fired =>
      cases timer with
      | none =>
        simp only [step, hphase]
        exact hsame hrefl
      | some t =>
        simp only [step, hphase]
        split
        · rename_i hover
          simp only [PhaseOk, hphase] at h
          obtain ⟨hlive, hactive, htimer, -⟩ := h
          refine ⟨⟨hlive.withPhase _ _, hactive, fun t' ht => ?_, by simp⟩, fun _ _ => trivial,
            fun hne => absurd rfl hne⟩
          cases ht
          exact ⟨(htimer t rfl).1, fun _ => hover⟩
        · exact hsame hrefl
    | _ =>
      simp only [step, hphase]
      exact hsame hrefl
  | cancel =>
    cases hphase : s.phase with
    | exited exit =>
      simp only [step, hphase]
      exact hsame hrefl
    | _ =>
      simp only [step, hphase]
      exact hsame ⟨hphase.symm, rfl, rfl, rfl, rfl, rfl, rfl, le_refl _, fun i hi => .inl hi⟩
  | resume calls =>
    unfold step
    dsimp only
    split
    · rename_i hready
      obtain ⟨hok, hclean, hbackup⟩ := phaseOk_resume calls h hready
      exact ⟨hok, fun hs hundisturbed => hclean hs (hundisturbed hready).1 (hundisturbed hready).2,
        fun hne => .inr (hbackup hne)⟩
    · exact hsame hrefl

end Steps

section Runs
variable (p : SelectedProviders) (now : ℚ)

def after (es : List (RaceEvent V)) : HedgedRace V := run (step p) (new now) es

structure WellRun (es : List (RaceEvent V)) : Prop where
  /-- The providers are called in their order, each at most once. -/
  called : ∃ k, k ≤ p.ids.length ∧ (after p now es).called = List.range k
  attempted : (after p now es).attemptedProviderIds =
    p.ids.take (after p now es).attempts.length
  concurrency : (after p now es).running.length ≤ p.maxConcurrency
  /-- A step that calls a backup comes after the hedge delay, or all attempts have failed. -/
  backup : ∀ fs ev, fs ++ [ev] <+: es →
    (after p now (fs ++ [ev])).called ≠ (after p now fs).called →
    (after p now fs).called = [] ∨
      (after p now fs).startedAt + p.delay ≤ (after p now fs).now ∨ (after p now fs).AllFailed
  value : ∀ exit, (after p now es).phase = .exited exit →
    ((∃ r, exit = .returned r) ↔ ∃ i value, (after p now es).Succeeded i value)
  winner : ∀ r, (after p now es).phase = .exited (.returned r) →
    (after p now es).Succeeded r.index r.value
  /-- No attempt is left running. -/
  settled : ∀ exit, (after p now es).phase = .exited exit → (after p now es).running = []

theorem phaseOk_new : PhaseOk p (new now : HedgedRace V) := by
  refine ⟨⟨⟨⟨0, Nat.zero_le _, rfl⟩, rfl, by simp [attemptedProviderIds, new], Nat.zero_le _,
    List.nodup_nil, by simp [new], Nat.zero_le _, by simp [new], by simp [new], by simp [new]⟩,
    rfl, by simp [new]⟩, rfl, rfl, rfl⟩

variable {p now}

theorem phaseOk_after (es : List (RaceEvent V)) : PhaseOk p (after p now es) :=
  run_preserves (I := PhaseOk p) (fun _ ev hs => (phaseOk_step hs ev).1) (phaseOk_new p now) es

theorem base_of_phaseOk {s : HedgedRace V} (h : PhaseOk p s) : Base p s := by
  unfold PhaseOk at h
  cases hphase : s.phase with
  | created =>
    rw [hphase] at h
    exact h.1.toBase
  | waiting timer fired =>
    rw [hphase] at h
    exact h.1.toBase
  | closing i value =>
    rw [hphase] at h
    exact h.1
  | aborting =>
    rw [hphase] at h
    exact h
  | exited exit =>
    rw [hphase] at h
    exact h

theorem clean_after {es : List (RaceEvent V)} (h : Along (step p) Undisturbed (new now) es) :
    (after p now es).Clean := by
  have hrun := run_invariant (I := fun s => PhaseOk p s ∧ s.Clean)
    (fun s ev hs hev => ⟨(phaseOk_step hs.1 ev).1, (phaseOk_step hs.1 ev).2.1 hs.2 hev⟩)
    ⟨phaseOk_new p now, trivial⟩ h
  exact hrun.2

/-- In every run in which no call for a backup raises while an attempt may still succeed, and no
cancellation of the race comes after a success or is followed by one. -/
theorem hedged_race (p : SelectedProviders) (now : ℚ) (es : List (RaceEvent V))
    (h : Along (step p) Undisturbed (new now) es) : WellRun p now es := by
  have hbase : Base p (after p now es) := base_of_phaseOk (phaseOk_after es)
  have hclean := clean_after h
  have hexit : ∀ exit, (after p now es).phase = .exited exit → (after p now es).ExitOk exit := by
    intro exit hphase
    simpa only [Clean, hphase] using hclean
  refine ⟨hbase.called, ?_, hbase.running_le, fun fs ev hprefix hne => ?_, fun exit hphase => ?_,
    fun r hphase => (hexit _ hphase).2, fun exit hphase => ?_⟩
  · rw [hbase.length]
    exact hbase.ids
  · have hconcat : after p now (fs ++ [ev]) = (after p now fs).step p ev :=
      run_append (step p) (new now) fs [ev]
    rw [hconcat] at hne
    exact (phaseOk_step (phaseOk_after fs) ev).2.2 hne
  · have hok := (hexit exit hphase).2
    cases exit with
    | returned r => exact ⟨fun _ => ⟨r.index, r.value, hok⟩, fun _ => ⟨r, rfl⟩⟩
    | _ =>
      constructor
      · rintro ⟨r, hr⟩
        cases hr
      · rintro ⟨i, value, hsuccess⟩
        exact absurd hsuccess (hok i value)
  · have hdone := (hexit exit hphase).1
    refine List.filter_eq_nil_iff.mpr (fun i hi => ?_)
    simp [hdone i (List.mem_range.mp hi)]

end Runs

section Calm
variable {p : SelectedProviders} {calls : Nat → ProviderCall} {s : HedgedRace V}

/-- Neither cancels the race nor lets a call of a provider raise. -/
def Calm : RaceEvent V → Prop
  | .begin calls | .resume calls => ∀ i, calls i = .started
  | .cancel => False
  | _ => True

def Uncancelled (s : HedgedRace V) : Prop := s.cancelRequested = false ∧ s.phase ≠ .aborting

theorem startNext_started (p : SelectedProviders) (hcalls : ∀ i, calls i = .started)
    (s : HedgedRace V) : (startNext p calls s).2 = .started ∧
      (startNext p calls s).1.cancelRequested = s.cancelRequested := by
  unfold startNext
  split
  · exact ⟨rfl, rfl⟩
  · dsimp only
    rw [hcalls]
    exact ⟨rfl, rfl⟩

theorem fillRounds_started (p : SelectedProviders) (hcalls : ∀ i, calls i = .started) (fuel : Nat)
    (s : HedgedRace V) : (fillRounds p calls fuel s).2 = .started ∧
      (fillRounds p calls fuel s).1.cancelRequested = s.cancelRequested := by
  induction fuel generalizing s with
  | zero => exact ⟨rfl, rfl⟩
  | succ fuel ih =>
    unfold fillRounds
    split
    · obtain ⟨hcall, hrequest⟩ := startNext_started p hcalls s
      split
      · next hstart =>
        rw [hstart] at hrequest
        exact ⟨(ih _).1, (ih _).2.trans hrequest⟩
      · next hfailed =>
        exact (hfailed (startNext p calls s).1 (Prod.ext rfl hcall)).elim
    · exact ⟨rfl, rfl⟩

theorem cancelRequested_settle (s : HedgedRace V) (is : List Nat) :
    (s.settle is).1.cancelRequested = s.cancelRequested := by
  induction is generalizing s with
  | nil => rfl
  | cons i is ih =>
    unfold settle
    dsimp only
    split
    · exact ih _
    · split
      · rfl
      · exact ih _
      · exact ih _
      · exact ih _

theorem uncancelled_loop (h : s.cancelRequested = false) : (s.loop p).Uncancelled := by
  unfold loop
  split
  · exact ⟨h, by intro haborting; cases haborting⟩
  · exact ⟨h, by intro haborting; cases haborting⟩

theorem uncancelled_close (h : s.cancelRequested = false) (i : Nat) (value : V) :
    (s.close i value).Uncancelled := by
  unfold close
  split
  · exact ⟨h, by intro haborting; cases haborting⟩
  · exact ⟨h, by intro haborting; cases haborting⟩

theorem uncancelled_continueLoop {started : HedgedRace V × ProviderCall}
    (h : started.2 = .started ∧ started.1.cancelRequested = s.cancelRequested)
    (hs : s.cancelRequested = false) : (continueLoop p started).Uncancelled := by
  obtain ⟨t, call⟩ := started
  obtain ⟨rfl, hrequest⟩ := h
  exact uncancelled_loop (hrequest.trans hs)

theorem uncancelled_afterWait (hcalls : ∀ i, calls i = .started) (h : s.cancelRequested = false) :
    (s.afterWait p calls).Uncancelled := by
  unfold afterWait
  dsimp only
  split
  · exact uncancelled_continueLoop (s := { s with hedgeOpen := true })
      (fillRounds_started p hcalls _ _) h
  · have hsettled := cancelRequested_settle
      { s with completed := s.completed.filter (· ∉ s.active.filter s.isDone) }
      (s.completed.filter (· ∈ s.active.filter s.isDone))
    split
    · next t i value hsettle =>
      rw [hsettle] at hsettled
      exact uncancelled_close (hsettled.trans h) i value
    · next t hsettle =>
      rw [hsettle] at hsettled
      have ht : t.cancelRequested = false := hsettled.trans h
      split
      · exact uncancelled_continueLoop (startNext_started p hcalls t) ht
      · split
        · exact uncancelled_continueLoop (fillRounds_started p hcalls _ t) ht
        · exact uncancelled_loop ht

theorem uncancelled_begin (hcalls : ∀ i, calls i = .started) (h : s.cancelRequested = false) :
    (s.begin p calls).Uncancelled := by
  unfold begin
  rw [if_neg (Bool.eq_false_iff.mp h)]
  obtain ⟨hcall, hrequest⟩ := startNext_started p hcalls { s with startedAt := s.now }
  split
  · next t hstart =>
    rw [hstart] at hrequest
    exact uncancelled_loop (hrequest.trans h)
  · next t exc hstart =>
    rw [hstart] at hcall
    cases hcall
  · next t hstart =>
    rw [hstart] at hcall
    cases hcall

theorem uncancelled_resume (hcalls : ∀ i, calls i = .started) (h : s.Uncancelled) :
    (s.resume p calls).Uncancelled := by
  obtain ⟨hrequest, hphase⟩ := h
  unfold resume
  dsimp only
  split
  · rw [hrequest, if_neg Bool.false_ne_true]
    exact uncancelled_afterWait hcalls rfl
  · rw [hrequest, if_neg Bool.false_ne_true]
    exact ⟨rfl, by intro haborting; cases haborting⟩
  · next haborting => exact absurd haborting hphase
  · exact ⟨hrequest, hphase⟩

theorem uncancelled_step {ev : RaceEvent V} (h : s.Uncancelled) (hev : Calm ev) :
    (s.step p ev).Uncancelled := by
  cases ev with
  | begin calls =>
    simp only [step]
    split
    · exact uncancelled_begin hev h.1
    · exact h
  | elapse seconds => exact h
  | finish i outcome => exact h
  | callback i =>
    simp only [step]
    split
    · exact h
    · exact h
  | timeout =>
    simp only [step]
    split
    · split
      · exact ⟨h.1, by intro haborting; cases haborting⟩
      · exact h
    · exact h
  | cancel => exact hev.elim
  | resume calls =>
    simp only [step]
    split
    · exact uncancelled_resume hev h
    · exact h

theorem undisturbed_of_calm {now : ℚ} {es : List (RaceEvent V)} (h : ∀ ev ∈ es, Calm ev) :
    Along (step p) Undisturbed (new now) es := by
  refine along_of_invariant (I := Uncancelled) (fun s ev hs hev => ?_)
    ⟨rfl, by intro haborting; cases haborting⟩ (along_of_mem _ h)
  refine ⟨uncancelled_step hs hev, ?_⟩
  cases ev with
  | resume calls =>
    refine fun _ => ⟨⟨fun j exc hraised => ?_, fun j hcancelled => ?_⟩, fun hrequest => ?_⟩
    · cases (hev j).symm.trans hraised
    · cases (hev j).symm.trans hcancelled
    · cases hs.1.symm.trans hrequest
  | finish i outcome => exact fun haborting => absurd haborting hs.2
  | _ => trivial

end Calm

section Example

theorem no_delay_nonneg : (0 : ℚ) ≤ 0 := le_rfl

def twoProviders : SelectedProviders where
  ids := ["a", "b"]
  delay := 0
  maxConcurrency := 2
  ids_nodup := by decide
  ids_nonempty := by decide
  delay_nonneg := no_delay_nonneg
  maxConcurrency_pos := by decide
  maxConcurrency_le := by decide

def backupRun : List (RaceEvent Nat) :=
  [.begin fun _ => .started, .timeout, .resume fun _ => .started, .finish 1 (.value 7),
    .callback 1, .resume fun _ => .started, .finish 0 .cancelled, .resume fun _ => .started]

theorem hedged_race_backup_answers : WellRun twoProviders 0 backupRun ∧
    (after twoProviders 0 backupRun).called = [0, 1] ∧
    (after twoProviders 0 backupRun).phase = .exited (.returned ⟨7, 1, "b", ["a", "b"], 0⟩) := by
  have hcalm : ∀ ev ∈ backupRun, Calm ev := by
    simp [backupRun, Calm]
  refine ⟨hedged_race twoProviders 0 backupRun (undisturbed_of_calm hcalm), ?_, ?_⟩
  · simp [backupRun, after, step, begin, new, startNext, twoProviders, loop, ready, resume,
      afterWait, isDone, outcomeOf, attempt, fillOpenSlots, fillRounds, continueLoop, exit,
      finished, settle, close, result]
  · simp [backupRun, after, step, begin, new, startNext, twoProviders, loop, ready, resume,
      afterWait, isDone, outcomeOf, attempt, fillOpenSlots, fillRounds, continueLoop, exit,
      finished, settle, close, result, attemptedProviderIds]

/-- The call for the second provider raises while the first attempt is running, which the race
leaves behind. -/
theorem backup_raise_orphans :
    ¬ ∀ (p : SelectedProviders) (now : ℚ) (es : List (RaceEvent Nat)), WellRun p now es := by
  intro h
  have hrun := h twoProviders 0 [.begin fun _ => .started, .timeout,
    .resume fun _ => .raised ⟨"ValueError", "no endpoint"⟩]
  have hphase : (after (V := Nat) twoProviders 0 [.begin fun _ => .started, .timeout,
      .resume fun _ => .raised ⟨"ValueError", "no endpoint"⟩]).phase =
      .exited (.raised ⟨"ValueError", "no endpoint"⟩) := by
    simp [after, step, begin, new, startNext, twoProviders, loop, ready, resume, afterWait, isDone,
      outcomeOf, attempt, fillOpenSlots, fillRounds, continueLoop, exit]
  have hsettled := hrun.settled _ hphase
  simp [after, step, begin, new, startNext, twoProviders, loop, ready, resume, afterWait, isDone,
    outcomeOf, attempt, fillOpenSlots, fillRounds, continueLoop, exit, running] at hsettled

end Example

end HedgedRace

end Pitwall.Routing
