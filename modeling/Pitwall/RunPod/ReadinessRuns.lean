import Mathlib.Algebra.Order.Floor.Semiring
import Mathlib.Data.Rat.Floor
import Mathlib.Tactic.Linarith
import Pitwall.Library.Counting
import Pitwall.RunPod.Readiness
set_option autoImplicit false

/-!
What holds of every wait for a pod: it ends, in time, and a pod it returns has shown the three
signals.
-/

namespace Pitwall

theorem set_eq_setEntry (d : JsonObject) (key : String) (value : Json) :
    d.set key value = setEntry key value d := by
  induction d with
  | nil => rfl
  | cons entry d ih =>
    obtain ⟨k, v⟩ := entry
    by_cases hkey : k = key
    · rw [JsonObject.set, if_pos hkey, setEntry, if_pos hkey, hkey]
    · rw [JsonObject.set, if_neg hkey, setEntry, if_neg hkey, ih]

theorem get?_set (d : JsonObject) (key k : String) (value : Json) :
    (d.set key value).get? k = if k = key then some value else d.get? k := by
  rw [set_eq_setEntry]
  exact lookup_setEntry

theorem get_set_ne (d : JsonObject) {key k : String} (value : Json) (h : k ≠ key) :
    (d.set key value).get k = d.get k := by
  rw [JsonObject.get, get?_set, if_neg h, JsonObject.get]

theorem get_set_self (d : JsonObject) (key : String) (value : Json) :
    (d.set key value).get key = value := by
  rw [JsonObject.get, get?_set, if_pos rfl, Option.getD_some]

theorem get_foldl_set {entries : List (String × String)} (hkeys : (entries.map Prod.fst).Nodup)
    {kv : String × String} (hmem : kv ∈ entries) (d : JsonObject) :
    JsonObject.get (entries.foldl (fun d e => JsonObject.set d e.1 (.str e.2)) d) kv.1 =
      .str kv.2 := by
  have hkeep : ∀ (rest : List (String × String)) (d : JsonObject),
      kv.1 ∉ rest.map Prod.fst →
        JsonObject.get (rest.foldl (fun d e => JsonObject.set d e.1 (.str e.2)) d) kv.1 =
          d.get kv.1 := by
    intro rest
    induction rest with
    | nil => exact fun d _ => rfl
    | cons e rest ih =>
      intro d hnot
      rw [List.map_cons, List.mem_cons, not_or] at hnot
      rw [List.foldl_cons, ih _ hnot.2, get_set_ne d _ hnot.1]
  induction entries generalizing d with
  | nil => cases hmem
  | cons e entries ih =>
    obtain ⟨hnew, hrest⟩ := List.nodup_cons.mp hkeys
    rcases List.mem_cons.mp hmem with rfl | hmem
    · rw [List.foldl_cons, hkeep entries _ hnew, get_set_self]
    · exact ih hrest hmem _

def SameSignals (pod pod' : JsonObject) : Prop :=
  pod.get "runtime" = pod'.get "runtime" ∧ pod.get "portMappings" = pod'.get "portMappings"

structure ReadinessSignals.Keeps (signals signals' : ReadinessSignals) : Prop where
  runtime : ∀ t, signals.runtimeSeenAt = some t → signals'.runtimeSeenAt = some t
  portMappings : ∀ t, signals.portMappingsSeenAt = some t → signals'.portMappingsSeenAt = some t
  probe : ∀ t, signals.probePassedAt = some t → signals'.probePassedAt = some t

/-- The pod carries the signals in its `readiness`. -/
def Attached (pod : JsonObject) (signals : ReadinessSignals) : Prop :=
  ∃ readiness, pod.get "readiness" = .obj readiness ∧
    ∀ kv ∈ signals.asDict, JsonObject.get readiness kv.1 = .str kv.2

def Observation.Passed (o : Observation) : Prop :=
  ∃ probe proxyUrl, o.probe = .ok (probe, proxyUrl) ∧ probe.healthy = true

section Signals
variable {pod pod' : JsonObject} {signals signals' : ReadinessSignals} {o : Observation}

theorem SameSignals.runtime (h : SameSignals pod pod') :
    podHasRuntimeSignal pod = podHasRuntimeSignal pod' := by
  rw [podHasRuntimeSignal, podHasRuntimeSignal, h.1]

theorem SameSignals.portMappings (h : SameSignals pod pod') :
    podHasPortMappingsSignal pod = podHasPortMappingsSignal pod' := by
  rw [podHasPortMappingsSignal, podHasPortMappingsSignal, h.1, h.2]

theorem sameSignals_set {key : String} (value : Json) (hruntime : "runtime" ≠ key)
    (hports : "portMappings" ≠ key) : SameSignals (pod.set key value) pod :=
  ⟨get_set_ne pod value hruntime, get_set_ne pod value hports⟩

theorem SameSignals.trans {pod'' : JsonObject} (h : SameSignals pod pod')
    (h' : SameSignals pod' pod'') : SameSignals pod pod'' :=
  ⟨h.1.trans h'.1, h.2.trans h'.2⟩

theorem sameSignals_attach : SameSignals (attachReadinessSignals pod signals) pod :=
  sameSignals_set _ (by decide) (by decide)

theorem sameSignals_setdefault (value : Json) :
    SameSignals (pod.setdefault "proxyUrl" value) pod := by
  unfold JsonObject.setdefault
  split
  · exact ⟨rfl, rfl⟩
  · exact sameSignals_set value (by decide) (by decide)

theorem asDict_nodup (signals : ReadinessSignals) : (signals.asDict.map Prod.fst).Nodup := by
  obtain ⟨runtime, portMappings, probe, method⟩ := signals
  cases runtime <;> cases portMappings <;> cases probe <;> cases method <;>
    simp [ReadinessSignals.asDict]

theorem attached_attach : Attached (attachReadinessSignals pod signals) signals :=
  ⟨_, get_set_self _ _ _, fun _ hkv => get_foldl_set (asDict_nodup signals) hkv _⟩

theorem ReadinessSignals.Keeps.refl (signals : ReadinessSignals) : signals.Keeps signals :=
  ⟨fun _ h => h, fun _ h => h, fun _ h => h⟩

theorem ReadinessSignals.Keeps.trans {signals'' : ReadinessSignals} (h : signals.Keeps signals')
    (h' : signals'.Keeps signals'') : signals.Keeps signals'' :=
  ⟨fun t ht => h'.runtime t (h.runtime t ht), fun t ht => h'.portMappings t (h.portMappings t ht),
    fun t ht => h'.probe t (h.probe t ht)⟩

theorem fill_keeps {seen : Option String} {shown : Bool} {now t : String} (h : seen = some t) :
    (if seen.isNone && shown then some now else seen) = some t := by
  rw [h]
  rfl

theorem fill_shown {seen : Option String} {shown : Bool} {now : String}
    (h : (if seen.isNone && shown then some now else seen).isSome = true) :
    seen.isSome = true ∨ shown = true := by
  cases seen with
  | some t => exact .inl rfl
  | none => cases shown with
    | true => exact .inr rfl
    | false => cases h

theorem observePod_keeps : signals.Keeps (observePod o pod signals) :=
  ⟨fun _ ht => fill_keeps ht, fun _ ht => fill_keeps ht, fun _ ht => ht⟩

theorem sameSignals_probed (proxyUrl : Option String) :
    SameSignals (probedPod proxyUrl pod) pod := by
  cases proxyUrl with
  | none => exact ⟨rfl, rfl⟩
  | some url => exact sameSignals_setdefault _

theorem probedSignals_runtime (probe : PodProbeResult) :
    (probedSignals o probe signals).runtimeSeenAt = signals.runtimeSeenAt := by
  unfold probedSignals
  split <;> rfl

theorem probedSignals_portMappings (probe : PodProbeResult) :
    (probedSignals o probe signals).portMappingsSeenAt = signals.portMappingsSeenAt := by
  unfold probedSignals
  split <;> rfl

/-- An observation keeps the signals, and a new one is shown by the pod or by the probe. -/
structure Observes (o : Observation) (pod pod' : JsonObject)
    (signals signals' : ReadinessSignals) : Prop where
  same : SameSignals pod' pod
  attached : Attached pod' signals'
  keeps : signals.Keeps signals'
  runtime : signals'.runtimeSeenAt.isSome = true →
    signals.runtimeSeenAt.isSome = true ∨ podHasRuntimeSignal pod = true
  portMappings : signals'.portMappingsSeenAt.isSome = true →
    signals.portMappingsSeenAt.isSome = true ∨ podHasPortMappingsSignal pod = true
  probe : signals'.probePassedAt.isSome = true → signals.probePassedAt.isSome = true ∨ o.Passed

theorem observe_ok (h : observeReadinessSignals o pod signals = .ok (pod', signals')) :
    Observes o pod pod' signals signals' := by
  have hkeeps : signals.Keeps (observePod o pod signals) := observePod_keeps
  by_cases hprobing : ((observePod o pod signals).probePassedAt.isNone &&
      (observePod o pod signals).portMappingsSeenAt.isSome) = true
  · simp only [observeReadinessSignals, if_pos hprobing] at h
    cases hprobe : o.probe with
    | error exc =>
      rw [hprobe] at h
      cases h
    | ok made =>
      obtain ⟨probe, proxyUrl⟩ := made
      simp only [hprobe, Except.ok.injEq, Prod.mk.injEq] at h
      obtain ⟨rfl, rfl⟩ := h
      have hmissing : signals.probePassedAt = none := by
        rw [Bool.and_eq_true, Option.isNone_iff_eq_none] at hprobing
        exact hprobing.1
      refine ⟨sameSignals_attach.trans (sameSignals_probed _), attached_attach, ?_, ?_, ?_, ?_⟩
      · refine ⟨?_, ?_, fun t ht => ?_⟩
        · rw [probedSignals_runtime]
          exact hkeeps.runtime
        · rw [probedSignals_portMappings]
          exact hkeeps.portMappings
        · rw [hmissing] at ht
          cases ht
      · rw [probedSignals_runtime]
        exact fill_shown
      · rw [probedSignals_portMappings]
        exact fill_shown
      · intro hsome
        cases hhealthy : probe.healthy with
        | false =>
          rw [probedSignals, hhealthy, if_neg Bool.false_ne_true] at hsome
          exact .inl hsome
        | true => exact .inr ⟨probe, proxyUrl, hprobe, hhealthy⟩
  · simp only [observeReadinessSignals, if_neg hprobing, Except.ok.injEq, Prod.mk.injEq] at h
    obtain ⟨rfl, rfl⟩ := h
    exact ⟨sameSignals_attach, attached_attach, hkeeps, fill_shown, fill_shown, .inl⟩

end Signals

namespace ReadinessWait
variable (text : PyText) (call : ReadinessWait)

theorem nap_ok {remaining nap : ℚ} (h : call.nap remaining = .ok nap) :
    nap ≤ remaining ∧ (nap = remaining ∨ 1 / 10 ≤ nap) := by
  have hmin : ∀ poll : ℚ, 1 / 10 ≤ poll →
      min poll remaining ≤ remaining ∧ (min poll remaining = remaining ∨
        1 / 10 ≤ min poll remaining) := by
    intro poll hpoll
    refine ⟨min_le_right _ _, ?_⟩
    rcases min_choice poll remaining with hleft | hright
    · exact .inr (by rw [hleft]; exact hpoll)
    · exact .inl hright
  unfold ReadinessWait.nap at h
  split at h
  · cases h
    exact hmin _ (le_max_right _ _)
  · cases h
    exact ⟨le_rfl, .inl rfl⟩
  · cases h
    exact hmin _ le_rfl
  · cases h

def Slept (clock clock' : ℚ) : Prop :=
  ∃ nap, call.nap (call.timeoutS - clock) = .ok nap ∧ 0 < call.timeoutS - clock ∧
    clock' = clock + nap

/-- What a turn does after its observation: it goes on with a pod that RunPod returned, later and
with the same signals, or it ends, at once or after its sleep, and returns a pod only where the
signals are complete. -/
def StepSound (get : GetOutcome) (s : WaitState) : WaitStep → Prop
  | .next s' => s'.signals = s.signals ∧ call.Slept s.clock s'.clock ∧
      ∃ pod, getPodSync call.podId get = .ok (some pod) ∧ SameSignals s'.latest pod
  | .done outcome clock => (clock = s.clock ∨ call.Slept s.clock clock) ∧
      ∀ pod, outcome = .ready pod → s.signals.complete = true ∧ pod = s.latest

variable {text} {call} {get : GetOutcome} {s : WaitState}

theorem stepSound_raised (exc : PyError) : call.StepSound get s (.done (.raised exc) s.clock) :=
  ⟨.inl rfl, fun pod hready => by cases hready⟩

theorem refresh_sound {attach : Option ℚ} {nap : ℚ}
    (hnap : call.nap (call.timeoutS - s.clock) = .ok nap) (hleft : 0 < call.timeoutS - s.clock) :
    call.StepSound get s
      (call.refresh get { s with clock := s.clock + nap, attach := attach }) := by
  have hslept : call.Slept s.clock (s.clock + nap) := ⟨nap, hnap, hleft, rfl⟩
  unfold refresh
  cases hget : getPodSync call.podId get with
  | error e => exact ⟨.inr hslept, fun pod hready => by cases hready⟩
  | ok found =>
    cases found with
    | none => exact ⟨.inr hslept, fun pod hready => by cases hready⟩
    | some refreshed =>
      refine ⟨rfl, hslept, refreshed, hget, sameSignals_attach.trans ?_⟩
      split
      · exact sameSignals_set _ (by decide) (by decide)
      · exact ⟨rfl, rfl⟩

theorem afterObservation_sound : call.StepSound get s (call.afterObservation text get s) := by
  unfold afterObservation
  by_cases hcomplete : s.signals.complete = true
  · rw [if_pos hcomplete]
    exact ⟨.inl rfl, fun pod hready => ⟨hcomplete, (WaitOutcome.ready.inj hready).symm⟩⟩
  rw [if_neg hcomplete]
  cases podRuntimeState text s.latest with
  | error exc => exact stepSound_raised exc
  | ok state =>
    by_cases hfailed : asciiLower state ∈ failedStartupStates
    · simp only [if_pos hfailed]
      exact ⟨.inl rfl, fun pod hready => by cases hready⟩
    simp only [if_neg hfailed]
    cases call.attachFor text s with
    | error exc => exact stepSound_raised exc
    | ok attach =>
      cases hhung : attachHung text attach s with
      | error exc =>
        simp only [hhung]
        exact stepSound_raised exc
      | ok hung =>
        cases hung with
        | some timeout =>
          simp only [hhung]
          exact ⟨.inl rfl, fun pod hready => by cases hready⟩
        | none =>
          simp only [hhung]
          by_cases hleft : call.timeoutS - s.clock ≤ 0
          · rw [if_pos hleft]
            exact ⟨.inl rfl, fun pod hready => by cases hready⟩
          · rw [if_neg hleft]
            cases hnap : call.nap (call.timeoutS - s.clock) with
            | error exc => exact stepSound_raised exc
            | ok nap => exact refresh_sound hnap (not_le.mp hleft)

/-- The pods of the first `n` turns: the initial one, and those RunPod returned between them. -/
def Shown (call : ReadinessWait) (world : ℕ → WaitRound) (n : ℕ) (pod : JsonObject) : Prop :=
  pod = call.latest ∨ ∃ i, i + 1 < n ∧ getPodSync call.podId (world i).get = .ok (some pod)

/-- Each of the signals was recorded in the initial pod, or has been observed before turn `n`. -/
structure Observed (text : PyText) (call : ReadinessWait) (first : Observation)
    (world : ℕ → WaitRound) (n : ℕ) (signals : ReadinessSignals) : Prop where
  runtime : signals.runtimeSeenAt.isSome = true →
    (ReadinessSignals.fromPod text call.latest).runtimeSeenAt.isSome = true ∨
      ∃ pod, Shown call world n pod ∧ podHasRuntimeSignal pod = true
  portMappings : signals.portMappingsSeenAt.isSome = true →
    (ReadinessSignals.fromPod text call.latest).portMappingsSeenAt.isSome = true ∨
      ∃ pod, Shown call world n pod ∧ podHasPortMappingsSignal pod = true
  probe : signals.probePassedAt.isSome = true →
    (ReadinessSignals.fromPod text call.latest).probePassedAt.isSome = true ∨ first.Passed ∨
      ∃ i < n, (world i).observation.Passed

/-- What holds of a run of the wait: it is over in time, a signal once seen is in all that follows,
and a pod that is returned carries three signals that were observed. -/
structure RunSound (text : PyText) (call : ReadinessWait) (first : Observation)
    (world : ℕ → WaitRound) (run : WaitRun) : Prop where
  in_time : run.clock ≤ call.timeoutS
  sticky : run.history.Pairwise ReadinessSignals.Keeps
  ready : ∀ pod, run.outcome = .ready pod → ∃ signals, run.history.getLast? = some signals ∧
    signals.complete = true ∧ Attached pod signals ∧
      Observed text call first world run.rounds signals

/-- The invariant of the loop, before turn `n`. -/
structure LoopInv (text : PyText) (call : ReadinessWait) (first : Observation)
    (world : ℕ → WaitRound) (n : ℕ) (s : WaitState) : Prop where
  in_time : s.clock ≤ call.timeoutS
  observed : Observed text call first world n s.signals
  latest : ∃ pod, Shown call world (n + 1) pod ∧ SameSignals s.latest pod

section Runs
variable {first : Observation} {world : ℕ → WaitRound} {n : ℕ} {signals : ReadinessSignals}
  {pod pod' : JsonObject} {step : WaitStep} {run : WaitRun}

theorem Shown.succ (h : Shown call world n pod) : Shown call world (n + 1) pod := by
  rcases h with rfl | ⟨i, hi, hget⟩
  · exact .inl rfl
  · exact .inr ⟨i, by omega, hget⟩

theorem Observed.succ (h : Observed text call first world n signals) :
    Observed text call first world (n + 1) signals where
  runtime hsome := (h.runtime hsome).imp_right fun ⟨pod, hshown, hpod⟩ => ⟨pod, hshown.succ, hpod⟩
  portMappings hsome :=
    (h.portMappings hsome).imp_right fun ⟨pod, hshown, hpod⟩ => ⟨pod, hshown.succ, hpod⟩
  probe hsome := (h.probe hsome).imp_right <| .imp_right fun ⟨i, hi, hpassed⟩ =>
    ⟨i, Nat.lt_succ_of_lt hi, hpassed⟩

theorem Observed.observe {o : Observation} {signals' : ReadinessSignals}
    (h : Observed text call first world n signals) {shown : JsonObject}
    (hshown : Shown call world n shown) (hsame : SameSignals pod shown)
    (hobs : Observes o pod pod' signals signals')
    (hpassed : o.Passed → first.Passed ∨ ∃ i < n, (world i).observation.Passed) :
    Observed text call first world n signals' where
  runtime hsome := (hobs.runtime hsome).elim h.runtime fun hpod =>
    .inr ⟨shown, hshown, hsame.runtime ▸ hpod⟩
  portMappings hsome := (hobs.portMappings hsome).elim h.portMappings fun hpod =>
    .inr ⟨shown, hshown, hsame.portMappings ▸ hpod⟩
  probe hsome := (hobs.probe hsome).elim h.probe fun ho => .inr (hpassed ho)

theorem turn_sound (hinv : LoopInv text call first world n s)
    (hturn : call.turn text (world n) s = (signals, step)) :
    s.signals.Keeps signals ∧ Observed text call first world (n + 1) signals ∧
      match step with
      | .next s' => LoopInv text call first world (n + 1) s' ∧ s'.signals = signals ∧
          call.Slept s.clock s'.clock
      | .done outcome clock => clock ≤ call.timeoutS ∧
          ∀ pod, outcome = .ready pod → signals.complete = true ∧ Attached pod signals := by
  have hslept : ∀ clock, call.Slept s.clock clock → clock ≤ call.timeoutS := by
    rintro clock ⟨nap, hnap, -, rfl⟩
    obtain ⟨hle, -⟩ := nap_ok call hnap
    linarith
  obtain ⟨shown, hshown, hsame⟩ := hinv.latest
  unfold turn at hturn
  cases hobserve : observeReadinessSignals (world n).observation s.latest s.signals with
  | error exc =>
    rw [hobserve] at hturn
    cases hturn
    exact ⟨.refl _, hinv.observed.succ, hinv.in_time, fun pod hready => by cases hready⟩
  | ok observed =>
    obtain ⟨latest, signals'⟩ := observed
    have hobs := observe_ok hobserve
    simp only [hobserve, Prod.mk.injEq] at hturn
    obtain ⟨rfl, hstep⟩ := hturn
    have hsound := @afterObservation_sound text call (world n).get
      { s with latest := latest, signals := signals' }
    rw [hstep] at hsound
    have hobserved := hinv.observed.succ.observe hshown hsame hobs
      fun hpassed => .inr ⟨n, Nat.lt_succ_self n, hpassed⟩
    refine ⟨hobs.keeps, hobserved, ?_⟩
    cases step with
    | next s' =>
      obtain ⟨hsignals, hclock, pod, hget, hlatest⟩ := hsound
      refine ⟨⟨hslept _ hclock, ?_, pod, .inr ⟨n, Nat.lt_succ_self _, hget⟩, hlatest⟩, hsignals,
        hclock⟩
      rw [hsignals]
      exact hobserved
    | done outcome clock =>
      obtain ⟨hclock, hready⟩ := hsound
      refine ⟨?_, fun pod hpod => ?_⟩
      · rcases hclock with rfl | hclock
        · exact hinv.in_time
        · exact hslept _ hclock
      · obtain ⟨hcomplete, rfl⟩ := hready pod hpod
        exact ⟨hcomplete, hobs.attached⟩

theorem loop_sound {fuel : ℕ} (hinv : LoopInv text call first world n s)
    (hrun : call.loop text world fuel n s = some run) :
    (∀ later ∈ run.history, s.signals.Keeps later) ∧ RunSound text call first world run := by
  induction fuel generalizing n s run with
  | zero => cases hrun
  | succ fuel ih =>
    rw [loop] at hrun
    cases hturn : call.turn text (world n) s with
    | mk signals step =>
      rw [hturn] at hrun
      obtain ⟨hkeeps, hobserved, hstep⟩ := turn_sound hinv hturn
      cases step with
      | done outcome clock =>
        obtain ⟨hclock, hready⟩ := hstep
        cases hrun
        refine ⟨List.forall_mem_singleton.2 hkeeps, hclock, List.pairwise_singleton _ _, ?_⟩
        intro pod hpod
        obtain ⟨hcomplete, hattached⟩ := hready pod hpod
        exact ⟨signals, rfl, hcomplete, hattached, hobserved⟩
      | next s' =>
        obtain ⟨hinv', hsignals, -⟩ := hstep
        obtain ⟨rest, hrest, rfl⟩ := Option.map_eq_some_iff.mp hrun
        obtain ⟨hlater, hsound⟩ := ih hinv' hrest
        rw [hsignals] at hlater
        refine ⟨List.forall_mem_cons.2 ⟨hkeeps, fun later hmem => hkeeps.trans (hlater later hmem)⟩,
          hsound.in_time, List.pairwise_cons.2 ⟨hlater, hsound.sticky⟩, fun pod hpod => ?_⟩
        obtain ⟨last, hlast, hpod⟩ := hsound.ready pod hpod
        exact ⟨last, by rw [List.getLast?_cons, hlast]; rfl, hpod⟩

theorem loop_ends {k : ℕ} (hinv : LoopInv text call first world n s)
    (hk : call.timeoutS - s.clock ≤ k / 10) :
    ∃ run, call.loop text world (k + 1) n s = some run := by
  induction k generalizing n s with
  | zero =>
    rw [loop]
    cases hturn : call.turn text (world n) s with
    | mk signals step =>
      obtain ⟨-, -, hstep⟩ := turn_sound hinv hturn
      cases step with
      | done outcome clock => exact ⟨_, rfl⟩
      | next s' =>
        obtain ⟨-, -, nap, -, hleft, -⟩ := hstep
        rw [Nat.cast_zero, zero_div] at hk
        exact absurd hk (not_le.mpr hleft)
  | succ k ih =>
    rw [loop]
    cases hturn : call.turn text (world n) s with
    | mk signals step =>
      obtain ⟨-, -, hstep⟩ := turn_sound hinv hturn
      cases step with
      | done outcome clock => exact ⟨_, rfl⟩
      | next s' =>
        obtain ⟨hinv', -, nap, hnap, hleft, hclock⟩ := hstep
        have hremaining : call.timeoutS - s'.clock ≤ k / 10 := by
          rw [hclock]
          rcases (nap_ok call hnap).2 with hall | htenth
          · rw [hall]
            have hnonneg : (0 : ℚ) ≤ k / 10 := by positivity
            linarith
          · push_cast at hk
            linarith
        obtain ⟨run, hrun⟩ := ih hinv' hremaining
        exact ⟨{ run with history := signals :: run.history }, by simp only [hrun, Option.map_some]⟩

theorem loop_succ {fuel : ℕ} (hrun : call.loop text world fuel n s = some run) :
    call.loop text world (fuel + 1) n s = some run := by
  induction fuel generalizing n s run with
  | zero => cases hrun
  | succ fuel ih =>
    rw [loop] at hrun ⊢
    cases hturn : call.turn text (world n) s with
    | mk signals step =>
      rw [hturn] at hrun
      cases step with
      | done outcome clock => exact hrun
      | next s' =>
        obtain ⟨rest, hrest, rfl⟩ := Option.map_eq_some_iff.mp hrun
        simp only [ih hrest, Option.map_some]

theorem loop_mono {fuel fuel' : ℕ} (hrun : call.loop text world fuel n s = some run)
    (hle : fuel ≤ fuel') : call.loop text world fuel' n s = some run := by
  induction hle with
  | refl => exact hrun
  | step _ ih => exact loop_succ ih

end Runs

end ReadinessWait

open ReadinessWait in
/-- A wait with a timeout ends, whatever RunPod and the probes answer: after `10 · timeout_s` turns
and one more at the latest, and no later than `timeout_s` after it started. -/
theorem wait_ends_in_time (text : PyText) (call : ReadinessWait) (first : Observation)
    (world : ℕ → WaitRound) (htimeout : 0 < call.timeoutS) :
    ∃ run, (∀ fuel ≥ ⌈10 * call.timeoutS⌉₊ + 1,
      waitForPodRuntimeSync text call first world fuel = some run) ∧
        RunSound text call first world run := by
  have hrecorded : Observed text call first world 0 (.fromPod text call.latest) :=
    ⟨.inl, .inl, .inl⟩
  simp only [waitForPodRuntimeSync]
  cases hobserve : observeReadinessSignals first call.latest
      (ReadinessSignals.fromPod text call.latest) with
  | error exc =>
    exact ⟨_, fun fuel _ => rfl, htimeout.le, List.pairwise_singleton _ _,
      fun pod hready => by cases hready⟩
  | ok observed =>
    obtain ⟨latest, observed⟩ := observed
    have hobs := observe_ok hobserve
    have hinv : LoopInv text call first world 0 ⟨latest, observed, 0, none⟩ :=
      ⟨htimeout.le, hrecorded.observe (.inl rfl) ⟨rfl, rfl⟩ hobs .inl, call.latest, .inl rfl,
        hobs.same⟩
    have hk : call.timeoutS - 0 ≤ (⌈10 * call.timeoutS⌉₊ : ℚ) / 10 := by
      have hceil := Nat.le_ceil (10 * call.timeoutS)
      linarith
    obtain ⟨run, hrun⟩ := loop_ends hinv hk
    obtain ⟨hlater, hsound⟩ := loop_sound hinv hrun
    refine ⟨{ run with
        history := ReadinessSignals.fromPod text call.latest :: observed :: run.history },
      fun fuel hfuel => ?_, hsound.in_time, ?_, fun pod hpod => ?_⟩
    · simp only [if_neg (not_le.mpr htimeout), loop_mono hrun hfuel, Option.map_some]
    · refine List.pairwise_cons.2 ⟨?_, List.pairwise_cons.2 ⟨hlater, hsound.sticky⟩⟩
      exact List.forall_mem_cons.2 ⟨hobs.keeps, fun later hmem =>
        hobs.keeps.trans (hlater later hmem)⟩
    · obtain ⟨last, hlast, hpod⟩ := hsound.ready pod hpod
      exact ⟨last, by rw [List.getLast?_cons, List.getLast?_cons, hlast]; rfl, hpod⟩

def slowWait : ReadinessWait where
  podId := "p1"
  initial := none
  timeoutS := 600
  pollS := .finite 15
  volumeAttachTimeoutS := none
  volumeAttachTimeoutEnv := none

def slowRound : WaitRound where
  observation := ⟨"t1", "t2", "t3", .ok (⟨true, "runpod_proxy", some 200, none⟩, none)⟩
  get := .body (.obj [("runtime", .obj [("ports", .arr [.int 8000])])]) none

def waitText : PyText where
  str _ := "RUNNING"
  repr _ := "'RUNNING'"
  strip := strip
  upper := id
  parseFloat _ := none
  parseDecimal _ := .unparsable
  fixed2 _ := .ok "0.00"
  floatRepr _ := "0.0"

theorem wait_ends_in_time_on_slow_pod :
    ∃ run, waitForPodRuntimeSync waitText slowWait slowRound.observation (fun _ => slowRound) 6001 =
        some run ∧ run.clock = 15 ∧ run.rounds = 2 ∧
      ReadinessWait.RunSound waitText slowWait slowRound.observation (fun _ => slowRound) run := by
  obtain ⟨run, hrun, hsound⟩ := wait_ends_in_time waitText slowWait slowRound.observation
    (fun _ => slowRound) (by decide)
  have hfuel : ⌈10 * slowWait.timeoutS⌉₊ + 1 ≤ 6001 := by
    have hle : ⌈10 * slowWait.timeoutS⌉₊ ≤ 6000 := Nat.ceil_le.mpr (by norm_num [slowWait])
    omega
  have hends := hrun 6001 hfuel
  have hclock : ((waitForPodRuntimeSync waitText slowWait slowRound.observation
      (fun _ => slowRound) 6001).map fun run => (run.clock, run.rounds)) = some (15, 2) := by
    decide +kernel
  rw [hends, Option.map_some, Option.some_inj, Prod.mk.injEq] at hclock
  exact ⟨run, hends, hclock.1, hclock.2, hsound⟩

end Pitwall
