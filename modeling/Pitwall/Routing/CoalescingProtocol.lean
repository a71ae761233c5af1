import Pitwall.Routing.Coalescing
set_option autoImplicit false

/-!
The protocol of the coalescer, in every order of starts, ends, cancellations and resumptions.
-/

namespace Pitwall.Routing
open Machine

namespace CoalescedCall
variable {T : Type}

def joined : CoalescedCall T → Option Nat
  | .awaiting e _ | .returned e _ => some e
  | .cancelled joined => joined
  | .created _ | .refused _ => none

def awaits : CoalescedCall T → Option Nat
  | .awaiting e _ => some e
  | _ => none

theorem joined_of_awaits {call : CoalescedCall T} {e : Nat} (h : call.awaits = some e) :
    call.joined = some e := by
  cases call with
  | awaiting e' c => exact h
  | _ => cases h

end CoalescedCall

namespace Coalescer
variable {ι T : Type}

def waitersOf (s : Coalescer ι T) (e : Nat) : Set ι := {i | (s.calls i).awaits = some e}

def Pending (s : Coalescer ι T) (e : Nat) : Prop :=
  ∃ x, s.execution e = some x ∧ x.outcome = none

def Ended (s : Coalescer ι T) (e : Nat) (key : String) (outcome : TaskOutcome T) : Prop :=
  ∃ x, s.execution e = some x ∧ x.key = key ∧ x.outcome = some outcome

def Cancelled (s : Coalescer ι T) (e : Nat) : Prop :=
  ∃ x, s.execution e = some x ∧ x.cancelled = true

def ActiveFor (s : Coalescer ι T) (key : String) (e : Nat) : Prop :=
  ∃ x, s.execution e = some x ∧ x.key = key ∧ x.outcome = none ∧ x.cancelled = false

variable [DecidableEq ι]

structure Sound (key : ι → String) (s : Coalescer ι T) : Prop where
  entry : ∀ k e, s.inflight k = some e → ∃ x, s.execution e = some x ∧ x.key = k ∧
    x.cancelled = false ∧ x.waiters ≠ 0 ∧ (s.waitersOf e).encard = x.waiters
  loose : ∀ e x, s.execution e = some x → s.inflight x.key ≠ some e →
    x.outcome.isSome = true ∨ x.cancelled = true
  waiting : ∀ i e, (s.calls i).awaits = some e → ∃ x, s.execution e = some x ∧
    x.key = key i ∧ x.cancelled = false
  answered : ∀ i e outcome, s.calls i = .returned e outcome → ∃ x, s.execution e = some x ∧
    x.key = key i ∧ x.outcome = some outcome

section Steps
variable {key : ι → String} {s : Coalescer ι T} {i : ι}

theorem waitersOf_withCall (s : Coalescer ι T) (i : ι) (call : CoalescedCall T) (e : Nat) :
    (s.withCall i call).waitersOf e =
      if call.awaits = some e then insert i (s.waitersOf e) else s.waitersOf e \ {i} := by
  ext j
  by_cases hj : j = i
  · subst hj
    by_cases hawaits : call.awaits = some e <;> simp [waitersOf, hawaits]
  · have hcalls : (s.withCall i call).calls j = s.calls j := by rw [withCall_calls, if_neg hj]
    by_cases hawaits : call.awaits = some e <;> simp [waitersOf, hawaits, hcalls, hj]

omit [DecidableEq ι] in
theorem sound_new (key : ι → String) : Sound key (new : Coalescer ι T) where
  entry := by
    intro k e h
    cases h
  loose := by
    intro e x h
    simp [new, execution] at h
  waiting := by
    intro i e h
    cases h
  answered := by
    intro i e outcome h
    cases h

theorem sound_of_same_waits (h : Sound key s) {call : CoalescedCall T}
    (hawaits : call.awaits = (s.calls i).awaits)
    (hreturned : ∀ e outcome, call ≠ .returned e outcome) : Sound key (s.withCall i call) := by
  have hsame : ∀ j, ((s.withCall i call).calls j).awaits = (s.calls j).awaits := by
    intro j
    rw [withCall_calls]
    split
    · rename_i hj
      rw [hj, hawaits]
    · rfl
  refine ⟨fun k e hk => ?_, fun e x hx hk => h.loose e x hx hk, fun j e hj => ?_,
    fun j e outcome hj => ?_⟩
  · have hset : (s.withCall i call).waitersOf e = s.waitersOf e := by
      ext j
      simp only [waitersOf, Set.mem_ofPred_eq, hsame]
    rw [hset]
    exact h.entry k e hk
  · rw [hsame] at hj
    exact h.waiting j e hj
  · rw [withCall_calls] at hj
    split at hj
    · exact absurd hj (hreturned e outcome)
    · exact h.answered j e outcome hj

omit [DecidableEq ι] in
theorem sound_finish (h : Sound key s) (e : Nat) (outcome : TaskOutcome T) :
    Sound key (s.modify e fun x => { x with outcome := x.outcome.or (some outcome) }) := by
  have hexecution : ∀ e' x, s.execution e' = some x → ∃ x', (s.modify e fun x =>
      { x with outcome := x.outcome.or (some outcome) }).execution e' = some x' ∧
      x'.key = x.key ∧ x'.cancelled = x.cancelled ∧ x'.waiters = x.waiters ∧
      ∀ o, x.outcome = some o → x'.outcome = some o := by
    intro e' x hx
    rw [execution_modify, hx]
    split
    · exact ⟨_, rfl, rfl, rfl, rfl, fun o ho => by simp [ho]⟩
    · exact ⟨x, rfl, rfl, rfl, rfl, fun o ho => ho⟩
  refine ⟨fun k e' hk => ?_, fun e' x hx hk => ?_, fun j e' hj => ?_, fun j e' o hj => ?_⟩
  · obtain ⟨x, hx, hkey, hcancelled, hpos, hcount⟩ := h.entry k e' hk
    obtain ⟨x', hx', hkey', hcancelled', hwaiters', -⟩ := hexecution e' x hx
    exact ⟨x', hx', hkey'.trans hkey, hcancelled'.trans hcancelled, hwaiters' ▸ hpos,
      hwaiters' ▸ hcount⟩
  · rw [execution_modify] at hx
    split at hx
    · obtain ⟨y, hy, rfl⟩ := Option.map_eq_some_iff.mp hx
      left
      cases y.outcome <;> rfl
    · exact h.loose e' x hx hk
  · obtain ⟨x, hx, hkey, hcancelled⟩ := h.waiting j e' hj
    obtain ⟨x', hx', hkey', hcancelled', -⟩ := hexecution e' x hx
    exact ⟨x', hx', hkey'.trans hkey, hcancelled'.trans hcancelled⟩
  · obtain ⟨x, hx, hkey, houtcome⟩ := h.answered j e' o hj
    obtain ⟨x', hx', hkey', -, -, houtcome'⟩ := hexecution e' x hx
    exact ⟨x', hx', hkey'.trans hkey, houtcome' o houtcome⟩

omit [DecidableEq ι] in
theorem not_awaits_of_created {b : Bool} (hi : s.calls i = .created b) (e : Nat) :
    i ∉ s.waitersOf e := by
  simp [waitersOf, hi, CoalescedCall.awaits]

omit [DecidableEq ι] in
theorem join_spec (h : Sound key s) (k : String) : ∃ x,
    (s.join k).execution (s.executionFor k) = some x ∧ x.key = k ∧ x.cancelled = false ∧
    (s.waitersOf (s.executionFor k)).encard + 1 = x.waiters ∧
    (s.join k).inflight = Function.update s.inflight k (some (s.executionFor k)) := by
  unfold executionFor join
  cases hk : s.inflight k with
  | some e =>
    obtain ⟨x, hx, hkey, hcancelled, -, hcount⟩ := h.entry k e hk
    refine ⟨{ x with waiters := x.waiters + 1 }, ?_, hkey, hcancelled, ?_, ?_⟩
    · rw [Option.getD_some, execution_modify, if_pos rfl, hx]
      rfl
    · rw [Option.getD_some, hcount]
      norm_cast
    · rw [Option.getD_some, modify_inflight, ← hk, Function.update_eq_self]
  | none =>
    have hnobody : s.waitersOf s.executions.length = ∅ := by
      ext j
      simp only [waitersOf, Set.mem_ofPred_eq, Set.mem_empty_iff_false, iff_false]
      intro hj
      obtain ⟨x, hx, -⟩ := h.waiting j _ hj
      exact absurd (execution_lt s hx) (lt_irrefl _)
    refine ⟨⟨k, 1, none, false⟩, ?_, rfl, rfl, ?_, rfl⟩
    · simp [execution]
    · simp [hnobody]

omit [DecidableEq ι] in
theorem join_execution (s : Coalescer ι T) (k : String) {e : Nat} {y : InflightExecution T}
    (hy : s.execution e = some y) : ∃ y', (s.join k).execution e = some y' ∧ y'.key = y.key ∧
      y'.cancelled = y.cancelled ∧ y'.outcome = y.outcome := by
  unfold join
  split
  · rw [execution_modify, hy]
    split
    · exact ⟨_, rfl, rfl, rfl, rfl⟩
    · exact ⟨y, rfl, rfl, rfl, rfl⟩
  · refine ⟨y, ?_, rfl, rfl, rfl⟩
    exact (List.getElem?_append_left (execution_lt s hy)).trans hy

omit [DecidableEq ι] in
theorem join_execution_ne (s : Coalescer ι T) (k : String) {e : Nat} (he : e ≠ s.executionFor k) :
    (s.join k).execution e = s.execution e := by
  unfold executionFor at he
  unfold join
  cases hk : s.inflight k with
  | some e' =>
    rw [hk, Option.getD_some] at he
    rw [execution_modify, if_neg (Ne.symm he)]
  | none =>
    rw [hk, Option.getD_none] at he
    simp only [execution]
    by_cases hlt : e < s.executions.length
    · rw [List.getElem?_append_left hlt]
    · rw [List.getElem?_eq_none (by simp; omega), List.getElem?_eq_none (by omega)]

omit [DecidableEq ι] in
theorem tracked_ne_executionFor (h : Sound key s) {k k' : String} {e : Nat}
    (hk : s.inflight k' = some e) (hne : k' ≠ k) : e ≠ s.executionFor k := by
  obtain ⟨x, hx, hkey, -⟩ := h.entry k' e hk
  rintro rfl
  unfold executionFor at hx
  cases htracked : s.inflight k with
  | some e' =>
    rw [htracked, Option.getD_some] at hx
    obtain ⟨x', hx', hkey', -⟩ := h.entry k e' htracked
    obtain rfl := Option.some.inj (hx.symm.trans hx')
    exact hne (hkey.symm.trans hkey')
  | none =>
    rw [htracked, Option.getD_none] at hx
    exact absurd (execution_lt s hx) (lt_irrefl _)

theorem sound_join (h : Sound key s) {b : Bool} (hi : s.calls i = .created b) :
    Sound key ((s.join (key i)).withCall i (.awaiting (s.executionFor (key i)) false)) := by
  obtain ⟨x, hx, hkey, hcancelled, hcount, hinflight⟩ := join_spec h (key i)
  have hwaiters : ∀ e, ((s.join (key i)).withCall i
      (.awaiting (s.executionFor (key i)) false)).waitersOf e =
      if s.executionFor (key i) = e then insert i (s.waitersOf e) else s.waitersOf e := by
    intro e
    have hjoined : (s.join (key i)).waitersOf e = s.waitersOf e := by
      simp only [waitersOf, join_calls]
    rw [waitersOf_withCall, hjoined]
    simp only [CoalescedCall.awaits, Option.some.injEq]
    split
    · rfl
    · exact Set.sdiff_singleton_eq_self (not_awaits_of_created hi e)
  refine ⟨fun k e hk => ?_, fun e y hy hk => ?_, fun j e hj => ?_, fun j e outcome hj => ?_⟩
  · rw [withCall_inflight, hinflight, Function.update_apply] at hk
    split at hk
    · rename_i hkk
      obtain rfl := Option.some.inj hk
      refine ⟨x, hx, hkey.trans hkk.symm, hcancelled, fun hzero => ?_, ?_⟩
      · rw [hzero] at hcount
        simp at hcount
      · rw [hwaiters, if_pos rfl, Set.encard_insert_of_notMem (not_awaits_of_created hi _)]
        exact hcount
    · rename_i hkk
      have hne := tracked_ne_executionFor h hk hkk
      rw [hwaiters, if_neg (Ne.symm hne), withCall_execution, join_execution_ne s (key i) hne]
      exact h.entry k e hk
  · rw [withCall_execution] at hy
    rw [withCall_inflight, hinflight, Function.update_apply] at hk
    by_cases he : e = s.executionFor (key i)
    · subst he
      obtain rfl := Option.some.inj (hx.symm.trans hy)
      rw [if_pos hkey] at hk
      exact absurd rfl hk
    · rw [join_execution_ne s (key i) he] at hy
      refine h.loose e y hy (fun htracked => ?_)
      split at hk
      · rename_i hkk
        rw [hkk] at htracked
        exact he (by rw [executionFor, htracked]; rfl)
      · exact hk htracked
  · rw [withCall_calls] at hj
    split at hj
    · rename_i hji
      obtain rfl := Option.some.inj hj
      exact ⟨x, hx, by rw [hji, hkey], hcancelled⟩
    · rw [join_calls] at hj
      obtain ⟨y, hy, hykey, hycancelled⟩ := h.waiting j e hj
      obtain ⟨y', hy', hkey', hcancelled', -⟩ := join_execution s (key i) hy
      exact ⟨y', hy', hkey'.trans hykey, hcancelled'.trans hycancelled⟩
  · rw [withCall_calls] at hj
    split at hj
    · cases hj
    · rw [join_calls] at hj
      obtain ⟨y, hy, hykey, houtcome⟩ := h.answered j e outcome hj
      obtain ⟨y', hy', hkey', -, houtcome'⟩ := join_execution s (key i) hy
      exact ⟨y', hy', hkey'.trans hykey, houtcome'.trans houtcome⟩

omit [DecidableEq ι] in
theorem tracked_key (h : Sound key s) {k : String} {e : Nat} {x : InflightExecution T}
    (hk : s.inflight k = some e) (hx : s.execution e = some x) : x.key = k := by
  obtain ⟨y, hy, hkey, -⟩ := h.entry k e hk
  obtain rfl := Option.some.inj (hx.symm.trans hy)
  exact hkey

/-- What has become of the entry of the execution `e` that a call has left: it is kept for the
other waiters, or it is gone, now or since before. -/
inductive EntryLeft (s t : Coalescer ι T) (k : String) (e : Nat) (others : Set ι)
    (x' : InflightExecution T) : Prop
  | kept (tracked : s.inflight k = some e) (same : t.inflight = s.inflight)
      (running : x'.cancelled = false) (pos : x'.waiters ≠ 0) (count : others.encard = x'.waiters)
  | dropped (tracked : s.inflight k = some e)
      (forgotten : t.inflight = Function.update s.inflight k none)
      (ended : x'.outcome.isSome = true ∨ x'.cancelled = true)
  | missed (untracked : s.inflight k ≠ some e) (same : t.inflight = s.inflight)
      (ended : x'.outcome.isSome = true ∨ x'.cancelled = true)

omit [DecidableEq ι] in
theorem EntryLeft.inflight_sub {t : Coalescer ι T} {k k' : String} {e e' : Nat} {others : Set ι}
    {x' : InflightExecution T} (hentry : EntryLeft s t k e others x')
    (hk : t.inflight k' = some e') : s.inflight k' = some e' := by
  cases hentry with
  | kept tracked same running pos count => rwa [same] at hk
  | missed untracked same ended => rwa [same] at hk
  | dropped tracked forgotten ended =>
    rw [forgotten, Function.update_apply] at hk
    split at hk
    · cases hk
    · exact hk

omit [DecidableEq ι] in
theorem EntryLeft.inflight_other {t : Coalescer ι T} {k k' : String} {e e' : Nat} {others : Set ι}
    {x' : InflightExecution T} (hentry : EntryLeft s t k e others x') (hne : e' ≠ e)
    (hk : s.inflight k' = some e') : t.inflight k' = some e' := by
  cases hentry with
  | kept tracked same running pos count => rwa [same]
  | missed untracked same ended => rwa [same]
  | dropped tracked forgotten ended =>
    rw [forgotten, Function.update_apply, if_neg]
    · exact hk
    · rintro rfl
      exact hne (Option.some.inj (hk.symm.trans tracked))

/-- A call has left `e`, which others may go on waiting for; nothing else has changed. -/
theorem sound_of_leave (h : Sound key s) {e : Nat} {x x' : InflightExecution T}
    {t : Coalescer ι T} {call : CoalescedCall T} (hi : (s.calls i).awaits = some e)
    (hx : s.execution e = some x) (hcall : call.awaits = none)
    (hreturned : ∀ e' outcome, call = .returned e' outcome → e' = e ∧ x.outcome = some outcome)
    (hcalls : t.calls = (s.withCall i call).calls)
    (hexecution : ∀ e', e' ≠ e → t.execution e' = s.execution e')
    (hx' : t.execution e = some x') (hkey : x'.key = x.key) (houtcome : x'.outcome = x.outcome)
    (hwaiting : x'.cancelled = false ∨ s.waitersOf e = {i})
    (hentry : EntryLeft s t (key i) e (s.waitersOf e \ {i}) x') : Sound key t := by
  have hxkey : x.key = key i := by
    obtain ⟨y, hy, hykey, -⟩ := h.waiting i e hi
    obtain rfl := Option.some.inj (hx.symm.trans hy)
    exact hykey
  have hset : ∀ e', t.waitersOf e' = s.waitersOf e' \ {i} := by
    intro e'
    have hsame : t.waitersOf e' = (s.withCall i call).waitersOf e' := by
      simp only [waitersOf, hcalls]
    rw [hsame, waitersOf_withCall, if_neg (by simp [hcall])]
  have hset_ne : ∀ e', e' ≠ e → t.waitersOf e' = s.waitersOf e' := by
    intro e' hne
    rw [hset]
    refine Set.sdiff_singleton_eq_self (fun hmem => hne ?_)
    exact Option.some.inj (Eq.trans (Eq.symm hmem) hi)
  have hself : t.calls i = call := by rw [hcalls, withCall_self]
  have hother : ∀ j, j ≠ i → t.calls j = s.calls j := by
    intro j hj
    rw [hcalls, withCall_calls, if_neg hj]
  refine ⟨fun k e' hk => ?_, fun e' y hy hk => ?_, fun j e' hj => ?_, fun j e' o hj => ?_⟩
  · have hsk := hentry.inflight_sub hk
    by_cases he : e' = e
    · subst he
      obtain rfl := (tracked_key h hsk hx).symm.trans hxkey
      cases hentry with
      | kept tracked same running pos count =>
        exact ⟨x', hx', hkey.trans hxkey, running, pos, by rw [hset, count]⟩
      | dropped tracked forgotten ended =>
        rw [forgotten, Function.update_self] at hk
        cases hk
      | missed untracked same ended => exact absurd hsk untracked
    · rw [hexecution e' he, hset_ne e' he]
      exact h.entry k e' hsk
  · by_cases he : e' = e
    · subst he
      obtain rfl := Option.some.inj (hx'.symm.trans hy)
      cases hentry with
      | kept tracked same running pos count =>
        rw [hkey, hxkey, same] at hk
        exact absurd tracked hk
      | dropped tracked forgotten ended => exact ended
      | missed untracked same ended => exact ended
    · rw [hexecution e' he] at hy
      exact h.loose e' y hy (fun htracked => hk (hentry.inflight_other he htracked))
  · by_cases hj' : j = i
    · rw [hj', hself, hcall] at hj
      cases hj
    · rw [hother j hj'] at hj
      by_cases he : e' = e
      · subst he
        rcases hwaiting with hcancelled | honly
        · obtain ⟨z, hz, hzkey, -⟩ := h.waiting j e' hj
          obtain rfl := Option.some.inj (hx.symm.trans hz)
          exact ⟨x', hx', hkey.trans hzkey, hcancelled⟩
        · have hmem : j ∈ s.waitersOf e' := hj
          rw [honly] at hmem
          exact absurd hmem hj'
      · rw [hexecution e' he]
        exact h.waiting j e' hj
  · by_cases hj' : j = i
    · rw [hj', hself] at hj
      obtain ⟨rfl, ho⟩ := hreturned e' o hj
      exact ⟨x', hx', by rw [hj', hkey, hxkey], houtcome.trans ho⟩
    · rw [hother j hj'] at hj
      obtain ⟨z, hz, hzkey, ho⟩ := h.answered j e' o hj
      by_cases he : e' = e
      · subst he
        obtain rfl := Option.some.inj (hx.symm.trans hz)
        exact ⟨x', hx', hkey.trans hzkey, houtcome.trans ho⟩
      · exact ⟨z, (hexecution e' he).trans hz, hzkey, ho⟩

/-- `finally: await self._release_waiter(...)`, of a call that waits for `e`. -/
theorem sound_release (h : Sound key s) {e : Nat} {call : CoalescedCall T}
    (hi : (s.calls i).awaits = some e) (hcall : call.awaits = none)
    (hreturned : ∀ e' outcome, call = .returned e' outcome →
      e' = e ∧ s.outcomeOf e = some outcome) :
    Sound key ((s.releaseWaiter (key i) e).withCall i call) := by
  obtain ⟨x, hx, hxkey, hxcancelled⟩ := h.waiting i e hi
  have hmem : i ∈ s.waitersOf e := hi
  have hreturned' : ∀ e' outcome, call = .returned e' outcome →
      e' = e ∧ x.outcome = some outcome := by
    intro e' outcome hreturn
    obtain ⟨he, ho⟩ := hreturned e' outcome hreturn
    rw [outcomeOf, hx] at ho
    exact ⟨he, ho⟩
  have hcalls : ((s.releaseWaiter (key i) e).withCall i call).calls =
      (s.withCall i call).calls := by
    simp [withCall]
  have hothers : ∀ {n : Nat}, (s.waitersOf e).encard = n → (s.waitersOf e \ {i}).encard =
      ((n - 1 : Nat) : ℕ∞) := by
    intro n hn
    rw [Set.encard_sdiff_singleton_of_mem hmem, hn]
    norm_cast
  have hdropped : ∀ f : InflightExecution T → InflightExecution T, ∀ e', e' ≠ e →
      (s.modify e f).execution e' = s.execution e' := by
    intro f e' he
    rw [execution_modify, if_neg (Ne.symm he)]
  have hchanged : ∀ f : InflightExecution T → InflightExecution T,
      (s.modify e f).execution e = some (f x) := by
    intro f
    rw [execution_modify, if_pos rfl, hx]
    rfl
  have hrelease := release_cases s (k := key i) (e := e) (fun _ => ⟨x, hx⟩)
  revert hcalls
  generalize s.releaseWaiter (key i) e = r at hrelease ⊢
  cases hrelease with
  | untracked hk =>
    intro hcalls
    refine sound_of_leave h hi hx hcall hreturned' hcalls (fun _ _ => rfl) hx rfl rfl
      (.inl hxcancelled) (.missed hk rfl ?_)
    exact h.loose e x hx (by rw [hxkey]; exact hk)
  | done hk hx₀ hdone =>
    intro hcalls
    obtain rfl := Option.some.inj (hx.symm.trans hx₀)
    exact sound_of_leave h hi hx hcall hreturned' hcalls (hdropped _) (hchanged _) rfl rfl
      (.inl hxcancelled) (.dropped hk rfl (.inl hdone))
  | last hk hx₀ hpending hwaiters =>
    intro hcalls
    obtain rfl := Option.some.inj (hx.symm.trans hx₀)
    obtain ⟨y, hy, -, -, hpos, hcount⟩ := h.entry (key i) e hk
    obtain rfl := Option.some.inj (hx.symm.trans hy)
    have halone : s.waitersOf e = {i} := by
      have hempty := hothers hcount
      rw [hwaiters, Nat.cast_zero, Set.encard_eq_zero, Set.sdiff_eq_empty] at hempty
      exact Set.Subset.antisymm hempty (Set.singleton_subset_iff.mpr hmem)
    have hcancelled : ((((s.modify e fun x => { x with waiters := x.waiters - 1 }).modify e
        fun x => { x with cancelled := true }).forget (key i)).withCall i call).execution e =
        some { x with waiters := x.waiters - 1, cancelled := true } := by
      rw [withCall_execution, forget_execution, execution_modify, if_pos rfl, hchanged]
      rfl
    refine sound_of_leave h hi hx hcall hreturned' hcalls (fun e' he => ?_) hcancelled rfl rfl
      (.inr halone) (.dropped hk rfl (.inr rfl))
    rw [withCall_execution, forget_execution, execution_modify, if_neg (Ne.symm he)]
    exact hdropped _ e' he
  | shared hk hx₀ hpending hwaiters =>
    intro hcalls
    obtain rfl := Option.some.inj (hx.symm.trans hx₀)
    obtain ⟨y, hy, -, -, hpos, hcount⟩ := h.entry (key i) e hk
    obtain rfl := Option.some.inj (hx.symm.trans hy)
    exact sound_of_leave h hi hx hcall hreturned' hcalls (hdropped _) (hchanged _) rfl rfl
      (.inl hxcancelled) (.kept hk rfl hxcancelled hwaiters (hothers hcount))

/-- How a call ends that waits for `e`: cancelled, or with the outcome of `e`. -/
inductive EndsWith (s : Coalescer ι T) (e : Nat) : CoalescedCall T → Prop
  | cancelled : EndsWith s e (.cancelled (some e))
  | returned {outcome : TaskOutcome T} (h : s.outcomeOf e = some outcome) :
      EndsWith s e (.returned e outcome)

inductive StepCase (key : ι → String) (s : Coalescer ι T) :
    CoalescerEvent ι T → Coalescer ι T → Prop
  | idle (ev : CoalescerEvent ι T) : StepCase key s ev s
  | refused {i : ι} (created : s.calls i = .created false) (empty : key i = "") :
      StepCase key s (.start i) (s.withCall i (.refused emptyKeyError))
  | unstarted {i : ι} (created : s.calls i = .created true) :
      StepCase key s (.start i) (s.withCall i (.cancelled none))
  | stopped {i : ι} {b : Bool} (created : s.calls i = .created b) :
      StepCase key s (.cancel i) (s.withCall i (.created true))
  | interrupted {i : ι} {e : Nat} {b : Bool} (awaiting : s.calls i = .awaiting e b) :
      StepCase key s (.cancel i) (s.withCall i (.awaiting e true))
  | joins {i : ι} (created : s.calls i = .created false) (nonempty : key i ≠ "") :
      StepCase key s (.start i)
        ((s.join (key i)).withCall i (.awaiting (s.executionFor (key i)) false))
  | served {i : ι} {outcome : TaskOutcome T} (created : s.calls i = .created false)
      (nonempty : key i ≠ "")
      (done : (s.join (key i)).outcomeOf (s.executionFor (key i)) = some outcome) :
      StepCase key s (.start i) (((s.join (key i)).releaseWaiter (key i)
        (s.executionFor (key i))).withCall i (.returned (s.executionFor (key i)) outcome))
  | finished (e : Nat) (outcome : TaskOutcome T) :
      StepCase key s (.finish e outcome)
        (s.modify e fun x => { x with outcome := x.outcome.or (some outcome) })
  | leaves {i : ι} {e : Nat} {call : CoalescedCall T} (awaits : (s.calls i).awaits = some e)
      (ends : EndsWith s e call) :
      StepCase key s (.wake i) ((s.releaseWaiter (key i) e).withCall i call)

theorem step_cases (key : ι → String) (s : Coalescer ι T) (ev : CoalescerEvent ι T) :
    StepCase key s ev (s.step key ev) := by
  cases ev with
  | finish e outcome => exact .finished e outcome
  | cancel i =>
    cases hi : s.calls i with
    | created b =>
      simp only [step, hi]
      exact .stopped hi
    | awaiting e b =>
      simp only [step, hi]
      exact .interrupted hi
    | returned e outcome => simp only [step, hi]; exact .idle _
    | cancelled joined => simp only [step, hi]; exact .idle _
    | refused exc => simp only [step, hi]; exact .idle _
  | start i =>
    cases hi : s.calls i with
    | created b =>
      cases b with
      | true => simp only [step, hi]; exact .unstarted hi
      | false =>
        simp only [step, hi, enter]
        split
        · rename_i hempty
          exact .refused hi hempty
        · rename_i hkey
          cases houtcome : (s.join (key i)).outcomeOf (s.executionFor (key i)) with
          | none => exact .joins hi hkey
          | some outcome => exact .served hi hkey houtcome
    | awaiting e b => simp only [step, hi]; exact .idle _
    | returned e outcome => simp only [step, hi]; exact .idle _
    | cancelled joined => simp only [step, hi]; exact .idle _
    | refused exc => simp only [step, hi]; exact .idle _
  | wake i =>
    cases hi : s.calls i with
    | awaiting e b =>
      have hawaits : (s.calls i).awaits = some e := by rw [hi]; rfl
      cases b with
      | true => simp only [step, hi]; exact .leaves hawaits .cancelled
      | false =>
        simp only [step, hi]
        cases houtcome : s.outcomeOf e with
        | none => exact .idle _
        | some outcome => exact .leaves hawaits (.returned houtcome)
    | created b => simp only [step, hi]; exact .idle _
    | returned e outcome => simp only [step, hi]; exact .idle _
    | cancelled joined => simp only [step, hi]; exact .idle _
    | refused exc => simp only [step, hi]; exact .idle _

theorem sound_leaves (h : Sound key s) {e : Nat} {call : CoalescedCall T}
    (hi : (s.calls i).awaits = some e) (hends : EndsWith s e call) :
    Sound key ((s.releaseWaiter (key i) e).withCall i call) := by
  cases hends with
  | cancelled => exact sound_release h hi rfl (by simp)
  | returned houtcome =>
    refine sound_release h hi rfl (fun e' o ho => ?_)
    cases ho
    exact ⟨rfl, houtcome⟩

theorem served_eq (s : Coalescer ι T) (i : ι) (k : String) (e : Nat) (call : CoalescedCall T) :
    ((s.join k).releaseWaiter k e).withCall i call =
      (((s.join k).withCall i (.awaiting e false)).releaseWaiter k e).withCall i call := by
  rw [releaseWaiter_withCall, withCall_withCall]

theorem sound_step (s : Coalescer ι T) (ev : CoalescerEvent ι T) (h : Sound key s) :
    Sound key (s.step key ev) := by
  have hcase := step_cases key s ev
  generalize s.step key ev = t at hcase ⊢
  cases hcase with
  | idle ev => exact h
  | refused created empty => exact sound_of_same_waits h (by rw [created]; rfl) (by simp)
  | unstarted created => exact sound_of_same_waits h (by rw [created]; rfl) (by simp)
  | stopped created => exact sound_of_same_waits h (by rw [created]; rfl) (by simp)
  | interrupted awaiting => exact sound_of_same_waits h (by rw [awaiting]; rfl) (by simp)
  | joins created nonempty => exact sound_join h created
  | served created nonempty done =>
    rw [served_eq]
    exact sound_leaves (sound_join h created) (by rw [withCall_self]; rfl) (.returned done)
  | finished e outcome => exact sound_finish h e outcome
  | leaves awaits ends => exact sound_leaves h awaits ends

omit [DecidableEq ι] in
theorem execution_release (h : Sound key s) {k : String} {e e' : Nat} {y : InflightExecution T}
    (hy : s.execution e' = some y) : ∃ y', (s.releaseWaiter k e).execution e' = some y' ∧
      (y.cancelled = true → y'.cancelled = true) ∧
      (y.cancelled = false → y'.cancelled = true → y'.outcome = none) := by
  have hrelease := release_cases s (k := k) (e := e) (fun hk => by
    obtain ⟨x, hx, -⟩ := h.entry k e hk
    exact ⟨x, hx⟩)
  generalize s.releaseWaiter k e = r at hrelease ⊢
  cases hrelease with
  | untracked hk => exact ⟨y, hy, id, fun hno hyes => by rw [hno] at hyes; cases hyes⟩
  | done hk hx hdone =>
    rw [forget_execution, execution_modify, hy]
    split
    · exact ⟨_, rfl, id, fun hno hyes => by rw [hno] at hyes; cases hyes⟩
    · exact ⟨y, rfl, id, fun hno hyes => by rw [hno] at hyes; cases hyes⟩
  | last hk hx hpending hwaiters =>
    rw [forget_execution, execution_modify, execution_modify, hy]
    split
    · rename_i he
      subst he
      obtain rfl := Option.some.inj (hx.symm.trans hy)
      exact ⟨_, rfl, fun _ => rfl, fun _ _ => hpending⟩
    · exact ⟨y, rfl, id, fun hno hyes => by rw [hno] at hyes; cases hyes⟩
  | shared hk hx hpending hwaiters =>
    rw [execution_modify, hy]
    split
    · exact ⟨_, rfl, id, fun hno hyes => by rw [hno] at hyes; cases hyes⟩
    · exact ⟨y, rfl, id, fun hno hyes => by rw [hno] at hyes; cases hyes⟩

end Steps

section History
variable {key : ι → String} {s : Coalescer ι T}

theorem joined_step (s : Coalescer ι T) (ev : CoalescerEvent ι T) (j : ι) :
    ((s.step key ev).calls j).joined = (s.calls j).joined ∨
      ev = .start j ∧ s.calls j = .created false ∧ key j ≠ "" ∧
        ((s.step key ev).calls j).joined = some (s.executionFor (key j)) := by
  have hcase := step_cases key s ev
  generalize s.step key ev = t at hcase ⊢
  have hsame : ∀ {r : Coalescer ι T} {i : ι} {call : CoalescedCall T}, r.calls = s.calls →
      call.joined = (s.calls i).joined → ((r.withCall i call).calls j).joined =
        (s.calls j).joined := by
    intro r i call hr hcall
    rw [withCall_calls, hr]
    split
    · rename_i hj
      rw [hj, hcall]
    · rfl
  have hnew : ∀ {r : Coalescer ι T} {i : ι} {call : CoalescedCall T}, r.calls = s.calls →
      s.calls i = .created false → key i ≠ "" → call.joined = some (s.executionFor (key i)) →
      ((r.withCall i call).calls j).joined = (s.calls j).joined ∨
        CoalescerEvent.start (T := T) i = .start j ∧ s.calls j = .created false ∧ key j ≠ "" ∧
          ((r.withCall i call).calls j).joined = some (s.executionFor (key j)) := by
    intro r i call hr hi hkey hcall
    by_cases hj : j = i
    · subst hj
      right
      rw [withCall_self]
      exact ⟨rfl, hi, hkey, hcall⟩
    · left
      rw [withCall_calls, hr, if_neg hj]
  cases hcase with
  | idle ev => exact .inl rfl
  | refused created empty => exact .inl (hsame rfl (by rw [created]; rfl))
  | unstarted created => exact .inl (hsame rfl (by rw [created]; rfl))
  | stopped created => exact .inl (hsame rfl (by rw [created]; rfl))
  | interrupted awaiting => exact .inl (hsame rfl (by rw [awaiting]; rfl))
  | joins created nonempty => exact hnew (join_calls s _) created nonempty rfl
  | served created nonempty done => exact hnew (by simp) created nonempty rfl
  | finished e outcome => exact .inl rfl
  | leaves awaits ends =>
    have hjoined := CoalescedCall.joined_of_awaits awaits
    cases ends with
    | cancelled => exact .inl (hsame (by simp) hjoined.symm)
    | returned houtcome => exact .inl (hsame (by simp) hjoined.symm)

theorem execution_step (h : Sound key s) (ev : CoalescerEvent ι T) {e : Nat}
    {y : InflightExecution T} (hy : s.execution e = some y) : ∃ y',
      (s.step key ev).execution e = some y' ∧ (y.cancelled = true → y'.cancelled = true) ∧
      (y.cancelled = false → y'.cancelled = true → y'.outcome = none) := by
  have hcase := step_cases key s ev
  generalize s.step key ev = t at hcase ⊢
  have hsame : y.cancelled = false → y.cancelled = true → y.outcome = none := by
    intro hno hyes
    rw [hno] at hyes
    cases hyes
  cases hcase with
  | idle ev => exact ⟨y, hy, id, hsame⟩
  | refused created empty => exact ⟨y, hy, id, hsame⟩
  | unstarted created => exact ⟨y, hy, id, hsame⟩
  | stopped created => exact ⟨y, hy, id, hsame⟩
  | interrupted awaiting => exact ⟨y, hy, id, hsame⟩
  | joins created nonempty =>
    obtain ⟨y', hy', -, hcancelled, houtcome⟩ := join_execution s _ hy
    exact ⟨y', hy', fun hyes => hcancelled.trans hyes, fun hno hyes => by
      rw [hcancelled, hno] at hyes; cases hyes⟩
  | @served i outcome created nonempty done =>
    obtain ⟨y', hy', -, hcancelled, houtcome⟩ := join_execution s (key i) hy
    obtain ⟨z, hz, hkeep, hflip⟩ := execution_release (sound_join h created) (k := key i)
      (e := s.executionFor (key i)) hy'
    rw [served_eq]
    exact ⟨z, hz, fun hyes => hkeep (hcancelled.trans hyes),
      fun hno => hflip (hcancelled.trans hno)⟩
  | finished e' outcome =>
    rw [execution_modify, hy]
    split
    · exact ⟨_, rfl, id, fun hno hyes => by rw [hno] at hyes; cases hyes⟩
    · exact ⟨y, rfl, id, hsame⟩
  | leaves awaits ends => exact execution_release h hy

omit [DecidableEq ι] in
theorem cancelled_release (h : Sound key s) {k : String} {e e' : Nat}
    (hbefore : ¬ s.Cancelled e') (hafter : (s.releaseWaiter k e).Cancelled e') :
    (s.releaseWaiter k e).Pending e' := by
  obtain ⟨z, hz, hyes⟩ := hafter
  cases hy : s.execution e' with
  | some y =>
    obtain ⟨z', hz', -, hflip⟩ := execution_release h (k := k) (e := e) hy
    obtain rfl := Option.some.inj (hz.symm.trans hz')
    refine ⟨z, hz, hflip ?_ hyes⟩
    exact Bool.eq_false_iff.mpr (fun hno => hbefore ⟨y, hy, hno⟩)
  | none =>
    have hrelease := release_cases s (k := k) (e := e) (fun hk => by
      obtain ⟨x, hx, -⟩ := h.entry k e hk
      exact ⟨x, hx⟩)
    exfalso
    generalize s.releaseWaiter k e = r at hrelease hz
    cases hrelease <;> simp [execution_modify, hy] at hz

theorem pending_of_cancelled_step (h : Sound key s) (ev : CoalescerEvent ι T) {e : Nat}
    (hbefore : ¬ s.Cancelled e) (hafter : (s.step key ev).Cancelled e) :
    (s.step key ev).Pending e := by
  have hcase := step_cases key s ev
  generalize s.step key ev = t at hcase hafter ⊢
  have hjoin : ∀ i, ¬ (s.join (key i)).Cancelled e := by
    rintro i ⟨y, hy, hyes⟩
    by_cases he : e = s.executionFor (key i)
    · obtain ⟨x, hx, -, hno, -⟩ := join_spec h (key i)
      rw [he] at hy
      obtain rfl := Option.some.inj (hx.symm.trans hy)
      rw [hno] at hyes
      cases hyes
    · rw [join_execution_ne s (key i) he] at hy
      exact hbefore ⟨y, hy, hyes⟩
  cases hcase with
  | idle ev => exact absurd hafter hbefore
  | refused created empty => exact absurd hafter hbefore
  | unstarted created => exact absurd hafter hbefore
  | stopped created => exact absurd hafter hbefore
  | interrupted awaiting => exact absurd hafter hbefore
  | joins created nonempty => exact absurd hafter (hjoin _)
  | @served i outcome created nonempty done =>
    rw [served_eq] at hafter ⊢
    exact cancelled_release (sound_join h created) (hjoin i) hafter
  | finished e' outcome =>
    obtain ⟨y, hy, hyes⟩ := hafter
    rw [execution_modify] at hy
    split at hy
    · obtain ⟨x, hx, rfl⟩ := Option.map_eq_some_iff.mp hy
      exact absurd ⟨x, hx, hyes⟩ hbefore
    · exact absurd ⟨y, hy, hyes⟩ hbefore
  | leaves awaits ends => exact cancelled_release h hbefore hafter

omit [DecidableEq ι] in
theorem left_by_all (h : Sound key s) {e : Nat} (hpending : s.Pending e) (hcancelled : s.Cancelled e)
    {i : ι} (hi : (s.calls i).joined = some e) : s.calls i = .cancelled (some e) := by
  obtain ⟨x, hx, hnone⟩ := hpending
  obtain ⟨y, hy, hyes⟩ := hcancelled
  obtain rfl := Option.some.inj (hx.symm.trans hy)
  cases hcall : s.calls i with
  | created b => rw [hcall] at hi; cases hi
  | refused exc => rw [hcall] at hi; cases hi
  | cancelled joined =>
    rw [hcall] at hi
    exact congrArg _ hi
  | awaiting e' b =>
    rw [hcall] at hi
    obtain rfl := Option.some.inj hi
    obtain ⟨z, hz, -, hno⟩ := h.waiting i e' (by rw [hcall]; rfl)
    obtain rfl := Option.some.inj (hx.symm.trans hz)
    rw [hno] at hyes
    cases hyes
  | returned e' outcome =>
    rw [hcall] at hi
    obtain rfl := Option.some.inj hi
    obtain ⟨z, hz, -, ho⟩ := h.answered i e' outcome hcall
    obtain rfl := Option.some.inj (hx.symm.trans hz)
    rw [hnone] at ho
    cases ho

theorem refused_step (s : Coalescer ι T) (ev : CoalescerEvent ι T)
    (h : ∀ i exc, s.calls i = .refused exc → key i = "" ∧ exc = emptyKeyError) :
    ∀ i exc, (s.step key ev).calls i = .refused exc → key i = "" ∧ exc = emptyKeyError := by
  have hcase := step_cases key s ev
  generalize s.step key ev = t at hcase ⊢
  have hsame : ∀ {r : Coalescer ι T} {i : ι} {call : CoalescedCall T}, r.calls = s.calls →
      (∀ exc, call ≠ .refused exc) → ∀ j exc, (r.withCall i call).calls j = .refused exc →
        key j = "" ∧ exc = emptyKeyError := by
    intro r i call hr hcall j exc hj
    rw [withCall_calls, hr] at hj
    split at hj
    · exact absurd hj (hcall exc)
    · exact h j exc hj
  cases hcase with
  | idle ev => exact h
  | @refused i created empty =>
    intro j exc hj
    rw [withCall_calls] at hj
    split at hj
    · rename_i hji
      cases hj
      exact ⟨hji ▸ empty, rfl⟩
    · exact h j exc hj
  | unstarted created => exact hsame rfl (by simp)
  | stopped created => exact hsame rfl (by simp)
  | interrupted awaiting => exact hsame rfl (by simp)
  | joins created nonempty => exact hsame (join_calls s _) (by simp)
  | served created nonempty done => exact hsame (by simp) (by simp)
  | finished e outcome => exact h
  | leaves awaits ends =>
    cases ends with
    | cancelled => exact hsame (by simp) (by simp)
    | returned houtcome => exact hsame (by simp) (by simp)

omit [DecidableEq ι] in
theorem Ended.of_modify {e e' : Nat} {f : InflightExecution T → InflightExecution T} {k : String}
    {outcome : TaskOutcome T} (h : (s.modify e f).Ended e' k outcome)
    (hkey : ∀ x, (f x).key = x.key) (houtcome : ∀ x, (f x).outcome = x.outcome) :
    s.Ended e' k outcome := by
  obtain ⟨x, hx, hxkey, hxoutcome⟩ := h
  rw [execution_modify] at hx
  split at hx
  · obtain ⟨y, hy, rfl⟩ := Option.map_eq_some_iff.mp hx
    exact ⟨y, hy, (hkey y).symm.trans hxkey, (houtcome y).symm.trans hxoutcome⟩
  · exact ⟨x, hx, hxkey, hxoutcome⟩

omit [DecidableEq ι] in
theorem ended_forget {e : Nat} {k k' : String} {outcome : TaskOutcome T} :
    (s.forget k).Ended e k' outcome ↔ s.Ended e k' outcome := Iff.rfl

omit [DecidableEq ι] in
theorem ended_of_join {k k' : String} {e : Nat} {outcome : TaskOutcome T}
    (h : (s.join k).Ended e k' outcome) : s.Ended e k' outcome := by
  unfold join at h
  split at h
  · exact h.of_modify (fun _ => rfl) (fun _ => rfl)
  · obtain ⟨x, hx, hxkey, hxoutcome⟩ := h
    by_cases hlt : e < s.executions.length
    · exact ⟨x, (List.getElem?_append_left hlt).symm.trans hx, hxkey, hxoutcome⟩
    · have hlast : e < (s.executions ++ [(⟨k, 1, none, false⟩ : InflightExecution T)]).length :=
        (List.getElem?_eq_some_iff.mp hx).1
      obtain rfl : e = s.executions.length := by
        simp only [List.length_append, List.length_singleton] at hlast
        omega
      simp only [execution, List.getElem?_concat_length, Option.some.injEq] at hx
      subst hx
      cases hxoutcome

omit [DecidableEq ι] in
theorem ended_of_release (h : Sound key s) {k k' : String} {e e' : Nat} {outcome : TaskOutcome T}
    (hended : (s.releaseWaiter k e).Ended e' k' outcome) : s.Ended e' k' outcome := by
  have hrelease := release_cases s (k := k) (e := e) (fun hk => by
    obtain ⟨x, hx, -⟩ := h.entry k e hk
    exact ⟨x, hx⟩)
  generalize s.releaseWaiter k e = r at hrelease hended
  cases hrelease with
  | untracked hk => exact hended
  | done hk hx hdone =>
    rw [ended_forget] at hended
    exact hended.of_modify (fun _ => rfl) (fun _ => rfl)
  | last hk hx hpending hwaiters =>
    rw [ended_forget] at hended
    have hreleased := hended.of_modify (fun _ => rfl) (fun _ => rfl)
    exact hreleased.of_modify (fun _ => rfl) (fun _ => rfl)
  | shared hk hx hpending hwaiters => exact hended.of_modify (fun _ => rfl) (fun _ => rfl)

theorem ended_of_step (h : Sound key s) (ev : CoalescerEvent ι T) {e : Nat} {k : String}
    {outcome : TaskOutcome T} (hended : (s.step key ev).Ended e k outcome) :
    s.Ended e k outcome ∨
      ev = .finish e outcome ∧ ∃ x, s.execution e = some x ∧ x.key = k := by
  have hcase := step_cases key s ev
  generalize s.step key ev = t at hcase hended
  cases hcase with
  | joins created nonempty => exact .inl (ended_of_join hended)
  | served created nonempty done =>
    rw [served_eq] at hended
    exact .inl (ended_of_join (ended_of_release (sound_join h created) hended))
  | finished e' outcome' =>
    obtain ⟨x, hx, hxkey, hxoutcome⟩ := hended
    rw [execution_modify] at hx
    split at hx
    · rename_i he
      subst he
      obtain ⟨y, hy, rfl⟩ := Option.map_eq_some_iff.mp hx
      cases hyoutcome : y.outcome with
      | some o =>
        left
        refine ⟨y, hy, hxkey, ?_⟩
        rw [← hxoutcome]
        simp [hyoutcome]
      | none =>
        right
        simp only [hyoutcome, Option.none_or, Option.some.injEq] at hxoutcome
        exact ⟨by rw [hxoutcome], y, hy, hxkey⟩
    · exact .inl ⟨x, hx, hxkey, hxoutcome⟩
  | leaves awaits ends => exact .inl (ended_of_release h hended)
  | _ => exact .inl hended

end History

section Runs
variable (key : ι → String)

def after (es : List (CoalescerEvent ι T)) : Coalescer ι T := run (step key) new es

/-- In its first step the call joined `e`. -/
def JoinedIn (es : List (CoalescerEvent ι T)) (i : ι) (e : Nat) : Prop :=
  ∃ fs gs, es = fs ++ .start i :: gs ∧ (after key fs).calls i = .created false ∧
    (after key fs).executionFor (key i) = e

/-- Unless it is cancelled, a call that has ended got the outcome of an execution of its own key
that it had joined. -/
def Answers (es : List (CoalescerEvent ι T)) (i : ι) : Prop :=
  match (after key es).calls i with
  | .created _ | .awaiting _ _ | .cancelled _ => True
  | .returned e outcome => JoinedIn key es i e ∧ ∃ x, (after key es).execution e = some x ∧
      x.key = key i ∧ x.outcome = some outcome
  | .refused _ => False

/-- While the execution was in flight, all its callers had been cancelled. A call is cancelled
once the `CancelledError` has reached it: a request on its way when the execution ends is late. -/
def CancelledByCallers (es : List (CoalescerEvent ι T)) (e : Nat) : Prop :=
  ∃ fs, fs <+: es ∧ (after key fs).Pending e ∧
    ∀ i, ((after key es).calls i).joined = some e → (after key fs).calls i = .cancelled (some e)

structure Protocol (es : List (CoalescerEvent ι T)) : Prop where
  one_active : ∀ k e e', (after key es).ActiveFor k e → (after key es).ActiveFor k e' → e = e'
  answers : ∀ i, key i ≠ "" → Answers key es i
  resumes : ∀ i e outcome, (after key es).calls i = .awaiting e false →
    (after key es).outcomeOf e = some outcome →
    (after key (es ++ [.wake i])).calls i = .returned e outcome
  refuses : ∀ i, key i = "" → ((after key es).calls i).joined = none ∧
    ((after key es).calls i = .created false →
      (after key (es ++ [.start i])).calls i = .refused emptyKeyError)
  cancelled_iff : ∀ e, (after key es).Cancelled e ↔ CancelledByCallers key es e
  untracked : (∀ i, ((after key es).calls i).awaits = none) → ∀ k, (after key es).inflight k = none

variable {key}

theorem after_append (es fs : List (CoalescerEvent ι T)) :
    after key (es ++ fs) = run (step key) (after key es) fs :=
  run_append _ _ _ _

theorem after_concat (es : List (CoalescerEvent ι T)) (ev : CoalescerEvent ι T) :
    after key (es ++ [ev]) = (after key es).step key ev :=
  after_append es [ev]

theorem sound_after (es : List (CoalescerEvent ι T)) : Sound key (after key es) :=
  run_preserves sound_step (sound_new key) es

theorem joined_kept {es fs : List (CoalescerEvent ι T)} {i : ι} {e : Nat} (hp : fs <+: es)
    (h : ((after key fs).calls i).joined = some e) : ((after key es).calls i).joined = some e := by
  obtain ⟨gs, rfl⟩ := hp
  rw [after_append]
  refine run_preserves (I := fun s : Coalescer ι T => (s.calls i).joined = some e)
    (fun s ev hs => ?_) h gs
  rcases joined_step s ev i with hsame | ⟨-, hcreated, -⟩
  · rw [hsame, hs]
  · rw [hcreated] at hs
    cases hs

theorem cancelled_kept {es fs : List (CoalescerEvent ι T)} {e : Nat} (hp : fs <+: es)
    (h : (after key fs).Cancelled e) : (after key es).Cancelled e := by
  obtain ⟨gs, rfl⟩ := hp
  rw [after_append]
  have hstep : ∀ (s : Coalescer ι T) ev, Sound key s ∧ s.Cancelled e →
      Sound key (s.step key ev) ∧ (s.step key ev).Cancelled e := by
    rintro s ev ⟨hsound, y, hy, hyes⟩
    obtain ⟨y', hy', hkeep, -⟩ := execution_step hsound ev hy
    exact ⟨sound_step s ev hsound, y', hy', hkeep hyes⟩
  exact (run_preserves hstep ⟨sound_after fs, h⟩ gs).2

theorem joined_of_cancelled {s : Coalescer ι T} (h : Sound key s) {e : Nat}
    (hcancelled : s.Cancelled e) {ev : CoalescerEvent ι T} {i : ι}
    (hi : ((s.step key ev).calls i).joined = some e) : (s.calls i).joined = some e := by
  rcases joined_step s ev i with hsame | ⟨-, -, -, hnew⟩
  · rwa [hsame] at hi
  · exfalso
    obtain ⟨y, hy, hyes⟩ := hcancelled
    obtain rfl := Option.some.inj (hi.symm.trans hnew)
    unfold executionFor at hy
    cases hk : s.inflight (key i) with
    | some e' =>
      rw [hk, Option.getD_some] at hy
      obtain ⟨x, hx, -, hno, -⟩ := h.entry _ _ hk
      obtain rfl := Option.some.inj (hx.symm.trans hy)
      rw [hno] at hyes
      cases hyes
    | none =>
      rw [hk, Option.getD_none] at hy
      exact absurd (execution_lt s hy) (lt_irrefl _)

theorem joinedIn_of_joined {es : List (CoalescerEvent ι T)} {i : ι} {e : Nat}
    (h : ((after key es).calls i).joined = some e) : JoinedIn key es i e ∧ key i ≠ "" := by
  induction es using List.reverseRecOn with
  | nil => cases h
  | append_singleton es ev ih =>
    rw [after_concat] at h
    rcases joined_step (after key es) ev i with hsame | ⟨rfl, hcreated, hkey, hnew⟩
    · rw [hsame] at h
      obtain ⟨⟨fs, gs, rfl, hjoined⟩, hkey⟩ := ih h
      exact ⟨⟨fs, gs ++ [ev], by simp, hjoined⟩, hkey⟩
    · rw [hnew] at h
      exact ⟨⟨es, [], rfl, hcreated, Option.some.inj h⟩, hkey⟩

theorem cancelledByCallers_of_cancelled {es : List (CoalescerEvent ι T)} {e : Nat}
    (h : (after key es).Cancelled e) : CancelledByCallers key es e := by
  induction es using List.reverseRecOn with
  | nil =>
    obtain ⟨x, hx, -⟩ := h
    cases hx
  | append_singleton es ev ih =>
    by_cases hbefore : (after key es).Cancelled e
    · obtain ⟨fs, hp, hpending, hall⟩ := ih hbefore
      refine ⟨fs, hp.trans (List.prefix_append es [ev]), hpending, fun i hi => hall i ?_⟩
      rw [after_concat] at hi
      exact joined_of_cancelled (sound_after es) hbefore hi
    · rw [after_concat] at h
      have hpending := pending_of_cancelled_step (sound_after es) ev hbefore h
      rw [← after_concat] at hpending h
      exact ⟨es ++ [ev], List.prefix_rfl, hpending, fun i hi =>
        left_by_all (sound_after _) hpending h hi⟩

theorem cancelled_of_cancelledByCallers {es : List (CoalescerEvent ι T)} {e : Nat}
    (h : CancelledByCallers key es e) : (after key es).Cancelled e := by
  obtain ⟨fs, hp, ⟨x, hx, hpending⟩, hall⟩ := h
  have hsound : Sound key (after key fs) := sound_after fs
  refine cancelled_kept hp ?_
  by_cases hk : (after key fs).inflight x.key = some e
  · -- a tracked execution has a waiter, which nobody has cancelled
    exfalso
    obtain ⟨y, hy, -, -, hpos, hcount⟩ := hsound.entry _ _ hk
    have hsome : ((after key fs).waitersOf e).encard ≠ 0 := by
      rw [hcount]
      exact_mod_cast hpos
    obtain ⟨i, hi⟩ := Set.nonempty_iff_ne_empty.mpr (Set.encard_eq_zero.not.mp hsome)
    have hjoined := joined_kept hp (CoalescedCall.joined_of_awaits hi)
    have hcancelled := hall i hjoined
    rw [waitersOf, Set.mem_ofPred_eq, hcancelled] at hi
    cases hi
  · rcases hsound.loose e x hx hk with hdone | hcancelled
    · rw [hpending] at hdone
      cases hdone
    · exact ⟨x, hx, hcancelled⟩

theorem answers_of_nonempty (es : List (CoalescerEvent ι T)) {i : ι} (hkey : key i ≠ "") :
    Answers key es i := by
  unfold Answers
  cases hi : (after key es).calls i with
  | returned e outcome =>
    exact ⟨(joinedIn_of_joined (by rw [hi]; rfl)).1, (sound_after es).answered i e outcome hi⟩
  | refused exc =>
    have hrefused : ∀ i exc, (after key es).calls i = .refused exc →
        key i = "" ∧ exc = emptyKeyError :=
      run_preserves (I := fun s : Coalescer ι T => ∀ i exc, s.calls i = .refused exc →
        key i = "" ∧ exc = emptyKeyError) refused_step (by simp [new]) es
    exact hkey (hrefused i exc hi).1
  | _ => trivial

/-- In every run of the event loop: one uncancelled execution of a key is in flight at most; a
call that is not cancelled gets the outcome of the execution that it joined, and a call with the
empty key is refused; an execution is cancelled exactly when all its callers were, before it
finished; and no key is tracked for nobody. -/
theorem coalescer_protocol (key : ι → String) (es : List (CoalescerEvent ι T)) :
    Protocol key es where
  one_active := by
    rintro k e e' ⟨x, hx, rfl, hpending, hrunning⟩ ⟨x', hx', hkey', hpending', hrunning'⟩
    have hsound : Sound key (after key es) := sound_after es
    have htracked : ∀ {d y}, (after key es).execution d = some y → y.outcome = none →
        y.cancelled = false → (after key es).inflight y.key = some d := by
      intro d y hy hnone hno
      by_contra hk
      rcases hsound.loose d y hy hk with hdone | hcancelled
      · rw [hnone] at hdone
        cases hdone
      · rw [hno] at hcancelled
        cases hcancelled
    have he := htracked hx hpending hrunning
    have he' := htracked hx' hpending' hrunning'
    rw [hkey'] at he'
    exact Option.some.inj (he.symm.trans he')
  answers := fun i hkey => answers_of_nonempty es hkey
  resumes := by
    intro i e outcome hi houtcome
    rw [after_concat]
    simp only [step, hi, houtcome, withCall_self]
  refuses := by
    intro i hkey
    constructor
    · cases hjoined : ((after key es).calls i).joined with
      | none => rfl
      | some e => exact absurd hkey (joinedIn_of_joined hjoined).2
    · intro hi
      rw [after_concat]
      simp only [step, hi, enter, if_pos hkey, withCall_self]
  cancelled_iff := fun e => ⟨cancelledByCallers_of_cancelled, cancelled_of_cancelledByCallers⟩
  untracked := by
    intro hidle k
    cases hk : (after key es).inflight k with
    | none => rfl
    | some e =>
      exfalso
      obtain ⟨x, -, -, -, hpos, hcount⟩ := (sound_after es).entry k e hk
      have hnobody : (after key es).waitersOf e = ∅ := by
        ext i
        simp [waitersOf, hidle i]
      rw [hnobody, Set.encard_empty] at hcount
      exact hpos (by exact_mod_cast hcount.symm)

end Runs

/-- A call with the empty key is not cancelled, and gets the outcome of no execution. -/
theorem empty_key_unanswered :
    ¬ ∀ i, Answers (T := Nat) (fun _ : Unit => "") [.start ()] i := by
  intro h
  exact h ()

end Coalescer

end Pitwall.Routing
