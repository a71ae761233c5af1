import Mathlib.Logic.Function.Basic
set_option autoImplicit false

namespace Machine

universe u v w x
variable {σ : Type u} {ε : Type v}

/-- The state a list of events leads to. An event that is not enabled in a
state leaves it as it is, so every list of events is a run. -/
def run (step : σ → ε → σ) (s : σ) (es : List ε) : σ := es.foldl step s

@[simp] theorem run_nil (step : σ → ε → σ) (s : σ) : run step s [] = s := rfl

@[simp] theorem run_cons (step : σ → ε → σ) (s : σ) (e : ε) (es : List ε) :
    run step s (e :: es) = run step (step s e) es := rfl

theorem run_append (step : σ → ε → σ) (s : σ) (es fs : List ε) :
    run step s (es ++ fs) = run step (run step s es) fs :=
  List.foldl_append

theorem run_of_fixed {step : σ → ε → σ} {s : σ} (h : ∀ e, step s e = s) (es : List ε) :
    run step s es = s := by
  induction es with
  | nil => rfl
  | cons e es ih => rw [run_cons, h, ih]

/-- `P` holds of every step of the run, seen as the state before it and its event. -/
def Along (step : σ → ε → σ) (P : σ → ε → Prop) : σ → List ε → Prop
  | _, [] => True
  | s, e :: es => P s e ∧ Along step P (step s e) es

instance decidableAlong (step : σ → ε → σ) (P : σ → ε → Prop)
    [∀ s e, Decidable (P s e)] : (s : σ) → (es : List ε) → Decidable (Along step P s es)
  | _, [] => isTrue trivial
  | s, e :: es =>
      have := decidableAlong step P (step s e) es
      inferInstanceAs (Decidable (P s e ∧ Along step P (step s e) es))

/-- An invariant of the steps that meet `P` holds after every run made of them. -/
theorem run_invariant {step : σ → ε → σ} {P : σ → ε → Prop} {I : σ → Prop}
    (hstep : ∀ s e, I s → P s e → I (step s e)) {s : σ} {es : List ε}
    (hs : I s) (hes : Along step P s es) : I (run step s es) := by
  induction es generalizing s with
  | nil => exact hs
  | cons e es ih => exact ih (hstep s e hs hes.1) hes.2

theorem along_of_invariant {step : σ → ε → σ} {P Q : σ → ε → Prop} {I : σ → Prop}
    (hstep : ∀ s e, I s → P s e → I (step s e) ∧ Q s e) {s : σ} {es : List ε}
    (hs : I s) (hes : Along step P s es) : Along step Q s es := by
  induction es generalizing s with
  | nil => trivial
  | cons e es ih =>
    have h := hstep s e hs hes.1
    exact ⟨h.2, ih h.1 hes.2⟩

theorem along_of_forall {step : σ → ε → σ} {P : σ → ε → Prop}
    (h : ∀ s e, P s e) (s : σ) (es : List ε) : Along step P s es := by
  induction es generalizing s with
  | nil => trivial
  | cons e es ih => exact ⟨h s e, ih _⟩

theorem run_preserves {step : σ → ε → σ} {I : σ → Prop} (hstep : ∀ s e, I s → I (step s e))
    {s : σ} (hs : I s) (es : List ε) : I (run step s es) :=
  run_invariant (P := fun _ _ => True) (fun s e h _ => hstep s e h) hs
    (along_of_forall (fun _ _ => trivial) s es)

theorem along_of_mem {step : σ → ε → σ} {P : ε → Prop} (s : σ) {es : List ε}
    (h : ∀ e ∈ es, P e) : Along step (fun _ e => P e) s es := by
  induction es generalizing s with
  | nil => trivial
  | cons e es ih =>
    refine ⟨h e (by simp), ih (step s e) (fun e' he' => h e' ?_)⟩
    simp [he']

theorem Along.of_prefix {step : σ → ε → σ} {P : σ → ε → Prop} {s : σ} {es fs : List ε}
    (hp : es <+: fs) (h : Along step P s fs) : Along step P s es := by
  induction es generalizing s fs with
  | nil => trivial
  | cons e es ih =>
    obtain ⟨rest, rfl⟩ := hp
    exact ⟨h.1, ih ⟨rest, rfl⟩ h.2⟩

/-- Where a step that misses `P` leads from the invariant into a trap, a run is within the
invariant at its end when all its steps met `P`, and in the trap when one did not. -/
theorem run_or_trapped {step : σ → ε → σ} {P : σ → ε → Prop} {I D : σ → Prop}
    (hkeep : ∀ s e, I s → P s e → I (step s e)) (hlose : ∀ s e, I s → ¬ P s e → D (step s e))
    (htrap : ∀ s e, D s → D (step s e)) {s : σ} (hs : I s) (es : List ε) :
    (I (run step s es) ∧ Along step P s es) ∨ (D (run step s es) ∧ ¬ Along step P s es) := by
  induction es generalizing s with
  | nil => exact .inl ⟨hs, trivial⟩
  | cons e es ih =>
    by_cases hP : P s e
    · rcases ih (hkeep s e hs hP) with ⟨hI, hes⟩ | ⟨hD, hes⟩
      · exact .inl ⟨hI, hP, hes⟩
      · exact .inr ⟨hD, fun h => hes h.2⟩
    · exact .inr ⟨run_preserves htrap (hlose s e hs hP) es, fun h => hP h.1⟩

theorem along_congr {step : σ → ε → σ} {P Q : σ → ε → Prop}
    (h : ∀ s e, P s e ↔ Q s e) (s : σ) (es : List ε) :
    Along step P s es ↔ Along step Q s es := by
  induction es generalizing s with
  | nil => exact Iff.rfl
  | cons e es ih => exact and_congr (h s e) (ih _)

theorem along_congr_of {step : σ → ε → σ} {P Q : σ → ε → Prop} {I : σ → Prop} {es : List ε}
    (h : ∀ s, ∀ e ∈ es, I s → (P s e ↔ Q s e)) (hkeep : ∀ s e, I s → P s e → I (step s e)) {s : σ}
    (hs : I s) : Along step P s es ↔ Along step Q s es := by
  induction es generalizing s with
  | nil => exact Iff.rfl
  | cons e es ih =>
    have hrest : ∀ s, ∀ e' ∈ es, I s → (P s e' ↔ Q s e') := fun s e' he' => h s e' (by simp [he'])
    constructor
    · rintro ⟨hP, hes⟩
      exact ⟨(h s e (by simp) hs).mp hP, (ih hrest (hkeep s e hs hP)).mp hes⟩
    · rintro ⟨hQ, hes⟩
      have hP := (h s e (by simp) hs).mpr hQ
      exact ⟨hP, (ih hrest (hkeep s e hs hP)).mpr hes⟩

theorem Along.and {step : σ → ε → σ} {P Q : σ → ε → Prop} {s : σ} {es : List ε}
    (hP : Along step P s es) (hQ : Along step Q s es) :
    Along step (fun s e => P s e ∧ Q s e) s es := by
  induction es generalizing s with
  | nil => trivial
  | cons e es ih => exact ⟨⟨hP.1, hQ.1⟩, ih hP.2 hQ.2⟩

theorem along_of_forall_prefix {step : σ → ε → σ} {P : σ → Prop} {s : σ} {es : List ε}
    (h : ∀ fs, fs <+: es → P (run step s fs)) : Along step (fun s e => P (step s e)) s es := by
  induction es generalizing s with
  | nil => trivial
  | cons e es ih =>
    refine ⟨h [e] ⟨es, rfl⟩, ih (fun fs hp => ?_)⟩
    obtain ⟨rest, rfl⟩ := hp
    exact h (e :: fs) ⟨rest, rfl⟩

theorem Along.run_of_prefix {step : σ → ε → σ} {R : σ → σ → Prop} (hrefl : ∀ s, R s s)
    (htrans : ∀ {a b c}, R a b → R b c → R a c) {s : σ} {es fs : List ε}
    (h : Along step (fun s e => R s (step s e)) s es) (hp : fs <+: es) :
    R s (run step s fs) := by
  induction fs generalizing s es with
  | nil => exact hrefl s
  | cons e fs ih =>
    obtain ⟨rest, rfl⟩ := hp
    exact htrans h.1 (ih h.2 ⟨rest, rfl⟩)

theorem along_iff_forall_run {step : σ → ε → σ} {R : σ → σ → Prop} (hrefl : ∀ s, R s s)
    (htrans : ∀ {a b c}, R a b → R b c → R a c) {s : σ} {es : List ε} :
    Along step (fun s e => R s (step s e)) s es ↔
      ∀ xs ys, xs ++ ys <+: es → R (run step s xs) (run step s (xs ++ ys)) := by
  constructor
  · intro h xs
    induction xs generalizing s es with
    | nil => exact fun ys hp => h.run_of_prefix hrefl htrans hp
    | cons e xs ih =>
      rintro ys ⟨rest, rfl⟩
      exact ih h.2 ys ⟨rest, rfl⟩
  · intro h
    induction es generalizing s with
    | nil => trivial
    | cons e es ih =>
      refine ⟨h [] [e] ⟨es, rfl⟩, ih (fun xs ys hp => ?_)⟩
      obtain ⟨rest, rfl⟩ := hp
      exact h (e :: xs) ys ⟨rest, rfl⟩

/-- How many steps of the run meet `p`. -/
def tally (step : σ → ε → σ) (p : σ → ε → Bool) : σ → List ε → Nat
  | _, [] => 0
  | s, e :: es => (if p s e then 1 else 0) + tally step p (step s e) es

theorem tally_append (step : σ → ε → σ) (p : σ → ε → Bool) (s : σ) (es fs : List ε) :
    tally step p s (es ++ fs) = tally step p s es + tally step p (run step s es) fs := by
  induction es generalizing s with
  | nil => simp [tally]
  | cons e es ih =>
    simp only [List.cons_append, tally, ih, run_cons]
    omega

/-- A quantity that goes up by one with the steps that meet `p`, and with no other, counts
them. -/
theorem run_counts {step : σ → ε → σ} {p : σ → ε → Bool} {P : σ → ε → Prop} {I : σ → Prop}
    {f : σ → Int} (hkeep : ∀ s e, I s → P s e → I (step s e))
    (hcount : ∀ s e, I s → P s e → f (step s e) = f s + if p s e then 1 else 0)
    {s : σ} {es : List ε} (hs : I s) (hes : Along step P s es) :
    f (run step s es) = f s + tally step p s es := by
  induction es generalizing s with
  | nil => simp [tally]
  | cons e es ih =>
    have hstep := hcount s e hs hes.1
    have htail := ih (hkeep s e hs hes.1) hes.2
    rw [run_cons, htail, hstep, tally]
    push_cast
    split <;> omega

def atomically {α : Type w} {η : Type x} (tx : σ → Except η (α × σ)) (s : σ) :
    Except η α × σ :=
  match tx s with
  | .ok (a, s') => (.ok a, s')
  | .error e => (.error e, s)

theorem atomically_ok {α : Type w} {η : Type x} {tx : σ → Except η (α × σ)} {s s' : σ}
    {a : α} (h : tx s = .ok (a, s')) : atomically tx s = (.ok a, s') := by
  simp [atomically, h]

theorem atomically_error {α : Type w} {η : Type x} {tx : σ → Except η (α × σ)} {s : σ}
    {e : η} (h : tx s = .error e) : atomically tx s = (.error e, s) := by
  simp [atomically, h]

section Processes
variable {ι : Type w} {L : Type x} [DecidableEq ι]

/-- Processes that share one store: the store and the local state of each. -/
structure Config (σ : Type u) (ι : Type w) (L : Type x) where
  shared : σ
  procs : ι → L

/-- One process takes its next step on the store; the other processes stand still. -/
def Config.next (step : ι → L → σ → ε → σ × L) (c : Config σ ι L) (a : ι × ε) :
    Config σ ι L :=
  { shared := (step a.1 (c.procs a.1) c.shared a.2).1
    procs := Function.update c.procs a.1 (step a.1 (c.procs a.1) c.shared a.2).2 }

@[simp] theorem Config.next_shared (step : ι → L → σ → ε → σ × L) (c : Config σ ι L)
    (a : ι × ε) :
    (c.next step a).shared = (step a.1 (c.procs a.1) c.shared a.2).1 := rfl

@[simp] theorem Config.next_procs_self (step : ι → L → σ → ε → σ × L) (c : Config σ ι L)
    (a : ι × ε) :
    (c.next step a).procs a.1 = (step a.1 (c.procs a.1) c.shared a.2).2 := by
  simp [Config.next]

theorem Config.next_procs_of_ne (step : ι → L → σ → ε → σ × L) (c : Config σ ι L)
    {a : ι × ε} {i : ι} (h : i ≠ a.1) : (c.next step a).procs i = c.procs i := by
  simp [Config.next, h]

theorem Config.forall_procs_next {step : ι → L → σ → ε → σ × L} {P : L → Prop}
    {c : Config σ ι L} {a : ι × ε} (h : ∀ i, P (c.procs i))
    (hstep : P (step a.1 (c.procs a.1) c.shared a.2).2) (i : ι) :
    P ((c.next step a).procs i) := by
  by_cases hi : i = a.1
  · rw [hi, Config.next_procs_self]
    exact hstep
  · rw [Config.next_procs_of_ne step c hi]
    exact h i

end Processes

end Machine
