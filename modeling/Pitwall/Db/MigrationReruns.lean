import Pitwall.Db.MigrationSafety
set_option autoImplicit false

/-!
What single runs do: one that sees a changed checksum commits nothing, and one that is left alone
commits all that remains.
-/

namespace Pitwall.Db
open Machine

section Drift
variable {ι S : Type} [DecidableEq ι] {M : Migrator ι S} {db : MigrationDb ι S} {i j : ι}

def Runner.early : Runner S → Bool
  | .idle | .waiting | .locked | .ensured => true
  | _ => false

def Runner.over : Runner S → Bool
  | .leaving _ | .closing _ | .done _ => true
  | _ => false

theorem over_handled (caught : PyError → MigrateOutcome) (fault : Fault) :
    (fault.handled caught : Runner S).over = true := by
  cases fault <;> rfl

theorem committedBy_of_commits {db' : MigrationDb ι S} (h : db'.commits = db.commits) (i : ι) :
    db'.committedBy i = db.committedBy i := by
  rw [MigrationDb.committedBy, h, MigrationDb.committedBy]

theorem committedBy_commit {m : MigrationRecord} {schema : S} {records : SchemaMigrations}
    (hne : i ≠ j) : (db.commit j m schema records).committedBy i = db.committedBy i := by
  simp [MigrationDb.committedBy, MigrationDb.commit, List.filter_append, hne.symm]

theorem step_commits (db : MigrationDb ι S) (j : ι) (l : Runner S) (e : RunnerEvent) :
    (M.step j l db e).1.commits = db.commits ∨
      ∃ pending m rest schema records, l = .recorded pending m rest schema records ∧
        (M.step j l db e).1 = db.commit j m schema records := by
  cases l with
  | idle => cases e <;> exact .inl rfl
  | waiting =>
    cases e with
    | proceeds => exact .inl (db.commits_grant j)
    | faults fault effective => cases effective <;> [exact .inl rfl; exact .inl (db.commits_grant j)]
  | locked =>
    cases e with
    | proceeds => exact .inl rfl
    | faults fault effective => cases effective <;> exact .inl rfl
  | ensured => cases e <;> exact .inl rfl
  | applying pending rest =>
    cases rest with
    | nil => cases e <;> exact .inl rfl
    | cons m rest =>
      cases e with
      | proceeds =>
        simp only [Migrator.step]
        split
        · exact .inl rfl
        · split <;> exact .inl rfl
      | faults fault effective =>
        simp only [Migrator.step]
        split <;> exact .inl rfl
  | executed pending m rest schema =>
    cases e with
    | proceeds =>
      simp only [Migrator.step]
      split <;> exact .inl rfl
    | faults fault effective => exact .inl rfl
  | recorded pending m rest schema records =>
    cases e with
    | proceeds => exact .inr ⟨pending, m, rest, schema, records, rfl, rfl⟩
    | faults fault effective =>
      cases effective with
      | false => exact .inl rfl
      | true => exact .inr ⟨pending, m, rest, schema, records, rfl, rfl⟩
  | leaving outcome =>
    cases e with
    | proceeds => exact .inl (db.commits_release j)
    | faults fault effective =>
      cases effective <;> [exact .inl rfl; exact .inl (db.commits_release j)]
  | closing outcome => cases e <;> exact .inl (db.commits_release j)
  | done outcome => cases e <;> exact .inl rfl

theorem step_committedBy (l : Runner S) (e : RunnerEvent) (hne : i ≠ j) :
    (M.step j l db e).1.committedBy i = db.committedBy i := by
  rcases step_commits (M := M) db j l e with hsame | ⟨_, m, _, schema, records, -, h⟩
  · exact committedBy_of_commits hsame i
  · rw [h]
    exact committedBy_commit hne

theorem over_step {l : Runner S} (h : l.over = true) (e : RunnerEvent) :
    (M.step i l db e).2.over = true := by
  cases l with
  | leaving outcome | closing outcome | done outcome => cases e <;> rfl
  | idle | waiting | locked | ensured | applying | executed | recorded => cases h

theorem early_of_step {l : Runner S} {e : RunnerEvent} (h : (M.step i l db e).2.early = true) :
    l.early = true := by
  cases l with
  | idle | waiting | locked | ensured => rfl
  | applying pending rest =>
    exfalso
    cases rest with
    | nil => cases e with
      | proceeds => cases h
      | faults fault effective => cases fault <;> cases h
    | cons m rest =>
      cases e with
      | proceeds =>
        simp only [Migrator.step] at h
        split at h
        · cases h
        · split at h <;> cases h
      | faults fault effective =>
        simp only [Migrator.step] at h
        split at h <;> cases fault <;> cases h
  | executed pending m rest schema =>
    exfalso
    cases e with
    | proceeds =>
      simp only [Migrator.step] at h
      split at h <;> cases h
    | faults fault effective => cases fault <;> cases h
  | recorded pending m rest schema records =>
    exfalso
    cases e with
    | proceeds => cases h
    | faults fault effective => cases fault <;> cases h
  | leaving outcome => cases e <;> cases h
  | closing outcome => cases e <;> cases h
  | done outcome => cases e <;> cases h

theorem next_early {c : Config (MigrationDb ι S) ι (Runner S)} (a : ι × RunnerEvent)
    (h : (c.procs i).early = true → c.shared.committedBy i = []) :
    ((M.next c a).procs i).early = true → (M.next c a).shared.committedBy i = [] := by
  intro hearly
  by_cases hi : i = a.1
  · subst hi
    rw [Migrator.next, Config.next_procs_self] at hearly
    have hbefore := early_of_step hearly
    rcases step_commits (M := M) c.shared a.1 (c.procs a.1) a.2 with
      hsame | ⟨_, m, _, schema, records, hl, -⟩
    · exact (committedBy_of_commits hsame a.1).trans (h hbefore)
    · rw [hl] at hbefore
      cases hbefore
  · rw [Migrator.next, Config.next_procs_of_ne M.step c hi] at hearly
    exact (step_committedBy (c.procs a.1) a.2 hi).trans (h hearly)

theorem next_over {c : Config (MigrationDb ι S) ι (Runner S)} (a : ι × RunnerEvent)
    (h : (c.procs i).over = true ∧ c.shared.committedBy i = []) :
    ((M.next c a).procs i).over = true ∧ (M.next c a).shared.committedBy i = [] := by
  obtain ⟨hover, hnone⟩ := h
  by_cases hi : i = a.1
  · subst hi
    refine ⟨?_, ?_⟩
    · rw [Migrator.next, Config.next_procs_self]
      exact over_step hover a.2
    · rcases step_commits (M := M) c.shared a.1 (c.procs a.1) a.2 with
        hsame | ⟨_, m, _, schema, records, hl, -⟩
      · exact (committedBy_of_commits hsame a.1).trans hnone
      · rw [hl] at hover
        cases hover
  · refine ⟨?_, (step_committedBy (c.procs a.1) a.2 hi).trans hnone⟩
    rw [Migrator.next, Config.next_procs_of_ne M.step c hi]
    exact hover

theorem refused_commits_nothing {db₀ : MigrationDb ι S} (hcommits : db₀.commits = [])
    {before after : List (ι × RunnerEvent)} {e : RunnerEvent} {records : SchemaMigrations}
    (hensured : (run M.next db₀.start before).procs i = .ensured)
    (hrecords : (run M.next db₀.start before).shared.records = some records)
    (hdrift : detectDrift (M.discovered i) records.applied ≠ []) :
    (run M.next db₀.start (before ++ (i, e) :: after)).shared.committedBy i = [] := by
  have hstart : (db₀.start.procs i : Runner S).early = true → db₀.start.shared.committedBy i = [] := by
    intro _
    simp [MigrationDb.start, MigrationDb.committedBy, hcommits]
  have hearly := run_preserves
    (I := fun c : Config (MigrationDb ι S) ι (Runner S) =>
      (c.procs i).early = true → c.shared.committedBy i = [])
    (fun _ a h => next_early (M := M) a h) hstart before
  have hnone := hearly (by rw [hensured]; rfl)
  rw [run_append, run_cons]
  have hover : ((M.next (run M.next db₀.start before) (i, e)).procs i).over = true := by
    rw [Migrator.next, Config.next_procs_self, hensured]
    cases e with
    | proceeds =>
      simp only [Migrator.step, Migrator.afterFetch, hrecords]
      rw [if_pos hdrift]
      rfl
    | faults fault effective => exact over_handled _ fault
  have hstill : (M.next (run M.next db₀.start before) (i, e)).shared.committedBy i = [] := by
    rw [Migrator.next, Config.next_shared, hensured]
    cases e <;> exact hnone
  exact (run_preserves
    (I := fun c : Config (MigrationDb ι S) ι (Runner S) =>
      (c.procs i).over = true ∧ c.shared.committedBy i = [])
    (fun _ a h => next_over (M := M) a h) ⟨hover, hstill⟩ after).2

end Drift

section Alone
variable {ι S : Type} [DecidableEq ι] {M : Migrator ι S} {migrations : List MigrationRecord}
  {db₀ : MigrationDb ι S} {i : ι} {c c' c'' : Config (MigrationDb ι S) ι (Runner S)}

/-- Only run `i` takes steps from `c` to `c'`, without a fault. -/
def Alone (M : Migrator ι S) (i : ι) (c c' : Config (MigrationDb ι S) ι (Runner S)) : Prop :=
  ∃ n, run M.next c (List.replicate n (i, .proceeds)) = c'

theorem Alone.refl : Alone M i c c := ⟨0, rfl⟩

theorem Alone.trans (h : Alone M i c c') (h' : Alone M i c' c'') : Alone M i c c'' := by
  obtain ⟨n, rfl⟩ := h
  obtain ⟨m, rfl⟩ := h'
  exact ⟨n + m, by rw [List.replicate_add, run_append]⟩

theorem Alone.next : Alone M i c (M.next c (i, .proceeds)) := ⟨1, rfl⟩

/-- One step of run `i`, seen from where it is. -/
theorem alone_step {l : Runner S} (hl : c.procs i = l) :
    ∃ c', Alone M i c c' ∧ c'.shared = (M.step i l c.shared .proceeds).1 ∧
      c'.procs i = (M.step i l c.shared .proceeds).2 := by
  refine ⟨M.next c (i, .proceeds), .next, ?_, ?_⟩
  · rw [← hl]
    rfl
  · rw [← hl, Migrator.next, Config.next_procs_self]

theorem alone_applying {pending rest : List MigrationRecord} {schema : S}
    (hl : c.procs i = .applying pending rest) (hlock : c.shared.lock = some i)
    (hrecords : c.shared.records.isSome = true) (hsql : ∀ m ∈ rest, m.sql ≠ "")
    (hreplay : replay M.execute c.shared.schema rest = .ok schema) :
    ∃ c', Alone M i c c' ∧ c'.procs i = .done (some (.applied pending)) ∧
      c'.shared.lock = none ∧
      c'.shared.commits = c.shared.commits ++ rest.map fun m => (i, m) := by
  induction rest generalizing c with
  | nil =>
    obtain ⟨c₁, halone₁, hshared₁, hprocs₁⟩ := alone_step (M := M) hl
    obtain ⟨c₂, halone₂, hshared₂, hprocs₂⟩ := alone_step (M := M) hprocs₁
    refine ⟨c₂, halone₁.trans halone₂, hprocs₂, ?_, ?_⟩
    · rw [hshared₂, hshared₁]
      simp [Migrator.step, MigrationDb.release, hlock]
    · rw [hshared₂, hshared₁]
      simp [Migrator.step]
  | cons m rest ih =>
    rw [replay, List.foldlM_cons] at hreplay
    obtain ⟨schema', hexecute, hrest⟩ := Except.bind_eq_ok_iff.mp hreplay
    obtain ⟨records, hrecords'⟩ := Option.isSome_iff_exists.mp hrecords
    obtain ⟨c₁, halone₁, hshared₁, hprocs₁⟩ := alone_step (M := M) hl
    simp only [Migrator.step, if_neg (hsql m List.mem_cons_self), hexecute] at hshared₁ hprocs₁
    obtain ⟨c₂, halone₂, hshared₂, hprocs₂⟩ := alone_step (M := M) hprocs₁
    simp only [Migrator.step, hshared₁, hrecords'] at hshared₂ hprocs₂
    obtain ⟨c₃, halone₃, hshared₃, hprocs₃⟩ := alone_step (M := M) hprocs₂
    simp only [Migrator.step, hshared₂] at hshared₃ hprocs₃
    obtain ⟨c', halone, hdone, hfree, hcommits⟩ := ih hprocs₃ (by rw [hshared₃]; exact hlock)
      (by rw [hshared₃]; rfl) (fun m' hm' => hsql m' (List.mem_cons_of_mem _ hm'))
      (by rw [hshared₃]; exact hrest)
    refine ⟨c', halone₁.trans (halone₂.trans (halone₃.trans halone)), hdone, hfree, ?_⟩
    rw [hcommits, hshared₃]
    simp [MigrationDb.commit]

omit [DecidableEq ι] in
theorem detectDrift_of_sound {db : MigrationDb ι S} {records : SchemaMigrations}
    (hsound : Sound M migrations db₀ db)
    (hversions : (migrations.map MigrationRecord.version).Nodup)
    (hrecords : db.records = some records)
    (hdrift : detectDrift migrations (db₀.records.getD Table.empty).applied = []) :
    detectDrift migrations records.applied = [] := by
  have hrows : records.rows = db₀.rows ++ db.committed.map MigrationRecord.row := by
    rw [← hsound.rows, MigrationDb.rows, hrecords]
    rfl
  refine List.filterMap_eq_nil_iff.mpr fun m hm => ?_
  have hold := List.filterMap_eq_nil_iff.mp hdrift m hm
  cases happlied : records.applied m.version with
  | none => rfl
  | some checksum =>
    obtain ⟨row, hget, rfl⟩ := Option.map_eq_some_iff.mp happlied
    obtain ⟨hmem, hversion⟩ := Keyed.get_eq_some_iff.mp hget
    rw [hrows, List.mem_append] at hmem
    rcases hmem with hmem | hmem
    · have hget₀ : (db₀.records.getD Table.empty).applied m.version = some row.checksum := by
        rw [SchemaMigrations.applied, Keyed.get_eq_some_iff.mpr ⟨hmem, hversion⟩]
        rfl
      rw [hget₀] at hold
      exact hold
    · obtain ⟨m', hm', rfl⟩ := List.mem_map.mp hmem
      have hmem' : m' ∈ migrations :=
        List.mem_of_mem_filter (hsound.committed.subset hm')
      obtain rfl := List.inj_on_of_nodup_map hversions hmem' hm hversion
      simp [MigrationRecord.row]

theorem alone_rerun {rest : List MigrationRecord} {schema : S}
    (hdiscovered : M.discovered i = migrations)
    (hversions : (migrations.map MigrationRecord.version).Nodup)
    (hsound : Sound M migrations db₀ c.shared) (hidle : c.procs i = .idle)
    (hlock : c.shared.lock = none)
    (hdrift : detectDrift migrations (db₀.records.getD Table.empty).applied = [])
    (hrest : c.shared.committed ++ rest = db₀.pending migrations) (hsql : ∀ m ∈ rest, m.sql ≠ "")
    (hreplay : replay M.execute c.shared.schema rest = .ok schema) :
    ∃ c' outcome, Alone M i c c' ∧ c'.procs i = .done (some outcome) ∧
      outcome.exitCode = some 0 ∧ c'.shared.lock = none ∧
      c'.shared.commits = c.shared.commits ++ rest.map fun m => (i, m) := by
  obtain ⟨c₁, halone₁, hshared₁, hprocs₁⟩ := alone_step (M := M) hidle
  simp only [Migrator.step, hdiscovered] at hshared₁ hprocs₁
  by_cases hempty : migrations = []
  · rw [if_pos hempty] at hprocs₁
    have hnone : rest = [] := by
      subst hempty
      exact (List.append_eq_nil_iff.mp hrest).2
    refine ⟨c₁, .noMigrations, halone₁, hprocs₁, rfl, ?_, ?_⟩
    · rw [hshared₁]
      exact hlock
    · rw [hshared₁, hnone]
      simp
  · rw [if_neg hempty] at hprocs₁
    obtain ⟨c₂, halone₂, hshared₂, hprocs₂⟩ := alone_step (M := M) hprocs₁
    simp only [Migrator.step, hshared₁, hlock, if_true, MigrationDb.grant] at hshared₂ hprocs₂
    obtain ⟨c₃, halone₃, hshared₃, hprocs₃⟩ := alone_step (M := M) hprocs₂
    simp only [Migrator.step, hshared₂] at hshared₃ hprocs₃
    have hrecords : c₃.shared.records = some (c.shared.records.getD Table.empty) := by
      rw [hshared₃]
      rfl
    have hsound₃ : Sound M migrations db₀ c₃.shared := by
      rw [hshared₃]
      exact ⟨hsound.committed, hsound.rows, hsound.schema⟩
    have hcommitted₃ : c₃.shared.committed = c.shared.committed := by
      rw [hshared₃]
      rfl
    have hpending := pending_of_sound hsound₃ hversions hrecords
    rw [hcommitted₃, ← hrest] at hpending
    have hfetched := List.append_cancel_left hpending
    obtain ⟨c₄, halone₄, hshared₄, hprocs₄⟩ := alone_step (M := M) hprocs₃
    simp only [Migrator.step, hdiscovered, hrecords, Migrator.afterFetch,
      detectDrift_of_sound hsound₃ hversions hrecords hdrift, hfetched, ne_eq, not_true_eq_false,
      if_false] at hshared₄ hprocs₄
    have halone : Alone M i c c₄ := halone₁.trans (halone₂.trans (halone₃.trans halone₄))
    by_cases hdone : rest = []
    · rw [if_pos hdone] at hprocs₄
      obtain ⟨c₅, halone₅, hshared₅, hprocs₅⟩ := alone_step (M := M) hprocs₄
      refine ⟨c₅, _, halone.trans halone₅, hprocs₅, rfl, ?_, ?_⟩
      · rw [hshared₅, hshared₄, hshared₃]
        simp [Migrator.step, MigrationDb.release, MigrationDb.ensure]
      · rw [hshared₅, hshared₄, hshared₃, hdone]
        simp [Migrator.step, MigrationDb.ensure]
    · rw [if_neg hdone] at hprocs₄
      obtain ⟨c', halone', hprocs', hfree, hcommits⟩ := alone_applying hprocs₄
        (by rw [hshared₄, hshared₃]; rfl) (by rw [hshared₄, hrecords]; rfl) hsql
        (by rw [hshared₄, hshared₃]; exact hreplay)
      refine ⟨c', _, halone.trans halone', hprocs', rfl, hfree, ?_⟩
      rw [hcommits, hshared₄, hshared₃]
      rfl

end Alone

section Reruns
variable {ι S : Type}

/-- The database after runs that started from `db₀`: the committed migrations, and their records. -/
structure Consistent (migrations : List MigrationRecord) (db₀ db : MigrationDb ι S) : Prop where
  once : db.committed.Nodup
  recorded : ∀ m ∈ db₀.pending migrations, m ∈ db.committed ↔
    ∃ row ∈ db.rows, row.version = m.version ∧ row.checksum = m.checksum
  rows : db.rows = db₀.rows ++ db.committed.map MigrationRecord.row
  committed : db.committed <+: db₀.pending migrations

variable {M : Migrator ι S} {migrations : List MigrationRecord} {db₀ db : MigrationDb ι S}

theorem consistent_of_sound (hsound : Sound M migrations db₀ db)
    (hversions : (migrations.map MigrationRecord.version).Nodup) :
    Consistent migrations db₀ db where
  once := (List.Nodup.of_map _ (pending_nodup db₀ hversions)).sublist hsound.committed.sublist
  recorded := by
    intro m hm
    constructor
    · intro hmem
      refine ⟨m.row, ?_, rfl, rfl⟩
      rw [hsound.rows]
      exact List.mem_append_right _ (List.mem_map_of_mem hmem)
    · rintro ⟨row, hrow, hversion, -⟩
      rw [hsound.rows, List.mem_append] at hrow
      rcases hrow with hold | hnew
      · exact absurd hversion (applied_isNone_iff.mp (List.mem_filter.mp hm).2 row hold)
      · obtain ⟨m', hm', rfl⟩ := List.mem_map.mp hnew
        have hmem' := hsound.committed.subset hm'
        obtain rfl := List.inj_on_of_nodup_map (pending_nodup db₀ hversions) hmem' hm hversion
        exact hm'
  rows := hsound.rows
  committed := hsound.committed

variable [DecidableEq ι]

theorem progress_of_returned {i : ι} {outcome : MigrateOutcome}
    (h : Ended migrations db₀ db i outcome) (hcode : outcome.exitCode = some 0) :
    Progress migrations db₀ db i (db.committedBy i) [] := by
  cases outcome with
  | noMigrations | upToDate =>
    rw [h.1]
    refine ⟨db.commits, by simp, ?_, ?_⟩
    · intro p hp heq
      have hmem : p.2 ∈ db.committedBy i :=
        List.mem_map_of_mem (List.mem_filter.mpr ⟨hp, by simpa using heq⟩)
      rw [h.1] at hmem
      cases hmem
    · rw [List.append_nil, List.append_nil]
      exact h.2
  | applied pending =>
    rw [Progress.committedBy h]
    exact h
  | ensureFailed | refused | applyFailed => simp [MigrateOutcome.exitCode] at hcode
  | raised => cases hcode

/-- Runs of the same migrations, no two of one version. -/
theorem migration_runs (packaged checkout : Option MigrationDirectory)
    (hdiscovered : discoverMigrations M.text packaged checkout = .ok migrations)
    (hpackaged : ∀ directory ∈ packaged, ¬ directory.Ambiguous)
    (hcheckout : ∀ directory ∈ checkout, ¬ directory.Ambiguous)
    (hruns : ∀ i, M.discovered i = migrations) (hcommits : db₀.commits = [])
    (events : List (ι × RunnerEvent)) :
    Consistent migrations db₀ (run M.next db₀.start events).shared ∧
      (∀ i outcome, (run M.next db₀.start events).procs i = .done (some outcome) →
        outcome.exitCode = some 0 →
          Progress migrations db₀ (run M.next db₀.start events).shared i
            ((run M.next db₀.start events).shared.committedBy i) []) ∧
      (∀ i rest schema, (run M.next db₀.start events).procs i = .idle →
        (run M.next db₀.start events).shared.lock = none →
        detectDrift migrations (db₀.records.getD Table.empty).applied = [] →
        (run M.next db₀.start events).shared.committed ++ rest = db₀.pending migrations →
        (∀ m ∈ rest, m.sql ≠ "") →
        replay M.execute (run M.next db₀.start events).shared.schema rest = .ok schema →
          ∃ c' outcome, Alone M i (run M.next db₀.start events) c' ∧
            c'.procs i = .done (some outcome) ∧ outcome.exitCode = some 0 ∧
            c'.shared.commits =
              (run M.next db₀.start events).shared.commits ++ rest.map fun m => (i, m)) ∧
      ∀ (M' : Migrator ι S) (before after : List (ι × RunnerEvent)) (i : ι) (e : RunnerEvent)
        (records : SchemaMigrations), (run M'.next db₀.start before).procs i = .ensured →
        (run M'.next db₀.start before).shared.records = some records →
        detectDrift (M'.discovered i) records.applied ≠ [] →
          (run M'.next db₀.start (before ++ (i, e) :: after)).shared.committedBy i = [] := by
  have hversions := discoverMigrations_nodup hdiscovered hpackaged hcheckout
  have hinvariant := run_invariant_of_start hruns hversions hcommits events
  refine ⟨consistent_of_sound hinvariant.sound hversions, ?_, ?_, ?_⟩
  · intro i outcome hdone hcode
    have hlocal := hinvariant.runs i
    rw [hdone] at hlocal
    exact progress_of_returned (hlocal outcome rfl) hcode
  · intro i rest schema hidle hlock hdrift hrest hsql hreplay
    obtain ⟨c', outcome, halone, hdone, hcode, -, hcommitted⟩ := alone_rerun (hruns i) hversions
      hinvariant.sound hidle hlock hdrift hrest hsql hreplay
    exact ⟨c', outcome, halone, hdone, hcode, hcommitted⟩
  · intro M' before after i e records hensured hrecords hdrift
    exact refused_commits_nothing hcommits hensured hrecords hdrift

end Reruns

section TwoFiles

def selectOne : List UInt8 := [83, 69, 76, 69, 67, 84, 32, 49, 59]
def selectTwo : List UInt8 := [83, 69, 76, 69, 67, 84, 32, 50, 59]

def selectText : MigrationText where
  sha256 := fun data =>
    if data = selectOne then "17db4fd369edb9244b9f91d9aeed145c3d04ad8ba6e95d06247f07a63527d11a"
    else "8e7003d62f9d8cbd28da2f243bb0d215bfd4622c716be09be89a8764d9f4c7cb"
  decode := fun data => .ok (String.ofList (data.map fun byte => Char.ofNat byte.toNat))
  repr := fun name => "'" ++ name ++ "'"

def selectRecord (name : String) (data : List UInt8) : MigrationRecord :=
  ⟨stem name, name, selectText.sha256 data,
    String.ofList (data.map fun byte => Char.ofNat byte.toNat)⟩

def selectMigrator (migrations : List MigrationRecord) : Migrator Bool Unit where
  text := selectText
  execute := fun _ _ => .ok ()
  discovered := fun _ => migrations

def emptyDb : MigrationDb Bool Unit := ⟨none, none, (), []⟩

def hiddenDirectory : MigrationDirectory where
  files := [⟨".sql", selectOne⟩, ⟨".sql.sql", selectTwo⟩]
  nodup := by decide

def hiddenMigrations : List MigrationRecord :=
  [selectRecord ".sql" selectOne, selectRecord ".sql.sql" selectTwo]

def numberedDirectory : MigrationDirectory where
  files := [⟨"0002_second.sql", selectTwo⟩, ⟨"0001_first.sql", selectOne⟩]
  nodup := by decide

def numberedMigrations : List MigrationRecord :=
  [selectRecord "0001_first.sql" selectOne, selectRecord "0002_second.sql" selectTwo]

/-- The first run dies after its first transaction, and its session stays; the second one waits
for the lock. -/
def diesHalfway : List (Bool × RunnerEvent) :=
  List.replicate 6 (true, .proceeds) ++ [(true, .faults .death true), (false, .proceeds),
    (false, .proceeds), (true, .proceeds), (false, .proceeds)]

theorem migration_runs_halfway :
    Consistent numberedMigrations emptyDb
      (run (selectMigrator numberedMigrations).next emptyDb.start diesHalfway).shared :=
  (migration_runs (M := selectMigrator numberedMigrations) none (some numberedDirectory) rfl
    (by simp)
    (by
      rintro directory ⟨⟩ ⟨hhidden, -⟩
      simp [numberedDirectory] at hhidden)
    (fun _ => rfl) rfl diesHalfway).1

/-- The record of the second file replaces that of the first, which was committed too. -/
theorem hidden_file_replaces_record :
    ¬ ∀ (M : Migrator Bool Unit) (packaged checkout : Option MigrationDirectory)
        (migrations : List MigrationRecord) (db₀ : MigrationDb Bool Unit)
        (events : List (Bool × RunnerEvent)),
      discoverMigrations M.text packaged checkout = .ok migrations →
      (∀ i, M.discovered i = migrations) → db₀.commits = [] →
        Consistent migrations db₀ (run M.next db₀.start events).shared := by
  intro h
  have hconsistent := h (selectMigrator hiddenMigrations) none (some hiddenDirectory)
    hiddenMigrations emptyDb (List.replicate 10 (true, .proceeds)) rfl (fun _ => rfl) rfl
  have hcommitted : selectRecord ".sql" selectOne ∈
      (run (selectMigrator hiddenMigrations).next emptyDb.start
        (List.replicate 10 (true, .proceeds))).shared.committed := by decide +kernel
  have hrows : (run (selectMigrator hiddenMigrations).next emptyDb.start
        (List.replicate 10 (true, .proceeds))).shared.rows =
      [(selectRecord ".sql.sql" selectTwo).row] := by decide +kernel
  obtain ⟨row, hrow, -, hchecksum⟩ :=
    (hconsistent.recorded _ (by decide +kernel)).mp hcommitted
  rw [hrows, List.mem_singleton] at hrow
  subst hrow
  exact absurd hchecksum (by decide)

end TwoFiles

end Pitwall.Db
