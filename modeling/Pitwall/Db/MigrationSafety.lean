import Pitwall.Db.MigrationRuns
set_option autoImplicit false

/-!
Runs that discover the same migrations, in any interleaving and with any faults: what they commit
is at all times a prefix of what was pending before the first of them.
-/

namespace Pitwall.Db
open Machine

def replay {S : Type} (execute : String → S → Except PyError S) (schema : S)
    (migrations : List MigrationRecord) : Except PyError S :=
  migrations.foldlM (fun schema m => execute m.sql schema) schema

namespace MigrationDb
variable {ι S : Type}

def pending (db : MigrationDb ι S) (migrations : List MigrationRecord) : List MigrationRecord :=
  pendingMigrations migrations (db.records.getD Table.empty).applied

end MigrationDb

theorem applied_isNone_iff {records : SchemaMigrations} {version : String} :
    (records.applied version).isNone = true ↔ ∀ row ∈ records.rows, row.version ≠ version := by
  rw [SchemaMigrations.applied, Option.isNone_map, Option.isNone_iff_eq_none]
  exact Keyed.get_eq_none_iff

section Invariant
variable {ι S : Type} [DecidableEq ι] (M : Migrator ι S) (migrations : List MigrationRecord)
  (db₀ : MigrationDb ι S)

/-- Run `i` has committed `done` on top of all that was committed before it, and has `rest` to
go. -/
def Progress (db : MigrationDb ι S) (i : ι) (done rest : List MigrationRecord) : Prop :=
  ∃ before, db.commits = before ++ done.map (fun m => (i, m)) ∧ (∀ p ∈ before, p.1 ≠ i) ∧
    before.map Prod.snd ++ done ++ rest = db₀.pending migrations

def Ended (db : MigrationDb ι S) (i : ι) : MigrateOutcome → Prop
  | .noMigrations | .upToDate _ =>
      db.committedBy i = [] ∧ db.committed = db₀.pending migrations
  | .refused _ => db.committedBy i = []
  | .applied pending => Progress migrations db₀ db i pending []
  | .ensureFailed _ | .applyFailed _ _ | .raised _ => True

def Local (db : MigrationDb ι S) (i : ι) : Runner S → Prop
  | .idle | .waiting => db.committedBy i = []
  | .locked | .ensured => db.lock = some i ∧ db.committedBy i = []
  | .applying pending rest =>
      db.lock = some i ∧ ∃ done, done ++ rest = pending ∧ Progress migrations db₀ db i done rest
  | .executed pending m rest schema =>
      db.lock = some i ∧ M.execute m.sql db.schema = .ok schema ∧
        ∃ done, done ++ m :: rest = pending ∧ Progress migrations db₀ db i done (m :: rest)
  | .recorded pending m rest schema records =>
      db.lock = some i ∧ M.execute m.sql db.schema = .ok schema ∧
        (∃ current, db.records = some current ∧ records = current.upsert m.row) ∧
          ∃ done, done ++ m :: rest = pending ∧ Progress migrations db₀ db i done (m :: rest)
  | .leaving outcome => db.lock = some i ∧ Ended migrations db₀ db i outcome
  | .closing outcome | .done outcome => ∀ o ∈ outcome, Ended migrations db₀ db i o

structure Sound (db : MigrationDb ι S) : Prop where
  committed : db.committed <+: db₀.pending migrations
  rows : db.rows = db₀.rows ++ db.committed.map MigrationRecord.row
  schema : replay M.execute db₀.schema db.committed = .ok db.schema

structure Invariant (c : Config (MigrationDb ι S) ι (Runner S)) : Prop where
  sound : Sound M migrations db₀ c.shared
  runs : ∀ i, Local M migrations db₀ c.shared i (c.procs i)

end Invariant

section Frame
variable {ι S : Type} [DecidableEq ι] {M : Migrator ι S} {migrations : List MigrationRecord}
  {db₀ db db' : MigrationDb ι S} {i j : ι} {done rest : List MigrationRecord}

omit [DecidableEq ι] in
theorem Progress.committed (h : Progress migrations db₀ db i done rest) :
    db.committed ++ rest = db₀.pending migrations := by
  obtain ⟨before, hcommits, -, hpending⟩ := h
  rw [MigrationDb.committed, hcommits, ← hpending, List.map_append, List.map_map]
  congr 2
  exact List.map_id done

theorem Progress.committedBy (h : Progress migrations db₀ db i done rest) :
    db.committedBy i = done := by
  obtain ⟨before, hcommits, hothers, -⟩ := h
  have hbefore : before.filter (fun p => decide (p.1 = i)) = [] :=
    List.filter_eq_nil_iff.mpr fun p hp => by simpa using hothers p hp
  have hdone : (done.map fun m => (i, m)).filter (fun p => decide (p.1 = i)) =
      done.map fun m => (i, m) := by
    refine List.filter_eq_self.mpr ?_
    intro p hp
    obtain ⟨m, -, rfl⟩ := List.mem_map.mp hp
    simp
  rw [MigrationDb.committedBy, hcommits, List.filter_append, hbefore, hdone, List.nil_append,
    List.map_map]
  exact List.map_id done

/-- What the step of another run leaves of the database for run `i`. -/
structure Frame (migrations : List MigrationRecord) (db₀ db db' : MigrationDb ι S) (i : ι) :
    Prop where
  committedBy : db'.committedBy i = db.committedBy i
  held : db.lock = some i → db'.lock = some i ∧ db'.commits = db.commits ∧
    db'.records = db.records ∧ db'.schema = db.schema
  finished : db.committed = db₀.pending migrations → db'.commits = db.commits

omit [DecidableEq ι] in
theorem Progress.congr (h : Progress migrations db₀ db i done rest)
    (hcommits : db'.commits = db.commits) : Progress migrations db₀ db' i done rest := by
  unfold Progress
  rw [hcommits]
  exact h

theorem Ended.frame {outcome : MigrateOutcome} (h : Ended migrations db₀ db i outcome)
    (hframe : Frame migrations db₀ db db' i) : Ended migrations db₀ db' i outcome := by
  cases outcome with
  | noMigrations | upToDate =>
    refine ⟨hframe.committedBy.trans h.1, ?_⟩
    rw [MigrationDb.committed, hframe.finished h.2]
    exact h.2
  | refused => exact hframe.committedBy.trans h
  | applied pending =>
    have hfinished := Progress.committed h
    rw [List.append_nil] at hfinished
    exact Progress.congr h (hframe.finished hfinished)
  | ensureFailed | applyFailed | raised => trivial

theorem Local.frame {l : Runner S} (h : Local M migrations db₀ db i l)
    (hframe : Frame migrations db₀ db db' i) : Local M migrations db₀ db' i l := by
  cases l with
  | idle | waiting => exact hframe.committedBy.trans h
  | locked | ensured => exact ⟨(hframe.held h.1).1, hframe.committedBy.trans h.2⟩
  | applying pending rest =>
    obtain ⟨hlock, done, hdone, hprogress⟩ := h
    obtain ⟨hlock', hcommits, -⟩ := hframe.held hlock
    exact ⟨hlock', done, hdone, hprogress.congr hcommits⟩
  | executed pending m rest schema =>
    obtain ⟨hlock, hexecute, done, hdone, hprogress⟩ := h
    obtain ⟨hlock', hcommits, -, hschema⟩ := hframe.held hlock
    exact ⟨hlock', by rw [hschema]; exact hexecute, done, hdone, hprogress.congr hcommits⟩
  | recorded pending m rest schema records =>
    obtain ⟨hlock, hexecute, hrecords, done, hdone, hprogress⟩ := h
    obtain ⟨hlock', hcommits, hrecords', hschema⟩ := hframe.held hlock
    exact ⟨hlock', by rw [hschema]; exact hexecute, by rw [hrecords']; exact hrecords, done, hdone,
      hprogress.congr hcommits⟩
  | leaving outcome => exact ⟨(hframe.held h.1).1, h.2.frame hframe⟩
  | closing outcome | done outcome => exact fun o ho => (h o ho).frame hframe

theorem Frame.refl : Frame migrations db₀ db db i := ⟨rfl, fun h => ⟨h, rfl, rfl, rfl⟩, fun _ => rfl⟩

theorem Frame.grant : Frame migrations db₀ db (db.grant j) i where
  committedBy := by simp [MigrationDb.committedBy]
  held := fun h => ⟨db.lock_grant j i h, by simp, by simp, by simp⟩
  finished := fun _ => by simp

theorem Frame.release (hne : i ≠ j) : Frame migrations db₀ db (db.release j) i where
  committedBy := by simp [MigrationDb.committedBy]
  held := fun h => ⟨db.lock_release j i h hne, by simp, by simp, by simp⟩
  finished := fun _ => by simp

theorem Frame.ensure (hlock : db.lock = some j) (hne : i ≠ j) :
    Frame migrations db₀ db db.ensure i where
  committedBy := rfl
  held := fun h => absurd (Option.some.inj (h.symm.trans hlock)) hne
  finished := fun _ => rfl

theorem Frame.commit {m : MigrationRecord} {schema : S} {records : SchemaMigrations}
    (hlock : db.lock = some j) (hne : i ≠ j)
    (hprogress : Progress migrations db₀ db j done (m :: rest)) :
    Frame migrations db₀ db (db.commit j m schema records) i where
  committedBy := by
    simp [MigrationDb.committedBy, MigrationDb.commit, List.filter_append, hne.symm]
  held := fun h => absurd (Option.some.inj (h.symm.trans hlock)) hne
  finished := by
    intro hfinished
    have hmore := hprogress.committed
    rw [hfinished] at hmore
    simp at hmore

theorem step_frame (e : RunnerEvent) {l : Runner S} (h : Local M migrations db₀ db j l)
    (hne : i ≠ j) : Frame migrations db₀ db (M.step j l db e).1 i := by
  cases l with
  | idle => cases e <;> exact .refl
  | waiting =>
    cases e with
    | proceeds => exact .grant
    | faults fault effective => cases effective <;> [exact .refl; exact .grant]
  | locked =>
    cases e with
    | proceeds => exact .ensure h.1 hne
    | faults fault effective => cases effective <;> [exact .refl; exact .ensure h.1 hne]
  | ensured => cases e <;> exact .refl
  | applying pending rest =>
    cases rest with
    | nil => cases e <;> exact .refl
    | cons m rest =>
      cases e with
      | proceeds =>
        simp only [Migrator.step]
        split
        · exact .refl
        · split <;> exact .refl
      | faults fault effective =>
        simp only [Migrator.step]
        split <;> exact .refl
  | executed pending m rest schema =>
    cases e with
    | proceeds =>
      simp only [Migrator.step]
      split <;> exact .refl
    | faults fault effective => exact .refl
  | recorded pending m rest schema records =>
    obtain ⟨hlock, -, -, done, -, hprogress⟩ := h
    cases e with
    | proceeds => exact .commit hlock hne hprogress
    | faults fault effective => cases effective <;> [exact .refl; exact .commit hlock hne hprogress]
  | leaving outcome =>
    cases e with
    | proceeds => exact .release hne
    | faults fault effective => cases effective <;> [exact .refl; exact .release hne]
  | closing outcome => cases e <;> exact .release hne
  | done outcome => cases e <;> exact .refl

end Frame

section Step
variable {ι S : Type} [DecidableEq ι] {M : Migrator ι S} {migrations : List MigrationRecord}
  {db₀ db : MigrationDb ι S} {i : ι}

omit [DecidableEq ι] in
theorem pending_nodup (db₀ : MigrationDb ι S)
    (hversions : (migrations.map MigrationRecord.version).Nodup) :
    ((db₀.pending migrations).map MigrationRecord.version).Nodup :=
  hversions.sublist (List.filter_sublist.map _)

omit [DecidableEq ι] in
theorem absent_of_pending {m : MigrationRecord} {rest : List MigrationRecord}
    (hsound : Sound M migrations db₀ db)
    (hversions : (migrations.map MigrationRecord.version).Nodup)
    (hpending : db.committed ++ m :: rest = db₀.pending migrations) :
    ∀ row ∈ db.rows, row.version ≠ m.version := by
  intro row hrow
  rw [hsound.rows, List.mem_append] at hrow
  rcases hrow with hold | hnew
  · have hmem : m ∈ db₀.pending migrations := by
      rw [← hpending]
      simp
    exact applied_isNone_iff.mp (List.mem_filter.mp hmem).2 row hold
  · obtain ⟨m', hm', rfl⟩ := List.mem_map.mp hnew
    have hnodup := pending_nodup db₀ hversions
    rw [← hpending, List.map_append, List.nodup_append] at hnodup
    exact hnodup.2.2 _ (List.mem_map_of_mem hm') _ (by simp)

omit [DecidableEq ι] in
theorem pending_of_sound {records : SchemaMigrations} (hsound : Sound M migrations db₀ db)
    (hversions : (migrations.map MigrationRecord.version).Nodup)
    (hrecords : db.records = some records) :
    db.committed ++ pendingMigrations migrations records.applied = db₀.pending migrations := by
  obtain ⟨rest, hrest⟩ := hsound.committed
  have hrows : records.rows = db₀.rows ++ db.committed.map MigrationRecord.row := by
    rw [← hsound.rows, MigrationDb.rows, hrecords]
    rfl
  have hnone : ∀ m : MigrationRecord, (records.applied m.version).isNone =
      (decide (m.version ∉ db.committed.map MigrationRecord.version) &&
        ((db₀.records.getD Table.empty).applied m.version).isNone) := by
    intro m
    rw [Bool.eq_iff_iff, Bool.and_eq_true, decide_eq_true_eq, applied_isNone_iff,
      applied_isNone_iff, hrows]
    constructor
    · intro h
      refine ⟨?_, fun row hrow => h row (List.mem_append_left _ hrow)⟩
      intro hmem
      obtain ⟨m', hm', heq⟩ := List.mem_map.mp hmem
      exact h m'.row (List.mem_append_right _ (List.mem_map_of_mem hm')) heq
    · rintro ⟨hcommitted, hold⟩ row hrow
      rcases List.mem_append.mp hrow with hrow | hrow
      · exact hold row hrow
      · obtain ⟨m', hm', rfl⟩ := List.mem_map.mp hrow
        exact fun heq => hcommitted (List.mem_map.mpr ⟨m', hm', heq⟩)
  have hfiltered : pendingMigrations migrations records.applied =
      (db₀.pending migrations).filter fun m =>
        decide (m.version ∉ db.committed.map MigrationRecord.version) := by
    rw [MigrationDb.pending, pendingMigrations, pendingMigrations, List.filter_filter]
    exact List.filter_congr fun m _ => hnone m
  have hnodup := pending_nodup db₀ hversions
  rw [← hrest, List.map_append, List.nodup_append] at hnodup
  have hdone : (db.committed.filter fun m =>
      decide (m.version ∉ db.committed.map MigrationRecord.version)) = [] := by
    refine List.filter_eq_nil_iff.mpr fun m hm => ?_
    simpa using ⟨m, hm, rfl⟩
  have hleft : (rest.filter fun m =>
      decide (m.version ∉ db.committed.map MigrationRecord.version)) = rest := by
    refine List.filter_eq_self.mpr fun m hm => ?_
    rw [decide_eq_true_eq]
    exact fun hmem => hnodup.2.2 _ hmem _ (List.mem_map_of_mem hm) rfl
  rw [hfiltered, ← hrest, List.filter_append, hdone, hleft, List.nil_append]

omit [DecidableEq ι] in
theorem sound_commit {m : MigrationRecord} {rest : List MigrationRecord} {schema : S}
    {current : SchemaMigrations} (hsound : Sound M migrations db₀ db)
    (hversions : (migrations.map MigrationRecord.version).Nodup)
    (hpending : db.committed ++ m :: rest = db₀.pending migrations)
    (hexecute : M.execute m.sql db.schema = .ok schema) (hcurrent : db.records = some current) :
    Sound M migrations db₀ (db.commit i m schema (current.upsert m.row)) := by
  have hcommitted : (db.commit i m schema (current.upsert m.row)).committed =
      db.committed ++ [m] := by
    simp [MigrationDb.committed, MigrationDb.commit]
  have hrows : db.rows = current.rows := by rw [MigrationDb.rows, hcurrent]; rfl
  refine ⟨?_, ?_, ?_⟩
  · rw [hcommitted, ← hpending]
    exact ⟨rest, by simp⟩
  · have habsent := absent_of_pending hsound hversions hpending
    have hnone : current.get m.row.version = none := by
      rw [Keyed.get_eq_none_iff, ← hrows]
      exact habsent
    have hupsert : (current.upsert m.row).rows = current.rows ++ [m.row] := by
      unfold Keyed.upsert
      cases hinsert : current.insert m.row with
      | none =>
        have hsome := Keyed.insert_eq_none_iff.mp hinsert
        rw [hnone] at hsome
        cases hsome
      | some inserted => exact Table.rows_of_insert hinsert
    change (current.upsert m.row).rows = _
    rw [hupsert, ← hrows, hsound.rows, hcommitted, List.map_append, List.append_assoc]
    rfl
  · rw [hcommitted, replay, List.foldlM_append]
    have hreplayed := hsound.schema
    rw [replay] at hreplayed
    rw [Except.bind_of_ok hreplayed, List.foldlM_cons, Except.bind_of_ok hexecute]
    rfl

theorem step_sound (e : RunnerEvent) {l : Runner S} (hsound : Sound M migrations db₀ db)
    (hversions : (migrations.map MigrationRecord.version).Nodup)
    (h : Local M migrations db₀ db i l) : Sound M migrations db₀ (M.step i l db e).1 := by
  have hgrant : Sound M migrations db₀ (db.grant i) := by
    obtain ⟨hcommitted, hrows, hschema⟩ := hsound
    refine ⟨?_, ?_, ?_⟩
    · simpa [MigrationDb.committed] using hcommitted
    · simpa [MigrationDb.committed, MigrationDb.rows] using hrows
    · simpa [MigrationDb.committed] using hschema
  have hrelease : Sound M migrations db₀ (db.release i) := by
    obtain ⟨hcommitted, hrows, hschema⟩ := hsound
    refine ⟨?_, ?_, ?_⟩
    · simpa [MigrationDb.committed] using hcommitted
    · simpa [MigrationDb.committed, MigrationDb.rows] using hrows
    · simpa [MigrationDb.committed] using hschema
  have hensure : Sound M migrations db₀ db.ensure :=
    ⟨hsound.committed, hsound.rows, hsound.schema⟩
  cases l with
  | idle => cases e <;> exact hsound
  | waiting =>
    cases e with
    | proceeds => exact hgrant
    | faults fault effective => cases effective <;> [exact hsound; exact hgrant]
  | locked =>
    cases e with
    | proceeds => exact hensure
    | faults fault effective => cases effective <;> [exact hsound; exact hensure]
  | ensured => cases e <;> exact hsound
  | applying pending rest =>
    cases rest with
    | nil => cases e <;> exact hsound
    | cons m rest =>
      cases e with
      | proceeds =>
        simp only [Migrator.step]
        split
        · exact hsound
        · split <;> exact hsound
      | faults fault effective =>
        simp only [Migrator.step]
        split <;> exact hsound
  | executed pending m rest schema =>
    cases e with
    | proceeds =>
      simp only [Migrator.step]
      split <;> exact hsound
    | faults fault effective => exact hsound
  | recorded pending m rest schema records =>
    obtain ⟨-, hexecute, ⟨current, hcurrent, rfl⟩, done, -, hprogress⟩ := h
    have hcommit := sound_commit (i := i) hsound hversions hprogress.committed hexecute hcurrent
    cases e with
    | proceeds => exact hcommit
    | faults fault effective => cases effective <;> [exact hsound; exact hcommit]
  | leaving outcome =>
    cases e with
    | proceeds => exact hrelease
    | faults fault effective => cases effective <;> [exact hsound; exact hrelease]
  | closing outcome => cases e <;> exact hrelease
  | done outcome => cases e <;> exact hsound

theorem Ended.congr {db' : MigrationDb ι S} {outcome : MigrateOutcome}
    (h : Ended migrations db₀ db i outcome) (hcommits : db'.commits = db.commits) :
    Ended migrations db₀ db' i outcome := by
  cases outcome with
  | noMigrations | upToDate =>
    unfold Ended MigrationDb.committedBy MigrationDb.committed
    rw [hcommits]
    exact h
  | refused =>
    unfold Ended MigrationDb.committedBy
    rw [hcommits]
    exact h
  | applied pending => exact Progress.congr h hcommits
  | ensureFailed | applyFailed | raised => trivial

theorem local_outcome (fault : Fault) :
    ∀ o ∈ fault.outcome, Ended migrations db₀ db i o := by
  cases fault <;> simp [Fault.outcome, Ended]

theorem local_handled {caught : PyError → MigrateOutcome} (fault : Fault)
    (hlock : db.lock = some i) (hcaught : ∀ exc, Ended migrations db₀ db i (caught exc)) :
    Local M migrations db₀ db i (fault.handled caught) := by
  cases fault with
  | exception exc => exact ⟨hlock, hcaught exc⟩
  | interrupt exc => exact ⟨hlock, trivial⟩
  | death => simp [Fault.handled, Local]

theorem local_afterFetch (hsound : Sound M migrations db₀ db)
    (hversions : (migrations.map MigrationRecord.version).Nodup) (hlock : db.lock = some i)
    (hnone : db.committedBy i = []) :
    Local M migrations db₀ db i (Migrator.afterFetch migrations db.records) := by
  unfold Migrator.afterFetch
  cases hrecords : db.records with
  | none => exact ⟨hlock, trivial⟩
  | some records =>
    have hpending := pending_of_sound hsound hversions hrecords
    dsimp only
    split
    · exact ⟨hlock, hnone⟩
    · split
      · rename_i hempty
        rw [hempty, List.append_nil] at hpending
        exact ⟨hlock, hnone, hpending⟩
      · refine ⟨hlock, [], rfl, db.commits, by simp, ?_, ?_⟩
        · intro p hp heq
          have hmem : p.2 ∈ db.committedBy i :=
            List.mem_map_of_mem (List.mem_filter.mpr ⟨hp, by simpa using heq⟩)
          rw [hnone] at hmem
          cases hmem
        · rw [List.append_nil]
          exact hpending

theorem step_local (hdiscovered : M.discovered i = migrations) (e : RunnerEvent) {l : Runner S}
    (hsound : Sound M migrations db₀ db)
    (hversions : (migrations.map MigrationRecord.version).Nodup)
    (h : Local M migrations db₀ db i l) :
    Local M migrations db₀ (M.step i l db e).1 i (M.step i l db e).2 := by
  cases l with
  | idle =>
    cases e with
    | proceeds =>
      simp only [Migrator.step, hdiscovered]
      split
      · rename_i hempty
        rintro o ⟨⟩
        have hprefix := hsound.committed
        subst hempty
        exact ⟨h, List.prefix_nil.mp hprefix⟩
      · exact h
    | faults fault effective => exact local_outcome fault
  | waiting =>
    have hcommitted : (db.grant i).committedBy i = [] := by
      rw [MigrationDb.committedBy, MigrationDb.commits_grant]
      exact h
    cases e with
    | proceeds =>
      simp only [Migrator.step]
      split
      · rename_i hfree
        exact ⟨by simp [MigrationDb.grant, hfree], hcommitted⟩
      · exact hcommitted
    | faults fault effective => exact local_outcome fault
  | locked =>
    cases e with
    | proceeds => exact h
    | faults fault effective =>
      refine local_handled fault ?_ (fun _ => trivial)
      cases effective <;> exact h.1
  | ensured =>
    cases e with
    | proceeds =>
      simp only [Migrator.step, hdiscovered]
      exact local_afterFetch hsound hversions h.1 h.2
    | faults fault effective => exact local_handled fault h.1 (fun _ => trivial)
  | applying pending rest =>
    obtain ⟨hlock, done, hdone, hprogress⟩ := h
    cases rest with
    | nil =>
      cases e with
      | proceeds =>
        rw [List.append_nil] at hdone
        subst hdone
        exact ⟨hlock, hprogress⟩
      | faults fault effective => exact local_handled fault hlock (fun _ => trivial)
    | cons m rest =>
      cases e with
      | proceeds =>
        simp only [Migrator.step]
        split
        · exact ⟨hlock, trivial⟩
        · cases hexecute : M.execute m.sql db.schema with
          | error exc => exact ⟨hlock, trivial⟩
          | ok schema => exact ⟨hlock, hexecute, done, hdone, hprogress⟩
      | faults fault effective =>
        simp only [Migrator.step]
        split <;> exact local_handled fault hlock (fun _ => trivial)
  | executed pending m rest schema =>
    obtain ⟨hlock, hexecute, hdone⟩ := h
    cases e with
    | proceeds =>
      simp only [Migrator.step]
      cases hrecords : db.records with
      | none => exact ⟨hlock, trivial⟩
      | some records => exact ⟨hlock, hexecute, ⟨records, hrecords, rfl⟩, hdone⟩
    | faults fault effective => exact local_handled fault hlock (fun _ => trivial)
  | recorded pending m rest schema records =>
    obtain ⟨hlock, hexecute, -, done, hdone, before, hcommits, hothers, hpending⟩ := h
    cases e with
    | proceeds =>
      refine ⟨hlock, done ++ [m], by rw [← hdone]; simp, before, ?_, hothers, ?_⟩
      · simp [Migrator.step, MigrationDb.commit, hcommits]
      · rw [← hpending]
        simp
    | faults fault effective =>
      refine local_handled fault ?_ (fun _ => trivial)
      cases effective <;> exact hlock
  | leaving outcome =>
    cases e with
    | proceeds =>
      rintro o ⟨⟩
      exact h.2.congr (by simp [Migrator.step])
    | faults fault effective => exact local_outcome fault
  | closing outcome =>
    cases e <;> exact fun o ho => (h o ho).congr (by simp [Migrator.step])
  | done outcome => cases e <;> exact h

end Step

section Runs
variable {ι S : Type} [DecidableEq ι] {M : Migrator ι S} {migrations : List MigrationRecord}
  {db₀ : MigrationDb ι S} {c : Config (MigrationDb ι S) ι (Runner S)}

theorem next_invariant (hdiscovered : ∀ i, M.discovered i = migrations)
    (hversions : (migrations.map MigrationRecord.version).Nodup)
    (h : Invariant M migrations db₀ c) (a : ι × RunnerEvent) :
    Invariant M migrations db₀ (M.next c a) where
  sound := step_sound a.2 h.sound hversions (h.runs a.1)
  runs := by
    intro i
    by_cases hi : i = a.1
    · subst hi
      rw [Migrator.next, Config.next_procs_self]
      exact step_local (hdiscovered a.1) a.2 h.sound hversions (h.runs a.1)
    · rw [Migrator.next, Config.next_procs_of_ne M.step c hi]
      exact (h.runs i).frame (step_frame a.2 (h.runs a.1) hi)

theorem start_invariant (hcommits : db₀.commits = []) : Invariant M migrations db₀ db₀.start where
  sound := by
    refine ⟨?_, ?_, ?_⟩ <;> simp [MigrationDb.start, MigrationDb.committed, hcommits, replay]
    rfl
  runs := fun i => by simp [MigrationDb.start, Local, MigrationDb.committedBy, hcommits]

theorem run_invariant_of_start (hdiscovered : ∀ i, M.discovered i = migrations)
    (hversions : (migrations.map MigrationRecord.version).Nodup) (hcommits : db₀.commits = [])
    (events : List (ι × RunnerEvent)) :
    Invariant M migrations db₀ (run M.next db₀.start events) :=
  run_preserves (I := Invariant M migrations db₀) (s := db₀.start)
    (fun _ a h => next_invariant hdiscovered hversions h a) (start_invariant hcommits) events

end Runs

end Pitwall.Db
