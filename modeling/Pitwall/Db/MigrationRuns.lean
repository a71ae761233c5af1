import Pitwall.Db.Migrations
import Pitwall.Library.Machine
set_option autoImplicit false

/-!
`_cmd_migrate_async`: any number of runs of it on one database. A step of a run is one statement
that it awaits, with the code up to the next one.
-/

namespace Pitwall.Db
open Machine

/-- The database: the session that holds the advisory lock, the table of the records, the rest of
the schema, and the history of the migrations that were committed, with their runs. -/
structure MigrationDb (ι S : Type) where
  lock : Option ι
  records : Option SchemaMigrations
  schema : S
  commits : List (ι × MigrationRecord)

inductive MigrateOutcome where
  | noMigrations
  | ensureFailed (exc : PyError)
  | refused (drifts : List DriftEntry)
  | upToDate (count : Nat)
  | applyFailed (filename : String) (exc : PyError)
  | applied (pending : List MigrationRecord)
  | raised (exc : PyError)

namespace MigrateOutcome

/-- What the run returns; `none` where it raises. -/
def exitCode : MigrateOutcome → Option Int
  | .noMigrations | .upToDate _ | .applied _ => some 0
  | .ensureFailed _ | .refused _ | .applyFailed _ _ => some 1
  | .raised _ => none

def message : MigrateOutcome → String
  | .noMigrations => "No migrations found."
  | .ensureFailed exc => "Failed to ensure schema_migrations table:\n" ++ exc.message
  | .refused drifts =>
      "Refusing to migrate because applied migration checksums changed: " ++
        ", ".intercalate (drifts.map DriftEntry.filename)
  | .upToDate count => "All " ++ toString count ++ " migrations already applied."
  | .applyFailed filename exc => "Failed to apply " ++ filename ++ ":\n" ++ exc.message
  | .applied pending => "Applied " ++ toString pending.length ++ " migration(s)."
  | .raised exc => exc.message

end MigrateOutcome

inductive Runner (S : Type) where
  | idle
  | waiting
  | locked
  | ensured
  | applying (pending rest : List MigrationRecord)
  | executed (pending : List MigrationRecord) (m : MigrationRecord) (rest : List MigrationRecord)
      (schema : S)
  | recorded (pending : List MigrationRecord) (m : MigrationRecord) (rest : List MigrationRecord)
      (schema : S) (records : SchemaMigrations)
  | leaving (outcome : MigrateOutcome)
  | closing (outcome : Option MigrateOutcome)
  | done (outcome : Option MigrateOutcome)

/-- An exception of the statement, one that is no `Exception` (an interrupt, a cancellation), or
the end of the process. -/
inductive Fault where
  | exception (exc : PyError)
  | interrupt (exc : PyError)
  | death

/-- The awaited statement is carried out, or there is a fault. The server may have carried the
statement out before the fault. -/
inductive RunnerEvent where
  | proceeds
  | faults (fault : Fault) (effective : Bool)

namespace Fault
variable {S : Type}

def outcome : Fault → Option MigrateOutcome
  | .exception exc | .interrupt exc => some (.raised exc)
  | .death => none

/-- Inside the lock, under `except Exception`. -/
def handled (caught : PyError → MigrateOutcome) : Fault → Runner S
  | .exception exc => .leaving (caught exc)
  | .interrupt exc => .leaving (.raised exc)
  | .death => .closing none

end Fault

namespace MigrationDb
variable {ι S : Type} (db : MigrationDb ι S)

/-- `CREATE TABLE IF NOT EXISTS pitwall.schema_migrations`. -/
def ensure : MigrationDb ι S := { db with records := some (db.records.getD Table.empty) }

def grant (i : ι) : MigrationDb ι S := if db.lock = none then { db with lock := some i } else db

def release [DecidableEq ι] (i : ι) : MigrationDb ι S :=
  if db.lock = some i then { db with lock := none } else db

def commit (i : ι) (m : MigrationRecord) (schema : S) (records : SchemaMigrations) :
    MigrationDb ι S :=
  { db with records := some records, schema, commits := db.commits ++ [(i, m)] }

end MigrationDb

/-- What the runs share besides the database: what SQL does to the schema, and what each of
them discovers. -/
structure Migrator (ι S : Type) where
  text : MigrationText
  execute : String → S → Except PyError S
  discovered : ι → List MigrationRecord

namespace Migrator
variable {ι S : Type} (M : Migrator ι S)

def undefinedTable : PyError :=
  ⟨"UndefinedTableError", "relation \"pitwall.schema_migrations\" does not exist"⟩

def emptySql (m : MigrationRecord) : PyError :=
  ⟨"RuntimeError", "migration resource " ++ M.text.repr m.filename ++ " did not contain SQL"⟩

def afterFetch (migrations : List MigrationRecord) : Option SchemaMigrations → Runner S
  | none => .leaving (.raised undefinedTable)
  | some records =>
      let drifts := detectDrift migrations records.applied
      let pending := pendingMigrations migrations records.applied
      if drifts ≠ [] then .leaving (.refused drifts)
      else if pending = [] then .leaving (.upToDate migrations.length)
      else .applying pending pending

variable [DecidableEq ι]

def step (i : ι) (l : Runner S) (db : MigrationDb ι S) (e : RunnerEvent) :
    MigrationDb ι S × Runner S :=
  match l, e with
  | .idle, .proceeds => (db, if M.discovered i = [] then .done (some .noMigrations) else .waiting)
  | .idle, .faults fault _ => (db, .done fault.outcome)
  | .waiting, .proceeds => (db.grant i, if db.lock = none then .locked else .waiting)
  | .waiting, .faults fault effective =>
      (if effective then db.grant i else db, .closing fault.outcome)
  | .locked, .proceeds => (db.ensure, .ensured)
  | .locked, .faults fault effective =>
      (if effective then db.ensure else db, fault.handled .ensureFailed)
  | .ensured, .proceeds => (db, afterFetch (M.discovered i) db.records)
  | .ensured, .faults fault _ => (db, fault.handled .raised)
  | .applying pending [], .proceeds => (db, .leaving (.applied pending))
  | .applying _ [], .faults fault _ => (db, fault.handled .raised)
  | .applying pending (m :: rest), .proceeds =>
      if m.sql = "" then (db, .leaving (.raised (M.emptySql m)))
      else
        match M.execute m.sql db.schema with
        | .error exc => (db, .leaving (.applyFailed m.filename exc))
        | .ok schema => (db, .executed pending m rest schema)
  | .applying _ (m :: _), .faults fault _ =>
      if m.sql = "" then (db, fault.handled fun _ => .raised (M.emptySql m))
      else (db, fault.handled (.applyFailed m.filename))
  | .executed pending m rest schema, .proceeds =>
      match db.records with
      | none => (db, .leaving (.applyFailed m.filename undefinedTable))
      | some records => (db, .recorded pending m rest schema (records.upsert m.row))
  -- The transaction is rolled back.
  | .executed _ m _ _, .faults fault _ => (db, fault.handled (.applyFailed m.filename))
  | .recorded pending m rest schema records, .proceeds =>
      (db.commit i m schema records, .applying pending rest)
  | .recorded _ m _ schema records, .faults fault effective =>
      (if effective then db.commit i m schema records else db,
        fault.handled (.applyFailed m.filename))
  | .leaving outcome, .proceeds => (db.release i, .done (some outcome))
  | .leaving _, .faults fault effective =>
      (if effective then db.release i else db, .closing fault.outcome)
  -- The session ends, and its lock with it.
  | .closing outcome, _ => (db.release i, .done outcome)
  | .done outcome, _ => (db, .done outcome)

def next (c : Config (MigrationDb ι S) ι (Runner S)) (a : ι × RunnerEvent) :
    Config (MigrationDb ι S) ι (Runner S) := c.next M.step a

end Migrator

def MigrationDb.start {ι S : Type} (db : MigrationDb ι S) :
    Config (MigrationDb ι S) ι (Runner S) := ⟨db, fun _ => .idle⟩

namespace MigrationDb
variable {ι S : Type}

def committed (db : MigrationDb ι S) : List MigrationRecord := db.commits.map Prod.snd

/-- Those that run `i` committed. -/
def committedBy [DecidableEq ι] (db : MigrationDb ι S) (i : ι) : List MigrationRecord :=
  (db.commits.filter fun commit => commit.1 = i).map Prod.snd

def rows (db : MigrationDb ι S) : List AppliedMigration := (db.records.getD Table.empty).rows

section Effects
variable (db : MigrationDb ι S) (i j : ι)

@[simp] theorem rows_ensure : db.ensure.rows = db.rows := rfl

@[simp] theorem commits_grant : (db.grant i).commits = db.commits := by
  unfold grant; split <;> rfl

@[simp] theorem schema_grant : (db.grant i).schema = db.schema := by
  unfold grant; split <;> rfl

@[simp] theorem records_grant : (db.grant i).records = db.records := by
  unfold grant; split <;> rfl

theorem lock_grant (h : db.lock = some j) : (db.grant i).lock = some j := by
  simp [grant, h]

variable [DecidableEq ι]

@[simp] theorem commits_release : (db.release i).commits = db.commits := by
  unfold release; split <;> rfl

@[simp] theorem schema_release : (db.release i).schema = db.schema := by
  unfold release; split <;> rfl

@[simp] theorem records_release : (db.release i).records = db.records := by
  unfold release; split <;> rfl

theorem lock_release (h : db.lock = some j) (hne : j ≠ i) : (db.release i).lock = some j := by
  simp [release, h, hne]

end Effects

end MigrationDb

end Pitwall.Db
