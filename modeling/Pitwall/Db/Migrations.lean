import Pitwall.Core.Json
import Pitwall.Library.Sorting
import Pitwall.Library.Table
import Pitwall.Library.Traversal
set_option autoImplicit false

/-!
Discovery of the migrations, and the drift of those that were applied. The version of a
migration is the stem of its file name.
-/

namespace Pitwall.Db

structure MigrationFile where
  name : String
  data : List UInt8

/-- The files of a directory, no two of one name. -/
structure MigrationDirectory where
  files : List MigrationFile
  nodup : (files.map MigrationFile.name).Nodup

structure MigrationRecord where
  version : String
  filename : String
  checksum : String
  sql : String
  deriving DecidableEq

/-- The hexadecimal digest, the decoder, and `repr` of a text. -/
structure MigrationText where
  sha256 : List UInt8 → String
  decode : List UInt8 → Except PyError String
  repr : String → String

def sqlSuffix : List Char := ['.', 's', 'q', 'l']

/-- `Path(name).stem`. -/
def stem (name : String) : String :=
  let suffix := name.toList.reverse.takeWhile (· ≠ '.')
  match name.toList.reverse.dropWhile (· ≠ '.') with
  | [] => name
  | _ :: before => if before = [] ∨ suffix = [] then name else String.ofList before.reverse

def migrationRecord (text : MigrationText) (file : MigrationFile) :
    Except PyError MigrationRecord := do
  let sql ← text.decode file.data
  return ⟨stem file.name, file.name, text.sha256 file.data, sql⟩

def directoryMigrations (text : MigrationText) (directory : MigrationDirectory) :
    Except PyError (List MigrationRecord) :=
  (sortedBy (fun a b => a.name < b.name)
    (directory.files.filter fun file => decide (sqlSuffix <:+ file.name.toList))).mapM
      (migrationRecord text)

def resourceMigrations (text : MigrationText) :
    Option MigrationDirectory → Except PyError (List MigrationRecord)
  | none => .ok []
  | some directory => directoryMigrations text directory

def checkoutMigrations (text : MigrationText) :
    Option MigrationDirectory → Except PyError (List MigrationRecord)
  | none => .error ⟨"FileNotFoundError", "migrations directory not found"⟩
  | some directory => directoryMigrations text directory

/-- `discover_migrations`, without a path: the packaged migrations, or those of the checkout. -/
def discoverMigrations (text : MigrationText) (packaged checkout : Option MigrationDirectory) :
    Except PyError (List MigrationRecord) := do
  let resources ← resourceMigrations text packaged
  if resources ≠ [] then return resources
  else checkoutMigrations text checkout

/-- A row of `pitwall.schema_migrations`. -/
structure AppliedMigration where
  version : String
  filename : String
  checksum : String
  deriving DecidableEq

abbrev SchemaMigrations := Keyed AppliedMigration.version

def MigrationRecord.row (m : MigrationRecord) : AppliedMigration := ⟨m.version, m.filename, m.checksum⟩

def SchemaMigrations.applied (records : SchemaMigrations) (version : String) : Option String :=
  (records.get version).map AppliedMigration.checksum

structure DriftEntry where
  version : String
  filename : String
  recordedChecksum : String
  currentChecksum : String
  deriving DecidableEq

def detectDrift (expected : List MigrationRecord) (applied : String → Option String) :
    List DriftEntry :=
  expected.filterMap fun rec =>
    match applied rec.version with
    | none => none
    | some checksum =>
        if checksum ≠ rec.checksum then some ⟨rec.version, rec.filename, checksum, rec.checksum⟩
        else none

def pendingMigrations (migrations : List MigrationRecord) (applied : String → Option String) :
    List MigrationRecord :=
  migrations.filter fun m => (applied m.version).isNone

section Versions

theorem stem_of_suffix {name : String} {base : List Char} (h : name.toList = base ++ sqlSuffix) :
    stem name = if base = [] then name else String.ofList base := by
  have hsuffix : name.toList.reverse.takeWhile (· ≠ '.') = ['l', 'q', 's'] := by
    simp [h, sqlSuffix]
  have hrest : name.toList.reverse.dropWhile (· ≠ '.') = '.' :: base.reverse := by
    simp [h, sqlSuffix]
  unfold stem
  rw [hsuffix, hrest]
  simp

def Hidden (a b : String) : Prop := a = ".sql" ∧ b = ".sql.sql"

theorem eq_of_stem {a b : String} (ha : sqlSuffix <:+ a.toList) (hb : sqlSuffix <:+ b.toList)
    (h : stem a = stem b) : a = b ∨ Hidden a b ∨ Hidden b a := by
  obtain ⟨base, hbase⟩ := ha
  obtain ⟨base', hbase'⟩ := hb
  rw [stem_of_suffix hbase.symm, stem_of_suffix hbase'.symm] at h
  have hname : ∀ {name : String} {cs : List Char}, cs = name.toList → name = String.ofList cs :=
    fun hcs => by rw [hcs, String.ofList_toList]
  by_cases hempty : base = [] <;> by_cases hempty' : base' = []
  · subst hempty hempty'
    exact .inl (String.toList_injective (hbase.symm.trans hbase'))
  · subst hempty
    rw [if_pos rfl, if_neg hempty'] at h
    have hdot : base' = sqlSuffix := by
      rw [← String.toList_ofList (l := base'), ← h, ← hbase, List.nil_append]
    subst hdot
    exact .inr (.inl ⟨hname hbase, hname hbase'⟩)
  · subst hempty'
    rw [if_neg hempty, if_pos rfl] at h
    have hdot : base = sqlSuffix := by
      rw [← String.toList_ofList (l := base), h, ← hbase', List.nil_append]
    subst hdot
    exact .inr (.inr ⟨hname hbase', hname hbase⟩)
  · rw [if_neg hempty, if_neg hempty'] at h
    have hsame : base = base' := by
      rw [← String.toList_ofList (l := base), h, String.toList_ofList]
    refine .inl (String.toList_injective ?_)
    rw [← hbase, ← hbase', hsame]

def MigrationDirectory.Ambiguous (directory : MigrationDirectory) : Prop :=
  ".sql" ∈ directory.files.map MigrationFile.name ∧
    ".sql.sql" ∈ directory.files.map MigrationFile.name

theorem directoryMigrations_nodup {text : MigrationText} {directory : MigrationDirectory}
    {migrations : List MigrationRecord}
    (h : directoryMigrations text directory = .ok migrations) (hclear : ¬ directory.Ambiguous) :
    (migrations.map MigrationRecord.version).Nodup := by
  have hversion : ∀ file record, migrationRecord text file = .ok record →
      record.version = stem file.name := by
    intro file record hrecord
    obtain ⟨sql, -, hrecord⟩ := Except.bind_eq_ok_iff.mp hrecord
    rw [← Except.pure_eq_ok_iff.mp hrecord]
  rw [List.map_of_mapM_eq_ok h fun file _ record hrecord => hversion file record hrecord]
  refine List.Nodup.map_on ?_ ?_
  · intro x hx y hy hstem
    rw [mem_sortedBy, List.mem_filter, decide_eq_true_eq] at hx hy
    have hnames : ∀ {file : MigrationFile}, file ∈ directory.files →
        file.name ∈ directory.files.map MigrationFile.name := fun hfile =>
      List.mem_map_of_mem hfile
    rcases eq_of_stem hx.2 hy.2 hstem with heq | ⟨hx', hy'⟩ | ⟨hy', hx'⟩
    · exact List.inj_on_of_nodup_map directory.nodup hx.1 hy.1 heq
    · exact absurd ⟨hx' ▸ hnames hx.1, hy' ▸ hnames hy.1⟩ hclear
    · exact absurd ⟨hy' ▸ hnames hy.1, hx' ▸ hnames hx.1⟩ hclear
  · exact (sortedBy_perm _ _).nodup_iff.mpr ((List.Nodup.of_map _ directory.nodup).filter _)

theorem discoverMigrations_nodup {text : MigrationText}
    {packaged checkout : Option MigrationDirectory} {migrations : List MigrationRecord}
    (h : discoverMigrations text packaged checkout = .ok migrations)
    (hpackaged : ∀ directory ∈ packaged, ¬ directory.Ambiguous)
    (hcheckout : ∀ directory ∈ checkout, ¬ directory.Ambiguous) :
    (migrations.map MigrationRecord.version).Nodup := by
  unfold discoverMigrations at h
  obtain ⟨resources, hresources, h⟩ := Except.bind_eq_ok_iff.mp h
  split at h
  · obtain rfl := Except.pure_eq_ok_iff.mp h
    cases packaged with
    | none =>
      cases hresources
      simp
    | some directory => exact directoryMigrations_nodup hresources (hpackaged directory rfl)
  · cases checkout with
    | none => cases h
    | some directory => exact directoryMigrations_nodup h (hcheckout directory rfl)

end Versions

end Pitwall.Db
