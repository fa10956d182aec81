/-
# The migration runner

Migrations are SQL scripts in the order of their versions.  Which of them have run is
recorded with their checksums, and one transaction applies all that are pending.  What the
scripts do to the product tables is left open.
-/
import Mathlib
import Erabi.Relational.Table

namespace Erabi.Schema

open Relational

/-! ## Migrations and what is recorded of them -/

/-- One step of the schema. -/
structure Migration where
  version : String
  name : String
  sql : String
  deriving DecidableEq, Repr

/-- A step that was applied. -/
structure SchemaVersion where
  version : String
  name : String
  checksum : String
  appliedAt : String
  deriving DecidableEq, Repr

/-- In what a migration failed. -/
inductive MigrationFailureState where
  | invalidPlan
  | apply
  | checksumMismatch
  | unsupportedSchema
  deriving DecidableEq, Repr

/-- A failure with its step and its message. -/
structure MigrationFailure where
  version : Option String
  state : MigrationFailureState
  message : String
  deriving DecidableEq, Repr

/-- A failure of the runner, or one of the database itself. -/
inductive DbError where
  | migrationFailure (failure : MigrationFailure)
  | database
  deriving DecidableEq, Repr

/-- Fails in a migration. -/
abbrev migrationFailure {α : Type} (version : Option String) (state : MigrationFailureState)
    (message : String) : Except DbError α :=
  .error (.migrationFailure ⟨version, state, message⟩)

/-- The product tables, `schema_migrations`, and whether `migration_lock` has its row. -/
structure Database (Product : Type) where
  product : Product
  versions : Table SchemaVersion String SchemaVersion.version
  locked : Bool

/-- What is used of SQLite and of the hash. -/
structure Runtime (Product : Type) where
  execute : String → Product → Except String Product
  checksum : String → String

variable {Product : Type}

/-- `read_schema_versions`, in the order of the versions. -/
def Database.readSchemaVersions (db : Database Product) : List SchemaVersion :=
  db.versions.rows.insertionSort fun a b => a.version ≤ b.version

/-! ## The runner -/

/-- `MigrationRunner`, whose plan may be any list before it is validated. -/
structure MigrationRunner where
  migrations : List Migration

namespace MigrationRunner

-- The timestamp of a migration is the clock's when it is applied.
variable (runner : MigrationRunner) (runtime : Runtime Product) (timestamp : Migration → String)

/-- The checks of the plan, with the version before. -/
def validateVersions : Option String → List Migration → Except DbError Unit
  | _, [] => .ok ()
  | previous, migration :: migrations =>
      if migration.version = "" then
        migrationFailure none .invalidPlan "migration version must not be empty"
      else if previous.any fun version => migration.version ≤ version then
        migrationFailure (some migration.version) .invalidPlan
          "migration versions must be strictly increasing"
      else validateVersions (some migration.version) migrations

/-- The checks on the plan. -/
def validatePlan : Except DbError Unit :=
  if runner.migrations = [] then
    migrationFailure none .invalidPlan "migration plan must not be empty"
  else validateVersions none runner.migrations

/-- `MigrationRunner::new`. -/
def new (migrations : List Migration) : Except DbError MigrationRunner := do
  (MigrationRunner.mk migrations).validatePlan
  return ⟨migrations⟩

/-- The version is one of the plan. -/
def knows (version : String) : Bool :=
  runner.migrations.any fun migration => migration.version = version

/-- Every applied step is one of the plan. -/
def validateAppliedVersions (applied : List SchemaVersion) : Except DbError Unit :=
  match applied.find? fun recorded => !runner.knows recorded.version with
  | some recorded =>
      migrationFailure (some recorded.version) .unsupportedSchema
        "database contains a migration outside the supported Plan 02 schema chain"
  | none => .ok ()

/-- One pass of the loop of `apply_in_transaction`. -/
def applyMigration (applied : List SchemaVersion) (state : Database Product × List String)
    (migration : Migration) : Except DbError (Database Product × List String) :=
  match applied.find? fun recorded => recorded.version = migration.version with
  | some recorded =>
      if recorded.checksum ≠ runtime.checksum migration.sql then
        migrationFailure (some migration.version) .checksumMismatch
          "an applied migration's checksum differs from the bundled SQL"
      else .ok state
  | none =>
      match runtime.execute migration.sql state.1.product with
      | .error error =>
          migrationFailure (some migration.version) .apply (migration.name ++ ": " ++ error)
      | .ok product =>
          match state.1.versions.insert? ⟨migration.version, migration.name,
            runtime.checksum migration.sql, timestamp migration⟩ with
          | none => .error .database
          | some versions =>
              .ok (⟨product, versions, state.1.locked⟩, state.2 ++ [migration.version])

/-- The migrations up to a version. -/
def upTo (lastVersion : Option String) : List Migration :=
  runner.migrations.takeWhile fun migration =>
    lastVersion.all fun version => migration.version ≤ version

/-- `apply_in_transaction`.  The row of the lock is deleted before the commit. -/
def applyInTransaction (lastVersion : Option String) (db : Database Product) :
    Except DbError (Database Product × List String) :=
  if db.locked then
    migrationFailure none .apply
      "could not acquire migration lock: UNIQUE constraint failed: migration_lock.lock_key"
  else do
    let applied := db.readSchemaVersions
    runner.validateAppliedVersions applied
    (runner.upTo lastVersion).foldlM (applyMigration runtime timestamp applied) (db, [])

/-- Applies the plan up to a version. -/
def applyUntil (lastVersion : Option String) (db : Database Product) :
    Except DbError (Database Product × List String) := do
  runner.validatePlan
  runner.applyInTransaction runtime timestamp lastVersion db

/-- Applies the whole plan. -/
def apply (db : Database Product) : Except DbError (Database Product × List String) :=
  runner.applyUntil runtime timestamp none db

/-- Applies the plan through a version of it. -/
def applyThrough (lastVersion : String) (db : Database Product) :
    Except DbError (Database Product × List String) :=
  if ¬ runner.knows lastVersion then
    migrationFailure (some lastVersion) .invalidPlan "requested migration baseline does not exist"
  else runner.applyUntil runtime timestamp (some lastVersion) db

/-- The recorded versions are compared with the plan, as far as both go. -/
def validateRecorded : List Migration → List SchemaVersion → Except DbError Unit
  | migration :: migrations, recorded :: rest =>
      if recorded.version ≠ migration.version ∨ recorded.name ≠ migration.name then
        migrationFailure (some recorded.version) .unsupportedSchema
          "recorded migration identity differs from the bundled schema chain"
      else if recorded.checksum ≠ runtime.checksum migration.sql then
        migrationFailure (some recorded.version) .checksumMismatch
          "recorded migration checksum differs from the bundled schema chain"
      else validateRecorded migrations rest
  | [], _ | _, [] => .ok ()

/-- The database is at the end of the plan. -/
def verify (db : Database Product) : Except DbError Unit := do
  runner.validatePlan
  let applied := db.readSchemaVersions
  validateRecorded runtime runner.migrations applied
  runner.validateAppliedVersions applied
  if applied.length ≠ runner.migrations.length then
    migrationFailure none .unsupportedSchema
      "recorded migrations do not cover the complete bundled schema chain"
  else .ok ()

end MigrationRunner

end Erabi.Schema
