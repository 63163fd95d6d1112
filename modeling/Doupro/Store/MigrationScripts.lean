import Doupro.Go.Errors
import Doupro.Table.Keyed
import Mathlib.Logic.Function.Basic

/-!
# Migration scripts

The scripts of `internal/store/migrations` and the loop of `Store.migrate` over them. A table has its
columns with their defaults, and rows whose cells are found by column; `INTEGER PRIMARY KEY` is the
rowid of a row. There is no version table: every start runs every script.
-/

namespace Doupro.Store.Migration

inductive Value where
  | null
  | integer (n : Int)
  | text (s : String)
  deriving DecidableEq

structure Row where
  rowid : Int
  cell : String → Value

/-- A column and its default. -/
abbrev Column := String × Value

structure Relation where
  columns : List Column
  rows : List Row := []

def Relation.hasColumn (r : Relation) (column : String) : Bool := r.columns.any fun c => c.1 = column

structure Database where
  relation : String → Option Relation := fun _ => none
  hasIndex : String → Bool := fun _ => false

inductive Statement where
  /-- `CREATE TABLE IF NOT EXISTS`. -/
  | createTable (name : String) (columns : List Column)
  /-- `CREATE INDEX IF NOT EXISTS`. -/
  | createIndex (name table : String) (columns : List String)
  /-- `CREATE UNIQUE INDEX IF NOT EXISTS ... WHERE column IS NOT NULL`. -/
  | createUniqueIndex (name table column : String)
  /-- `ALTER TABLE table ADD COLUMN column`. -/
  | addColumn (table : String) (column : Column)
  /-- `INSERT OR IGNORE INTO rbac_assignments ... SELECT type, id, 'admin' FROM source`. -/
  | backfill (type source : String)
  /-- The `UPDATE` of 0007. -/
  | protectBootstrap
  deriving DecidableEq

inductive MigrationError where
  | duplicateColumn (column : String)
  | other (text : String)
  deriving DecidableEq

def MigrationError.asError : MigrationError → GoError
  | .duplicateColumn column => .external ("duplicate column name: " ++ column)
  | .other text => .external text

namespace Relation

variable (r : Relation)

/-- An added column has its default in every row. -/
def addColumn (column : Column) : Relation where
  columns := r.columns ++ [column]
  rows := r.rows.map fun row => { row with cell := Function.update row.cell column.1 column.2 }

/-- Whether a row is the assignment of a principal. -/
def assigns (type : String) (id : Int) (row : Row) : Bool :=
  row.cell "principal_type" = .text type ∧ row.cell "principal_id" = .integer id

/-- A row that names its principal and its role; the other columns have their defaults. -/
def assignment (type : String) (id rowid : Int) : Row where
  rowid := rowid
  cell column :=
    if column = "principal_type" then .text type
    else if column = "principal_id" then .integer id
    else if column = "role" then .text "admin"
    else (r.columns.lookup column).getD .null

def nextRowid : Int := (r.rows.map Row.rowid).foldl max 0 + 1

/-- `INSERT OR IGNORE`: the primary key is the principal. -/
def insertAssignment (type : String) (id : Int) : Relation :=
  if r.rows.any (assigns type id) then r
  else { r with rows := r.rows ++ [r.assignment type id r.nextRowid] }

/-- `SELECT id FROM users WHERE auth_provider = 'local' ORDER BY id LIMIT 1`. -/
def bootstrapUser : Option Int :=
  ((r.rows.filter fun row => row.cell "auth_provider" = .text "local").map Row.rowid).min?

def protect (row : Row) : Row :=
  { row with cell := Function.update (Function.update row.cell "protected" (.integer 1)) "role" (.text "admin") }

def protectBootstrap (users : Relation) : Relation :=
  { r with
    rows := Table.updateWhere (fun row => users.bootstrapUser.any fun id => assigns "user" id row) protect
      r.rows }

end Relation

namespace Database

def set (db : Database) (name : String) (r : Relation) : Database :=
  { db with relation := Function.update db.relation name (some r) }

def addIndex (db : Database) (name : String) : Database :=
  { db with hasIndex := Function.update db.hasIndex name true }

def noTable (name : String) : MigrationError := .other ("no such table: " ++ name)

def noColumn (name : String) : MigrationError := .other ("no such column: " ++ name)

/-- One statement, committed on its own. A statement that fails changes nothing. -/
def perform (db : Database) : Statement → Except MigrationError Database
  | .createTable name columns => match db.relation name with
    | some _ => .ok db
    | none => .ok (db.set name { columns })
  | .createIndex name table columns =>
    if db.hasIndex name then .ok db
    else match db.relation table with
      | none => .error (noTable table)
      | some r => match columns.find? fun column => !r.hasColumn column with
        | some column => .error (noColumn column)
        | none => .ok (db.addIndex name)
  | .createUniqueIndex name table column =>
    if db.hasIndex name then .ok db
    else match db.relation table with
      | none => .error (noTable table)
      | some r =>
        if !r.hasColumn column then .error (noColumn column)
        else if ((r.rows.map fun row => row.cell column).filter fun v => v ≠ .null).Nodup then
          .ok (db.addIndex name)
        else .error (.other ("UNIQUE constraint failed: " ++ table ++ "." ++ column))
  | .addColumn table column => match db.relation table with
    | none => .error (noTable table)
    | some r =>
      if r.hasColumn column.1 then .error (.duplicateColumn column.1)
      else .ok (db.set table (r.addColumn column))
  | .backfill type source => match db.relation "rbac_assignments", db.relation source with
    | none, _ => .error (noTable "rbac_assignments")
    | _, none => .error (noTable source)
    | some target, some r => .ok (db.set "rbac_assignments"
        (r.rows.foldl (fun target row => target.insertAssignment type row.rowid) target))
  | .protectBootstrap => match db.relation "rbac_assignments", db.relation "users" with
    | none, _ => .error (noTable "rbac_assignments")
    | _, none => .error (noTable "users")
    | some target, some users =>
      if !target.hasColumn "protected" then .error (noColumn "protected")
      else if !users.hasColumn "auth_provider" then .error (noColumn "auth_provider")
      else .ok (db.set "rbac_assignments" (target.protectBootstrap users))

end Database

/-! ### The loop -/

abbrev Script := List Statement

/-- `ExecContext` on a script: it stops at the first statement that fails. -/
def runScript : Script → Database → Database × Except MigrationError Unit
  | [], db => (db, .ok ())
  | s :: rest, db => match db.perform s with
    | .error err => (db, .error err)
    | .ok db' => runScript rest db'

/-- The loop of `Store.migrate`. A duplicate column is taken to mean that the script was applied. -/
def applyMigrations : List (String × Script) → Database → Database × Except GoError Unit
  | [], db => (db, .ok ())
  | (name, script) :: rest, db => match runScript script db with
    | (db', .ok ()) => applyMigrations rest db'
    | (db', .error (.duplicateColumn _)) => applyMigrations rest db'
    | (db', .error err) => (db', .error (.wrap ("apply migration " ++ name) err.asError))

/-! ### The scripts -/

def absent : Value := .null
def empty : Value := .text ""
def zero : Value := .integer 0

def initScript : Script :=
  [.createTable "containers" [("id", absent), ("name", absent), ("stack", empty), ("state", empty),
      ("status", empty), ("current_image", empty), ("previous_image", empty),
      ("update_available", zero), ("excluded", zero), ("last_checked_at", absent),
      ("updated_at", absent)],
    .createIndex "idx_containers_stack" "containers" ["stack"]]

def schemaScript : Script :=
  [.createTable "users" [("id", absent), ("username", absent), ("password_hash", absent),
      ("created_at", absent)],
    .createTable "sessions" [("token", absent), ("user_id", absent), ("created_at", absent),
      ("expires_at", absent)],
    .createTable "api_keys" [("id", absent), ("name", absent), ("key_hash", absent),
      ("key_prefix", absent), ("created_at", absent), ("last_used_at", absent)],
    .createTable "events" [("id", absent), ("timestamp", absent), ("level", absent),
      ("event", absent), ("container", empty), ("stack", empty), ("from_version", empty),
      ("to_version", empty), ("actor", empty), ("actor_id", empty), ("request_id", empty),
      ("message", empty), ("metadata", .text "\x7b\x7d")],
    .createIndex "idx_events_timestamp" "events" ["timestamp"],
    .createIndex "idx_events_event" "events" ["event"],
    .createIndex "idx_events_container" "events" ["container"],
    .createTable "settings" [("key", absent), ("value", absent), ("updated_at", absent)],
    .createTable "schedules" [("id", absent), ("kind", absent), ("container_id", empty),
      ("stack", empty), ("run_at", absent), ("cron_expr", empty), ("relative_policy", empty),
      ("relative_after", empty), ("pinned_image", empty), ("notify", .integer 1),
      ("enabled", .integer 1), ("last_run_at", absent), ("next_run_at", absent),
      ("created_at", absent)],
    .createIndex "idx_schedules_container" "schedules" ["container_id"],
    .createIndex "idx_schedules_stack" "schedules" ["stack"],
    .createTable "notifications" [("id", absent), ("timestamp", absent), ("event", absent),
      ("target", empty), ("channel", absent), ("status", absent), ("error", empty),
      ("message", empty)],
    .createIndex "idx_notifications_timestamp" "notifications" ["timestamp"],
    .createTable "image_history" [("id", absent), ("container_id", absent), ("image", absent),
      ("digest", empty), ("source", absent), ("timestamp", absent)],
    .createIndex "idx_image_history_container" "image_history" ["container_id"]]

def rbacScript : Script :=
  [.createTable "rbac_assignments" [("principal_type", absent), ("principal_id", absent),
      ("role", absent), ("view_logs", zero), ("manage_schedules", zero),
      ("manage_notifications", zero), ("view_stats", zero)],
    .backfill "user" "users",
    .backfill "api_key" "api_keys"]

def crashloopScript : Script :=
  [.createTable "rollback_watches" [("container_name", absent), ("container_id", absent),
      ("update_applied_at", absent), ("window_expires_at", absent), ("crash_count", zero),
      ("threshold", .integer 3), ("observed_restart_count", zero), ("last_event_nano", zero),
      ("last_crash_at", absent), ("triggered_at", absent), ("status", .text "active"),
      ("updated_at", absent)],
    .createIndex "idx_rollback_watches_status_expiry" "rollback_watches"
      ["status", "window_expires_at"]]

def notificationQueueScript : Script :=
  [.createTable "notification_queue" [("id", absent), ("event", absent), ("target", empty),
      ("stack", empty), ("channel", absent), ("channel_url", absent), ("message", empty),
      ("status", .text "pending"), ("attempts", zero), ("max_attempts", .integer 6),
      ("next_attempt_at", absent), ("lease_until", absent), ("last_error", empty),
      ("created_at", absent), ("updated_at", absent), ("sent_at", absent)],
    .createIndex "idx_notification_queue_ready" "notification_queue" ["status", "next_attempt_at"]]

def updateCandidatesScript : Script :=
  [.createTable "update_candidates" [("container_id", absent), ("scope", absent), ("image", absent),
      ("version", absent), ("detected_at", absent), ("updated_at", absent)],
    .createIndex "idx_update_candidates_detected" "update_candidates" ["detected_at"]]

def imageVersionsScript : Script :=
  [.createTable "image_versions" [("registry", absent), ("repository", absent), ("digest", absent),
      ("version", empty), ("status", absent), ("checked_at", absent)],
    .createIndex "idx_image_versions_checked_at" "image_versions" ["checked_at"]]

/-- The files of `migrations`, sorted by name. -/
def migrations : List (String × Script) :=
  [("0001_init.sql", initScript),
    ("0002_schema.sql", schemaScript),
    ("0003_users_must_change_password.sql", [.addColumn "users" ("must_change_password", zero)]),
    ("0004_oidc_users.sql",
      [.addColumn "users" ("auth_provider", .text "local"), .addColumn "users" ("oidc_subject", absent),
        .createUniqueIndex "idx_users_oidc_subject" "users" "oidc_subject"]),
    ("0005_container_versions.sql",
      [.addColumn "containers" ("current_version", empty),
        .addColumn "containers" ("available_version", empty)]),
    ("0006_rbac.sql", rbacScript),
    ("0007_protected_admin.sql",
      [.addColumn "rbac_assignments" ("protected", zero), .protectBootstrap]),
    ("0008_crashloop_rollback.sql", crashloopScript),
    ("0009_notification_queue.sql", notificationQueueScript),
    ("0010_schedule_candidates.sql", [.addColumn "schedules" ("semver_policy", .text "major")]),
    ("0011_update_candidates.sql", updateCandidatesScript),
    ("0012_image_versions.sql", imageVersionsScript)]

/-- `Store.migrate`. -/
def migrate : Database → Database × Except GoError Unit := applyMigrations migrations

end Doupro.Store.Migration
