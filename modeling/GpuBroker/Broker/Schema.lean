/-
This file is the schema of the broker's database, and the scripts that build it,
as far as their statements say which tables, columns and indices there are.

A script is run statement by statement, and stops at the first one SQLite
rejects. What happens to rows is left out: the one script that moves rows moves
them into a table that admits every row of the old one.
-/
import Mathlib.Data.List.Range

namespace GpuBroker.Broker.Sql

/-! ### Schemas -/

structure Column where
  name : String
  declared : String
  deriving DecidableEq

structure Table where
  name : String
  columns : List Column
  constraints : List String
  deriving DecidableEq

structure Index where
  name : String
  table : String
  columns : List String
  unique : Bool
  condition : Option String
  deriving DecidableEq

structure Schema where
  tables : List Table
  indices : List Index
  deriving DecidableEq

/-- A database in which nothing was created. -/
def Schema.empty : Schema := ⟨[], []⟩

/-- Why SQLite rejects a statement. -/
inductive Problem where
  | taken (name : String)
  | noTable (name : String)
  | noColumn (name : String)
  | duplicateColumn (name : String)
  | notUnique (column : String)
  deriving DecidableEq

/-! ### Statements -/

/-- The statements of the scripts. A guarded index is created unless there is one of its name. -/
inductive Statement where
  | createTable (table : Table)
  | createIndex (index : Index) (guarded : Bool)
  | addColumn (table : String) (column : Column)
  | copyRows (target source : String) (columns : List String)
  | dropTable (name : String)
  | renameTable (name other : String)
  deriving DecidableEq

namespace Schema

def table (schema : Schema) (name : String) : Option Table :=
  schema.tables.find? fun table => table.name = name

def hasIndex (schema : Schema) (name : String) : Bool :=
  schema.indices.any fun index => index.name = name

/-- Tables and indices share their names. -/
def taken (schema : Schema) (name : String) : Bool :=
  (schema.table name).isSome || schema.hasIndex name

end Schema

def Table.has (table : Table) (column : String) : Bool :=
  table.columns.any fun known => known.name = column

/-- The table of a name, where it has some columns. -/
def Schema.tableWith (schema : Schema) (name : String) (columns : List String) :
    Except Problem Table :=
  match schema.table name with
  | none => .error (.noTable name)
  | some table =>
      match columns.find? fun column => !table.has column with
      | some missing => .error (.noColumn missing)
      | none => .ok table

/-- What a statement makes of a schema. -/
def Statement.run (schema : Schema) : Statement → Except Problem Schema
  | createTable table =>
      if schema.taken table.name then .error (.taken table.name)
      else .ok { schema with tables := schema.tables ++ [table] }
  | createIndex index guarded =>
      if guarded && schema.hasIndex index.name then .ok schema
      else if schema.taken index.name then .error (.taken index.name)
      else do
        let _ ← schema.tableWith index.table index.columns
        .ok { schema with indices := schema.indices ++ [index] }
  | addColumn name column => do
      let table ← schema.tableWith name []
      if table.has column.name then .error (.duplicateColumn column.name)
      else
        .ok { schema with
          tables := schema.tables.map fun other =>
            if other.name = name then { other with columns := other.columns ++ [column] }
            else other }
  | copyRows target source columns => do
      let _ ← schema.tableWith target columns
      let _ ← schema.tableWith source columns
      .ok schema
  | dropTable name => do
      let _ ← schema.tableWith name []
      .ok
        { tables := schema.tables.filter fun table => table.name ≠ name
          indices := schema.indices.filter fun index => index.table ≠ name }
  | renameTable name other => do
      let _ ← schema.tableWith name []
      if schema.taken other then .error (.taken other)
      else
        .ok
          { tables := schema.tables.map fun table =>
              if table.name = name then { table with name := other } else table
            indices := schema.indices.map fun index =>
              if index.table = name then { index with table := other } else index }

/-- A script stops at the first statement that is rejected. -/
def runScript (script : List Statement) (schema : Schema) : Except Problem Schema :=
  script.foldlM Statement.run schema

/-! ### The migrations -/

/-- A table of columns, each with its declaration. -/
def table (name : String) (columns : List (String × String)) (constraints : List String) : Statement :=
  .createTable ⟨name, columns.map fun (column, declared) => ⟨column, declared⟩, constraints⟩

/-- A plain index. -/
def index (name table : String) (columns : List String) : Statement :=
  .createIndex ⟨name, table, columns, false, none⟩ false

/-- `001_initial.sql`. -/
def initial : List Statement :=
  [table "users"
        [("user_id", "TEXT PRIMARY KEY"), ("display_name", "TEXT NOT NULL"),
         ("budget_usd", "TEXT NOT NULL"), ("budget_gpu_hours", "TEXT NOT NULL"),
         ("is_admin", "INTEGER NOT NULL DEFAULT 0 CHECK (is_admin IN (0, 1))"),
         ("created_at", "TEXT NOT NULL")] [],
    table "jobs"
        [("job_id", "TEXT PRIMARY KEY"), ("user_id", "TEXT NOT NULL REFERENCES users(user_id)"),
         ("command", "TEXT NOT NULL"), ("gpu_type", "TEXT NOT NULL"),
         ("requested_hours", "REAL NOT NULL CHECK (requested_hours > 0)"),
         ("currency", "TEXT NOT NULL CHECK (currency IN ('USD', 'GPU_HOUR'))"),
         ("reserved", "TEXT NOT NULL"), ("state", "TEXT NOT NULL"), ("backend", "TEXT"),
         ("backend_handle", "TEXT"), ("submitted_at", "TEXT NOT NULL"), ("started_at", "TEXT"),
         ("finished_at", "TEXT"), ("exit_code", "INTEGER"), ("refusal_reason", "TEXT"),
         ("updated_at", "TEXT NOT NULL")] [],
    index "idx_jobs_state" "jobs" ["state"],
    index "idx_jobs_user" "jobs" ["user_id", "state"],
    index "idx_jobs_submitted" "jobs" ["submitted_at"],
    .createIndex
      ⟨"idx_jobs_handle", "jobs", ["backend", "backend_handle"], true,
        some "backend_handle IS NOT NULL"⟩ false,
    table "job_transitions"
        [("id", "INTEGER PRIMARY KEY AUTOINCREMENT"),
         ("job_id", "TEXT NOT NULL REFERENCES jobs(job_id)"), ("from_state", "TEXT"),
         ("to_state", "TEXT NOT NULL"), ("at", "TEXT NOT NULL"), ("reason", "TEXT")] [],
    index "idx_transitions_job" "job_transitions" ["job_id", "id"],
    table "ledger"
        [("id", "INTEGER PRIMARY KEY AUTOINCREMENT"), ("job_id", "TEXT REFERENCES jobs(job_id)"),
         ("user_id", "TEXT NOT NULL REFERENCES users(user_id)"),
         ("currency", "TEXT NOT NULL CHECK (currency IN ('USD', 'GPU_HOUR'))"),
         ("kind", "TEXT NOT NULL CHECK (kind IN ('RESERVE', 'RELEASE', 'SETTLE'))"),
         ("amount", "TEXT NOT NULL"), ("period", "TEXT NOT NULL"), ("at", "TEXT NOT NULL"),
         ("note", "TEXT")] [],
    index "idx_ledger_account" "ledger" ["user_id", "period", "currency"],
    index "idx_ledger_job" "ledger" ["job_id"],
    index "idx_ledger_at" "ledger" ["at"],
    index "idx_ledger_period" "ledger" ["period", "currency"],
    table "job_logs"
        [("id", "INTEGER PRIMARY KEY AUTOINCREMENT"),
         ("job_id", "TEXT NOT NULL REFERENCES jobs(job_id)"), ("at", "TEXT NOT NULL"),
         ("stream", "TEXT NOT NULL CHECK (stream IN ('stdout', 'stderr', 'broker'))"),
         ("line", "TEXT NOT NULL")] [],
    index "idx_logs_job" "job_logs" ["job_id", "id"]]

/-- `002_log_cursor.sql`. -/
def logCursor : List Statement :=
  [.addColumn "jobs" ⟨"logs_fetched", "INTEGER NOT NULL DEFAULT 0"⟩]

/-- `003_host_drains.sql`. -/
def hostDrains : List Statement :=
  [table "host_drains"
        [("hostname", "TEXT PRIMARY KEY"), ("reason", "TEXT NOT NULL"),
         ("drained_at", "TEXT NOT NULL"), ("drained_by", "TEXT NOT NULL DEFAULT ''")] []]

/-- `004_cost_and_idle.sql`. -/
def costAndIdle : List Statement :=
  [table "prices"
        [("gpu_type", "TEXT PRIMARY KEY"), ("instance_type", "TEXT NOT NULL DEFAULT ''"),
         ("region", "TEXT NOT NULL DEFAULT ''"), ("hourly", "TEXT NOT NULL"),
         ("currency", "TEXT NOT NULL CHECK (currency IN ('USD', 'GPU_HOUR'))"),
         ("source", "TEXT NOT NULL"), ("priced_at", "TEXT NOT NULL")] [],
    table "gpu_samples"
        [("id", "INTEGER PRIMARY KEY AUTOINCREMENT"),
         ("job_id", "TEXT NOT NULL REFERENCES jobs(job_id)"), ("at", "TEXT NOT NULL"),
         ("gpu_percent", "REAL NOT NULL"), ("memory_mb", "INTEGER NOT NULL DEFAULT 0"),
         ("source", "TEXT NOT NULL DEFAULT ''")] [],
    index "idx_samples_job" "gpu_samples" ["job_id", "id"],
    index "idx_samples_at" "gpu_samples" ["at"],
    table "notifications"
        [("id", "INTEGER PRIMARY KEY AUTOINCREMENT"), ("job_id", "TEXT REFERENCES jobs(job_id)"),
         ("user_id", "TEXT NOT NULL"), ("kind", "TEXT NOT NULL"), ("message", "TEXT NOT NULL"),
         ("at", "TEXT NOT NULL"), ("delivered", "INTEGER NOT NULL DEFAULT 0"),
         ("seen_at", "TEXT")] [],
    index "idx_notifications_user" "notifications" ["user_id", "id"],
    index "idx_notifications_job" "notifications" ["job_id", "id"]]

/-- `005_checkpoints.sql`. -/
def checkpoints : List Statement :=
  [.addColumn "jobs" ⟨"attempts", "INTEGER NOT NULL DEFAULT 0"⟩,
    .addColumn "jobs" ⟨"preemptions", "INTEGER NOT NULL DEFAULT 0"⟩,
    .addColumn "jobs" ⟨"pinned_tier", "TEXT"⟩,
    .addColumn "jobs" ⟨"checkpoint_step", "INTEGER"⟩,
    .addColumn "jobs" ⟨"checkpoint_key", "TEXT"⟩,
    .addColumn "jobs" ⟨"checkpoint_at", "TEXT"⟩]

/-- `006_cancel_requests.sql`. -/
def cancelRequests : List Statement :=
  [.addColumn "jobs" ⟨"cancel_requested", "TEXT"⟩]

/-- `007_environments.sql`. -/
def environments : List Statement :=
  [table "environments"
        [("name", "TEXT PRIMARY KEY"), ("digest", "TEXT NOT NULL"),
         ("base_image", "TEXT NOT NULL DEFAULT ''"), ("python_version", "TEXT NOT NULL DEFAULT ''"),
         ("requirements", "TEXT NOT NULL DEFAULT ''"), ("apt_packages", "TEXT NOT NULL DEFAULT ''"),
         ("owner", "TEXT NOT NULL DEFAULT ''"), ("description", "TEXT NOT NULL DEFAULT ''"),
         ("created_at", "TEXT NOT NULL"), ("updated_at", "TEXT NOT NULL")] [],
    index "idx_environments_digest" "environments" ["digest"],
    table "environment_builds"
        [("digest", "TEXT NOT NULL"), ("target", "TEXT NOT NULL"), ("state", "TEXT NOT NULL"),
         ("reference", "TEXT NOT NULL DEFAULT ''"), ("detail", "TEXT NOT NULL DEFAULT ''"),
         ("built_at", "TEXT NOT NULL")] ["PRIMARY KEY (digest, target)"],
    .addColumn "jobs" ⟨"environment", "TEXT"⟩]

/-- `008_metrics.sql`. -/
def metrics : List Statement :=
  [table "metrics"
        [("id", "INTEGER PRIMARY KEY AUTOINCREMENT"), ("name", "TEXT NOT NULL"),
         ("at", "TEXT NOT NULL"), ("value", "REAL NOT NULL"),
         ("labels", "TEXT NOT NULL DEFAULT ''")] [],
    index "idx_metrics_name_at" "metrics" ["name", "at"],
    index "idx_metrics_at" "metrics" ["at"],
    table "baseline"
        [("period", "TEXT PRIMARY KEY"), ("instance_hours", "REAL NOT NULL DEFAULT 0"),
         ("dollars", "TEXT NOT NULL DEFAULT '0'"), ("source", "TEXT NOT NULL DEFAULT ''"),
         ("recorded_at", "TEXT NOT NULL")] []]

/-- `009_job_origin.sql`. -/
def jobOrigin : List Statement :=
  [.addColumn "jobs" ⟨"origin", "TEXT NOT NULL DEFAULT 'real'"⟩,
    .createIndex ⟨"jobs_origin", "jobs", ["origin"], false, none⟩ true]

/-- `010_user_suspension.sql`. -/
def userSuspension : List Statement :=
  [.addColumn "users" ⟨"suspended_at", "TEXT"⟩,
    .addColumn "users" ⟨"suspended_reason", "TEXT NOT NULL DEFAULT ''"⟩,
    .addColumn "users" ⟨"suspended_by", "TEXT NOT NULL DEFAULT ''"⟩,
    .createIndex
      ⟨"users_suspended", "users", ["user_id"], false,
        some "suspended_at IS NOT NULL"⟩ true]

/-- `011_abandoned_capacity.sql`. -/
def abandonedCapacity : List Statement :=
  [table "ledger_new"
        [("id", "INTEGER PRIMARY KEY AUTOINCREMENT"), ("job_id", "TEXT REFERENCES jobs(job_id)"),
         ("user_id", "TEXT REFERENCES users(user_id)"),
         ("currency", "TEXT NOT NULL CHECK (currency IN ('USD', 'GPU_HOUR'))"),
         ("kind", "TEXT NOT NULL CHECK (kind IN ('RESERVE', 'RELEASE', 'SETTLE', 'ABANDONED'))"),
         ("amount", "TEXT NOT NULL"), ("period", "TEXT NOT NULL"), ("at", "TEXT NOT NULL"),
         ("note", "TEXT"), ("resource_handle", "TEXT")] [],
    .copyRows "ledger_new" "ledger" ["id", "job_id", "user_id", "currency", "kind", "amount",
        "period", "at", "note"],
    .dropTable "ledger",
    .renameTable "ledger_new" "ledger",
    index "idx_ledger_account" "ledger" ["user_id", "period", "currency"],
    index "idx_ledger_job" "ledger" ["job_id"],
    index "idx_ledger_at" "ledger" ["at"],
    index "idx_ledger_period" "ledger" ["period", "currency"],
    index "idx_ledger_handle" "ledger" ["resource_handle", "currency"]]

/-- `012_trace_context.sql`. -/
def traceContext : List Statement :=
  [table "trace_context"
        [("job_id", "TEXT PRIMARY KEY REFERENCES jobs(job_id) ON DELETE CASCADE"),
         ("traceparent", "TEXT NOT NULL"), ("at", "TEXT NOT NULL")] []]

/-- `013_operational_cost_trace.sql`. -/
def operationalCostTrace : List Statement :=
  [table "schedule_observations"
        [("id", "INTEGER PRIMARY KEY AUTOINCREMENT"),
         ("job_id", "TEXT NOT NULL REFERENCES jobs(job_id) ON DELETE CASCADE"),
         ("at", "TEXT NOT NULL"), ("decision", "TEXT NOT NULL"),
         ("resource_class", "TEXT NOT NULL"),
         ("requested_memory_mb", "INTEGER NOT NULL CHECK (requested_memory_mb >= 0)"),
         ("backend", "TEXT"), ("tier", "TEXT"), ("detail", "TEXT NOT NULL DEFAULT ''")] [],
    index "idx_schedule_observations_job" "schedule_observations" ["job_id", "id"],
    index "idx_schedule_observations_at" "schedule_observations" ["at"]]

/-- A migration: its number, its name and its script. -/
structure Migration where
  version : Nat
  name : String
  script : List Statement
  deriving DecidableEq

/-- All migration files, in order. -/
def discover : List Migration :=
  [⟨1, "initial", initial⟩,
    ⟨2, "log_cursor", logCursor⟩,
    ⟨3, "host_drains", hostDrains⟩,
    ⟨4, "cost_and_idle", costAndIdle⟩,
    ⟨5, "checkpoints", checkpoints⟩,
    ⟨6, "cancel_requests", cancelRequests⟩,
    ⟨7, "environments", environments⟩,
    ⟨8, "metrics", metrics⟩,
    ⟨9, "job_origin", jobOrigin⟩,
    ⟨10, "user_suspension", userSuspension⟩,
    ⟨11, "abandoned_capacity", abandonedCapacity⟩,
    ⟨12, "trace_context", traceContext⟩,
    ⟨13, "operational_cost_trace", operationalCostTrace⟩]

def latestVersion : Nat := discover.length

/-- The schema the migrations up to a version produce, one after another. -/
def built (version : Nat) : Except Problem Schema :=
  (discover.take version).foldlM (fun schema migration => runScript migration.script schema) .empty

/-- The migrations are numbered from one, with no gaps. -/
theorem discover_versions : discover.map Migration.version = List.range' 1 latestVersion := by decide

/-- Every script runs on the schema the ones before it produce. -/
theorem built_isSome : ∀ version ≤ latestVersion, (built version).toOption.isSome = true := by
  decide +kernel

end GpuBroker.Broker.Sql
