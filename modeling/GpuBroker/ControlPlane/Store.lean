/-
This file is the control plane's database and the statements a use case can run
against it inside one transaction.

The tables that carry capacity and money are grouped as `Books`; the database
extends them with the tables the invariants do not read. A statement is a
transaction body over the database: it fails where the schema's constraints or
its own predicate refuse it, and otherwise rewrites the rows its SQL names. The
lemma beside each statement says what a successful one found and wrote.
-/
import GpuBroker.ControlPlane.Domain
import GpuBroker.Library.Table
import GpuBroker.Library.Transaction

namespace GpuBroker.ControlPlane

open Library Library.Transaction

/-! ### The tables -/

/-- The tables that account for capacity and money. -/
structure Books where
  projects : Table Project Project.id
  workers : Table Worker Worker.id
  jobs : Table Job Job.id
  attempts : Table Attempt Attempt.id
  reservations : Table Reservation Reservation.id
  ledger : List LedgerEntry

inductive EventKind
  | started | log | progress | exit
  deriving DecidableEq

/-- One structured event from an attempt. An exit event is terminal and carries an outcome; a
kind or an outcome outside the known ones, and a zero time, are absent here. -/
structure WorkerEvent where
  seq : Int
  kind : Option EventKind
  time : Option Time
  message : String
  outcome : Option AttemptOutcome
  exitCode : Option Int
  deriving DecidableEq

/-- A stored event; its key, the attempt and the sequence number, deduplicates redelivered
ones. -/
structure AttemptEvent where
  attempt : AttemptID
  payload : WorkerEvent
  time : Time
  deriving DecidableEq

inductive Action
  | place | delay | wait | preempt | expire
  deriving DecidableEq

/-- The durable record of what the scheduler decided for one job in one tick. -/
structure Decision where
  job : JobID
  tenant : TenantID
  policyVersion : String
  action : Action
  reason : String
  chosenWorker : WorkerID
  chosenPool : PoolID
  delayUntil : Option Time
  budgetEffect : MicroUSD
  priceRate : MicroUSD
  fallbacks : List String
  victim : JobID
  inputDigest : String
  deriving DecidableEq

structure StoredDecision where
  tick : String
  decision : Decision
  time : Time
  deriving DecidableEq

/-- The dispatch message a placement leaves for its worker. -/
structure OutboxEvent where
  id : Nat
  topic : WorkerID
  job : JobID
  attempt : AttemptID
  availableAt : Time
  attempts : Nat
  lockedUntil : Option Time
  lockedBy : Option WorkerID
  deliveredAt : Option Time
  deriving DecidableEq

structure Db extends Books where
  quotas : Table Quota Quota.tenant
  pools : Table Pool Pool.id
  transitions : List TransitionRecord
  events : Table AttemptEvent fun event => (event.attempt, event.payload.seq)
  leases : Table Lease Lease.attempt
  decisions : List StoredDecision
  outbox : Table OutboxEvent OutboxEvent.id
  nextOutbox : Nat

/-- The migrated database before any use. -/
def Db.initial : Db where
  projects := .empty
  workers := .empty
  jobs := .empty
  attempts := .empty
  reservations := .empty
  ledger := []
  quotas := .empty
  pools := .empty
  transitions := []
  events := .empty
  leases := .empty
  decisions := []
  outbox := .empty
  nextOutbox := 1

abbrev Tx (Result : Type) := Transaction Db Fault Result

/-- The sum of the ledger amounts of one kind that a predicate selects. -/
def ledgerSum (ledger : List LedgerEntry) (kind : LedgerKind) (which : LedgerEntry → Bool) :
    MicroUSD :=
  ((ledger.filter fun entry => which entry && entry.kind == kind).map LedgerEntry.amount).sum

/-- A reservation that has not been released. -/
def Reservation.active (reservation : Reservation) : Bool := reservation.releasedAt.isNone

/-- An attempt without an outcome. -/
def Attempt.open (attempt : Attempt) : Bool := attempt.outcome.isNone

/-- What the ledger still holds of a job. -/
def outstandingOf (ledger : List LedgerEntry) (id : JobID) : MicroUSD :=
  ledgerSum ledger .hold (fun entry => entry.job = id) -
    ledgerSum ledger .settle (fun entry => entry.job = id) -
    ledgerSum ledger .release (fun entry => entry.job = id)

/-- The GPUs of a worker's active reservations. -/
def reservedOn (reservations : Table Reservation Reservation.id) (worker : WorkerID) : Int :=
  reservations.total fun row => if row.active ∧ row.worker = worker then row.gpus else 0

/-- A job that waits for a placement. -/
def Job.waiting (job : Job) : Bool := job.state = .submitted || job.state = .queued

/-- The columns `saveJob` writes. -/
def Job.saved (row job : Job) : Job :=
  { row with
    state := job.state, attempt := job.attempt, notBefore := job.notBefore
    startedAt := job.startedAt, finishedAt := job.finishedAt
    updatedAt := job.updatedAt, version := job.version }

/-- A worker row with GPUs taken. -/
def Worker.reserve (gpus : Int) (row : Worker) : Worker :=
  { row with gpusReserved := row.gpusReserved + gpus, version := row.version + 1 }

/-- A worker row with GPUs given back. -/
def Worker.giveBack (gpus : Int) (row : Worker) : Worker :=
  { row with gpusReserved := row.gpusReserved - gpus, version := row.version + 1 }

/-- The columns closing an attempt writes. -/
def Attempt.ended (closed row : Attempt) : Attempt :=
  { row with
    outcome := closed.outcome, exitCode := closed.exitCode, reason := closed.reason
    endedAt := closed.endedAt }

/-- The columns releasing a reservation writes. -/
def Reservation.release (time : Time) (reason : String) (row : Reservation) : Reservation :=
  { row with releasedAt := some time, releaseReason := some reason }

namespace Tx

/-- A sum read into a signed 64-bit variable. -/
def scanInt64 (value : Int) : Tx Int := do
  require (-2 ^ 63 ≤ value ∧ value ≤ maxInt64) .outOfRange
  pure value

/-! ### Projects and quotas -/

def insertProject (project : Project) : Tx Unit := do
  let db ← get
  require (0 ≤ project.budget) (.conflict "projects_budget_micro_usd_check")
  require (db.projects.select (fun other =>
    other.tenant = project.tenant ∧ other.name = project.name) = none)
    (.conflict "projects_tenant_id_name_key")
  let projects ← need (db.projects.insert project) (.conflict "projects_pkey")
  set { db with projects }

def getProject (tenant : TenantID) (id : ProjectID) : Tx Project := do
  let db ← get
  need ((db.projects.find id).filter fun project => project.tenant = tenant) .notFound

/-- The tenant's project named default, else the one with the least id. -/
def defaultProject (tenant : TenantID) : Tx Project := do
  let db ← get
  let own := db.projects.rows.filter fun project => project.tenant = tenant
  let named := own.find? fun project => project.name = "default"
  let least := own.find? fun project => own.all fun other => ¬ other.id < project.id
  need (named.or least) .notFound

def lockProject (id : ProjectID) : Tx Project := do
  let db ← get
  need (db.projects.find id) .notFound

/-- Outstanding holds and settled spend of a project. -/
def projectSpend (id : ProjectID) : Tx (MicroUSD × MicroUSD) := do
  let db ← get
  let held ← scanInt64 (ledgerSum db.ledger .hold fun entry => entry.project = id)
  let settled ← scanInt64 (ledgerSum db.ledger .settle fun entry => entry.project = id)
  let released ← scanInt64 (ledgerSum db.ledger .release fun entry => entry.project = id)
  pure (held - settled - released, settled)

def upsertQuota (quota : Quota) : Tx Unit := do
  let db ← get
  require (0 < quota.maxQueuedJobs ∧ 0 < quota.maxActiveGPUs) (.conflict "quotas_check")
  let quotas ← need
    (if (db.quotas.find quota.tenant).isSome then
      some (db.quotas.modify quota.tenant fun row => { row with
        maxQueuedJobs := quota.maxQueuedJobs, maxActiveGPUs := quota.maxActiveGPUs })
    else db.quotas.insert quota) (.conflict "quotas_pkey")
  set { db with quotas }

/-! ### Pools and workers -/

def upsertPool (pool : Pool) : Tx Unit := do
  let db ← get
  require (0 ≤ pool.pricePerGPUHour) (.conflict "pools_price_micro_usd_per_gpu_hour_check")
  require (db.pools.select (fun other => other.id ≠ pool.id ∧ other.name = pool.name) = none)
    (.conflict "pools_name_key")
  let pools ← need
    (if (db.pools.find pool.id).isSome then
      some (db.pools.modify pool.id fun row => { row with
        name := pool.name, kind := pool.kind, region := pool.region
        pricePerGPUHour := pool.pricePerGPUHour, interruptible := pool.interruptible })
    else db.pools.insert pool) (.conflict "pools_pkey")
  set { db with pools }

def getPool (id : PoolID) : Tx Pool := do
  let db ← get
  need (db.pools.find id) .notFound

def listPools : Tx (List Pool) := do
  let db ← get
  pure db.pools.rows

/-- A new worker row starts with nothing reserved, whatever the argument holds. -/
def insertWorker (worker : Worker) : Tx Unit := do
  let db ← get
  require (0 < worker.capability.gpus ∧ 0 ≤ worker.capability.gpuMemGB)
    (.conflict "workers_check")
  require (db.workers.select (fun other =>
    other.pool = worker.pool ∧ other.name = worker.name) = none)
    (.conflict "workers_pool_id_name_key")
  let workers ← need (db.workers.insert { worker with gpusReserved := 0, version := 0 })
    (.conflict "workers_pkey")
  set { db with workers }

def getWorker (id : WorkerID) : Tx Worker := do
  let db ← get
  need (db.workers.find id) .notFound

def findWorker (pool : PoolID) (name : String) : Tx (Option Worker) := do
  let db ← get
  pure (db.workers.select fun worker => worker.pool = pool ∧ worker.name = name)

def listWorkers : Tx (List Worker) := do
  let db ← get
  pure db.workers.rows

def touchWorker (id : WorkerID) (time : Time) (state : WorkerState) : Tx Unit := do
  let db ← get
  let _ ← need (db.workers.find id) .notFound
  set { db with workers := db.workers.modify id fun row => { row with
    lastHeartbeat := time, state := state, version := row.version + 1 } }

def markWorkersOffline (before : Time) : Tx (List WorkerID) := do
  let db ← get
  let silent := fun worker : Worker =>
    decide (worker.state ≠ .offline ∧ worker.lastHeartbeat < before)
  set { db with workers := db.workers.update silent fun row => { row with
    state := .offline, version := row.version + 1 } }
  pure ((db.workers.rows.filter silent).map Worker.id)

/-- The compare-and-swap of a placement: the predicate is evaluated on the row's current value. -/
def reserveCapacity (id : WorkerID) (gpus : Int) : Tx Unit := do
  let db ← get
  let _ ← need ((db.workers.find id).filter fun worker =>
      worker.state = .ready ∧ worker.gpusReserved + gpus ≤ worker.capability.gpus)
    .capacityConflict
  set { db with workers := db.workers.modify id (Worker.reserve gpus) }

def releaseCapacity (id : WorkerID) (gpus : Int) : Tx Unit := do
  let db ← get
  let _ ← need ((db.workers.find id).filter fun worker => gpus ≤ worker.gpusReserved)
    (.conflict "release would go negative")
  set { db with workers := db.workers.modify id (Worker.giveBack gpus) }

/-- Repair the reserved counters from the active reservations; the result counts repairs. -/
def recomputeCapacity : Tx Nat := do
  let db ← get
  let wrong := fun worker : Worker =>
    decide (worker.gpusReserved ≠ reservedOn db.reservations worker.id)
  set { db with workers := db.workers.update wrong fun row => { row with
    gpusReserved := min (reservedOn db.reservations row.id) row.capability.gpus
    version := row.version + 1 } }
  pure (db.workers.rows.filter wrong).length

/-! ### Jobs -/

/-- The runtime and the delay are stored in whole seconds. -/
def insertJob (job : Job) : Tx Unit := do
  let db ← get
  require (0 < job.requirements.gpus ∧ 0 ≤ job.priority ∧ job.priority ≤ 9 ∧
      0 < job.maxRuntime / second ∧ 0 ≤ job.maxDelay / second ∧ 0 ≤ job.budgetCap ∧
      1 ≤ job.maxAttempts ∧ job.maxAttempts ≤ 10) (.conflict "jobs_check")
  let jobs ← need (db.jobs.insert { job with
      maxRuntime := job.maxRuntime / second * second
      maxDelay := job.maxDelay / second * second }) (.conflict "jobs_pkey")
  set { db with jobs }

def getJob (tenant : TenantID) (id : JobID) : Tx Job := do
  let db ← get
  need ((db.jobs.find id).filter fun job => job.tenant = tenant) .notFound

def lockJob (id : JobID) : Tx Job := do
  let db ← get
  need (db.jobs.find id) .notFound

/-- Write the mutable fields with a version predicate. -/
def saveJob (job : Job) (previous : Int) : Tx Unit := do
  let db ← get
  let _ ← need ((db.jobs.find job.id).filter fun row => row.version = previous) .staleVersion
  set { db with jobs := db.jobs.modify job.id fun row => Job.saved row job }

def insertTransition (record : TransitionRecord) : Tx Unit := do
  let db ← get
  require (record.reason ≠ "") (.conflict "job_transitions_reason_check")
  set { db with transitions := db.transitions ++ [record] }

def countQueued (tenant : TenantID) : Tx Int := do
  let db ← get
  pure (db.jobs.rows.filter fun job => job.tenant = tenant && job.waiting).length

def countQueuedAll : Tx Int := do
  let db ← get
  pure (db.jobs.rows.filter Job.waiting).length

def getQuota (tenant : TenantID) : Tx (Option Quota) := do
  let db ← get
  pure (db.quotas.find tenant)

/-! ### Attempts -/

def insertAttempt (attempt : Attempt) : Tx Unit := do
  let db ← get
  require (1 ≤ attempt.number) (.conflict "job_attempts_number_check")
  require (db.attempts.select (fun other =>
      other.job = attempt.job ∧ other.number = attempt.number) = none)
    (.conflict "job_attempts_job_id_number_key")
  require (db.attempts.select (fun other => other.job = attempt.job ∧ other.open) = none)
    (.conflict "job_attempts_one_open")
  let attempts ← need (db.attempts.insert attempt) (.conflict "job_attempts_pkey")
  set { db with attempts }

def getAttempt (id : AttemptID) : Tx Attempt := do
  let db ← get
  need (db.attempts.find id) .notFound

/-- The predicate admits one acknowledgement per attempt. -/
def ackAttempt (id : AttemptID) (time : Time) : Tx Bool := do
  let db ← get
  let fresh := (db.attempts.find id).any fun row => row.ackedAt.isNone && row.open
  set { db with attempts :=
    if fresh then db.attempts.modify id fun row => { row with ackedAt := some time }
    else db.attempts }
  pure fresh

def closeAttempt (closed : Attempt) : Tx Unit := do
  let db ← get
  let _ ← need ((db.attempts.find closed.id).filter Attempt.open) .attemptClosed
  set { db with attempts := db.attempts.modify closed.id (Attempt.ended closed) }

def requestStop (id : AttemptID) (kind : StopKind) : Tx Unit := do
  let db ← get
  let pending := (db.attempts.find id).any fun row => row.open && row.stopRequested.isNone
  set { db with attempts :=
    if pending then db.attempts.modify id fun row => { row with stopRequested := some kind }
    else db.attempts }

/-- A redelivered event is dropped: the first one under its key stays. -/
def insertAttemptEvent (event : AttemptEvent) : Tx Bool := do
  let db ← get
  match db.events.insert event with
  | some events =>
      set { db with events }
      pure true
  | none => pure false

/-! ### Reservations and leases -/

def insertReservation (reservation : Reservation) : Tx Unit := do
  let db ← get
  require (0 < reservation.gpus) (.conflict "reservations_gpus_check")
  require (db.reservations.select (fun other =>
      other.job = reservation.job ∧ other.active) = none)
    (.conflict "reservations_one_active")
  let reservations ← need (db.reservations.insert
      { reservation with releasedAt := none, releaseReason := none })
    (.conflict "reservations_pkey")
  set { db with reservations }

def activeReservation (job : JobID) : Tx Reservation := do
  let db ← get
  need (db.reservations.select fun row => row.job = job ∧ row.active) .notFound

/-- Whether this call released it: only that caller returns the capacity. -/
def releaseReservation (id : ReservationID) (time : Time) (reason : String) : Tx Bool := do
  let db ← get
  let held := (db.reservations.find id).any Reservation.active
  set { db with reservations :=
    if held then db.reservations.modify id (Reservation.release time reason)
    else db.reservations }
  pure held

def putLease (lease : Lease) : Tx Unit := do
  let db ← get
  let leases ← need
    (if (db.leases.find lease.attempt).isSome then
      some (db.leases.update (fun row => row.attempt = lease.attempt ∧ row.worker = lease.worker)
        fun row => { row with expiresAt := lease.expiresAt, renewedAt := lease.renewedAt })
    else db.leases.insert lease) (.conflict "leases_pkey")
  set { db with leases }

def getLease (attempt : AttemptID) : Tx (Option Lease) := do
  let db ← get
  pure (db.leases.find attempt)

def renewLeases (worker : WorkerID) (ids : List AttemptID) (now expires : Time) :
    Tx (List AttemptID) := do
  let db ← get
  let held := fun row : Lease => decide (row.worker = worker) && ids.contains row.attempt
  set { db with leases := db.leases.update held fun row => { row with
    expiresAt := expires, renewedAt := now } }
  pure ((db.leases.rows.filter held).map Lease.attempt)

def deleteLease (attempt : AttemptID) : Tx Unit := do
  let db ← get
  set { db with leases := db.leases.erase fun row => row.attempt = attempt }

/-! ### The ledger -/

/-- The schema refuses a non-positive amount and any HOLD or SETTLE of a finished job. -/
def insertLedger (entry : LedgerEntry) : Tx Unit := do
  let db ← get
  require (0 < entry.amount) (.conflict "budget_ledger_amount_check")
  let job ← need (db.jobs.find entry.job) (.conflict "budget_ledger_job_id_fkey")
  require (entry.kind = .release ∨ job.state.terminal = false)
    (.conflict "budget_ledger_no_spend_after_finish")
  set { db with ledger := db.ledger ++ [entry] }

def jobBudget (id : JobID) : Tx JobBudget := do
  let db ← get
  let held ← scanInt64 (ledgerSum db.ledger .hold fun entry => entry.job = id)
  let settled ← scanInt64 (ledgerSum db.ledger .settle fun entry => entry.job = id)
  let released ← scanInt64 (ledgerSum db.ledger .release fun entry => entry.job = id)
  pure { held, settled, released, closed := (db.jobs.find id).any fun job => job.state.terminal }

def terminalJobsWithOutstanding (limit : Nat) : Tx (List JobID) := do
  let db ← get
  pure (((db.jobs.rows.filter fun job =>
    job.state.terminal && outstandingOf db.ledger job.id ≠ 0).map Job.id).take limit)

/-! ### Decisions and the outbox -/

def insertDecision (tick : String) (decision : Decision) (time : Time) : Tx Unit :=
  modify fun db => { db with decisions := db.decisions ++ [{ tick, decision, time }] }

def lastDecision (job : JobID) : Tx (Option (Action × String)) := do
  let db ← get
  pure ((db.decisions.reverse.find? fun row => row.decision.job = job).map fun row =>
    (row.decision.action, row.decision.reason))

def enqueue (topic : WorkerID) (job : JobID) (attempt : AttemptID) (availableAt : Time) :
    Tx Unit := do
  let db ← get
  let outbox ← need (db.outbox.insert
      { id := db.nextOutbox, topic, job, attempt, availableAt, attempts := 0
        lockedUntil := none, lockedBy := none, deliveredAt := none })
    (.conflict "outbox_events_pkey")
  set { db with outbox, nextOutbox := db.nextOutbox + 1 }

/-- Undelivered events of a topic whose visibility has lapsed, oldest first. -/
def claimable (db : Db) (topic : WorkerID) (count : Nat) (now : Time) : List OutboxEvent :=
  ((db.outbox.rows.filter fun event =>
      event.topic = topic && event.deliveredAt.isNone && decide (event.availableAt ≤ now) &&
        event.lockedUntil.all fun until_ => until_ ≤ now).mergeSort
    fun one two => one.id ≤ two.id).take count

def claim (topic : WorkerID) (count : Nat) (now : Time) (visibility : Duration) :
    Tx (List OutboxEvent) := do
  let db ← get
  let batch := claimable db topic count now
  let chosen := fun event : OutboxEvent => (batch.map OutboxEvent.id).contains event.id
  let lock := fun event : OutboxEvent => { event with
    lockedUntil := some (now + visibility), lockedBy := some topic, attempts := event.attempts + 1 }
  set { db with outbox := db.outbox.update chosen lock }
  pure (batch.map lock)

def markDelivered (id : Nat) (time : Time) : Tx Unit := do
  let db ← get
  let pending := fun row : OutboxEvent => decide (row.id = id) && row.deliveredAt.isNone
  set { db with outbox := db.outbox.update pending fun row => { row with
    deliveredAt := some time } }

def pruneOutbox (before : Time) : Tx Unit := do
  let db ← get
  set { db with outbox := db.outbox.erase fun row => row.deliveredAt.any fun time => time < before }

end Tx

/-! ### Fencing -/

/-- The tables with the leader row, which only taking the leadership writes. -/
structure Database extends Db where
  /-- The fencing token on the leader row. -/
  epoch : Int

def Database.initial : Database where
  toDb := .initial
  epoch := 0

/-- A transaction that does not name the leader row. -/
def onTables {Result : Type} (body : Tx Result) : Transaction Database Fault Result := fun base =>
  match body base.toDb with
  | .ok (result, next) => .ok (result, { base with toDb := next })
  | .error fault => .error fault

def checkEpoch (epoch : Int) : Transaction Database Fault Unit := do
  let base ← get
  require (base.epoch = epoch) (.fenced epoch base.epoch)

/-- The one statement of taking the leadership: a new epoch, which is the leader's token. -/
def tryLead : Transaction Database Fault Int := do
  let base ← get
  set { base with epoch := base.epoch + 1 }
  pure (base.epoch + 1)

theorem onTables_ok {Result : Type} {body : Tx Result} {base : Database}
    {finish : Result × Database} :
    onTables body base = .ok finish ↔
      body base.toDb = .ok (finish.1, finish.2.toDb) ∧ finish.2.epoch = base.epoch := by
  obtain ⟨result, next⟩ := finish
  unfold onTables
  cases ran : body base.toDb with
  | error fault => simp
  | ok pair =>
      constructor
      · intro same
        cases same
        exact ⟨rfl, rfl⟩
      · rintro ⟨same, epoch⟩
        cases same
        cases next
        cases epoch
        rfl

theorem checkEpoch_ok {epoch : Int} {base : Database} {finish : Unit × Database} :
    checkEpoch epoch base = .ok finish ↔ base.epoch = epoch ∧ base = finish.2 := by
  refine bind_ok.trans ⟨?_, ?_⟩
  · rintro ⟨_, _, read, checked⟩
    cases get_ok.mp read
    exact require_ok.mp checked
  · exact fun current => ⟨base, base, rfl, require_ok.mpr current⟩

end GpuBroker.ControlPlane
