/-
This file is the store of the Python broker: the queries on its tables, the
transactions that write them, and the methods of `Store` as programs that read,
ask the clock and commit.

Every transaction is a `Write`, which says what it is about to change and from
what it was computed; `Write.apply` is its effect, or nothing when a guard in it
rolls it back. A method reads what it needs before it opens its transaction, so
between the two another process may commit.
-/
import GpuBroker.Broker.Records
import GpuBroker.Library.Program
import Mathlib.Data.List.DropRight

namespace GpuBroker.Broker

open Library

/-! ### Queries -/

/-- What the rows of a ledger query leave held and spent. -/
def aggregate (rows : List LedgerEntry) : Cents × Cents :=
  rows.foldl
    (fun (held, spent) row =>
      match row.kind with
      | .reserve => (held + row.amount, spent)
      | .release => (held - row.amount, spent)
      | _ => (held, spent + row.amount))
    (0, 0)

namespace Db

/-- What is held and spent on an account, in one currency and one month. -/
def accountOf (db : Db) (user : UserId) (currency : Currency) (period : Period) : Cents × Cents :=
  aggregate (db.ledger.filter fun row =>
    row.userId = some user ∧ row.currency = currency ∧ row.period = period)

/-- What the pool has spent, in one currency and one month. -/
def poolSpent (db : Db) (currency : Currency) (period : Period) : Cents :=
  (aggregate (db.ledger.filter fun row => row.currency = currency ∧ row.period = period)).2

/-- How much of a job's reservation is still outstanding. -/
def jobHolding (db : Db) (job : JobId) (currency : Currency) : Cents :=
  (aggregate (db.ledger.filter fun row => row.jobId = some job ∧ row.currency = currency)).1

/-- What a job has been charged. -/
def jobSpend (db : Db) (job : JobId) : Cents :=
  (aggregate (db.ledger.filter fun row => row.jobId = some job)).2

/-- What a machine has already been charged as abandoned. -/
def abandonedForHandle (db : Db) (handle : String) (currency : Currency) : Cents :=
  ((db.ledger.filter fun row =>
    row.resourceHandle = some handle ∧ row.currency = currency ∧ row.kind = .abandoned).map
      LedgerEntry.amount).sum

/-- The jobs a predicate selects, by submission time and then by id. -/
def listJobs (db : Db) (which : Job → Bool) : List Job :=
  (db.jobs.rows.filter which).mergeSort fun one other =>
    one.submittedAt < other.submittedAt ∨
      (one.submittedAt = other.submittedAt ∧ one.jobId ≤ other.jobId)

theorem listJobs_perm (db : Db) (which : Job → Bool) :
    (db.listJobs which).Perm (db.jobs.rows.filter which) := List.mergeSort_perm _ _

/-- A job that is listed is in the table, and is one of those asked for. -/
theorem find_of_listJobs {db : Db} {which : Job → Bool} {job : Job} (listed : job ∈ db.listJobs which) :
    db.jobs.find job.jobId = some job ∧ which job = true := by
  obtain ⟨member, chosen⟩ := List.mem_filter.mp ((db.listJobs_perm which).mem_iff.mp listed)
  exact ⟨Table.find_of_mem member, chosen⟩

theorem mem_listJobs {db : Db} {which : Job → Bool} {id : JobId} {job : Job}
    (found : db.jobs.find id = some job) (chosen : which job = true) : job ∈ db.listJobs which :=
  (db.listJobs_perm which).mem_iff.mpr (List.mem_filter.mpr ⟨Table.find_mem found, chosen⟩)

def queuedJobs (db : Db) : List Job := db.listJobs fun job => job.state == .queued

def activeJobs (db : Db) : List Job := db.listJobs fun job => job.state.active

/-- How many jobs of a member are in the states a predicate selects. -/
def countInStates (db : Db) (user : UserId) (which : JobState → Bool) : Nat :=
  (db.jobs.rows.filter fun job => job.userId = user ∧ which job.state).length

def queuedCount (db : Db) (user : UserId) : Nat := db.countInStates user (· == .queued)

def runningCount (db : Db) (user : UserId) : Nat := db.countInStates user JobState.active

/-- Everybody currently off the pool, and why. -/
def suspendedUsers (db : Db) : List (UserId × String) :=
  (db.users.rows.filter User.isSuspended).map fun user => (user.userId, user.suspendedReason)

/-- How many rows of a job's log are stored. -/
def logCount (db : Db) (job : JobId) : Nat := (db.logs.filter fun row => row.jobId = job).length

/-- The latest samples of a job, oldest first, from a moment on and at most a number of them. -/
def samplesFor (db : Db) (job : JobId) (since : Option Time) (limit : Nat) : List Sample :=
  (db.samples.filter fun sample =>
    sample.jobId = job ∧ since.all fun since => since ≤ sample.takenAt).rtake limit

/-- When a job was last sampled. -/
def lastSampleAt (db : Db) (job : JobId) : Option Time :=
  ((db.samples.filter fun sample => sample.jobId = job).map Sample.takenAt).max?

/-- When a job's owner was last told something of a kind. -/
def lastNotified (db : Db) (job : JobId) (kind : String) : Option Time :=
  ((db.notifications.filter fun notification =>
    notification.jobId = some job ∧ notification.notice.kind = kind).map
      Notification.writtenAt).getLast?

end Db

/-- An optional text that is neither absent nor empty. -/
def truthy (text : Option String) : Option String := text.filter fun text => text ≠ ""

theorem truthy_some {text : String} (written : text ≠ "") : truthy (some text) = some text :=
  Option.filter_some_pos (decide_eq_true written)

theorem truthy_eq {text : Option String} {written : String} (named : truthy text = some written) :
    text = some written :=
  (Option.mem_filter_iff.mp named).1

/-! ### Transactions -/

/-- A change of a job's row and its log that leaves its state and its money alone. -/
inductive Touch where
  | attempt
  | preemption
  | checkpoint (step : Int) (key : String)
  | pinTier (tier reason : String)
  | cancelRequest (actor : String)
  /-- Store what is kept of a poll's worth of output, and move the read cursor over all of it. -/
  | output (after : Nat) (polled kept : List Line)
  | note (kept : List Line)
  deriving DecidableEq

/-- The columns a touch sets. -/
def Touch.onRow (touch : Touch) (now : Time) (row : Job) : Job :=
  match touch with
  | attempt => { row with attempts := row.attempts + 1, updatedAt := now }
  | preemption => { row with preemptions := row.preemptions + 1, updatedAt := now }
  | checkpoint step key =>
      { row with
        checkpointStep := some step, checkpointKey := some key, checkpointAt := some now
        updatedAt := now }
  | pinTier tier _ => { row with pinnedTier := some tier, updatedAt := now }
  | cancelRequest actor => { row with cancelRequested := some actor, updatedAt := now }
  | output after polled _ => { row with logsFetched := after + polled.length, updatedAt := now }
  | note _ => row

/-- The lines a touch adds to the job's log. -/
def Touch.lines : Touch → List Line
  | pinTier tier reason => [("broker", s!"pinned to {tier}: {reason}")]
  | cancelRequest actor => [("broker", s!"cancel requested by {actor}")]
  | output _ _ kept => kept
  | note kept => kept
  | _ => []

theorem Touch.onRow_id (touch : Touch) (now : Time) (row : Job) :
    (touch.onRow now row).jobId = row.jobId := by
  cases touch <;> rfl

/-- What the caller of `transition` asks for besides the target. -/
structure Change where
  reason : Reason
  ledger : List LedgerWrite := []
  backend : Option String := none
  backendHandle : Option String := none
  exitCode : Option Int := none
  clearHandle : Bool := false

/-- What admission had read when it admitted a job. -/
structure Admission where
  queued : Nat
  balance : Balance

/-- A transaction. Besides what it writes, `create` names what admission had read, `move` the record
the caller held and the hold it had read when it releases one, and `settle` the record the caller
held and the moment the amount was accrued to. -/
inductive Write where
  | insertUser (user : User)
  | updateUser (user : User)
  | suspend (user : UserId) (reason actor : String) (now : Time)
  | restore (user : UserId)
  | create (job : Job) (read : Admission)
  | refuse (job : Job) (refusal : Refusal)
  | move (current : Job) (target : JobState) (change : Change) (now : Time)
      (outstanding : Option Cents)
  | settle (job : Job) (amount : Cents) (accrued now : Time)
  | touch (job : JobId) (columns : Touch) (now : Time)
  | sampled (job : JobId) (samples : List Sample)
  | notify (notification : Notification)
  | abandon (handle : String) (job : Option JobId) (user : Option UserId) (currency : Currency)
      (amount : Cents) (now : Time)
  | applyPrices (book : List (String × Decimal))

/-- A new row of the ledger: rounded, and stamped with the period it is written in. -/
def insertLedger (config : BrokerConfig) (job : Option JobId) (user : Option UserId)
    (currency : Currency) (kind : LedgerKind) (amount : Decimal) (now : Time)
    (handle : Option String) : LedgerEntry where
  jobId := job
  userId := user
  currency := currency
  kind := kind
  amount := quantize amount
  period := config.calendar.period now
  writtenAt := now
  resourceHandle := handle

/-- The hold a new job takes, when it takes one. -/
def admissionHold (config : BrokerConfig) (job : Job) : List LedgerEntry :=
  if 0 < job.reserved then
    [insertLedger config (some job.jobId) (some job.userId) job.currency .reserve
      (money job.reserved) job.submittedAt none]
  else []

/-- The rows a move writes for its caller. -/
def ledgerWrites (config : BrokerConfig) (job : Job) (writes : List LedgerWrite) (now : Time) :
    List LedgerEntry :=
  writes.map fun write =>
    insertLedger config (some job.jobId) (some job.userId) write.currency write.kind write.amount
      now none

/-- The two rows of a settlement: what was consumed, and the hold it came out of. -/
def settlement (config : BrokerConfig) (job : Job) (amount : Cents) (now : Time) :
    List LedgerEntry :=
  [insertLedger config (some job.jobId) (some job.userId) job.currency .settle (money amount) now
      none,
    insertLedger config (some job.jobId) (some job.userId) job.currency .release (money amount) now
      none]

/-- What the caller's own writes, not yet in the database, make of an outstanding hold. -/
def afterWrites (currency : Currency) (outstanding : Decimal) (writes : List LedgerWrite) :
    Decimal :=
  writes.foldl
    (fun outstanding write =>
      if write.currency ≠ currency then outstanding
      else match write.kind with
        | .reserve => outstanding + write.amount
        | .release | .settle => outstanding - write.amount
        | .abandoned => outstanding)
    outstanding

/-- Give back the unspent part of a finishing job's reservation, of which `holding` was read. -/
def releaseRemainingHold (currency : Currency) (holding : Cents) (extra : List LedgerWrite) :
    List LedgerWrite :=
  let outstanding := afterWrites currency (money holding) extra
  if outstanding ≤ 0 then []
  else [{ kind := .release, amount := money (quantize outstanding), currency }]

/-- The rows a move writes: its caller's own, and the release of the hold it had read. -/
def Change.writes (change : Change) (currency : Currency) (outstanding : Option Cents) :
    List LedgerWrite :=
  match outstanding with
  | none => change.ledger
  | some holding => change.ledger ++ releaseRemainingHold currency holding change.ledger

/-- The record a move writes. -/
def Job.movedTo (current : Job) (target : JobState) (change : Change) (now : Time) : Job :=
  { current with
    state := target
    updatedAt := now
    backend := (truthy change.backend).or current.backend
    backendHandle :=
      if change.clearHandle then none
      else (truthy change.backendHandle).or current.backendHandle
    startedAt :=
      if target.active && current.startedAt.isNone then some now else current.startedAt
    finishedAt := if target.terminal then some now else current.finishedAt
    exitCode := change.exitCode.or current.exitCode
    -- the record is rebuilt without its origin, which falls back to the default
    origin := "real" }

/-- The column a settlement sets. -/
def Job.stamped (now : Time) (row : Job) : Job := { row with updatedAt := now }

theorem Job.stamped_id (now : Time) (row : Job) : (row.stamped now).jobId = row.jobId := rfl

/-- The columns a move sets. -/
def Job.writtenOver (updated row : Job) : Job :=
  { row with
    state := updated.state
    updatedAt := updated.updatedAt
    backend := updated.backend
    backendHandle := updated.backendHandle
    startedAt := updated.startedAt
    finishedAt := updated.finishedAt
    exitCode := updated.exitCode }

theorem Job.writtenOver_id (updated row : Job) : (updated.writtenOver row).jobId = row.jobId := rfl

/-- A new row and the first line of its history. -/
def Db.insertJob (db : Db) (job : Job) (reason : Reason) (hold : List LedgerEntry) :
    Except BrokerError Db :=
  match db.jobs.insert job with
  | none => .error (.integrity "jobs")
  | some jobs =>
      .ok
        { db with
          jobs
          transitions := db.transitions ++ [⟨job.jobId, none, job.state, job.submittedAt, reason⟩]
          ledger := db.ledger ++ hold }

/-- Another job is recorded on the capacity a record names. -/
def Db.handleTaken (db : Db) (job : Job) : Bool :=
  job.backend.isSome && job.backendHandle.isSome &&
    db.jobs.rows.any fun other =>
      other.jobId ≠ job.jobId && other.backend = job.backend &&
        other.backendHandle = job.backendHandle

/-- Move a row that is still in the state the caller read; otherwise roll back. -/
def Db.moveJob (db : Db) (current updated : Job) (reason : Reason) (lines : List LedgerEntry) :
    Except BrokerError Db :=
  let illegal := BrokerError.illegalTransition current.jobId current.state updated.state
  match db.jobs.find current.jobId with
  | none => .error illegal
  | some row =>
      if row.state ≠ current.state then .error illegal
      else if db.handleTaken updated then .error (.integrity "jobs")
      else
        .ok
          { db with
            jobs := db.jobs.modify current.jobId updated.writtenOver updated.writtenOver_id
            transitions := db.transitions ++
              [⟨current.jobId, some current.state, updated.state, updated.updatedAt, reason⟩]
            ledger := db.ledger ++ lines }

/-- The streams a row of a log may come from. -/
def logStreams : List String := ["stdout", "stderr", "broker"]

/-- Change a row, and add lines to the job's log. -/
def Db.touchJob (db : Db) (job : JobId) (columns : Touch) (now : Time) : Except BrokerError Db :=
  let known := (db.jobs.find job).isSome && columns.lines.all fun line => line.1 ∈ logStreams
  if columns.lines ≠ [] && !known then .error (.integrity "job_logs")
  else
    .ok
      { db with
        jobs := db.jobs.modify job (columns.onRow now) (columns.onRow_id now)
        logs := db.logs ++ columns.lines.map fun line => ⟨job, now, line.1, line.2⟩ }

/-- The effect of a transaction on the tables, or what rolls it back. -/
def Write.onDb (config : BrokerConfig) (db : Db) : Write → Except BrokerError Db
  | insertUser user =>
      match db.users.insert user with
      | none => .error (.integrity "users")
      | some users => .ok { db with users }
  | updateUser user =>
      .ok { db with
        users := db.users.modify user.userId fun row =>
          { row with
            displayName := user.displayName
            budgetUsd := user.budgetUsd
            budgetGpuHours := user.budgetGpuHours
            isAdmin := user.isAdmin } }
  | suspend user reason actor now =>
      .ok { db with
        users := db.users.modify user fun row =>
          { row with suspendedAt := some now, suspendedReason := reason, suspendedBy := actor } }
  | restore user =>
      .ok { db with
        users := db.users.modify user fun row =>
          { row with suspendedAt := none, suspendedReason := "", suspendedBy := "" } }
  | create job _ => db.insertJob job .submitted (admissionHold config job)
  | refuse job refusal => db.insertJob job (.refused refusal) []
  | move current target change now outstanding =>
      db.moveJob current (current.movedTo target change now) change.reason
        (ledgerWrites config current (change.writes current.currency outstanding) now)
  | settle job amount _ now =>
      .ok { db with
        jobs := db.jobs.modify job.jobId (Job.stamped now) (Job.stamped_id now)
        ledger := db.ledger ++ settlement config job amount now }
  | touch job columns now => db.touchJob job columns now
  | sampled job samples =>
      if (db.jobs.find job).isSome then .ok { db with samples := db.samples ++ samples }
      else .error (.integrity "gpu_samples")
  | notify notification =>
      if notification.jobId.all fun job => (db.jobs.find job).isSome then
        .ok { db with notifications := db.notifications ++ [notification] }
      else .error (.integrity "notifications")
  | abandon handle job user currency amount now =>
      .ok { db with
        ledger := db.ledger ++
          [insertLedger config job user currency .abandoned (money amount) now (some handle)] }
  | applyPrices _ => .ok db

/-- The effect of a transaction on the configuration in force. -/
def Write.onConfig (config : BrokerConfig) : Write → BrokerConfig
  | applyPrices book => config.applyPrices book
  | _ => config

/-! ### Programs -/

/-- What a broker process works on: the database, its configuration, the capacity its backends
reach, and the clock, of which it has asked a number of readings. -/
structure World (γ : Type) where
  db : Db
  config : BrokerConfig
  cloud : γ
  clock : Nat → Time
  asked : Nat

/-- The latest reading of the clock. -/
def World.last {γ : Type} (world : World γ) : Time := world.clock (world.asked - 1)

/-- The effect of a transaction, or what rolls it back. -/
def Write.apply {γ : Type} (write : Write) (world : World γ) : Except BrokerError (World γ) :=
  match write.onDb world.config world.db with
  | .ok db => .ok { world with db, config := write.onConfig world.config }
  | .error error => .error error

/-- A program of the broker. -/
abbrev Op (γ : Type) := Program (World γ) Write BrokerError

section Programs

variable {γ α : Type}

/-- A reading of the clock. -/
def now : Op γ Time :=
  Program.quietly fun world =>
    (world.clock world.asked, { world with asked := world.asked + 1 })

/-- One query. -/
def query (view : Db → α) : Op γ α := Program.read fun world => view world.db

/-- The configuration in force. -/
def settings : Op γ BrokerConfig := Program.read World.config

/-- One transaction. -/
def execute (write : Write) : Op γ Unit := Program.commit write write.apply

/-- A pure computation that may raise. -/
def orRaise (value : Except BrokerError α) : Op γ α :=
  match value with
  | .ok value => pure value
  | .error error => .fail error

/-- One transaction, and the record it leaves. -/
def executing (write : Write) (value : α) : Op γ α := do
  execute write
  pure value

def maybeUser (user : UserId) : Op γ (Option User) := query fun db => db.users.find user

def getUser (user : UserId) : Op γ User := do
  match ← maybeUser user with
  | some found => pure found
  | none => .fail (.unknownUser user)

/-- Create the user, or update only the fields given. -/
def upsertUser (userId : UserId) (displayName : Option String) (budgetUsd : Option Decimal)
    (budgetGpuHours : Option Decimal) (isAdmin : Option Bool) : Op γ User := do
  let config ← settings
  let existing ← maybeUser userId
  let now ← now
  match existing with
  | none =>
      let user : User :=
        { userId
          displayName := (truthy displayName).getD userId
          budgetUsd := budgetUsd.getD config.defaultBudgetUsd
          budgetGpuHours := budgetGpuHours.getD config.defaultBudgetGpuHours
          isAdmin := isAdmin.getD false
          createdAt := now
          suspendedAt := none
          suspendedReason := ""
          suspendedBy := "" }
      executing (.insertUser user) user
  | some existing =>
      let updated : User :=
        { existing with
          displayName := (truthy displayName).getD existing.displayName
          budgetUsd := budgetUsd.getD existing.budgetUsd
          budgetGpuHours := budgetGpuHours.getD existing.budgetGpuHours
          isAdmin := isAdmin.getD existing.isAdmin }
      executing (.updateUser updated) updated

def suspendUser (userId : UserId) (reason actor : String) : Op γ User := do
  let user ← getUser userId
  let now ← now
  executing (.suspend userId reason actor now) user

def restoreUser (userId : UserId) : Op γ User := do
  let user ← getUser userId
  executing (.restore userId) user

/-- What a new job's row is made from. -/
structure NewJob where
  jobId : JobId
  userId : UserId
  command : String
  gpuType : String
  requestedHours : ℚ
  currency : Currency
  reserved : Decimal
  environment : Option String
  origin : String

/-- The row of a new job. -/
def NewJob.row (new : NewJob) (state : JobState) (now : Time) : Job where
  jobId := new.jobId
  userId := new.userId
  command := new.command
  gpuType := new.gpuType
  requestedHours := new.requestedHours
  currency := new.currency
  reserved := quantize new.reserved
  state := state
  submittedAt := now
  updatedAt := now
  backend := none
  backendHandle := none
  startedAt := none
  finishedAt := none
  exitCode := none
  refusalReason := none
  logsFetched := 0
  attempts := 0
  preemptions := 0
  pinnedTier := none
  checkpointStep := none
  checkpointKey := none
  checkpointAt := none
  cancelRequested := none
  environment := new.environment
  origin := new.origin

/-- Admit a job: its row, its first transition and the budget hold, in one transaction; `read` is
what admission had read. -/
def createJob (new : NewJob) (read : Admission) : Op γ Job := do
  let _ ← getUser new.userId
  let now ← now
  let job := new.row .queued now
  executing (.create job read) job

/-- Persist a submission that is not accepted. No ledger entry: it never held anything. -/
def recordRefusal (new : NewJob) (refusal : Refusal) (text : String) : Op γ Job := do
  let now ← now
  let job :=
    { new.row .refused now with
      finishedAt := some now, refusalReason := some text, environment := none }
  executing (.refuse job refusal) job

/-- Move a job to a new state. One transaction, or nothing. -/
def transition (current : Job) (target : JobState) (change : Change) : Op γ Job :=
  if current.state.canTransition target then do
    let now ← now
    if target.terminal then do
      let holding ← query fun db => db.jobHolding current.jobId current.currency
      executing (.move current target change now (some holding)) (current.movedTo target change now)
    else executing (.move current target change now none) (current.movedTo target change now)
  else .fail (.illegalTransition current.jobId current.state target)

/-- Record capacity actually consumed by a job that is still running; `accrued` is the moment the
amount was computed for. -/
def settle (job : Job) (amount : Decimal) (accrued : Time) : Op γ Unit :=
  if quantize amount ≤ 0 then pure ()
  else do
    let now ← now
    executing (.settle job (quantize amount) accrued now) ()

/-- Count a start. -/
def recordAttempt (job : Job) : Op γ Job := do
  let now ← now
  executing (.touch job.jobId .attempt now)
    { job with attempts := job.attempts + 1, updatedAt := now }

def recordPreemption (job : Job) : Op γ Job := do
  let now ← now
  executing (.touch job.jobId .preemption now)
    { job with preemptions := job.preemptions + 1, updatedAt := now }

/-- Remember where a job got to. -/
def recordCheckpoint (job : Job) (step : Int) (key : String) : Op γ Job := do
  let now ← now
  executing (.touch job.jobId (.checkpoint step key) now)
    { job with checkpointStep := some step, checkpointKey := some key, checkpointAt := some now }

def pinTier (job : Job) (tier reason : String) : Op γ Job := do
  let now ← now
  executing (.touch job.jobId (.pinTier tier reason) now)
    { job with pinnedTier := some tier, updatedAt := now }

/-- Ask for a job to be stopped. Does not stop it. -/
def requestCancel (job : Job) (actor : String) : Op γ Job := do
  let now ← now
  executing (.touch job.jobId (.cancelRequest actor) now)
    { job with cancelRequested := some actor, updatedAt := now }

/-! ### Logs, samples and notifications -/

/-- The first elements of a list; a negative number leaves that many out at the end. -/
def sliceTo {β : Type} (list : List β) (count : Int) : List β :=
  if 0 ≤ count then list.take count.toNat else list.take (list.length - (-count).toNat)

/-- A number with its digits grouped by three. -/
def grouped (number : Nat) : String :=
  let digits := (Nat.toDigits 10 number).reverse
  String.ofList (",".toList.intercalate (digits.toChunks 3)).reverse

/-- The last line a job is allowed to store. -/
def truncationNotice (limit : Nat) : String :=
  s!"[broker] output truncated: this job hit the {grouped limit} line limit. " ++
    "Write anything longer to a file under /data."

/-- A line no longer than the log stores. -/
def clipLine (width : Nat) (line : Line) : Line :=
  if line.2.length ≤ width then line
  else (line.1, String.ofList (sliceTo line.2.toList (width - 3)) ++ "...")

/-- As much of some lines as a job with so many stored is still allowed to store. -/
def withinLogBudget (config : BrokerConfig) (stored : Nat) (lines : List Line) : List Line :=
  if config.maxLogLinesPerJob ≤ stored then []
  else
    let clipped := lines.map (clipLine config.maxLogLineBytes)
    let room := config.maxLogLinesPerJob - stored
    if clipped.length < room then clipped
    else clipped.take (room - 1) ++ [("broker", truncationNotice config.maxLogLinesPerJob)]

/-- Add a line of the broker's own to a job's log. -/
def appendLog (job : JobId) (line : String) : Op γ Unit := do
  let config ← settings
  let stored ← query fun db => db.logCount job
  let keep := withinLogBudget config stored [("broker", line)]
  if keep.isEmpty then pure ()
  else do
    let now ← now
    executing (.touch job (.note keep) now) ()

/-- Store a poll's worth of output and move the job's read cursor over it. -/
def appendBackendLogs (job : Job) (lines : List Line) : Op γ Nat :=
  if lines.isEmpty then pure job.logsFetched
  else do
    let now ← now
    let config ← settings
    let stored ← query fun db => db.logCount job.jobId
    let keep := withinLogBudget config stored lines
    executing (.touch job.jobId (.output job.logsFetched lines keep) now)
      (job.logsFetched + lines.length)

/-- Append utilization samples. -/
def recordSamples (job : JobId) (samples : List Sample) : Op γ Unit :=
  if samples.isEmpty then pure ()
  else executing (.sampled job samples) ()

/-- Record something the broker has told somebody. -/
def notify (user : UserId) (job : Option JobId) (notice : Notice) : Op γ Notification := do
  let now ← now
  let notification : Notification := { jobId := job, userId := user, notice, writtenAt := now }
  executing (.notify notification) notification

/-! ### The ledger -/

/-- Charge capacity that billed with no completed work behind it: the difference between what has
burned since the launch and what the machine already carries. -/
def recordAbandoned (handle : String) (job : Option JobId) (user : Option UserId)
    (currency : Currency) (burned : Decimal) : Op γ Cents := do
  let already ← query fun db => db.abandonedForHandle handle currency
  let delta := quantize (burned - money already)
  if delta ≤ 0 then pure 0
  else do
    let known ← query fun db => job.filter fun id => (db.jobs.find id).isSome
    let owner ← query fun db => user.filter fun id => (db.users.find id).isSome
    let now ← now
    executing (.abandon handle known owner currency delta now) delta

/-- Resolve a short id: a pattern in which `%` stands for any text and `_` for one character. -/
def like : List Char → List Char → Bool
  | [], text => text.isEmpty
  | '%' :: pattern, text => text.tails.any (like pattern)
  | '_' :: pattern, text =>
      match text with
      | [] => false
      | _ :: rest => like pattern rest
  | char :: pattern, text =>
      match text with
      | [] => false
      | first :: rest => char.toLower == first.toLower && like pattern rest

def findJob (pre : String) : Op γ Job := do
  let rows ← query fun db =>
    (db.jobs.rows.filter fun job => like (pre.toList ++ ['%']) job.jobId.toList).mergeSort
      fun one other => other.submittedAt ≤ one.submittedAt
  match rows with
  | [] => .fail (.unknownJob pre)
  | [job] => pure job
  | many => .fail (.ambiguousJob pre (many.map Job.jobId))

/-- Where an account stands this month. -/
def balance (userId : UserId) (currency : Currency) : Op γ Balance := do
  let config ← settings
  let now ← now
  let user ← getUser userId
  let account ← query fun db => db.accountOf userId currency (config.calendar.period now)
  pure { budget := user.budget currency, held := account.1, spent := account.2 }

/-- Add what a job of the currency holds. -/
def addHolding (currency : Currency) (holds : Cents) (job : Job) : Op γ Cents :=
  if job.currency = currency then do
    let holding ← query fun db => db.jobHolding job.jobId currency
    pure (holds + holding)
  else pure holds

/-- What the pool cap governs: money spent this month, plus money held by jobs that have real
capacity right now. -/
def poolCommitted (currency : Currency) : Op γ Cents := do
  let config ← settings
  let now ← now
  let spent ← query fun db => db.poolSpent currency (config.calendar.period now)
  let jobs ← query Db.activeJobs
  let holds ← jobs.foldlM (addHolding currency) 0
  pure (spent + holds)

/-- How much more the pool can commit before it hits its cap. -/
def poolHeadroom (currency : Currency) : Op γ Decimal := do
  let config ← settings
  let committed ← poolCommitted currency
  pure (config.poolBudget currency - money committed)

end Programs

end GpuBroker.Broker
