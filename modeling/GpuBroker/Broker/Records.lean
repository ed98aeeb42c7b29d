/-
This file is the plain data of the Python broker: the states of a job and the
legal moves between them, the records of its tables, its configuration and the
errors it raises.

The tables of environments, prices, metrics, traces and schedule observations
are not here, nor are the fields that only they read; a price refresh acts on
the configuration, which is where every money decision reads a price from. What
the broker tells a member is recorded as the numbers it is worded from.
-/
import GpuBroker.Broker.Money
import GpuBroker.Library.Table

namespace GpuBroker.Broker

abbrev UserId := String
abbrev JobId := String

/-! ### The job lifecycle -/

/-- The states of a job. -/
inductive JobState where
  | queued
  | allocating
  | running
  | completed
  | failed
  | cancelled
  | refused
  | checkpointing
  | preempted
  | resuming
  | reclaimed
  deriving DecidableEq

namespace JobState

/-- How a state is written. -/
def text : JobState → String
  | queued => "QUEUED"
  | allocating => "ALLOCATING"
  | running => "RUNNING"
  | completed => "COMPLETED"
  | failed => "FAILED"
  | cancelled => "CANCELLED"
  | refused => "REFUSED"
  | checkpointing => "CHECKPOINTING"
  | preempted => "PREEMPTED"
  | resuming => "RESUMING"
  | reclaimed => "RECLAIMED"

/-- States a job never leaves. -/
def terminal : JobState → Bool
  | completed | failed | cancelled | refused | reclaimed => true
  | _ => false

/-- States in which a backend is holding real capacity on the job's behalf. -/
def active : JobState → Bool
  | allocating | running | checkpointing | resuming => true
  | _ => false

/-- States in which a reservation is still outstanding. -/
def holdsBudget (state : JobState) : Bool :=
  state == queued || state.active || state == preempted

/-- The graph of legal moves. -/
def legalTransitions : JobState → List JobState
  | queued => [allocating, cancelled, failed]
  | allocating => [running, resuming, completed, failed, cancelled, preempted]
  | resuming => [running, completed, failed, cancelled]
  | running => [completed, failed, cancelled, checkpointing, preempted, reclaimed]
  | checkpointing => [preempted, failed, completed]
  | preempted => [queued, cancelled, failed]
  | completed | failed | cancelled | refused | reclaimed => []

/-- There is a legal move from one state to the other. -/
def canTransition (current target : JobState) : Bool :=
  current.legalTransitions.contains target

/-- A state holds budget or is terminal, and not both. -/
theorem holdsBudget_eq (state : JobState) : state.holdsBudget = !state.terminal := by
  cases state <;> rfl

theorem active_holdsBudget {state : JobState} (isActive : state.active = true) :
    state.terminal = false := by
  cases state <;> first | rfl | cases isActive

/-- A terminal state has no outgoing edges, and no edge leads to `refused`. -/
theorem canTransition_spec {current target : JobState} (legal : canTransition current target = true) :
    current.terminal = false ∧ target ≠ refused := by
  revert legal
  cases current <;> cases target <;> decide

/-- A job is stopped while it waits or holds capacity, and it becomes active from the queue or
stays active. -/
theorem canTransition_active {current target : JobState}
    (legal : canTransition current target = true) (isActive : target.active = true) :
    current.active = true ∨ (current = queued ∧ target = allocating) := by
  revert legal isActive
  cases current <;> cases target <;> decide

end JobState

/-! ### Records -/

/-- A member. -/
structure User where
  userId : UserId
  displayName : String
  budgetUsd : Decimal
  budgetGpuHours : Decimal
  isAdmin : Bool
  createdAt : Time
  suspendedAt : Option Time
  suspendedReason : String
  suspendedBy : String
  deriving DecidableEq

/-- A member's monthly budget. -/
def User.budget (user : User) : Currency → Decimal
  | .usd => user.budgetUsd
  | .gpuHour => user.budgetGpuHours

def User.isSuspended (user : User) : Bool := user.suspendedAt.isSome

/-- A job. `reserved` is its hard ceiling, `logsFetched` how many lines of its output are stored. -/
structure Job where
  jobId : JobId
  userId : UserId
  command : String
  gpuType : String
  requestedHours : ℚ
  currency : Currency
  reserved : Cents
  state : JobState
  submittedAt : Time
  updatedAt : Time
  backend : Option String
  backendHandle : Option String
  startedAt : Option Time
  finishedAt : Option Time
  exitCode : Option Int
  refusalReason : Option String
  logsFetched : Nat
  attempts : Nat
  preemptions : Nat
  pinnedTier : Option String
  checkpointStep : Option Int
  checkpointKey : Option String
  checkpointAt : Option Time
  cancelRequested : Option String
  environment : Option String
  origin : String
  deriving DecidableEq

def Job.resumable (job : Job) : Bool := job.checkpointKey.isSome

/-- How long the job has run since it was first given capacity, in hours. -/
def Job.elapsedHours (calendar : Calendar) (job : Job) (now : Time) : Decimal :=
  match job.startedAt with
  | none => 0
  | some started => calendar.hours (job.finishedAt.getD now - started)

/-- What a ledger row means. -/
inductive LedgerKind where
  | reserve
  | release
  | settle
  | abandoned
  deriving DecidableEq

/-- A ledger row. -/
structure LedgerEntry where
  jobId : Option JobId
  userId : Option UserId
  currency : Currency
  kind : LedgerKind
  amount : Cents
  period : Period
  writtenAt : Time
  resourceHandle : Option String
  deriving DecidableEq

/-- A ledger row as the caller of `transition` asks for it. -/
structure LedgerWrite where
  kind : LedgerKind
  amount : Decimal
  currency : Currency
  deriving DecidableEq

/-- Where an account stands, in one currency, in one month. -/
structure Balance where
  budget : Decimal
  held : Cents
  spent : Cents
  deriving DecidableEq

def Balance.committed (balance : Balance) : Cents := balance.held + balance.spent

def Balance.available (balance : Balance) : Decimal := balance.budget - money balance.committed

/-- Why a submission is refused. -/
inductive Refusal where
  | userSuspended (user : UserId) (reason : String)
  | invalidBudget (reserved : Decimal)
  | jobCapExceeded (reserved cap : Decimal)
  | queueDepthExceeded (queued limit : Nat)
  | userBudgetExceeded (reserved : Decimal) (balance : Balance)
  deriving DecidableEq

/-- What a backend says about one allocation. -/
inductive BackendStatus where
  | pending
  | ready
  | running
  | completed
  | failed
  | interrupted
  | gone
  deriving DecidableEq

/-- Timestamps as texts. -/
structure Stamps where
  toIso : Time → String
  fromIso : String → Option Time
  fromIso_toIso : ∀ moment, fromIso (toIso moment) = some moment

/-- How a status is written. -/
def BackendStatus.text : BackendStatus → String
  | pending => "PENDING"
  | ready => "READY"
  | running => "RUNNING"
  | completed => "COMPLETED"
  | failed => "FAILED"
  | interrupted => "INTERRUPTED"
  | gone => "GONE"

/-- A line of output and the stream it came from. -/
abbrev Line := String × String

/-- A row of a job's log. -/
structure LogRow where
  jobId : JobId
  writtenAt : Time
  stream : String
  line : String
  deriving DecidableEq

/-- One look at what a running job is doing to its GPU. -/
structure Sample where
  jobId : JobId
  takenAt : Time
  gpuPercent : ℚ
  memoryMb : Nat
  source : String
  deriving DecidableEq

/-- What the samples of a job say about it. -/
inductive IdleReason where
  | tooFew (samples : Nat)
  | peaked (percent : ℚ)
  | neverAbove (threshold : ℚ) (samples : Nat)
  deriving DecidableEq

/-- What the broker tells somebody. -/
inductive Notice where
  | idleWarning (peak : ℚ) (wasted : Decimal)
  | pinnedOndemand (preemptions : Nat)
  | reclaimed (idleHours : Decimal) (evidence : String)
  deriving DecidableEq

/-- The kind a notice is filed under. -/
def Notice.kind : Notice → String
  | idleWarning _ _ => "idle-warning"
  | pinnedOndemand _ => "pinned-ondemand"
  | reclaimed _ _ => "reclaimed"

/-- Something the broker has told somebody. -/
structure Notification where
  jobId : Option JobId
  userId : UserId
  notice : Notice
  writtenAt : Time
  deriving DecidableEq

/-- Why a job moved, as its history records it. -/
inductive Reason where
  | submitted
  | refused (refusal : Refusal)
  | placed (backend handle : String) (attempt : Nat)
  | reported (status : BackendStatus) (detail : Option String)
  | couldNotStart (error : String)
  | ceiling (reserved : Cents) (elapsed : Decimal)
  | preempted (detail : Option String)
  | requeued (resumed : Option Int)
  | cancelledBy (actor : String)
  | idle (reason : IdleReason)
  deriving DecidableEq

/-- A row of a job's history. -/
structure Transition where
  jobId : JobId
  fromState : Option JobState
  toState : JobState
  writtenAt : Time
  reason : Reason
  deriving DecidableEq

/-- The database. -/
structure Db where
  users : Library.Table User User.userId
  jobs : Library.Table Job Job.jobId
  transitions : List Transition
  ledger : List LedgerEntry
  logs : List LogRow
  samples : List Sample
  notifications : List Notification

/-- An empty database. -/
def Db.empty : Db := ⟨.empty, .empty, [], [], [], [], []⟩

/-- Every error the broker raises on purpose. -/
inductive BrokerError where
  | unknownUser (user : UserId)
  | unknownJob (job : String)
  | ambiguousJob (pre : String) (found : List JobId)
  | unknownGpuType (name : String) (known : List String)
  | unauthorized (what : String)
  | illegalTransition (job : JobId) (current target : JobState)
  | hoursNotPositive (hours : ℚ)
  | hoursOverLimit (hours limit : ℚ)
  | commandTooLong (length limit : Nat)
  | alreadyTerminal (job : JobId) (state : JobState)
  | backend (detail : String)
  | integrity (table : String)
  deriving DecidableEq

/-! ### Configuration -/

/-- One kind of capacity the club can ask for. -/
structure GpuType where
  name : String
  currency : Currency
  hourlyPrice : Decimal
  deriving DecidableEq

/-- What the broker was configured with; `calendar` is what it makes of its time zone. -/
structure BrokerConfig where
  calendar : Calendar
  gpuTypes : List GpuType
  defaultBudgetUsd : Decimal
  defaultBudgetGpuHours : Decimal
  poolBudgetUsd : Decimal
  poolBudgetGpuHours : Decimal
  maxJobUsd : Decimal
  maxJobGpuHours : Decimal
  maxJobHours : ℚ
  maxCommandBytes : Nat
  maxQueuedJobsPerUser : Nat
  maxRunningJobsPerUser : Nat
  maxLogLinesPerJob : Nat
  maxLogLineBytes : Nat
  startupAllowanceHours : ℚ
  spotMaxPreemptionsWithoutProgress : Nat
  placementOrder : List String
  reclaimEnabled : Bool
  idleThresholdPercent : ℚ
  idleWindow : Duration
  idleMinSamples : Nat
  idleGrace : Duration
  idleSampleInterval : Duration

namespace BrokerConfig

/-- The kind of capacity of a name. -/
def gpu (config : BrokerConfig) (name : String) : Except BrokerError GpuType :=
  match config.gpuTypes.find? fun gpu => gpu.name = name with
  | some gpu => .ok gpu
  | none => .error (.unknownGpuType name (config.gpuTypes.map GpuType.name))

def poolBudget (config : BrokerConfig) : Currency → Decimal
  | .usd => config.poolBudgetUsd
  | .gpuHour => config.poolBudgetGpuHours

def maxJob (config : BrokerConfig) : Currency → Decimal
  | .usd => config.maxJobUsd
  | .gpuHour => config.maxJobGpuHours

def defaultBudget (config : BrokerConfig) : Currency → Decimal
  | .usd => config.defaultBudgetUsd
  | .gpuHour => config.defaultBudgetGpuHours

/-- The configuration with the price of every kind a price book lists taken from it. -/
def applyPrices (config : BrokerConfig) (book : List (String × Decimal)) : BrokerConfig :=
  { config with
    gpuTypes := config.gpuTypes.map fun gpu =>
      { gpu with hourlyPrice := (book.lookup gpu.name).getD gpu.hourlyPrice } }

end BrokerConfig

end GpuBroker.Broker
