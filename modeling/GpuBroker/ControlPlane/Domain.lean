/-
This file is the control plane's domain layer: the job state machine with its
table of legal edges, the attempt outcomes and what each does to the job, and
the money of a job, held, settled and released.

Everything here is a pure function of its arguments. Times and durations are
integers counting nanoseconds, and money is an integer counting micro-dollars,
as in the source; the one computation that can leave 64 bits, the cost of a
run, is taken in 128 bits and saturates exactly where the source's does.
-/
import Mathlib.Algebra.Order.Ring.Int
import Mathlib.Data.List.Basic

namespace GpuBroker.ControlPlane

abbrev TenantID := String
abbrev ProjectID := String
abbrev PoolID := String
abbrev WorkerID := String
abbrev JobID := String
abbrev AttemptID := String
abbrev ReservationID := String

/-- An instant, in nanoseconds. -/
abbrev Time := Int

/-- A span of time, in nanoseconds. -/
abbrev Duration := Int

/-- Money in millionths of a dollar. -/
abbrev MicroUSD := Int

def second : Duration := 1000000000
def minute : Duration := 60 * second
def hour : Duration := 3600 * second

/-- The largest signed 64-bit integer. -/
def maxInt64 : Int := 2 ^ 63 - 1

/-! ### The job state machine -/

/-- The lifecycle of a job. -/
inductive JobState
  | submitted | queued | reserved | dispatched | running
  | cancelRequested | succeeded | failed | cancelled | expired
  deriving DecidableEq

namespace JobState

/-- The legal edges, and nowhere else. -/
def transitions : JobState → List JobState
  | submitted => [queued, failed, cancelled]
  | queued => [reserved, cancelled, expired]
  | reserved => [dispatched, queued, cancelled, expired, failed]
  | dispatched => [running, queued, cancelRequested, expired, failed]
  | running => [succeeded, failed, cancelRequested, queued, expired]
  | cancelRequested => [cancelled, succeeded, failed]
  | succeeded => []
  | failed => []
  | cancelled => []
  | expired => []

/-- No further transition is possible. -/
def terminal (state : JobState) : Bool := state.transitions.isEmpty

/-- A job in this state has, or may have, a reservation that consumes worker capacity. -/
def holdsCapacity : JobState → Bool
  | reserved | dispatched | running | cancelRequested => true
  | _ => false

/-- `from` to `to` is an edge of the table. -/
def canTransition (source target : JobState) : Bool := source.transitions.contains target

/-- The state's text. -/
def text : JobState → String
  | submitted => "SUBMITTED"
  | queued => "QUEUED"
  | reserved => "RESERVED"
  | dispatched => "DISPATCHED"
  | running => "RUNNING"
  | cancelRequested => "CANCEL_REQUESTED"
  | succeeded => "SUCCEEDED"
  | failed => "FAILED"
  | cancelled => "CANCELLED"
  | expired => "EXPIRED"

theorem holdsCapacity_not_terminal {state : JobState} (holds : state.holdsCapacity = true) :
    state.terminal = false := by
  cases state <;> simp_all [holdsCapacity, terminal, transitions]

theorem canTransition_not_terminal {source target : JobState}
    (edge : source.canTransition target = true) : source.terminal = false := by
  cases source <;> simp_all [canTransition, terminal, transitions]

end JobState

/-! ### Workers, pools and projects -/

/-- The spend ceiling of a project: holds plus settled spend may never exceed it. -/
structure Project where
  id : ProjectID
  tenant : TenantID
  name : String
  budget : MicroUSD
  deriving DecidableEq

/-- Bounds on what one tenant can occupy. -/
structure Quota where
  tenant : TenantID
  maxQueuedJobs : Int
  maxActiveGPUs : Int
  deriving DecidableEq

inductive PoolKind
  | kubernetes | simulated
  deriving DecidableEq

/-- A pool and the price the scheduler charges for it. -/
structure Pool where
  id : PoolID
  name : String
  kind : PoolKind
  region : String
  pricePerGPUHour : MicroUSD
  interruptible : Bool
  deriving DecidableEq

inductive WorkerState
  | ready | draining | offline
  deriving DecidableEq

/-- The state's text. -/
def WorkerState.text : WorkerState → String
  | ready => "READY"
  | draining => "DRAINING"
  | offline => "OFFLINE"

/-- What a worker declares at registration. -/
structure Capability where
  gpuModel : String
  gpus : Int
  gpuMemGB : Int
  runtimes : List String
  region : String
  deriving DecidableEq

structure Worker where
  id : WorkerID
  pool : PoolID
  name : String
  capability : Capability
  gpusReserved : Int
  state : WorkerState
  lastHeartbeat : Time
  version : Int
  deriving DecidableEq

def Worker.freeGPUs (worker : Worker) : Int := worker.capability.gpus - worker.gpusReserved

/-- What a job needs from one worker; an empty model or runtime means any. -/
structure Requirements where
  gpus : Int
  gpuModel : String
  minGPUMemGB : Int
  runtime : String
  deriving DecidableEq

/-- Why a worker was refused for a job. -/
inductive RejectReason
  | gpuModel | gpuMemory | runtime | gpuCount | capacity | workerNotReady | poolNotAllowed
  | budget | deadline | protectedHead | interruptible
  deriving DecidableEq

/-- The reason's stable code. -/
def RejectReason.text : RejectReason → String
  | gpuModel => "gpu_model_mismatch"
  | gpuMemory => "gpu_memory_insufficient"
  | runtime => "runtime_unsupported"
  | gpuCount => "gpu_count_exceeds_worker"
  | capacity => "insufficient_free_gpus"
  | workerNotReady => "worker_not_ready"
  | poolNotAllowed => "pool_not_allowed"
  | budget => "budget_insufficient"
  | deadline => "deadline_unreachable"
  | protectedHead => "held_for_starving_job"
  | interruptible => "interruptible_without_retries"

/-- Static capability only, not free capacity: `none` when the worker can run the job. -/
def Capability.satisfies (capability : Capability) (needs : Requirements) : Option RejectReason :=
  if needs.gpuModel ≠ "" ∧ needs.gpuModel ≠ capability.gpuModel then some .gpuModel
  else if needs.minGPUMemGB > capability.gpuMemGB then some .gpuMemory
  else if needs.runtime ≠ "" ∧ ¬ capability.runtimes.contains needs.runtime then some .runtime
  else if needs.gpus > capability.gpus then some .gpuCount
  else none

/-! ### Jobs and their attempts -/

structure Job where
  id : JobID
  tenant : TenantID
  project : ProjectID
  image : String
  command : List String
  requirements : Requirements
  priority : Int
  preemptible : Bool
  deadline : Option Time
  maxRuntime : Duration
  maxDelay : Duration
  /-- The per-job ceiling; 0 means the project's budget only. -/
  budgetCap : MicroUSD
  policyName : String
  allowedPools : List PoolID
  maxAttempts : Int
  /-- The number of the latest attempt, 0 before the first. -/
  attempt : Int
  state : JobState
  notBefore : Option Time
  submittedAt : Time
  startedAt : Option Time
  finishedAt : Option Time
  updatedAt : Time
  version : Int
  deriving DecidableEq

/-- The job with its first start recorded. -/
def Job.started (job : Job) (now : Time) : Job :=
  { job with startedAt := job.startedAt.or (some now) }

def Job.retriesLeft (job : Job) : Bool := job.attempt < job.maxAttempts

/-- What became of an attempt; written once and never changed. -/
inductive AttemptOutcome
  | succeeded | failed | lost | preempted | cancelled | expired | timedOut
  deriving DecidableEq

/-- The outcome's text. -/
def AttemptOutcome.text : AttemptOutcome → String
  | succeeded => "SUCCEEDED"
  | failed => "FAILED"
  | lost => "LOST"
  | preempted => "PREEMPTED"
  | cancelled => "CANCELLED"
  | expired => "EXPIRED"
  | timedOut => "TIMED_OUT"

/-- Why the control plane wants a worker to stop an attempt. -/
inductive StopKind
  | preempt | timeout
  deriving DecidableEq

structure Attempt where
  id : AttemptID
  job : JobID
  number : Int
  worker : WorkerID
  createdAt : Time
  ackedAt : Option Time
  endedAt : Option Time
  /-- Absent while the attempt is open. -/
  outcome : Option AttemptOutcome
  exitCode : Option Int
  reason : String
  stopRequested : Option StopKind
  deriving DecidableEq

structure Reservation where
  id : ReservationID
  job : JobID
  attempt : AttemptID
  worker : WorkerID
  pool : PoolID
  gpus : Int
  /-- Per GPU-hour, fixed at placement. -/
  priceRate : MicroUSD
  holdAmount : MicroUSD
  /-- The leader epoch that made it. -/
  epoch : Int
  createdAt : Time
  releasedAt : Option Time
  releaseReason : Option String
  deriving DecidableEq

structure Lease where
  attempt : AttemptID
  worker : WorkerID
  expiresAt : Time
  renewedAt : Time
  deriving DecidableEq

def Lease.expired (lease : Lease) (now : Time) : Bool := ¬ now < lease.expiresAt

/-- The job's next state once an attempt closed with an outcome. Lost and preempted attempts
are retried while attempts remain; a job the user's code failed is not. -/
def jobStateForOutcome (job : Job) (outcome : AttemptOutcome) (now : Time) : JobState :=
  match outcome with
  | .succeeded => .succeeded
  | .cancelled => .cancelled
  | .expired => .expired
  | .lost | .preempted =>
      if job.state = .cancelRequested then .cancelled
      else if ¬ job.retriesLeft then .failed
      else if job.deadline.any fun deadline => ¬ now < deadline then .expired
      else .queued
  | .failed | .timedOut => .failed

theorem jobStateForOutcome_not_holding (job : Job) (outcome : AttemptOutcome) (now : Time) :
    (jobStateForOutcome job outcome now).holdsCapacity = false := by
  unfold jobStateForOutcome
  cases outcome <;> simp only <;> repeat' split
  all_goals rfl

/-- A retry is only ever scheduled while attempts remain. -/
theorem jobStateForOutcome_queued {job : Job} {outcome : AttemptOutcome} {now : Time}
    (retried : jobStateForOutcome job outcome now = .queued) : job.attempt < job.maxAttempts := by
  have left : job.retriesLeft = true := by
    by_contra spent
    have retryOnly : (if job.state = .cancelRequested then JobState.cancelled
        else if ¬ job.retriesLeft then .failed
        else if job.deadline.any fun deadline => ¬ now < deadline then .expired
        else .queued) ≠ .queued := by
      rw [if_pos spent]
      split <;> exact fun impossible => nomatch impossible
    cases outcome with
    | lost | preempted => exact retryOnly retried
    | succeeded | failed | cancelled | expired | timedOut => exact nomatch retried
  simpa [Job.retriesLeft] using left

theorem jobStateForOutcome_ne_submitted (job : Job) (outcome : AttemptOutcome) (now : Time) :
    jobStateForOutcome job outcome now ≠ .submitted := by
  unfold jobStateForOutcome
  cases outcome <;> simp only <;> repeat' split
  all_goals exact fun impossible => nomatch impossible

/-! ### Who and why -/

inductive ActorKind
  | user | operator | scheduler | worker | reconciler | system
  deriving DecidableEq

structure Actor where
  kind : ActorKind
  id : String
  deriving DecidableEq

/-- The durable account of one state change. -/
structure TransitionRecord where
  job : JobID
  source : JobState
  target : JobState
  actor : Actor
  reason : String
  time : Time
  correlation : String
  deriving DecidableEq

/-- Everything a use case can be refused with. -/
inductive Fault
  | notFound
  | conflict (detail : String)
  | capacityConflict
  | fenced (epoch current : Int)
  | forbidden (detail : String)
  | invalid (detail : String)
  | quotaExceeded (detail : String)
  | queueFull (queued : Int)
  | budget (detail : String)
  | alreadyAcked
  | leaseInvalid
  | staleVersion
  /-- The decision is stale: the job changed since the snapshot. -/
  | stale
  | missingReason
  | illegalTransition (job : JobID) (source target : JobState)
  | attemptClosed
  | nonPositive
  | budgetClosed
  | settleTooLarge (amount outstanding : MicroUSD)
  /-- A number that does not fit the 64-bit column or variable it is read into. -/
  | outOfRange
  deriving DecidableEq

/-- The only function that changes a job's state. An edge outside the table is refused. -/
def transition (job : Job) (target : JobState) (actor : Actor) (reason correlation : String)
    (time : Time) : Except Fault (Job × TransitionRecord) :=
  if reason = "" then .error .missingReason
  else if ¬ job.state.canTransition target then
    .error (.illegalTransition job.id job.state target)
  else
    .ok ({ job with
            state := target
            updatedAt := time
            version := job.version + 1
            finishedAt := if target.terminal then some time else job.finishedAt },
          { job := job.id, source := job.state, target := target, actor := actor,
            reason := reason, time := time, correlation := correlation })

/-- Record an attempt's outcome. A closed attempt is immutable; a retry is a new attempt. -/
def closeAttempt (attempt : Attempt) (outcome : AttemptOutcome) (exit : Option Int)
    (reason : String) (time : Time) : Except Fault Attempt :=
  if attempt.outcome.isSome then .error .attemptClosed
  else .ok { attempt with
              outcome := some outcome, exitCode := exit, reason := reason, endedAt := some time }

/-! ### The money of a job -/

inductive LedgerKind
  | hold | settle | release
  deriving DecidableEq

structure LedgerEntry where
  project : ProjectID
  job : JobID
  attempt : Option AttemptID
  kind : LedgerKind
  /-- Always positive; the kind gives the direction. -/
  amount : MicroUSD
  time : Time
  deriving DecidableEq

/-- The per-job projection of the ledger. -/
structure JobBudget where
  held : MicroUSD
  settled : MicroUSD
  released : MicroUSD
  closed : Bool
  deriving DecidableEq

def JobBudget.outstanding (budget : JobBudget) : MicroUSD :=
  budget.held - budget.settled - budget.released

/-- Validate one entry against the job's projection. -/
def applyLedger (budget : JobBudget) (entry : LedgerEntry) : Except Fault JobBudget :=
  if entry.amount ≤ 0 then .error .nonPositive
  else if budget.closed then .error .budgetClosed
  else match entry.kind with
    | .hold => .ok { budget with held := budget.held + entry.amount }
    | .settle =>
        if entry.amount > budget.outstanding then
          .error (.settleTooLarge entry.amount budget.outstanding)
        else .ok { budget with settled := budget.settled + entry.amount }
    | .release =>
        if entry.amount > budget.outstanding then
          .error (.settleTooLarge entry.amount budget.outstanding)
        else .ok { budget with released := budget.released + entry.amount }

/-- Release whatever is outstanding and close the projection; the entry to write has amount
zero when nothing was left. -/
def closeBudget (budget : JobBudget) (entry : LedgerEntry) : JobBudget × LedgerEntry :=
  ({ budget with released := budget.released + budget.outstanding, closed := true },
    { entry with kind := .release, amount := budget.outstanding })

/-- The charge for a number of GPUs over a span at a rate per GPU-hour, rounded up. The product
of rate and GPUs is taken in 64 bits and wraps; its product with the span is taken in 128 bits;
what does not fit a signed 64-bit result saturates. -/
def costOf (rate : MicroUSD) (gpus : Int) (span : Duration) : MicroUSD :=
  if span ≤ 0 ∨ gpus ≤ 0 ∨ rate ≤ 0 then 0
  else
    let wide : Nat := rate.toNat * gpus.toNat % 2 ^ 64 * span.toNat + (hour.toNat - 1)
    -- `hi ≥ hour` is where the 128-by-64 division of the source would overflow
    if wide / 2 ^ 64 ≥ hour.toNat then maxInt64
    else if (wide / hour.toNat : Int) > maxInt64 then maxInt64
    else (wide / hour.toNat : Int)

/-- Micro-dollars as dollars with six decimals. -/
def moneyText (amount : MicroUSD) : String :=
  let digits := toString (amount.natAbs % 1000000)
  (if amount < 0 then "-" else "") ++ "$" ++ toString (amount.natAbs / 1000000) ++ "." ++
    "".pushn '0' (6 - digits.length) ++ digits

/-- What a new hold may take: the budget less outstanding holds and settled spend. -/
def projectAvailable (budget outstandingHolds settled : MicroUSD) : MicroUSD :=
  budget - outstandingHolds - settled

theorem costOf_nonneg (rate : MicroUSD) (gpus : Int) (span : Duration) :
    0 ≤ costOf rate gpus span := by
  unfold costOf
  simp only
  have nonneg : (0 : Int) ≤ maxInt64 := by decide
  split_ifs
  · exact le_refl 0
  · exact nonneg
  · exact nonneg
  · exact Int.ediv_nonneg (Int.natCast_nonneg _) (Int.natCast_nonneg _)

end GpuBroker.ControlPlane
