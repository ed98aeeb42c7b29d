/-
This file is the application layer: submit, cancel, the scheduler's placement
transaction, the worker protocol and reconciliation, each a transaction body
over the store, statement for statement as the service runs them.

Readings of the clock and freshly generated ids are arguments, so a body is a
function of the database. Where a call reads the clock more than once it takes
each reading separately, and nothing relates one reading to another.
-/
import GpuBroker.ControlPlane.Store

namespace GpuBroker.ControlPlane

open Library Library.Transaction

/-! ### Configuration and callers -/

structure Config where
  /-- A worker must renew within this. -/
  leaseTTL : Duration
  /-- Reserved longer than this, the worker never claimed the job. -/
  claimTimeout : Duration
  workerOfflineAfter : Duration
  /-- Beyond the maximum runtime before a stop is requested. -/
  timeoutGrace : Duration
  /-- Redelivery delay after an abandoned claim. -/
  dispatchVisibility : Duration
  /-- Submissions are refused beyond this many queued jobs. -/
  maxQueuedGlobal : Int
  defaultPolicy : String

def Config.default : Config where
  leaseTTL := 45 * second
  claimTimeout := 2 * minute
  workerOfflineAfter := 90 * second
  timeoutGrace := minute
  dispatchVisibility := 30 * second
  maxQueuedGlobal := 20000
  defaultPolicy := "balanced"

/-- The service's dependencies: its configuration, the names of its policies, and the keyed
digests it signs dispatches with. -/
structure Service where
  cfg : Config
  policies : List String
  specDigest : String → List String → Int → Int → String
  sign : AttemptID → WorkerID → Time → String → String
  verify : AttemptID → WorkerID → Time → String → String → Bool

inductive TokenKind
  | user | worker | bootstrap
  deriving DecidableEq

inductive Role
  | member | operator
  deriving DecidableEq

/-- An authenticated caller. -/
structure Principal where
  kind : TokenKind
  user : String
  tenant : TenantID
  role : Role
  worker : WorkerID
  pool : PoolID
  deriving DecidableEq

def Principal.actor (principal : Principal) : Actor :=
  match principal.kind with
  | .worker => { kind := .worker, id := principal.worker }
  | .bootstrap => { kind := .system, id := "bootstrap:" ++ principal.pool }
  | .user =>
      match principal.role with
      | .operator => { kind := .operator, id := principal.user }
      | .member => { kind := .user, id := principal.user }

def reconcileActor : Actor := { kind := .reconciler, id := "reconciler" }

/-! ### Submission -/

structure SubmitRequest where
  project : ProjectID
  image : String
  command : List String
  gpus : Int
  gpuModel : String
  minGPUMemGB : Int
  runtime : String
  priority : Int
  preemptible : Bool
  deadline : Option Time
  maxRuntime : Duration
  maxDelay : Duration
  /-- The cap in micro-dollars; the boundary converts it from a decimal of dollars. -/
  budgetCap : MicroUSD
  policy : String
  allowedPools : List PoolID
  maxAttempts : Int
  deriving DecidableEq

def lowerOrDigit (char : Char) : Bool := char.isLower || char.isDigit

/-- A lowercase identifier of at most 32 characters, the empty one included. -/
def modelText (text : String) : Bool :=
  text.toList.all (fun char => lowerOrDigit char || char = '-') && text.length ≤ 32

/-- A dns-like name of at most 63 characters. -/
def workerNameText (text : String) : Bool :=
  match text.toList with
  | [] => false
  | first :: rest =>
      lowerOrDigit first &&
        rest.all (fun char => lowerOrDigit char || char = '.' || char = '-') && rest.length ≤ 62

/-- An image reference: a name, an optional tag and an optional digest. -/
def imageText (text : String) : Bool :=
  let inName := fun char => lowerOrDigit char || ['.', '_', '/', '-'].contains char
  let inTag := fun char : Char => char.isAlphanum || ['.', '_', '-'].contains char
  let inDigest := fun char : Char => char.isDigit || ['a', 'b', 'c', 'd', 'e', 'f'].contains char
  let digested := fun rest : List Char =>
    rest.isEmpty ||
      ("@sha256:".toList.isPrefixOf rest &&
        (rest.drop 8).length = 64 && (rest.drop 8).all inDigest)
  let name := text.toList.takeWhile inName
  let rest := text.toList.dropWhile inName
  name.head?.any lowerOrDigit &&
    match rest with
    | ':' :: tagged => !(tagged.takeWhile inTag).isEmpty && digested (tagged.dropWhile inTag)
    | _ => digested rest

/-- The only gate between untrusted input and a job; it also fills in the default number of
attempts. -/
def SubmitRequest.validate (request : SubmitRequest) (now : Time) (policies : List String) :
    Except Fault SubmitRequest :=
  let filled := if request.maxAttempts = 0 then { request with maxAttempts := 3 } else request
  if ¬ imageText request.image ∨ request.image.utf8ByteSize > 256 then
    .error (.invalid ("image " ++ request.image.quote ++ " is not a valid image reference"))
  else if request.command.length = 0 ∨ request.command.length > 64 then
    .error (.invalid "command needs 1..64 arguments")
  else if request.command.any fun arg => arg.toList.contains (Char.ofNat 0) then
    .error (.invalid "command arguments may not contain NUL")
  else if (request.command.map String.utf8ByteSize).sum > 8192 then
    .error (.invalid ("command is " ++ toString (request.command.map String.utf8ByteSize).sum ++
      " bytes; the limit is 8192"))
  else if request.gpus < 1 ∨ request.gpus > 64 then .error (.invalid "gpus must be 1..64")
  else if ¬ modelText request.gpuModel ∨ ¬ modelText request.runtime then
    .error (.invalid "gpu_model and runtime must be lowercase identifiers")
  else if request.minGPUMemGB < 0 ∨ request.minGPUMemGB > 1024 then
    .error (.invalid "min_gpu_mem_gb must be 0..1024")
  else if request.priority < 0 ∨ request.priority > 9 then
    .error (.invalid "priority must be 0..9")
  else if request.maxRuntime ≤ 0 ∨ request.maxRuntime > 7 * 24 * hour then
    .error (.invalid "max_runtime must be positive and at most 168h0m0s")
  else if request.maxDelay < 0 ∨ request.maxDelay > 48 * hour then
    .error (.invalid "max_delay must be 0..48h")
  else if request.deadline.any fun deadline => ¬ deadline > now + request.maxRuntime then
    .error (.invalid "deadline cannot be met: it is before now + max_runtime")
  else if request.budgetCap < 0 then .error (.invalid "budget_cap_usd must be >= 0")
  else if filled.maxAttempts < 1 ∨ filled.maxAttempts > 10 then
    .error (.invalid "max_attempts must be 1..10")
  else if request.policy ≠ "" ∧ ¬ policies.contains request.policy then
    .error (.invalid ("unknown policy " ++ request.policy.quote))
  else if request.allowedPools.length > 16 then
    .error (.invalid "at most 16 allowed pools")
  else .ok filled

namespace Service

/-- Run the domain transition and persist it with its record. Every state change goes through
here. -/
def apply (job : Job) (target : JobState) (actor : Actor) (reason correlation : String)
    (time : Time) : Tx Job := do
  let (next, record) ← fallible (transition job target actor reason correlation time)
  Tx.saveJob next job.version
  Tx.insertTransition record
  pure next

/-- The lowest hold over the workers that could ever run the job: `none` when no registered
worker matches, and zero when no worker is registered. -/
def cheapestCost (job : Job) : Tx (Option MicroUSD) := do
  let pools ← Tx.listPools
  let workers ← Tx.listWorkers
  let priceOf := fun id => ((pools.find? fun pool : Pool => pool.id = id).map
    Pool.pricePerGPUHour).getD 0
  let eligible := workers.filter fun worker =>
    (job.allowedPools.isEmpty || job.allowedPools.contains worker.pool) &&
      (worker.capability.satisfies job.requirements).isNone
  pure (if workers.isEmpty then some 0
    else (eligible.map fun worker =>
      costOf (priceOf worker.pool) job.requirements.gpus job.maxRuntime).min?)

/-- The job a validated request asks for, before anything is decided about it. -/
def requested (principal : Principal) (request : SubmitRequest) (project : ProjectID)
    (id : JobID) (now : Time) : Job where
  id := id
  tenant := principal.tenant
  project := project
  image := request.image
  command := request.command
  requirements :=
    { gpus := request.gpus, gpuModel := request.gpuModel
      minGPUMemGB := request.minGPUMemGB, runtime := request.runtime }
  priority := request.priority
  preemptible := request.preemptible
  deadline := request.deadline
  maxRuntime := request.maxRuntime
  maxDelay := request.maxDelay
  budgetCap := request.budgetCap
  policyName := request.policy
  allowedPools := request.allowedPools
  maxAttempts := request.maxAttempts
  attempt := 0
  state := .submitted
  notBefore := none
  submittedAt := now
  startedAt := none
  finishedAt := none
  updatedAt := now
  version := 0

/-- Where admission sends a new job, why, and the refusal its caller sees: a job no pool can
run, or that its project or its cap cannot afford, is recorded as failed. -/
def admission (job : Job) (cheapest : Option MicroUSD) (available : MicroUSD) :
    JobState × String × Option Fault :=
  match cheapest with
  | none =>
      (.failed, "no registered pool can ever run this job",
        some (.invalid "no pool matches the job's pool, model and runtime constraints"))
  | some cheapest =>
      if cheapest > available then
        (.failed, "budget: needs " ++ moneyText cheapest ++ " on the cheapest pool, project has " ++
            moneyText available,
          some (.budget ("needs " ++ moneyText cheapest ++
            " on the cheapest eligible pool, project has " ++ moneyText available ++
            " available")))
      else if job.budgetCap > 0 ∧ cheapest > job.budgetCap then
        (.failed, "budget: needs " ++ moneyText cheapest ++ ", job cap " ++
            moneyText job.budgetCap,
          some (.budget ("needs " ++ moneyText cheapest ++
            " on the cheapest eligible pool, job cap is " ++ moneyText job.budgetCap)))
      else (.queued, "admitted", none)

/-- The project a submission names, or the tenant's default one. -/
def requestedProject (tenant : TenantID) (id : ProjectID) : Tx Project :=
  if id = "" then Tx.defaultProject tenant else Tx.getProject tenant id

/-- The backpressure checks: the tenant's quota and the length of the whole queue. -/
def checkQueue (service : Service) (tenant : TenantID) (gpus : Int) : Tx Unit := do
  let quota ← Tx.getQuota tenant
  let queued ← Tx.countQueued tenant
  require (¬ quota.any fun quota => 0 < quota.maxQueuedJobs ∧ quota.maxQueuedJobs ≤ queued)
    (.quotaExceeded ("tenant has " ++ toString queued ++ " queued jobs, limit " ++
      toString ((quota.map Quota.maxQueuedJobs).getD 0)))
  require (¬ quota.any fun quota => 0 < quota.maxActiveGPUs ∧ quota.maxActiveGPUs < gpus)
    (.quotaExceeded ("job asks for " ++ toString gpus ++ " GPUs, tenant limit is " ++
      toString ((quota.map Quota.maxActiveGPUs).getD 0)))
  let all ← Tx.countQueuedAll
  require (all < service.cfg.maxQueuedGlobal) (.queueFull all)

/-- Admit a job. Quota and queue limits are refusals with no row written; a budget refusal is
recorded as a failed job. -/
def submit (service : Service) (principal : Principal) (request : SubmitRequest)
    (correlation : String) (id : JobID) (now appliedAt : Time) : Tx (Job × Option Fault) := do
  require (principal.kind = .user) (.forbidden "")
  let request ← fallible (request.validate now service.policies)
  let request := if request.policy = "" then
    { request with policy := service.cfg.defaultPolicy } else request
  let project ← requestedProject principal.tenant request.project
  service.checkQueue principal.tenant request.gpus
  let job := requested principal request project.id id now
  Tx.insertJob job
  let cheapest ← cheapestCost job
  let (outstanding, settled) ← Tx.projectSpend project.id
  let available := projectAvailable project.budget outstanding settled
  let (target, reason, refusal) := admission job cheapest available
  let next ← apply job target principal.actor reason correlation appliedAt
  pure (next, refusal)

/-! ### Closing an attempt -/

/-- What the run of an attempt costs, before the hold caps it: nothing unless it was
acknowledged, and no more than the maximum runtime with its grace. -/
def runCost (service : Service) (job : Job) (attempt : Attempt) (reservation : Reservation)
    (now : Time) : MicroUSD :=
  match attempt.ackedAt with
  | none => 0
  | some acked =>
      costOf reservation.priceRate reservation.gpus
        (min (now - acked) (job.maxRuntime + service.cfg.timeoutGrace))

/-- Write a settlement, when there is anything to settle. -/
def settleCost (budget : JobBudget) (entry : LedgerEntry) : Tx JobBudget :=
  if entry.amount > 0 then do
    let settled ← fallible (applyLedger budget entry)
    Tx.insertLedger entry
    pure settled
  else pure budget

/-- Write the settlement of a closed attempt and release the rest of its hold. -/
def settleAttempt (job : Job) (attempt : AttemptID) (budget : JobBudget) (cost : MicroUSD)
    (now : Time) : Tx Unit := do
  let entry : LedgerEntry :=
    { project := job.project, job := job.id, attempt := some attempt
      kind := .settle, amount := cost, time := now }
  let budget ← settleCost budget entry
  let release := (closeBudget budget entry).2
  whenever (release.amount > 0) (Tx.insertLedger release)

/-- End the job's open attempt and everything it holds: outcome, settlement, release of the
hold, reservation and capacity, lease, and the job's next state. -/
def closeAttempt (service : Service) (job : Job) (outcome : AttemptOutcome) (exit : Option Int)
    (reason : String) (actor : Actor) (correlation : String) (now appliedAt : Time) : Tx Job := do
  let reservation ← Tx.activeReservation job.id
  let attempt ← Tx.getAttempt reservation.attempt
  let closed ← fallible (ControlPlane.closeAttempt attempt outcome exit reason now)
  Tx.closeAttempt closed
  let budget ← Tx.jobBudget job.id
  -- the job is still open until the transition below
  let budget := { budget with closed := false }
  let cost := if attempt.ackedAt.isSome then
    min (service.runCost job attempt reservation now) budget.outstanding else 0
  settleAttempt job attempt.id budget cost now
  let released ← Tx.releaseReservation reservation.id now outcome.text
  whenever (released = true) (Tx.releaseCapacity reservation.worker reservation.gpus)
  Tx.deleteLease attempt.id
  let target := jobStateForOutcome job outcome now
  apply { job with notBefore := none } target actor
    ("attempt " ++ toString attempt.number ++ " " ++ outcome.text ++ ": " ++ reason)
    correlation appliedAt

/-- Cancelling a job that is cancelled, cancel requested or finished returns it unchanged. -/
def cancel (service : Service) (principal : Principal) (id : JobID) (correlation : String)
    (now appliedAt : Time) : Tx Job := do
  require (principal.kind = .user) (.forbidden "")
  let _ ← Tx.getJob principal.tenant id
  let job ← Tx.lockJob id
  match job.state with
  | .submitted | .queued =>
      apply job .cancelled principal.actor "cancelled by user before placement" correlation
        appliedAt
  | .reserved =>
      service.closeAttempt job .cancelled none "cancelled before dispatch" principal.actor
        correlation now appliedAt
  | .dispatched | .running =>
      apply job .cancelRequested principal.actor "cancel requested by user" correlation appliedAt
  | _ => pure job

/-! ### Placement -/

/-- The reservation transaction: budget hold under the project lock, capacity compare-and-swap,
a new attempt, the reservation, the state, and the dispatch event, all or nothing. -/
def place (epoch : Int) (job : Job) (decision : Decision) (actor : Actor) (tick : String)
    (attemptID : AttemptID) (reservationID : ReservationID) (now appliedAt : Time) : Tx Unit := do
  require (job.retriesLeft = true) .stale
  let project ← Tx.lockProject job.project
  let (outstanding, settled) ← Tx.projectSpend project.id
  let pool ← Tx.getPool decision.chosenPool
  -- the price is read again here and fixed onto the reservation
  let hold := costOf pool.pricePerGPUHour job.requirements.gpus job.maxRuntime
  require (hold ≤ projectAvailable project.budget outstanding settled) (.budget "")
  Tx.reserveCapacity decision.chosenWorker job.requirements.gpus
  let job := { job with attempt := job.attempt + 1 }
  Tx.insertAttempt
    { id := attemptID, job := job.id, number := job.attempt, worker := decision.chosenWorker
      createdAt := now, ackedAt := none, endedAt := none, outcome := none, exitCode := none
      reason := "", stopRequested := none }
  Tx.insertReservation
    { id := reservationID, job := job.id, attempt := attemptID, worker := decision.chosenWorker
      pool := pool.id, gpus := job.requirements.gpus, priceRate := pool.pricePerGPUHour
      holdAmount := hold, epoch := epoch, createdAt := now, releasedAt := none
      releaseReason := none }
  whenever (hold > 0) (Tx.insertLedger
    { project := job.project, job := job.id, attempt := some attemptID, kind := .hold
      amount := hold, time := now })
  let _ ← apply job .reserved actor decision.reason tick appliedAt
  Tx.enqueue decision.chosenWorker job.id attemptID now

/-- What a transaction that has passed the epoch check does with its decision. -/
def enact (epoch : Int) (tick : String) (decision : Decision) (attemptID : AttemptID)
    (reservationID : ReservationID) (now appliedAt : Time) : Tx Unit := do
  let actor : Actor := { kind := .scheduler, id := "epoch-" ++ toString epoch }
  let job ← Tx.lockJob decision.job
  require (job.state = .queued) .stale
  match decision.action with
  | .wait =>
      -- a WAIT is recorded only when its reason changes
      let last ← Tx.lastDecision job.id
      if last = some (.wait, decision.reason) then pure ()
      else Tx.insertDecision tick decision now
  | .expire =>
      let _ ← apply job .expired actor decision.reason tick appliedAt
      Tx.insertDecision tick decision now
  | .delay =>
      Tx.saveJob { job with
        notBefore := decision.delayUntil, version := job.version + 1, updatedAt := now } job.version
      Tx.insertDecision tick decision now
  | .preempt =>
      -- a victim whose reservation cannot be read has changed since the snapshot
      let db ← get
      let victim ← need (db.reservations.select fun row => row.job = decision.victim ∧ row.active)
        .stale
      Tx.requestStop victim.attempt .preempt
      Tx.insertDecision tick decision now
  | .place =>
      place epoch job decision actor tick attemptID reservationID now appliedAt
      Tx.insertDecision tick decision now

/-- Apply one decision as the leader of an epoch. -/
def applyDecision (epoch : Int) (tick : String) (decision : Decision) (attemptID : AttemptID)
    (reservationID : ReservationID) (now appliedAt : Time) : Transaction Database Fault Unit := do
  checkEpoch epoch
  onTables (enact epoch tick decision attemptID reservationID now appliedAt)

/-! ### The worker protocol -/

/-- Create a worker in the bootstrap token's pool, or touch the existing one of that name. -/
def register (principal : Principal) (name : String) (capability : Capability) (id : WorkerID)
    (now : Time) : Tx WorkerID := do
  require (principal.kind = .bootstrap) (.forbidden "")
  require (workerNameText name ∧ 1 ≤ capability.gpus ∧ capability.gpus ≤ 64 ∧
      0 ≤ capability.gpuMemGB ∧ capability.runtimes ≠ [] ∧ modelText capability.gpuModel)
    (.invalid "worker needs a dns-like name, 1..64 GPUs, a model and runtimes")
  require (capability.runtimes.all fun runtime => ["sim", "kubernetes"].contains runtime)
    (.invalid "runtime (have sim, kubernetes)")
  let pool ← Tx.getPool principal.pool
  let existing ← Tx.findWorker principal.pool name
  match existing with
  | none =>
      Tx.insertWorker
        { id := id, pool := principal.pool, name := name
          capability := { capability with region := pool.region }
          gpusReserved := 0, state := .ready, lastHeartbeat := now, version := 0 }
      pure id
  | some worker =>
      Tx.touchWorker worker.id now .ready
      pure worker.id

inductive StopReason
  | cancel | preempt | timeout
  deriving DecidableEq

structure HeartbeatResult where
  renewed : List AttemptID
  stop : List (AttemptID × StopReason)
  /-- Attempts the worker holds that the control plane no longer considers its own. -/
  abandon : List AttemptID
  deriving DecidableEq

/-- The stop orders of a worker's open attempts. -/
def stopOrders (db : Db) (worker : WorkerID) : List (AttemptID × StopReason) :=
  (db.attempts.rows.filter fun attempt => attempt.worker = worker && attempt.open).filterMap
    fun attempt =>
      if (db.jobs.find attempt.job).any fun job => job.state = .cancelRequested then
        some (attempt.id, .cancel)
      else attempt.stopRequested.map fun kind =>
        match kind with
        | .preempt => (attempt.id, .preempt)
        | .timeout => (attempt.id, .timeout)

def heartbeat (service : Service) (principal : Principal) (state : WorkerState)
    (held : List AttemptID) (now : Time) : Tx HeartbeatResult := do
  require (principal.kind = .worker) (.forbidden "")
  require (state = .ready ∨ state = .draining) (.invalid "worker may report READY or DRAINING")
  require (held.length ≤ 256) (.invalid "at most 256 held attempts")
  Tx.touchWorker principal.worker now state
  let renewed ← Tx.renewLeases principal.worker held now (now + service.cfg.leaseTTL)
  let db ← get
  pure { renewed, stop := stopOrders db principal.worker
         abandon := held.filter fun id => !renewed.contains id }

structure Dispatch where
  attempt : AttemptID
  job : JobID
  worker : WorkerID
  image : String
  command : List String
  gpus : Int
  gpuModel : String
  runtime : String
  maxRuntimeS : Int
  leaseExpires : Time
  specDigest : String
  mac : String
  deriving DecidableEq

/-- The first phase of claiming: a visibility timeout on a batch of dispatch events. -/
def claimDispatches (service : Service) (principal : Principal) (max : Int) (now : Time) :
    Tx (List OutboxEvent) := do
  require (principal.kind = .worker) (.forbidden "")
  let count := if max ≤ 0 ∨ max > 16 then 4 else max.toNat
  Tx.claim principal.worker count now service.cfg.dispatchVisibility

/-- The dispatch a claimed event turns into under a lease. -/
def dispatchOf (service : Service) (principal : Principal) (job : Job) (attempt : Attempt)
    (lease : Lease) : Dispatch :=
  let maxRuntimeS := job.maxRuntime / second
  let digest := service.specDigest job.image job.command job.requirements.gpus maxRuntimeS
  let expires := lease.expiresAt / second * second
  { attempt := attempt.id, job := job.id, worker := principal.worker, image := job.image
    command := job.command, gpus := job.requirements.gpus, gpuModel := job.requirements.gpuModel
    runtime := job.requirements.runtime, maxRuntimeS := maxRuntimeS, leaseExpires := expires
    specDigest := digest, mac := service.sign attempt.id principal.worker expires digest }

/-- The second phase: handle one event in its own transaction, which also marks it delivered. -/
def handleDispatch (service : Service) (principal : Principal) (event : OutboxEvent)
    (now appliedAt : Time) : Tx (Option Dispatch) := do
  let job ← Tx.lockJob event.job
  let attempt ← Tx.getAttempt event.attempt
  Tx.markDelivered event.id now
  if attempt.worker ≠ principal.worker ∨ attempt.outcome.isSome ∨ job.attempt ≠ attempt.number then
    pure none -- superseded: cancelled, reclaimed, or not ours
  else match job.state with
    | .reserved =>
        let lease : Lease :=
          { attempt := attempt.id, worker := principal.worker
            expiresAt := now + service.cfg.leaseTTL, renewedAt := now }
        Tx.putLease lease
        let _ ← apply job .dispatched principal.actor "claimed by worker" attempt.id appliedAt
        pure (some (service.dispatchOf principal job attempt lease))
    | .dispatched =>
        let found ← Tx.getLease attempt.id
        let lease ← need found .notFound
        pure (some (service.dispatchOf principal job attempt lease))
    | _ => pure none

inductive AckResult
  | run | cancel
  deriving DecidableEq

/-- Accepted once per attempt; it checks the attempt against the worker's capability again. -/
def ack (service : Service) (principal : Principal) (dispatch : Dispatch)
    (now appliedAt : Time) : Tx AckResult := do
  require (principal.kind = .worker ∧ dispatch.worker = principal.worker) (.forbidden "")
  require (service.verify dispatch.attempt dispatch.worker dispatch.leaseExpires
    dispatch.specDigest dispatch.mac = true) .leaseInvalid
  let job ← Tx.lockJob dispatch.job
  let attempt ← Tx.getAttempt dispatch.attempt
  require (attempt.worker = principal.worker ∧ attempt.job = job.id) (.forbidden "")
  require (service.specDigest job.image job.command job.requirements.gpus
    (job.maxRuntime / second) = dispatch.specDigest) .leaseInvalid
  let worker ← Tx.getWorker principal.worker
  require (worker.capability.satisfies job.requirements = none)
    (.forbidden "attempt exceeds worker capability")
  let acked ← Tx.ackAttempt attempt.id now
  require (acked = true) .alreadyAcked
  match job.state with
  | .cancelRequested => pure .cancel
  | .dispatched =>
      let _ ← Tx.renewLeases principal.worker [attempt.id] now (now + service.cfg.leaseTTL)
      let _ ← apply (job.started now) .running principal.actor "worker acknowledged and started"
        attempt.id appliedAt
      pure .run
  | _ => throw (.conflict ("job is " ++ job.state.text))

/-- The clock readings one event of a report takes: its default time, and those of the closing
it may cause. -/
structure EventReadings where
  event : Time
  now : Time
  applied : Time

/-- Store the events of a report in order and apply a terminal one. `known` is the attempt's
outcome as the call knows it; the result is the last terminal outcome, if any. -/
def reportLoop (service : Service) (principal : Principal) (job : Job) (attempt : AttemptID) :
    List (WorkerEvent × EventReadings) → Option AttemptOutcome → Option AttemptOutcome →
      Tx (Option AttemptOutcome)
  | [], _, final => pure final
  | (event, readings) :: rest, known, final => do
      let _ ← Tx.insertAttemptEvent
        { attempt := attempt, payload := event, time := event.time.getD readings.event }
      if event.kind ≠ some .exit then reportLoop service principal job attempt rest known final
      else match known with
        | some outcome =>
            -- a duplicate terminal report
            reportLoop service principal job attempt rest known (some outcome)
        | none =>
            let outcome ← need event.outcome (.invalid "exit event needs an outcome")
            require (¬ (job.state = .dispatched ∧ outcome = .succeeded))
              (.conflict "success reported before acknowledgement")
            let _ ← service.closeAttempt job outcome event.exitCode event.message principal.actor
              attempt readings.now readings.applied
            reportLoop service principal job attempt rest (some outcome) (some outcome)

/-- An event the boundary accepts. -/
def acceptedEvent (event : WorkerEvent) : Bool :=
  1 ≤ event.seq && event.kind.isSome && event.message.utf8ByteSize ≤ 16384

/-- Store events deduplicated on attempt and sequence number, and apply a terminal event exactly
once; a repeated terminal event returns the stored outcome. -/
def reportEvents (service : Service) (principal : Principal) (attempt : AttemptID)
    (events : List (WorkerEvent × EventReadings)) : Tx (Option AttemptOutcome) := do
  require (principal.kind = .worker) (.forbidden "")
  require (events ≠ [] ∧ events.length ≤ 500) (.invalid "1..500 events per call")
  require (events.all fun pair => acceptedEvent pair.1)
    (.invalid "event seq>=1, known kind, message <= 16KiB")
  require (events.all fun pair => pair.1.kind ≠ some .exit || pair.1.outcome.isSome)
    (.invalid "exit event needs an outcome")
  let row ← Tx.getAttempt attempt
  require (row.worker = principal.worker) .notFound
  let job ← Tx.lockJob row.job
  let row ← Tx.getAttempt attempt -- read again under the job lock
  service.reportLoop principal job attempt events row.outcome none

/-! ### Reconciliation: every repair locks the job and checks its condition again -/

/-- Close an attempt as lost if the check, run under the job lock, still says it should be. -/
def reclaim (service : Service) (attempt : AttemptID) (check : Tx Bool) (reason : String)
    (now appliedAt : Time) : Tx Bool := do
  let row ← Tx.getAttempt attempt
  let job ← Tx.lockJob row.job
  let row ← Tx.getAttempt attempt
  if row.outcome.isSome then
    Tx.deleteLease attempt
    pure false
  else
    let ok ← check
    if ok then
      let _ ← service.closeAttempt job .lost none reason reconcileActor attempt now appliedAt
      pure true
    else pure false

/-- Reclaim an attempt whose lease has expired by the pass's reading of the clock. -/
def reclaimLease (service : Service) (attempt : AttemptID) (pass now appliedAt : Time) : Tx Bool :=
  service.reclaim attempt
    (do let lease ← Tx.getLease attempt
        pure (lease.any fun lease => lease.expired pass))
    "lease expired: worker stopped renewing" now appliedAt

/-- Reclaim a reservation no worker ever claimed. -/
def reclaimStale (service : Service) (reservation : Reservation) (now appliedAt : Time) : Tx Bool :=
  service.reclaim reservation.attempt
    (do let job ← Tx.lockJob reservation.job
        pure (decide (job.state = .reserved)))
    "reservation never claimed by its worker" now appliedAt

/-- Ask the worker to stop an attempt that ran past its maximum runtime. -/
def timeoutStop (service : Service) (id : JobID) (now : Time) : Tx Unit := do
  let job ← Tx.lockJob id
  match job.startedAt with
  | some started =>
      if job.state = .running ∧ now - started > job.maxRuntime + service.cfg.timeoutGrace then
        let reservation ← Tx.activeReservation id
        Tx.requestStop reservation.attempt .timeout
      else pure ()
  | none => pure ()

/-- Release the hold of each terminal job that still has one; the result counts repairs. -/
def repairLoop (now : Time) : List JobID → Nat → Tx Nat
  | [], repairs => pure repairs
  | id :: rest, repairs => do
      let job ← Tx.lockJob id
      let budget ← Tx.jobBudget id
      if budget.outstanding ≤ 0 then repairLoop now rest repairs
      else do
        Tx.insertLedger
          { project := job.project, job := id, attempt := none, kind := .release
            amount := budget.outstanding, time := now }
        repairLoop now rest (repairs + 1)

def repairLedger (now : Time) : Tx Nat := do
  let ids ← Tx.terminalJobsWithOutstanding 200
  repairLoop now ids 0

end Service

/-! ### Administration -/

/-- The accounting rows of a new tenant: a default project with a budget, and a quota. -/
def createTenant (tenant : TenantID) (project : ProjectID) (budget : MicroUSD)
    (maxQueuedJobs maxActiveGPUs : Int) : Tx Unit := do
  Tx.insertProject { id := project, tenant := tenant, name := "default", budget := budget }
  Tx.upsertQuota
    { tenant := tenant
      maxQueuedJobs := if maxQueuedJobs ≤ 0 then 200 else maxQueuedJobs
      maxActiveGPUs := if maxActiveGPUs ≤ 0 then 16 else maxActiveGPUs }

def upsertPool (pool : Pool) : Tx Unit := do
  require (pool.id ≠ "" ∧ pool.name ≠ "" ∧ pool.region ≠ "")
    (.invalid "pool needs id, name and region")
  Tx.upsertPool pool

end GpuBroker.ControlPlane
