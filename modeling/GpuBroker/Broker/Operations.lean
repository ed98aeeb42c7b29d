/-
This file is what the Python broker does with its store: admission, placement,
the passes of the scheduler over running and queued jobs, and the operations of
`Broker`, as programs.

A backend is whatever answers its interface: its state is part of the world and
each call reads and changes it in an unspecified way, and may fail. So is the
fair-share score, which is computed in floating point from the settlements, and
so is how samples are worded as evidence. Named environments, and the recording
of metrics, traces and schedule observations, are left out.
-/
import GpuBroker.Broker.Store

namespace GpuBroker.Broker

open Library

/-! ### Admission -/

/-- Reject nonsense before anything is written. -/
def validateRequest (config : BrokerConfig) (gpuType : String) (hours : ℚ) (command : String) :
    Except BrokerError GpuType := do
  let gpu ← config.gpu gpuType
  if hours ≤ 0 then .error (.hoursNotPositive hours)
  else if config.maxJobHours < hours then .error (.hoursOverLimit hours config.maxJobHours)
  else if config.maxCommandBytes < command.length then
    .error (.commandTooLong command.length config.maxCommandBytes)
  else .ok gpu

/-- Requested run time plus the startup the broker will be billed for. -/
def billableHours (config : BrokerConfig) (hours : ℚ) : ℚ := hours + config.startupAllowanceHours

/-- What the job costs if it runs for exactly as long as it asked. -/
def defaultReservation (config : BrokerConfig) (gpu : GpuType) (hours : ℚ) : Cents :=
  quantize (gpu.hourlyPrice * billableHours config hours)

def checkMembership (user : User) : Option Refusal :=
  if user.isSuspended then some (.userSuspended user.userId user.suspendedReason) else none

def checkJobCap (config : BrokerConfig) (currency : Currency) (reserved : Decimal) :
    Option Refusal :=
  if reserved ≤ 0 then some (.invalidBudget reserved)
  else if config.maxJob currency < reserved then
    some (.jobCapExceeded reserved (config.maxJob currency))
  else none

/-- How many jobs one member may have waiting at once. -/
def checkQueueDepth (config : BrokerConfig) (queued : Nat) : Option Refusal :=
  if queued < config.maxQueuedJobsPerUser then none
  else some (.queueDepthExceeded queued config.maxQueuedJobsPerUser)

def checkUserBudget (balance : Balance) (reserved : Decimal) : Option Refusal :=
  if reserved ≤ balance.available then none else some (.userBudgetExceeded reserved balance)

/-! ### Backends -/

/-- What a backend hands back when it accepts a job. -/
structure Allocation where
  handle : String
  gpuType : String

/-- One poll of one allocation. -/
structure Observation where
  status : BackendStatus
  exitCode : Option Int
  detail : Option String

/-- One reading of a GPU's business, stamped by the machine that took it. -/
structure Reading where
  takenAt : Time
  gpuPercent : ℚ
  memoryMb : Nat

/-- The interface every kind of capacity sits behind, over the state of all capacity. A call that
raises `BackendError` returns its text. -/
structure Backend (γ : Type) where
  name : String
  currency : Currency
  tier : Option String
  supports : String → Bool
  freeSlots : String → γ → Except String Int × γ
  launch : Job → γ → Except String Allocation × γ
  start : String → Job → γ → Except String Unit × γ
  poll : String → γ → Except String Observation × γ
  fetchLogs : String → Nat → γ → Except String (List Line) × γ
  sampleUtilization : String → γ → Except String (List Reading) × γ
  terminate : String → String → γ → Except String Unit × γ

/-- A backend that has not declared a tier is on-demand. -/
def Backend.tierOf {γ : Type} (backend : Backend γ) : String := backend.tier.getD "ondemand"

/-- What the samples say about one running job. -/
structure IdleVerdict where
  job : Job
  idle : Bool
  reason : IdleReason
  samples : List Sample
  idleSince : Option Time := none
  peakPercent : ℚ := 0
  notifiedAt : Option Time
  graceEndsAt : Option Time
  wasted : Cents := 0

/-- How long a job has been idle, in hours. -/
def IdleVerdict.idleHours (calendar : Calendar) (verdict : IdleVerdict) (now : Time) : Decimal :=
  match verdict.idleSince with
  | none => 0
  | some since => calendar.hours (now - since)

/-- What a broker process is constructed with. -/
structure Site (γ : Type) where
  backends : List (Backend γ)
  /-- The latest checkpoint of a job, when a checkpoint store is configured. -/
  latest : Option (JobId → γ → Except String (Option (Int × String)) × γ)
  /-- The priority of a queued job. -/
  score : Db → Time → Job → ℚ
  /-- How the samples of an idle job are worded. -/
  evidence : List Sample → String

section Programs

variable {γ : Type}

/-- A call of a backend; what it raises is the caller's to handle. -/
def external {α : Type} (call : γ → α × γ) : Op γ α :=
  Program.quietly fun world =>
    ((call world.cloud).1, { world with cloud := (call world.cloud).2 })

/-- A call of a backend that nothing catches. -/
def externally {α : Type} (call : γ → Except String α × γ) : Op γ α := do
  match ← external call with
  | .ok value => pure value
  | .error detail => .fail (.backend detail)

/-- The backend of a name. -/
def Site.backend (site : Site γ) (name : String) : Option (Backend γ) :=
  site.backends.find? fun backend => backend.name = name

/-! ### Submission -/

/-- What a member asks for; `jobId` is the identifier drawn for the new job. -/
structure Submission where
  jobId : JobId
  userId : UserId
  command : String
  gpuType : String
  hours : ℚ
  budget : Option Decimal
  environment : Option String
  origin : String

/-- The admission checks, in order: membership, the job cap, the queue, the month's budget. What is
admitted is admitted on what was read. -/
def refusalOf (config : BrokerConfig) (user : User) (currency : Currency) (reserved : Decimal) :
    Op γ (Except Refusal Admission) :=
  match checkMembership user with
  | some refusal => pure (.error refusal)
  | none =>
      match checkJobCap config currency reserved with
      | some refusal => pure (.error refusal)
      | none => do
          let queued ← query fun db => db.queuedCount user.userId
          match checkQueueDepth config queued with
          | some refusal => pure (.error refusal)
          | none => do
              let balance ← balance user.userId currency
              match checkUserBudget balance reserved with
              | some refusal => pure (.error refusal)
              | none => pure (.ok { queued, balance })

/-- Admit a job, or refuse it with the number named; `text` is how the refusal is worded. -/
def submit (request : Submission) (text : Refusal → String) : Op γ (Job × Option Refusal) := do
  let config ← settings
  let gpu ← orRaise (validateRequest config request.gpuType request.hours request.command)
  let reserved := request.budget.getD (money (defaultReservation config gpu request.hours))
  let user ← getUser request.userId
  let new : NewJob :=
    { jobId := request.jobId
      userId := request.userId
      command := request.command
      gpuType := request.gpuType
      requestedHours := request.hours
      currency := gpu.currency
      reserved
      environment := request.environment
      origin := request.origin }
  match ← refusalOf config user gpu.currency reserved with
  | .error refusal => do
      let job ← recordRefusal new refusal (text refusal)
      pure (job, some refusal)
  | .ok read => do
      let job ← createJob new read
      pure (job, none)

/-! ### Placement -/

/-- The tiers a job may go to, in order. -/
def tiersFor (config : BrokerConfig) (job : Job) : List String :=
  let order :=
    if config.placementOrder.isEmpty then ["local", "spot", "ondemand"] else config.placementOrder
  match truthy job.pinnedTier with
  | none => order
  | some tier => if order.contains tier then order.dropWhile (· ≠ tier) else [tier]

/-- Where a job goes, and the backends passed over on the way there. -/
structure Placement (γ : Type) where
  backend : Backend γ
  tier : String
  free : Int
  skipped : List (String × String)

/-- A placement as the job's log words it. -/
def Placement.oneLine (placement : Placement γ) (gpuType : String) : String :=
  let name := placement.backend.name
  let tier := placement.tier
  let free := placement.free
  let plural := if free ≠ 1 then "s" else ""
  let skipped := "; ".intercalate (placement.skipped.map fun (name, why) => s!"{name} ({why})")
  s!"placed on {name} [{tier}]: first tier in the policy with a free {gpuType} " ++
    s!"({free} slot{plural} available)" ++
    if placement.skipped.isEmpty then "" else s!" -- after {skipped}"

/-- How a currency is written. -/
def currencyText : Currency → String
  | .usd => "USD"
  | .gpuHour => "GPU_HOUR"

/-- The first of a list of backends that bills in the currency, supports the type and has room. -/
def firstFree (currency : Currency) (gpuType : String) :
    List (Backend γ) → List (String × String) → Op γ (Option (Placement γ))
  | [], _ => pure none
  | backend :: rest, skipped =>
      let billed := currencyText backend.currency
      let priced := currencyText currency
      if backend.currency ≠ currency then
        firstFree currency gpuType rest
          (skipped ++ [(backend.name, s!"bills in {billed}, {gpuType} is priced in {priced}")])
      else if !backend.supports gpuType then
        firstFree currency gpuType rest (skipped ++ [(backend.name, s!"has no {gpuType}")])
      else do
        let free ← externally (backend.freeSlots gpuType)
        if free ≤ 0 then
          firstFree currency gpuType rest
            (skipped ++ [(backend.name, s!"no free {gpuType} right now")])
        else pure (some { backend, tier := backend.tierOf, free, skipped })

/-- Pick a backend for this job, tier by tier. -/
def choose (site : Site γ) (job : Job) : Op γ (Option (Placement γ)) := do
  let config ← settings
  let gpu ← orRaise (config.gpu job.gpuType)
  let backends := (tiersFor config job).flatMap fun tier =>
    site.backends.filter fun backend => backend.tierOf = tier
  firstFree gpu.currency job.gpuType backends []

/-! ### Idle jobs -/

/-- When a job stopped working: the start of the unbroken run below the threshold that its history
ends in. -/
def idleSinceOf (threshold : ℚ) (history : List Sample) : Option Time :=
  let quiet := history.reverse.takeWhile fun sample => sample.gpuPercent ≤ threshold
  (quiet.getLast?.or history.getLast?).map Sample.takenAt

/-- Decide whether one running job is idle, from its samples alone. -/
def evaluate (job : Job) : Op γ IdleVerdict := do
  let config ← settings
  let now ← now
  let samples ← query fun db => db.samplesFor job.jobId (some (now - config.idleWindow)) 5000
  let notifiedAt ← query fun db => db.lastNotified job.jobId "idle-warning"
  let graceEndsAt := notifiedAt.map (· + config.idleGrace)
  let peak := (samples.map Sample.gpuPercent).max?.getD 0
  if samples.length < config.idleMinSamples then
    pure { job, idle := false, reason := .tooFew samples.length, samples, notifiedAt, graceEndsAt }
  else if config.idleThresholdPercent < peak then
    pure
      { job
        idle := false
        reason := .peaked peak
        samples
        peakPercent := peak
        notifiedAt
        graceEndsAt }
  else do
    let history ← query fun db => db.samplesFor job.jobId none 20000
    let since := (idleSinceOf config.idleThresholdPercent history).or
      (samples.head?.map Sample.takenAt)
    let idleHours := config.calendar.hours (now - since.getD now)
    let gpu ← orRaise (config.gpu job.gpuType)
    pure
      { job
        idle := true
        reason := .neverAbove config.idleThresholdPercent samples.length
        samples
        idleSince := since
        peakPercent := peak
        notifiedAt
        graceEndsAt
        wasted := quantize (gpu.hourlyPrice * idleHours) }

/-- Tell the owner of an idle job, once, and start the grace period. -/
def warnIdle (verdict : IdleVerdict) : Op γ Unit :=
  if verdict.notifiedAt.isSome || !verdict.idle then pure ()
  else do
    let job := verdict.job
    let user := job.userId
    let _ ← notify user (some job.jobId) (.idleWarning verdict.peakPercent (money verdict.wasted))
    appendLog job.jobId s!"idle warning sent to {user}"

/-- The job may be reclaimed right now. -/
def reclaimable (verdict : IdleVerdict) : Op γ Bool :=
  if !verdict.idle then pure false
  else match verdict.notifiedAt, verdict.graceEndsAt with
    | some _, some graceEndsAt => do
        let now ← now
        pure (graceEndsAt ≤ now)
    | _, _ => pure false

/-- What the samples say about each job of a list. -/
def evaluateAll : List Job → Op γ (List IdleVerdict)
  | [] => pure []
  | job :: rest => do
      let verdict ← evaluate job
      let verdicts ← evaluateAll rest
      pure (verdict :: verdicts)

/-- Every running job that is idle, the most wasteful first. -/
def idleJobs : Op γ (List IdleVerdict) := do
  let jobs ← query Db.activeJobs
  let verdicts ← evaluateAll jobs
  pure ((verdicts.filter IdleVerdict.idle).mergeSort fun one other => other.wasted ≤ one.wasted)

/-- Record what a job's GPU has been doing, on an interval, and warn its owner when it is idle. -/
def sample (job : Job) (backend : Backend γ) : Op γ Unit := do
  let now ← now
  let last ← query fun db => db.lastSampleAt job.jobId
  let config ← settings
  if last.any fun last => now - last < config.idleSampleInterval then pure ()
  else do
    match ← external (backend.sampleUtilization (job.backendHandle.getD "")) with
    | .error _ => pure ()
    | .ok readings =>
        -- a backend that starts again from the beginning must not write a sample twice
        let fresh := readings.filter fun reading => last.getD 0 < reading.takenAt
        if fresh.isEmpty then pure ()
        else do
          recordSamples job.jobId (fresh.map fun reading =>
            { jobId := job.jobId
              takenAt := reading.takenAt
              gpuPercent := reading.gpuPercent
              memoryMb := reading.memoryMb
              source := backend.name })
          let verdict ← evaluate job
          warnIdle verdict

/-! ### Running jobs -/

/-- What one look at a running job came to. -/
structure Outcome where
  settled : Bool := false
  hitCeiling : Bool := false
  preempted : Bool := false
  finalState : Option JobState := none

/-- Translate what a backend saw into what the broker calls it. -/
def stateFor : BackendStatus → JobState
  | .pending => .allocating
  | .ready => .allocating
  | .running => .running
  | .completed => .completed
  | .failed => .failed
  | .interrupted => .preempted
  | .gone => .failed

/-- Cost incurred by `now` since the last settlement, never more than the ceiling. -/
def accrue (job : Job) (now : Time) : Op γ Cents := do
  let config ← settings
  let gpu ← orRaise (config.gpu job.gpuType)
  let total := gpu.hourlyPrice * job.elapsedHours config.calendar now
  let already ← query fun db => db.jobSpend job.jobId
  pure (max 0 (min (quantize total) job.reserved - already))

/-- The price of the time a job has run, rounded, has reached its reservation. -/
def atCeiling (config : BrokerConfig) (gpu : GpuType) (job : Job) (now : Time) : Bool :=
  job.reserved ≤ quantize (gpu.hourlyPrice * job.elapsedHours config.calendar now)

/-- Settle what a running job has accrued. -/
def settleAccrued (job : Job) (now : Time) : Op γ Bool := do
  let accrued ← accrue job now
  if 0 < accrued then do
    settle job (money accrued) now
    pure true
  else pure false

/-- Pull whatever the backend has produced since the job's read cursor. -/
def drainLogs (job : Job) (backend : Backend γ) : Op γ Job := do
  match ← external (backend.fetchLogs (job.backendHandle.getD "") job.logsFetched) with
  | .error detail => do
      appendLog job.jobId s!"could not read logs: {detail}"
      pure job
  | .ok lines =>
      if lines.isEmpty then pure job
      else do
        let cursor ← appendBackendLogs job lines
        pure { job with logsFetched := cursor }

/-- Pick up anything the job managed to save; `none` means it saved nothing new. A store that
cannot be read has saved nothing. -/
def collectCheckpoint (site : Site γ) (job : Job) : Op γ (Option Job) :=
  match site.latest with
  | none => pure none
  | some latest => do
      match ← external (latest job.jobId) with
      | .error detail => do
          appendLog job.jobId s!"could not look for a checkpoint: {detail}"
          pure none
      | .ok none => pure none
      | .ok (some (step, key)) =>
          if job.checkpointStep.any (fun last => step ≤ last) then pure none
          else do
            let job ← recordCheckpoint job step key
            pure (some job)

/-- A tier below the job's current one that can actually run it. -/
def fallbackTier (site : Site γ) (config : BrokerConfig) (gpu : GpuType) (job : Job) :
    Option String :=
  let order := config.placementOrder
  let current := (truthy job.pinnedTier).getD "spot"
  let after := if order.contains current then (order.dropWhile (· ≠ current)).tail else order
  after.find? fun tier => site.backends.any fun backend =>
    backend.tierOf = tier && backend.currency = gpu.currency && backend.supports job.gpuType

/-- Back in line. -/
def requeue (job : Job) (outcome : Outcome) : Op γ Outcome := do
  let step := (job.checkpointStep.map toString).getD "None"
  let point :=
    if job.resumable then s!"resuming from step {step}" else "starting again from the beginning"
  appendLog job.jobId s!"preempted; requeued, {point}"
  let job ← transition job .queued
    { reason := .requeued (if job.resumable then job.checkpointStep else none) }
  pure { outcome with finalState := some job.state, preempted := true }

/-- The provider took the machine: save what survived and get back in line. The reservation stays
outstanding and what was burned stays settled. -/
def preempt (site : Site γ) (job : Job) (backend : Backend γ) (observation : Observation)
    (outcome : Outcome) : Op γ Outcome := do
  externally (backend.terminate (job.backendHandle.getD "") "preempted")
  let progressed ← collectCheckpoint site job
  let job ← recordPreemption (progressed.getD job)
  let job ← transition job .preempted
    { reason := .preempted observation.detail, clearHandle := true }
  let config ← settings
  if progressed.isNone && config.spotMaxPreemptionsWithoutProgress ≤ job.preemptions then do
    let gpu ← orRaise (config.gpu job.gpuType)
    let times := job.preemptions
    match fallbackTier site config gpu job with
    | none => do
        appendLog job.jobId <| s!"preempted {times} times with nothing saved, but no " ++
          "cheaper-than-spot alternative is configured, so it stays here"
        requeue job outcome
    | some tier => do
        let job ← pinTier job tier s!"preempted {times} times with nothing saved"
        let _ ← notify job.userId (some job.jobId) (.pinnedOndemand times)
        requeue job outcome
  else requeue job outcome

/-- Start the command on a machine that is up. -/
def startCommand (job : Job) (backend : Backend γ) (handle : String) (outcome : Outcome) :
    Op γ Outcome := do
  match ← external (backend.start handle job) with
  | .ok _ => do
      appendLog job.jobId "command sent; job is running"
      pure outcome
  | .error detail => do
      appendLog job.jobId s!"could not start: {detail}"
      externally (backend.terminate handle "failed to start")
      let job ← transition job .failed { reason := .couldNotStart detail, clearHandle := true }
      pure { outcome with finalState := some job.state }

/-- Stop a job that somebody asked to stop. -/
def stopRequested (job : Job) (backend : Backend γ) (handle actor : String) (outcome : Outcome) :
    Op γ Outcome := do
  externally (backend.terminate handle s!"cancelled by {actor}")
  let job ← drainLogs job backend
  let job ← transition job .cancelled { reason := .cancelledBy actor, clearHandle := true }
  pure { outcome with finalState := some job.state }

/-- Record that a job finished, its capacity released first. -/
def finish (job : Job) (backend : Backend γ) (handle : String) (target : JobState)
    (observation : Observation) (outcome : Outcome) : Op γ Outcome := do
  let reached := target.text.toLower
  externally (backend.terminate handle s!"job {reached}")
  let job ← transition job target
    { reason := .reported observation.status observation.detail
      exitCode := observation.exitCode
      clearHandle := true }
  pure { outcome with finalState := some job.state }

/-- Stop a job whose cost has reached its reservation. -/
def stopAtCeiling (config : BrokerConfig) (job : Job) (now : Time) (backend : Backend γ)
    (handle : String) (outcome : Outcome) : Op γ Outcome := do
  externally (backend.terminate handle "budget ceiling reached")
  let job ← drainLogs job backend
  let _ ← transition job .failed
    { reason := .ceiling job.reserved (job.elapsedHours config.calendar now), clearHandle := true }
  pure { outcome with hitCeiling := true, finalState := some .failed }

/-- Follow a machine that is still up, unless what it reports is older than the record. -/
def follow (job : Job) (target : JobState) (backend : Backend γ) (observation : Observation)
    (outcome : Outcome) : Op γ Outcome :=
  -- a machine coming up for a job with a checkpoint to restore is a resumption
  let target :=
    if target = .allocating && job.resumable && job.state = .allocating then .resuming else target
  if target = job.state then pure outcome
  else if job.state.canTransition target then do
    let job ← transition job target
      { reason := .reported observation.status observation.detail
        exitCode := observation.exitCode }
    pure { outcome with finalState := some job.state }
  else do
    let status := observation.status.text
    let name := backend.name
    let state := job.state.text
    appendLog job.jobId s!"ignored stale {status} from {name}; job is already {state}"
    pure outcome

/-- Act on what the backend says about a running job. -/
def observe (site : Site γ) (job : Job) (now : Time) (backend : Backend γ) (handle : String)
    (outcome : Outcome) : Op γ Outcome := do
  let observation ← externally (backend.poll handle)
  let job ← drainLogs job backend
  sample job backend
  if observation.status = .ready then startCommand job backend handle outcome
  else
    let target := stateFor observation.status
    if target = .preempted then preempt site job backend observation outcome
    else if target.terminal then finish job backend handle target observation outcome
    else do
      let config ← settings
      let gpu ← orRaise (config.gpu job.gpuType)
      if atCeiling config gpu job now then
        stopAtCeiling config job now backend handle outcome
      else follow job target backend observation outcome

/-- One look at a running job. A job with no backend or no handle is drift and is left alone. -/
def advance (site : Site γ) (job : Job) (now : Time) : Op γ Outcome :=
  match site.backend (job.backend.getD ""), job.backendHandle with
  | some backend, some handle => do
      let settled ← settleAccrued job now
      let outcome : Outcome := { settled }
      match truthy job.cancelRequested with
      | some actor => stopRequested job backend handle actor outcome
      | none => observe site job now backend handle outcome
  | _, _ => pure {}

/-! ### The queue -/

/-- What the scheduler concluded about one queued job. -/
inductive Action where
  | dispatch
  | blockedPool
  | blockedCapacity
  | blockedTenant
  | blockedUnauthorized
  deriving DecidableEq

/-- The queue, highest priority first; ties break on submission time and then on id. -/
def orderedQueue (site : Site γ) (now : Time) : Op γ (List Job) := do
  let jobs ← query Db.queuedJobs
  let score ← query fun db => site.score db now
  pure (jobs.mergeSort fun one other =>
    score other < score one ∨
      (score one = score other ∧
        (one.submittedAt < other.submittedAt ∨
          (one.submittedAt = other.submittedAt ∧ one.jobId ≤ other.jobId))))

/-- What one pass over the queue keeps in memory. -/
structure Pass where
  headroom : Currency → Decimal
  committed : Currency → Cents
  blocked : List Currency
  held : List (UserId × Nat)

/-- What a currency has left under the cap. -/
def Pass.remaining (pass : Pass) (currency : Currency) : Decimal :=
  pass.headroom currency - money (pass.committed currency)

/-- The pass with a currency blocked. -/
def Pass.block (pass : Pass) (currency : Currency) : Pass :=
  { pass with blocked := currency :: pass.blocked }

/-- The pass with the count of a member's machines. -/
def Pass.hold (pass : Pass) (user : UserId) (count : Nat) : Pass :=
  { pass with held := (user, count) :: pass.held }

/-- The pass with a job's reservation committed. -/
def Pass.commit (pass : Pass) (job : Job) : Pass :=
  { pass with
    committed := fun currency =>
      if currency = job.currency then pass.committed currency + job.reserved
      else pass.committed currency }

/-- How many machines a member is holding: counted once, then kept up to date by the pass. -/
def heldBy (pass : Pass) (user : UserId) : Op γ Nat :=
  match pass.held.lookup user with
  | some count => pure count
  | none => query fun db => db.runningCount user

/-- Who the pass works for: the limit, the suspensions, and what takes each decision. -/
structure Policy (γ α : Type) where
  site : Site γ
  limit : Nat
  suspended : List (UserId × String)
  consume : α → Job → Action → Option (Placement γ) → Op γ α

/-- Walk the queue and decide each job's fate, handing every decision on before the next. -/
def decideQueue {α : Type} (policy : Policy γ α) : List Job → Pass → α → Op γ α
  | [], _, report => pure report
  | job :: rest, walk, report =>
      if (policy.suspended.lookup job.userId).isSome then do
        let report ← policy.consume report job .blockedUnauthorized none
        decideQueue policy rest walk report
      else if job.currency ∈ walk.blocked then do
        let report ← policy.consume report job .blockedPool none
        decideQueue policy rest walk report
      else do
        let count ← heldBy walk job.userId
        let walk := walk.hold job.userId count
        if policy.limit ≤ count then do
          let report ← policy.consume report job .blockedTenant none
          decideQueue policy rest walk report
        else if walk.remaining job.currency < money job.reserved then do
          -- a hard stop for this currency: the head of the queue keeps its place
          let report ← policy.consume report job .blockedPool none
          let walk := walk.block job.currency
          if walk.blocked.length = Currency.all.length then
            rest.foldlM (fun report other => policy.consume report other .blockedPool none) report
          else decideQueue policy rest walk report
        else do
          match ← choose policy.site job with
          | none => do
              let report ← policy.consume report job .blockedCapacity none
              decideQueue policy rest walk report
          | some placement => do
              let report ← policy.consume report job .dispatch (some placement)
              decideQueue policy rest ((walk.hold job.userId (count + 1)).commit job) report

/-- The decisions of one pass, handed to a consumer. -/
def decisions {α : Type} (site : Site γ) (now : Time)
    (consume : α → Job → Action → Option (Placement γ) → Op γ α) (report : α) : Op γ α := do
  let config ← settings
  let usd ← poolHeadroom .usd
  let gpuHour ← poolHeadroom .gpuHour
  let queue ← orderedQueue site now
  let suspended ← query Db.suspendedUsers
  let headroom : Currency → Decimal := fun currency =>
    match currency with
    | .usd => usd
    | .gpuHour => gpuHour
  decideQueue { site, limit := config.maxRunningJobsPerUser, suspended, consume } queue
    { headroom, committed := fun _ => 0, blocked := [], held := [] } report

/-- What one pass of the scheduler did. -/
structure TickReport where
  dispatched : List JobId := []
  completed : List JobId := []
  failed : List JobId := []
  settled : List JobId := []
  blockedOnPoolCap : List JobId := []
  blockedOnCapacity : List JobId := []
  blockedOnTenant : List JobId := []
  blockedOnAuthorization : List JobId := []
  stoppedAtCeiling : List JobId := []

/-- Launch a job on the backend chosen for it; a launch that fails leaves it in the queue. -/
def launch (report : TickReport) (job : Job) (placement : Placement γ) : Op γ TickReport := do
  let backend := placement.backend
  match ← external (backend.launch job) with
  | .error detail => do
      appendLog job.jobId s!"launch failed: {detail}"
      pure { report with blockedOnCapacity := report.blockedOnCapacity ++ [job.jobId] }
  | .ok allocation => do
      let handle := allocation.handle
      let job ← recordAttempt job
      let _ ← transition job .allocating
        { reason := .placed backend.name handle job.attempts
          backend := some backend.name
          backendHandle := some handle }
      let name := backend.name
      let gpuType := job.gpuType
      appendLog job.jobId s!"dispatched to {name}/{handle} on {gpuType}"
      let reasoning := placement.oneLine job.gpuType
      appendLog job.jobId s!"placement: {reasoning}"
      pure { report with dispatched := report.dispatched ++ [job.jobId] }

/-- Act on one decision. -/
def dispatchOne (report : TickReport) (job : Job) (action : Action)
    (placement : Option (Placement γ)) : Op γ TickReport := do
  let config ← settings
  let _ ← orRaise (config.gpu job.gpuType)
  match action, placement with
  | .blockedUnauthorized, _ =>
      pure { report with blockedOnAuthorization := report.blockedOnAuthorization ++ [job.jobId] }
  | .blockedPool, _ =>
      pure { report with blockedOnPoolCap := report.blockedOnPoolCap ++ [job.jobId] }
  | .blockedTenant, _ =>
      pure { report with blockedOnTenant := report.blockedOnTenant ++ [job.jobId] }
  | .blockedCapacity, _ =>
      pure { report with blockedOnCapacity := report.blockedOnCapacity ++ [job.jobId] }
  | .dispatch, none =>
      pure { report with blockedOnCapacity := report.blockedOnCapacity ++ [job.jobId] }
  | .dispatch, some placement => launch report job placement

/-- Decide the queue and act on every decision. -/
def dispatch (site : Site γ) (now : Time) (report : TickReport) : Op γ TickReport :=
  decisions site now dispatchOne report

/-- What a look at a running job adds to the report. -/
def TickReport.add (report : TickReport) (job : JobId) (outcome : Outcome) : TickReport :=
  { report with
    settled := if outcome.settled then report.settled ++ [job] else report.settled
    stoppedAtCeiling :=
      if outcome.hitCeiling then report.stoppedAtCeiling ++ [job] else report.stoppedAtCeiling
    completed :=
      if outcome.finalState = some .completed then report.completed ++ [job] else report.completed
    failed :=
      if outcome.finalState = some .failed || outcome.finalState = some .cancelled then
        report.failed ++ [job]
      else report.failed }

/-- Look at one running job and report it. -/
def advanceOne (site : Site γ) (now : Time) (report : TickReport) (job : Job) :
    Op γ TickReport := do
  let outcome ← advance site job now
  pure (report.add job.jobId outcome)

/-- One pass of the broker: settle, observe, order, dispatch. -/
def tick (site : Site γ) : Op γ TickReport := do
  let now ← now
  let jobs ← query Db.activeJobs
  let report ← jobs.foldlM (advanceOne site now) {}
  dispatch site now report

/-! ### Cancelling, reclaiming, reaping -/

/-- The caller may act on the job: its owner, an officer, or the broker itself. -/
def authorize (job : Job) (actor : Option UserId) (admin : Bool) : Op γ Unit :=
  match actor with
  | none => pure ()
  | some actor =>
      if actor = job.userId || admin then pure ()
      else do
        match ← maybeUser actor with
        | some acting =>
            if acting.isAdmin then pure () else .fail (.unauthorized actor)
        | none => .fail (.unauthorized actor)

/-- Stop whatever machine a record names. -/
def terminateHeld (site : Site γ) (job : Job) (why : String) : Op γ Unit :=
  match truthy job.backend, truthy job.backendHandle with
  | some name, some handle =>
      match site.backend name with
      | some backend => externally (backend.terminate handle why)
      | none => pure ()
  | _, _ => pure ()

/-- Stop a job and give back whatever it had not spent. -/
def cancel (site : Site γ) (pre : String) (actor : Option UserId) (admin : Bool) : Op γ Job := do
  let job ← findJob pre
  authorize job actor admin
  if job.state.terminal then .fail (.alreadyTerminal job.jobId job.state)
  else do
    let who := (truthy actor).getD job.userId
    terminateHeld site job s!"cancelled by {who}"
    transition job .cancelled { reason := .cancelledBy who, clearHandle := true }

/-- Ask the scheduler to stop a job. -/
def askToCancel (pre actor : String) : Op γ Job := do
  let job ← findJob pre
  requestCancel job actor

/-- Reclaim one idle job, its owner told first. -/
def reclaimOne (site : Site γ) (verdict : IdleVerdict) : Op γ Unit := do
  let job := verdict.job
  let config ← settings
  let now ← now
  let evidence := site.evidence (verdict.samples.rtake 8)
  let _ ← notify job.userId (some job.jobId)
    (.reclaimed (verdict.idleHours config.calendar now) evidence)
  appendLog job.jobId s!"reclaimed as idle:\n{evidence}"
  terminateHeld site job "reclaimed as idle"
  let _ ← transition job .reclaimed { reason := .idle verdict.reason, clearHandle := true }
  pure ()

/-- What a pass over the idle jobs did. -/
structure ReclaimReport where
  idle : List JobId := []
  ready : List JobId := []
  reclaimed : List JobId := []
  held : List JobId := []

/-- Act on one idle job, or only say what acting would do. -/
def reclaimNext (site : Site γ) (enabled : Bool) (report : ReclaimReport) (verdict : IdleVerdict) :
    Op γ ReclaimReport := do
  let allowed ← reclaimable verdict
  if allowed then do
    let report := { report with ready := report.ready ++ [verdict.job.jobId] }
    if enabled then do
      reclaimOne site verdict
      pure { report with reclaimed := report.reclaimed ++ [verdict.job.jobId] }
    else pure report
  else pure { report with held := report.held ++ [verdict.job.jobId] }

/-- Act on idle jobs, or only say what acting would do. -/
def reclaim (site : Site γ) (force : Bool) : Op γ ReclaimReport := do
  let config ← settings
  let verdicts ← idleJobs
  let report ← verdicts.foldlM (reclaimNext site (config.reclaimEnabled || force)) {}
  let idle ← idleJobs
  pure { report with idle := idle.map fun verdict => verdict.job.jobId }

/-- A machine that is alive with no live job behind it. -/
structure Orphan where
  handle : String
  jobId : Option JobId
  userId : Option UserId
  currency : Currency
  burned : Decimal
  costKnown : Bool

/-- Write down what the orphans have burned; those of unknown cost are left out. -/
def reap (orphans : List Orphan) : Op γ Unit :=
  orphans.foldlM
    (fun _ orphan =>
      if orphan.costKnown then do
        let _ ← recordAbandoned orphan.handle orphan.jobId orphan.userId orphan.currency
          orphan.burned
        pure ()
      else pure ())
    ()

/-- Put a refreshed price book in force. -/
def refreshPrices (book : List (String × Decimal)) : Op γ Unit :=
  executing (.applyPrices book) ()

/-! ### Runs -/

/-- The operations of the broker. -/
inductive Operation where
  | upsertUser (user : UserId) (displayName : Option String) (budgetUsd budgetGpuHours : Option Decimal)
      (isAdmin : Option Bool)
  | suspendUser (user : UserId) (reason actor : String)
  | restoreUser (user : UserId)
  | submit (request : Submission)
  | tick
  | cancel (pre : String) (actor : Option UserId) (admin : Bool)
  | requestCancel (pre actor : String)
  | reclaim (force : Bool)
  | reap (orphans : List Orphan)
  | refreshPrices (book : List (String × Decimal))

/-- The program of an operation. -/
def Operation.program (site : Site γ) (text : Refusal → String) : Operation → Op γ Unit
  | upsertUser user displayName budgetUsd budgetGpuHours isAdmin => do
      let _ ← Broker.upsertUser user displayName budgetUsd budgetGpuHours isAdmin
  | suspendUser user reason actor => do let _ ← Broker.suspendUser user reason actor
  | restoreUser user => do let _ ← Broker.restoreUser user
  | submit request => do let _ ← Broker.submit request text
  | tick => do let _ ← Broker.tick site
  | cancel pre actor admin => do let _ ← Broker.cancel site pre actor admin
  | requestCancel pre actor => do let _ ← askToCancel pre actor
  | reclaim force => do let _ ← Broker.reclaim site force
  | reap orphans => Broker.reap orphans
  | refreshPrices book => Broker.refreshPrices book

end Programs

end GpuBroker.Broker
