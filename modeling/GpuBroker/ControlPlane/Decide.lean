/-
This file is the policy's decision: one pass over the queue that places, delays,
preempts, expires or leaves waiting each job, against what the jobs before it in
the pass have left.

The pass threads four remaining resources. A placement passed the filter against
what was left at its turn and takes its GPUs and its cost from that; every other
decision leaves it. So whatever a pass gives out of a worker, a project or a
tenant's quota was there at its start, and nothing a score does can change that,
because scoring only chooses among workers that passed.
-/
import GpuBroker.ControlPlane.Scoring
import GpuBroker.Library.Pass

namespace GpuBroker.ControlPlane

open Library

section

variable {N : Type} [Number N]

open Number

/-- The record of what a policy decided for one job, with enough of its inputs to explain it. -/
structure PolicyDecision (N : Type) extends Decision where
  order : OrderKey N
  considered : Nat
  rejected : List Rejection
  candidates : List (Candidate N)
  expectedStart : Option Time
  carbonEffect : Option N
  carbonBasis : String
  carbonSource : String
  carbonSaved : Option N

/-! ### The gates of a job -/

/-- The job was delayed until later. -/
def Job.delayed (job : Job) (now : Time) (policy : Policy N) : Bool :=
  job.notBefore.any (fun time => now < time) && !policy.emergency

def Job.pastDeadline (job : Job) (now : Time) : Bool := job.deadline.any fun time => ¬ now < time

/-- With this many GPUs active the job would take its tenant past its maximum; a maximum of 0 is
none. -/
def Job.overQuota (job : Job) (max : Option Int) (active : Int) : Bool :=
  max.any fun max => max > 0 && active + job.requirements.gpus > max

/-- The workers a starving job may be kept, each with the job it is kept for. -/
abbrev Held := WorkerID → Option JobID

/-- The worker with the most free GPUs among those no one holds that could host the job once
drained. -/
def protectedFor (job : Job) (workers : List Worker) (snapshot : Snapshot N) (held : Held) :
    Option Worker :=
  (workers.filter fun worker => (held worker.id).isNone &&
    (filter job worker (snapshot.pool worker.pool) worker.capability.gpus held
      snapshot.projectAvailable).isNone).foldl
    (fun pick worker =>
      match pick with
      | none => some worker
      | some best => if worker.freeGPUs > best.freeGPUs then some worker else some best) none

/-- Protect one worker for a job that has waited past the guard and passes every other gate. -/
def guardStarvation (snapshot : Snapshot N) (policy : Policy N) (workers : List Worker)
    (held : Held) (job : Job) : Held :=
  if policy.starvationGuard ≤ 0 ∨ snapshot.now - job.submittedAt < policy.starvationGuard then held
  else if job.delayed snapshot.now policy then held
  else if job.pastDeadline snapshot.now then held
  else if job.overQuota (snapshot.tenantMaxGPUs job.tenant) (snapshot.tenantActiveGPUs job.tenant)
    then held
  else match protectedFor job workers snapshot held with
    | none => held
    | some worker => Function.update held worker.id (some job.id)

/-- The workers by id. -/
def Snapshot.sorted (snapshot : Snapshot N) : List Worker :=
  snapshot.workers.insertionSort fun one two => ¬ two.id < one.id

/-- The protected workers, chosen before any placement, oldest job first. -/
def heldWorkers (snapshot : Snapshot N) (policy : Policy N) : Held :=
  let byAge := ((orderJobs snapshot policy).map OrderedJob.job).insertionSort fun one two =>
    ¬ older two one
  byAge.foldl (guardStarvation snapshot policy snapshot.sorted) fun _ => none

/-! ### Preemption and delay -/

/-- What the decisions of a pass have left. -/
structure Left where
  free : WorkerID → Int
  avail : ProjectID → Option MicroUSD
  active : TenantID → Int
  preempted : List JobID

def Left.start (snapshot : Snapshot N) : Left where
  free id := ((snapshot.workers.find? fun worker => worker.id = id).map Worker.freeGPUs).getD 0
  avail := snapshot.projectAvailable
  active := snapshot.tenantActiveGPUs
  preempted := []

/-- Lowest priority first, then the most recently started, then by id. -/
def spareable (one two : RunningJob) : Bool :=
  if one.priority ≠ two.priority then decide (one.priority < two.priority)
  else if one.startedAt ≠ two.startedAt then decide (one.startedAt > two.startedAt)
  else decide (one.job < two.job)

/-- A running preemptible job of strictly lower priority whose removal lets the job fit. -/
def pickVictim (job : Job) (snapshot : Snapshot N) (held : Held) (left : Left) :
    Option (RunningJob × Worker) :=
  let victims := snapshot.running.filterMap fun running =>
    if ¬ running.preemptible ∨ running.priority ≥ job.priority ∨
        left.preempted.contains running.job then none
    else match snapshot.workers.find? fun worker => worker.id = running.worker with
      | none => none
      | some worker =>
          if worker.state ≠ .ready then none
          else if (filter job worker (snapshot.pool worker.pool)
              (left.free worker.id + running.gpus) held left.avail).isSome then none
          else some (running, worker)
  (victims.insertionSort fun one two => ¬ spareable two.1 one.1).head?

/-- Whether waiting for cleaner power is worth it, until when, and the grams it saves. -/
def delayFor (job : Job) (best : Candidate N) (pool : Pool) (snapshot : Snapshot N)
    (policy : Policy N) (fallbacks : List String) : Option (Time × N) :=
  match best.carbonGrams, (snapshot.carbon pool.region).current with
  | some grams, some current =>
      let carbon := snapshot.carbon pool.region
      if ¬ policy.allowDelay ∨ policy.emergency ∨ job.maxDelay ≤ 0 ∨ fallbacks ≠ [] ∨
          carbon.forecastModel = "" ∨ job.notBefore.isSome then none
      else
        let window := snapshot.now + job.maxDelay
        let limit := (job.deadline.map fun deadline => min window (deadline - job.maxRuntime)).getD
          window
        let lowest := carbon.forecast.foldl (fun lowest point =>
          if snapshot.now < point.time ∧ point.time ≤ limit ∧ less point.high lowest.2 then
            (some point.time, point.high) else lowest) (none, current.gramsPerKWh)
        match lowest with
        | (none, _) => none
        | (some time, high) =>
            let gain := sub current.gramsPerKWh high
            if less (ofInt 0) current.gramsPerKWh ∧
                ¬ less (div gain current.gramsPerKWh) policy.delayMinImprovement then
              some (time, round6 (div (mul grams gain) current.gramsPerKWh))
            else none
  | _, _ => none

/-! ### The pass -/

/-- The most common reason of a list of rejections, ties by its code. -/
def summarize (rejected : List Rejection) : String :=
  let count := fun reason => (rejected.filter fun rejection => rejection.reason = reason).length
  let reasons := ((rejected.map Rejection.reason).dedup).insertionSort fun one two =>
    ¬ (count two > count one ∨ count two = count one ∧ two.text < one.text)
  match reasons.head? with
  | none => "no workers registered"
  | some reason =>
      "no candidate: " ++ reason.text ++ " on " ++ toString (count reason) ++ " of " ++
        toString rejected.length ++ " workers"

/-- A span rounded to minutes, as the source prints it. -/
def minutesText (span : Duration) : String :=
  let minutes := (span + 30 * second) / minute
  if minutes = 0 then "0s"
  else if minutes < 60 then toString minutes ++ "m0s"
  else toString (minutes / 60) ++ "h" ++ toString (minutes % 60) ++ "m0s"

/-- What every decision for a job starts from. -/
def blank (ordered : OrderedJob N) (policy : Policy N) (digest : String) : PolicyDecision N where
  job := ordered.job.id
  tenant := ordered.job.tenant
  policyVersion := policy.version
  action := .wait
  reason := ""
  chosenWorker := ""
  chosenPool := ""
  delayUntil := none
  budgetEffect := 0
  priceRate := 0
  fallbacks := []
  victim := ""
  inputDigest := digest
  order := ordered.key
  considered := 0
  rejected := []
  candidates := []
  expectedStart := none
  carbonEffect := none
  carbonBasis := ""
  carbonSource := ""
  carbonSaved := none

/-- Where the intensity of a region came from. -/
def Snapshot.carbonSource (snapshot : Snapshot N) (region : String) : String :=
  ((snapshot.carbon region).current.map Reading.source).getD ""

/-- The workers that pass the filter for a job with what is left. -/
def survivors (job : Job) (snapshot : Snapshot N) (held : Held) (left : Left) :
    List CandidateInput :=
  (snapshot.sorted.filter fun worker =>
    (filter job worker (snapshot.pool worker.pool) (left.free worker.id) held left.avail).isNone).map
    fun worker => { worker, pool := snapshot.pool worker.pool, free := left.free worker.id }

/-- The rejections of the others. -/
def rejections (job : Job) (snapshot : Snapshot N) (held : Held) (left : Left) : List Rejection :=
  snapshot.sorted.filterMap fun worker =>
    filter job worker (snapshot.pool worker.pool) (left.free worker.id) held left.avail

/-- What is left after a placement. -/
def Left.take (left : Left) (job : Job) (worker : WorkerID) (cost : MicroUSD) : Left :=
  { left with
    free := Function.update left.free worker (left.free worker - job.requirements.gpus)
    avail := Function.update left.avail job.project
      (some ((left.avail job.project).getD 0 - cost))
    active := Function.update left.active job.tenant
      (left.active job.tenant + job.requirements.gpus) }

/-- The decision for a job no worker passes the filter for. -/
def decideStuck (snapshot : Snapshot N) (policy : Policy N) (held : Held) (left : Left) (job : Job)
    (draft : PolicyDecision N) : PolicyDecision N × Left :=
  match if policy.allowPreemption then pickVictim job snapshot held left else none with
  | some (victim, worker) =>
      ({ draft with
          action := .preempt, victim := victim.job, chosenWorker := worker.id
          chosenPool := worker.pool
          reason := "no free capacity; preempting lower-priority job (priority " ++
            toString victim.priority ++ " < " ++ toString job.priority ++ ")" },
        { left with preempted := victim.job :: left.preempted })
  | none => ({ draft with action := .wait, reason := summarize draft.rejected }, left)

/-- The decision for a job with a best candidate. -/
def decideBest (snapshot : Snapshot N) (policy : Policy N) (left : Left) (job : Job)
    (best : Candidate N) (draft : PolicyDecision N) : PolicyDecision N × Left :=
  let pool := snapshot.pool best.pool
  match delayFor job best pool snapshot policy draft.fallbacks with
  | some (time, saved) =>
      ({ draft with
          action := .delay, delayUntil := some time, expectedStart := some time
          carbonSaved := some saved, carbonBasis := energyBasis
          carbonSource := snapshot.carbonSource best.region, chosenPool := best.pool
          reason := "forecast intensity in " ++ best.region ++
            " is lower by more than its uncertainty; delaying " ++
            minutesText (time - snapshot.now) }, left)
  | none =>
      ({ draft with
          action := .place, chosenWorker := best.worker, chosenPool := best.pool
          expectedStart := some snapshot.now, budgetEffect := best.cost
          priceRate := pool.pricePerGPUHour, carbonEffect := best.carbonGrams
          carbonBasis := if best.carbonGrams.isSome then energyBasis else ""
          carbonSource :=
            if best.carbonGrams.isSome then snapshot.carbonSource best.region else ""
          reason := "best of " ++ toString draft.candidates.length ++ " candidates (score " ++
            fixed3 best.score ++ ")" }, left.take job best.worker best.cost)

/-- The decision for one job, and what it leaves. -/
def decideJob (snapshot : Snapshot N) (policy : Policy N) (digest : String) (held : Held)
    (left : Left) (ordered : OrderedJob N) : PolicyDecision N × Left :=
  let job := ordered.job
  let draft := blank ordered policy digest
  if job.pastDeadline snapshot.now then
    ({ draft with action := .expire, reason := "deadline passed before the job could start" }, left)
  else if job.delayed snapshot.now policy then
    ({ draft with
        action := .wait, reason := "delayed by an earlier EcoShift decision"
        expectedStart := job.notBefore }, left)
  else if job.overQuota (snapshot.tenantMaxGPUs job.tenant) (left.active job.tenant) then
    ({ draft with
        action := .wait
        reason := "tenant GPU quota: " ++ toString (left.active job.tenant) ++ " active + " ++
          toString job.requirements.gpus ++ " requested > " ++
          toString ((snapshot.tenantMaxGPUs job.tenant).getD 0) }, left)
  else
    let draft := { draft with
      considered := snapshot.workers.length, rejected := rejections job snapshot held left }
    let (candidates, fallbacks) := score job (survivors job snapshot held left) snapshot policy
    match candidates with
    | [] => decideStuck snapshot policy held left job draft
    | best :: _ =>
        decideBest snapshot policy left job best { draft with candidates, fallbacks }

/-- One decision per queued job of the snapshot, in queue order. The digest of the snapshot is
stored on each. -/
def Policy.decide (policy : Policy N) (snapshot : Snapshot N) (digest : String) :
    List (PolicyDecision N) :=
  outputs (decideJob snapshot policy digest (heldWorkers snapshot policy)) (orderJobs snapshot policy)
    (Left.start snapshot)

end

end GpuBroker.ControlPlane
