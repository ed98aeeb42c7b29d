/-
This file is the deterministic simulator
(`src/controlplane/internal/sim/sim.go`, `Run`): the policy driven tick by tick
over a modelled fleet, arrivals and interruptions.

A tick ends what is over and interrupts what the dice say, lets jobs arrive,
and carries out the decisions of the policy on the queue. Jobs move between the
queue and what runs; where the source only counts the jobs that are through,
the state keeps them. What one draw of the dice says and how much usage decays
in a tick are parameters, and statistics that no decision reads (costs, waits,
carbon, utilization) are left out.
-/
import GpuBroker.ControlPlane.Forecast

namespace GpuBroker.ControlPlane.Sim

open Number

variable {N : Type} [Number N]

/-! ### Scenarios -/

structure WorkerSpec where
  gpus : Int
  gpuModel : String
  memGB : Int

structure PoolSpec (N : Type) where
  id : PoolID
  region : String
  priceUSD : N
  interruptible : Bool
  pue : N
  workers : List WorkerSpec

/-- One arrival. The duration is the true run time, which the scheduler does not know. -/
structure JobSpec where
  id : JobID
  tenant : TenantID
  submit : Duration
  gpus : Int
  gpuModel : String
  minMemGB : Int
  duration : Duration
  maxRuntime : Duration
  priority : Int
  preemptible : Bool
  deadline : Option Duration
  maxDelay : Duration

/-- What is simulated: pools are told apart by their ids, and so are jobs, and time goes on. -/
structure Scenario (N : Type) where
  start : Time
  horizon : Duration
  tick : Duration
  tickPositive : 0 < tick
  pools : List (PoolSpec N)
  poolsDistinct : (pools.map PoolSpec.id).Nodup
  jobs : List JobSpec
  jobsDistinct : (jobs.map JobSpec.id).Nodup
  carbon : String → List (Reading N)
  budgetUSD : N

/-- What a run draws: whether the number of a draw interrupts, and what is left of usage after a tick. -/
structure Chance (N : Type) where
  interrupts : Nat → Bool
  decay : N

variable (sc : Scenario N)

/-- Whole dollars as money. -/
def money (usd : N) : MicroUSD := toMoney (mul usd (ofInt 1000000))

/-- The pool as the policy knows it; the source leaves its kind open. -/
def PoolSpec.pool (ps : PoolSpec N) : Pool where
  id := ps.id
  name := ps.id
  kind := .simulated
  region := ps.region
  pricePerGPUHour := money ps.priceUSD
  interruptible := ps.interruptible

def Scenario.poolSpec (id : PoolID) : Option (PoolSpec N) := sc.pools.find? fun ps => ps.id = id

/-- `%02d`: a number of at least two digits. -/
def twoDigits (i : Nat) : List Char :=
  let digits := Nat.toDigits 10 i
  List.replicate (2 - digits.length) '0' ++ digits

/-- `%s-w%02d`: the name of a pool's worker. -/
def workerName (pool : PoolID) (i : Nat) : WorkerID := String.ofList (pool.toList ++ '-' :: 'w' :: twoDigits i)

/-- The workers of a pool, idle. -/
def PoolSpec.fleet (ps : PoolSpec N) : List Worker :=
  ps.workers.zipIdx.map fun (w, i) =>
    { id := workerName ps.id i, pool := ps.id, name := ""
      capability := { gpuModel := w.gpuModel, gpus := w.gpus, gpuMemGB := w.memGB, runtimes := ["sim"], region := "" }
      gpusReserved := 0, state := .ready, lastHeartbeat := 0, version := 0 }

def Scenario.fleet : List Worker := sc.pools.flatMap PoolSpec.fleet

def Scenario.specOf (id : JobID) : Option JobSpec := sc.jobs.find? fun a => a.id = id

/-- The job an arrival becomes. -/
def Scenario.arrival (a : JobSpec) : Job where
  id := a.id
  tenant := a.tenant
  project := "p-" ++ a.tenant
  image := ""
  command := []
  requirements := { gpus := a.gpus, gpuModel := a.gpuModel, minGPUMemGB := a.minMemGB, runtime := "" }
  priority := a.priority
  preemptible := a.preemptible
  deadline := a.deadline.map fun offset => sc.start + offset
  maxRuntime := a.maxRuntime
  maxDelay := a.maxDelay
  budgetCap := 0
  -- the name of the policy, which no decision reads
  policyName := ""
  allowedPools := []
  maxAttempts := 3
  attempt := 0
  state := .queued
  notBefore := none
  submittedAt := sc.start + a.submit
  startedAt := none
  finishedAt := none
  updatedAt := 0
  version := 0

/-! ### The state of a run -/

structure Running (N : Type) where
  job : Job
  worker : WorkerID
  pool : PoolSpec N
  started : Time
  finish : Time

/-- `completed`, `expired` and `lost` are the jobs the source counts: the lost are the ones that an interruption left
without another attempt. -/
structure State (N : Type) where
  workers : List Worker
  arrivals : List JobSpec
  queue : List Job
  run : List (Running N)
  completed : List Job
  expired : List Job
  lost : List Job
  usage : List (TenantID × N)
  avail : ProjectID → Option MicroUSD
  lastWait : JobID → String
  draws : Nat
  interruptions : Nat
  preemptions : Nat
  delays : Nat
  fallbackDecisions : Nat
  decisions : Nat
  decideCalls : Nat
  deadlineJobs : Nat
  deadlineMisses : Nat

/-- The state before the first tick: the arrivals by their time of submission. -/
def Scenario.initial : State N where
  workers := sc.fleet
  arrivals := sc.jobs.mergeSort fun one other => one.submit ≤ other.submit
  queue := []
  run := []
  completed := []
  expired := []
  lost := []
  usage := []
  avail := fun _ => none
  lastWait := fun _ => ""
  draws := 0
  interruptions := 0
  preemptions := 0
  delays := 0
  fallbackDecisions := 0
  decisions := 0
  decideCalls := 0
  deadlineJobs := 0
  deadlineMisses := 0

/-- Reserve GPUs of a worker, or give them back. -/
def reserve (id : WorkerID) (gpus : Int) (workers : List Worker) : List Worker :=
  workers.map fun w => if w.id = id then { w with gpusReserved := w.gpusReserved + gpus } else w

/-- Add to a tenant's usage. -/
def charge (tenant : TenantID) (used : N) (usage : List (TenantID × N)) : List (TenantID × N) :=
  if usage.any fun entry => entry.1 = tenant then
    usage.map fun entry => if entry.1 = tenant then (entry.1, add entry.2 used) else entry
  else usage ++ [(tenant, add (ofInt 0) used)]

/-- A running job goes back to the queue. -/
def Running.requeued (r : Running N) : Job := { r.job with state := .queued, notBefore := none }

/-! ### Completions, interruptions and arrivals -/

/-- Go over what runs: what is over completes, what the dice interrupt goes back, the rest stays. -/
def settle (chance : Chance N) (now : Time) : List (Running N) → State N → State N
  | [], s => s
  | r :: rest, s =>
      if r.finish ≤ now then
        settle chance now rest
          { s with
            completed := s.completed ++ [r.job]
            workers := reserve r.worker (-r.job.requirements.gpus) s.workers
            usage := charge r.job.tenant (mul (ofInt r.job.requirements.gpus) (hours (r.finish - r.started))) s.usage }
      else if r.pool.interruptible ∧ chance.interrupts s.draws then
        let s :=
          { s with
            draws := s.draws + 1
            interruptions := s.interruptions + 1
            workers := reserve r.worker (-r.job.requirements.gpus) s.workers }
        settle chance now rest
          (if r.job.attempt < r.job.maxAttempts then { s with queue := s.queue ++ [r.requeued] }
          else { s with lost := s.lost ++ [r.job] })
      else
        settle chance now rest
          { s with
            draws := if r.pool.interruptible then s.draws + 1 else s.draws
            run := s.run ++ [r] }

/-- Let the next arrivals in, up to the first that is later than now. -/
def arrive (now : Time) : List JobSpec → State N → State N
  | [], s => { s with arrivals := [] }
  | a :: rest, s =>
      if sc.start + a.submit ≤ now then
        let j := sc.arrival a
        arrive now rest
          { s with
            queue := s.queue ++ [j]
            avail := if (s.avail j.project).isNone then
              Function.update s.avail j.project (some (money sc.budgetUSD)) else s.avail
            deadlineJobs := if a.deadline.isSome then s.deadlineJobs + 1 else s.deadlineJobs }
      else { s with arrivals := a :: rest }

/-! ### Decisions -/

def Running.listed (r : Running N) : RunningJob where
  job := r.job.id
  worker := r.worker
  gpus := r.job.requirements.gpus
  priority := r.job.priority
  preemptible := r.job.preemptible && decide (r.job.attempt < r.job.maxAttempts)
  startedAt := r.started

/-- What the policy decides on, if no two jobs in the queue and no two workers have one id. -/
def snapshot (now : Time) (s : State N) : Option (Snapshot N) :=
  if distinct : (s.queue.map Job.id).Nodup ∧ (s.workers.map Worker.id).Nodup then
    some
      { now := now
        jobs := s.queue
        jobsDistinct := distinct.1
        workers := s.workers
        workersDistinct := distinct.2
        pools := fun id => (sc.poolSpec id).map PoolSpec.pool
        pue := fun id => ((sc.poolSpec id).map PoolSpec.pue).getD (ofInt 0)
        running := s.run.map Running.listed
        tenantUsage := s.usage
        tenantActiveGPUs := fun _ => 0
        tenantMaxGPUs := fun _ => none
        projectAvailable := s.avail
        carbon := fun region => (EcoShift.carbonAt sc.carbon now region).getD
          { current := none, forecast := [], forecastModel := "" } }
  else none

/-- The state of the loop over the decisions, with the jobs that leave the queue after it. -/
structure Applying (N : Type) where
  state : State N
  remove : List JobID

/-- Place a job of the queue. -/
def place (now : Time) (d : PolicyDecision N) (j : Job) (p : Applying N) : Applying N :=
  let j := { j with attempt := j.attempt + 1, state := .running }
  let duration := ((sc.specOf j.id).map JobSpec.duration).getD 0
  let finish := if duration > j.maxRuntime then now + j.maxRuntime else now + duration
  let pool := (sc.poolSpec d.chosenPool).getD
    { id := "", region := "", priceUSD := ofInt 0, interruptible := false, pue := ofInt 0, workers := [] }
  let cost := costOf ((sc.poolSpec d.chosenPool).elim 0 fun ps => ps.pool.pricePerGPUHour) j.requirements.gpus
    (finish - now)
  { state :=
      { p.state with
        workers := reserve d.chosenWorker j.requirements.gpus p.state.workers
        deadlineMisses := if j.deadline.any fun deadline => deadline < finish then p.state.deadlineMisses + 1
          else p.state.deadlineMisses
        avail := Function.update p.state.avail j.project (some ((p.state.avail j.project).getD 0 - cost))
        run := p.state.run ++ [{ job := j, worker := d.chosenWorker, pool := pool, started := now, finish := finish }] }
    remove := j.id :: p.remove }

/-- Drop a job whose deadline has passed. -/
def expire (j : Job) (p : Applying N) : Applying N where
  state :=
    { p.state with
      expired := p.state.expired ++ [j]
      deadlineMisses := if j.deadline.isSome then p.state.deadlineMisses + 1 else p.state.deadlineMisses }
  remove := j.id :: p.remove

/-- Put a running job back into the queue. -/
def preempt (r : Running N) (p : Applying N) : Applying N :=
  { p with
    state :=
      { p.state with
        preemptions := p.state.preemptions + 1
        workers := reserve r.worker (-r.job.requirements.gpus) p.state.workers
        queue := p.state.queue ++ [r.requeued]
        run := p.state.run.eraseP fun other => other.job.id = r.job.id } }

/-- Carry out what a decision says; jobs are looked up by their ids, which index the queue. -/
def carryOut (now : Time) (d : PolicyDecision N) (p : Applying N) : Applying N :=
  match d.action with
  | .place =>
      match p.state.queue.find? fun j => j.id = d.job with
      | some j => place sc now d j p
      | none => p
  | .delay =>
      { p with
        state :=
          { p.state with
            queue := p.state.queue.map fun j => if j.id = d.job then { j with notBefore := d.delayUntil } else j
            delays := p.state.delays + 1 } }
  | .expire =>
      match p.state.queue.find? fun j => j.id = d.job with
      | some j => expire j p
      | none => p
  | .preempt =>
      match p.state.run.find? fun r => r.job.id = d.victim with
      | some r => preempt r p
      | none => p
  | .wait => p

/-- One decision: an unchanged wait is not a new one. -/
def applyDecision (now : Time) (p : Applying N) (d : PolicyDecision N) : Applying N :=
  let s := if d.fallbacks ≠ [] then { p.state with fallbackDecisions := p.state.fallbackDecisions + 1 } else p.state
  if d.action = .wait ∧ s.lastWait d.job = d.reason then { p with state := s }
  else
    carryOut sc now d
      { p with
        state :=
          { s with
            decisions := s.decisions + 1
            lastWait := Function.update s.lastWait d.job d.reason } }

/-- Carry out the decisions on a snapshot, then drop from the queue what leaves it. -/
def applyAll (now : Time) (decisions : List (PolicyDecision N)) (s : State N) : State N :=
  let p := decisions.foldl (applyDecision sc now) { state := { s with decideCalls := s.decideCalls + 1 }, remove := [] }
  { p.state with queue := p.state.queue.filter fun j => !p.remove.contains j.id }

/-! ### The run -/

/-- One tick. -/
def tick (policy : Policy N) (digest : Snapshot N → String) (chance : Chance N) (s : State N) (now : Time) : State N :=
  let s := { s with usage := s.usage.map fun ((tenant, used) : TenantID × N) => (tenant, mul used chance.decay) }
  let s := settle chance now s.run { s with run := [] }
  let s := arrive sc now s.arrivals s
  if s.queue.isEmpty then s
  else
    match snapshot sc now s with
    | none => s
    | some snap => applyAll sc now (policy.decide snap (digest snap)) s

/-- The times of the ticks. -/
def Scenario.ticks : List Time := EcoShift.timesTo sc.tick sc.start (sc.start + sc.horizon - 1)

/-- The state after the ticks at some times. -/
def after (policy : Policy N) (digest : Snapshot N → String) (chance : Chance N) (times : List Time) : State N :=
  times.foldl (tick sc policy digest chance) sc.initial

/-- The counts a run reports. -/
structure Result where
  jobs : Nat
  completed : Nat
  expired : Nat
  unfinished : Nat
  interruptions : Nat
  preemptions : Nat
  delays : Nat
  fallbackDecisions : Nat
  decisions : Nat
  decideCalls : Nat
  deadlineJobs : Nat
  deadlineMisses : Nat
  deriving DecidableEq

end GpuBroker.ControlPlane.Sim
