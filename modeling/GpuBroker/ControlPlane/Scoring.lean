/-
This file is what a policy reads and how it ranks: the snapshot of a tick, the
order of the queue, and the scores of the workers that survive the filter.

The source computes scores in floating point. Here the numbers are a parameter
with the operations the source uses, so that nothing proved about a decision
rests on how a score comes out. Maps are functions, absent keys included, except
where the source runs over all entries of one.
-/
import GpuBroker.ControlPlane.Policy
import GpuBroker.ControlPlane.Store
import Mathlib.Data.List.Sort

namespace GpuBroker.ControlPlane

/-- The numbers of the scores. `less` and `same` are the comparisons, `round` is rounding to a whole
number, `toMoney` the conversion back to micro-dollars and `fixed3` the text with three decimals. -/
class Number (N : Type) where
  ofInt : Int → N
  toMoney : N → MicroUSD
  add : N → N → N
  sub : N → N → N
  mul : N → N → N
  div : N → N → N
  less : N → N → Bool
  same : N → N → Bool
  round : N → N
  fixed3 : N → String

/-! ### Policies and snapshots -/

inductive QueueOrdering
  | fifo | priorityAging | fairShare | deadline
  deriving DecidableEq

/-- What a policy does when the carbon data it depends on is stale. -/
inductive Fallback
  | unset | cost | deadline
  deriving DecidableEq

/-- The fallback's text. -/
def Fallback.text : Fallback → String
  | unset => ""
  | cost => "cost"
  | deadline => "deadline"

structure Weights (N : Type) where
  fit : N
  cost : N
  carbon : N
  deadline : N

structure FairShare (N : Type) where
  wFair : N
  wAge : N
  ageMax : Duration

structure Policy (N : Type) where
  version : String
  ordering : QueueOrdering
  weights : Weights N
  agingStep : Duration
  maxAgingBoost : N
  fairShare : FairShare N
  priorityWeight : N
  /-- A job that has waited this long protects one worker from backfill until it can start; 0
  disables the guard. -/
  starvationGuard : Duration
  allowPreemption : Bool
  allowDelay : Bool
  delayMinImprovement : N
  carbonMaxAge : Duration
  fallback : Fallback
  emergency : Bool

/-- One carbon intensity of a region. -/
structure Reading (N : Type) where
  time : Time
  gramsPerKWh : N
  source : String

/-- A predicted intensity with the upper end of its band. -/
structure ForecastPoint (N : Type) where
  time : Time
  high : N

/-- What a decision knows about a region's carbon; an empty model means no trusted forecast. -/
structure RegionCarbon (N : Type) where
  current : Option (Reading N)
  forecast : List (ForecastPoint N)
  forecastModel : String

/-- What preemption needs to know about a job that holds capacity. -/
structure RunningJob where
  job : JobID
  worker : WorkerID
  gpus : Int
  priority : Int
  preemptible : Bool
  startedAt : Time
  deriving DecidableEq

/-- The complete input to one scheduling tick; jobs and workers are rows of tables, so no two share
an id. -/
structure Snapshot (N : Type) where
  now : Time
  /-- Queued jobs only. -/
  jobs : List Job
  jobsDistinct : (jobs.map Job.id).Nodup
  workers : List Worker
  workersDistinct : (workers.map Worker.id).Nodup
  pools : PoolID → Option Pool
  pue : PoolID → N
  running : List RunningJob
  tenantUsage : List (TenantID × N)
  tenantActiveGPUs : TenantID → Int
  tenantMaxGPUs : TenantID → Option Int
  projectAvailable : ProjectID → Option MicroUSD
  carbon : String → RegionCarbon N

/-- A pool that is missing reads as the empty one. -/
def Snapshot.pool {N : Type} (snapshot : Snapshot N) (id : PoolID) : Pool :=
  (snapshot.pools id).getD
    { id := "", name := "", kind := .simulated, region := "", pricePerGPUHour := 0
      interruptible := false }

section

variable {N : Type} [Number N]

open Number

/-! ### Arithmetic -/

def round6 (x : N) : N := div (round (mul x (ofInt 1000000))) (ofInt 1000000)

def least (one two : N) : N := if less two one then two else one

def greatest (one two : N) : N := if less one two then two else one

/-- A span in hours. -/
def hours (span : Duration) : N :=
  add (ofInt (span.tdiv hour)) (div (ofInt (span.tmod hour)) (ofInt hour))

/-! ### The order of the queue -/

structure OrderKey (N : Type) where
  position : Nat
  score : N

structure OrderedJob (N : Type) where
  job : Job
  key : OrderKey N

/-- Each tenant's part of all usage; nobody has one when there is none. -/
def usageShares (usage : List (TenantID × N)) (tenant : TenantID) : N :=
  let total := usage.foldl (fun sum entry => add sum entry.2) (ofInt 0)
  if less (ofInt 0) total then
    ((usage.lookup tenant).map fun used => div used total).getD (ofInt 0)
  else ofInt 0

/-- The Python broker's priority function, term for term. -/
def fairShareScore (fair : FairShare N) (share : N) (wait : Duration) : N :=
  add (mul fair.wFair (sub (ofInt 1) share))
    (mul fair.wAge (least (ofInt 1) (div (hours wait) (hours fair.ageMax))))

/-- What places a job in the queue; a higher score goes first. -/
def orderKey (job : Job) (now : Time) (share : TenantID → N) (policy : Policy N) : N :=
  let wait := max 0 (now - job.submittedAt)
  match policy.ordering with
  | .fifo => ofInt 0
  | .priorityAging =>
      round6 (add (ofInt job.priority)
        (least policy.maxAgingBoost (div (ofInt wait) (ofInt policy.agingStep))))
  | .fairShare =>
      let score := fairShareScore policy.fairShare (share job.tenant) wait
      round6 (if less (ofInt 0) policy.priorityWeight then
        add score (mul policy.priorityWeight (ofInt job.priority)) else score)
  | .deadline =>
      match job.deadline with
      | none => add (ofInt (-1000000000000)) (hours wait)
      | some deadline =>
          round6 (sub (ofInt 0) (hours (deadline - now - job.maxRuntime)))

/-- Older first, then by id. -/
def older (one two : Job) : Bool :=
  if one.submittedAt = two.submittedAt then decide (one.id < two.id)
  else decide (one.submittedAt < two.submittedAt)

def ahead (one two : OrderedJob N) : Bool :=
  if same one.key.score two.key.score then older one.job two.job
  else less two.key.score one.key.score

/-- A queued job with its place still open. -/
def Snapshot.keyed (snapshot : Snapshot N) (policy : Policy N) (job : Job) : OrderedJob N where
  job := job
  key :=
    { position := 0
      score := orderKey job snapshot.now (usageShares snapshot.tenantUsage) policy }

/-- The queue in the policy's order. -/
def orderJobs (snapshot : Snapshot N) (policy : Policy N) : List (OrderedJob N) :=
  ((snapshot.jobs.map (snapshot.keyed policy)).insertionSort fun one two =>
    ¬ ahead two one).zipIdx.map fun (ordered, index) =>
      { ordered with key := { ordered.key with position := index + 1 } }

/-! ### Scores -/

/-- Vendor board power in watts. -/
def boardPowerWatts : String → Option Int
  | "t4" => some 70
  | "l4" => some 72
  | "a10g" => some 150
  | "a6000" => some 300
  | "l40s" => some 350
  | "a100" => some 400
  | "h100" => some 700
  | "vgpu" => some 0
  | _ => none

def energyBasis : String := "estimate:board-power-tdp"

/-- The energy of a run, unknown for a model without a published board power. -/
def energyKWh (model : String) (gpus : Int) (span : Duration) (pue : N) : Option N :=
  (boardPowerWatts model).map fun watts =>
    let pue := if less pue (ofInt 1) then ofInt 1 else pue
    div (mul (mul (mul (ofInt watts) (ofInt gpus)) (hours span)) pue) (ofInt 1000)

/-- The current reading, if it is no older than the limit. -/
def RegionCarbon.fresh (carbon : RegionCarbon N) (now : Time) (maxAge : Duration) :
    Option (Reading N) :=
  carbon.current.filter fun reading =>
    -(30 * minute) ≤ now - reading.time ∧ now - reading.time ≤ maxAge

def Policy.maxAge (policy : Policy N) : Duration :=
  if policy.carbonMaxAge > 0 then policy.carbonMaxAge else 2 * hour

structure ScoreComponent (N : Type) where
  name : String
  raw : N
  normalized : N
  weight : N
  contribution : N

structure Candidate (N : Type) where
  worker : WorkerID
  pool : PoolID
  region : String
  score : N
  components : List (ScoreComponent N)
  cost : MicroUSD
  carbonGrams : Option N

/-- A worker that passed the filter. -/
structure CandidateInput where
  worker : Worker
  pool : Pool
  free : Int

/-- The carbon of a run on a candidate, or why it is not known. -/
def carbonOf (job : Job) (snapshot : Snapshot N) (policy : Policy N) (input : CandidateInput) :
    Except String N :=
  match energyKWh input.worker.capability.gpuModel job.requirements.gpus job.maxRuntime
      (snapshot.pue input.worker.pool) with
  | none => .error ("gpu_power_unknown:" ++ input.worker.capability.gpuModel)
  | some kwh =>
      match (snapshot.carbon input.pool.region).fresh snapshot.now policy.maxAge with
      | none => .error ("carbon_stale:" ++ input.pool.region)
      | some reading => .ok (mul kwh reading.gramsPerKWh)

def appendOnce (texts : List String) (text : String) : List String :=
  if texts.contains text then texts else texts ++ [text]

/-- Every reason why a candidate's carbon is not known, once. -/
def carbonGaps (carbons : List (Except String N)) : List String :=
  carbons.foldl (fun texts carbon =>
    match carbon with
    | .error text => appendOnce texts text
    | .ok _ => texts) []

/-- The weights without the carbon term, with the fallback's term in its place. -/
def Policy.fallbackWeights (policy : Policy N) : Weights N :=
  let weights := { policy.weights with carbon := ofInt 0 }
  match policy.fallback with
  | .cost => if same weights.cost (ofInt 0) then { weights with cost := ofInt 1 } else weights
  | .deadline =>
      if same weights.deadline (ofInt 0) then { weights with deadline := ofInt 1 } else weights
  | .unset => weights

def normalizeLowerBetter (values : List N) : List N :=
  match values with
  | [] => []
  | first :: _ =>
      let low := values.foldl least first
      let high := values.foldl greatest first
      values.map fun x => if same high low then ofInt 1 else div (sub high x) (sub high low)

def component (name : String) (raw norm weight : N) : ScoreComponent N where
  name := name
  raw := round6 raw
  normalized := round6 norm
  weight := weight
  contribution := round6 (mul norm weight)

/-- One candidate, from its cost and carbon with their normalised values. -/
def candidate (job : Job) (weights : Weights N) (input : CandidateInput) (cost costNorm : N)
    (carbon : Option N) (carbonNorm : N) : Candidate N :=
  let leftover := input.free - job.requirements.gpus
  let fit := if input.worker.capability.gpus > 0 then
    sub (ofInt 1) (div (ofInt leftover) (ofInt input.worker.capability.gpus)) else ofInt 1
  -- a deadline job on capacity that can vanish
  let deadlineRaw := if job.deadline.isSome ∧ input.pool.interruptible then ofInt 0 else ofInt 1
  let components :=
    [component "fit" (ofInt leftover) fit weights.fit,
      component "cost" cost costNorm weights.cost,
      component "deadline" deadlineRaw deadlineRaw weights.deadline,
      match carbon with
      | some grams => component "carbon" grams carbonNorm weights.carbon
      | none =>
          { name := "carbon", raw := ofInt 0, normalized := ofInt 0, weight := weights.carbon
            contribution := ofInt 0 }]
  let total := components.foldl (fun sum part => add sum part.contribution) (ofInt 0)
  { worker := input.worker.id, pool := input.worker.pool, region := input.pool.region
    score := round6 total, components, cost := toMoney cost, carbonGrams := carbon }

def better (one two : Candidate N) : Bool :=
  if same one.score two.score then decide (one.worker < two.worker) else less two.score one.score

/-- Every surviving candidate with its components, best first, and the fallbacks. Carbon is
all-or-nothing: if any candidate's is not known the carbon term is dropped for all of them. -/
def score (job : Job) (inputs : List CandidateInput) (snapshot : Snapshot N) (policy : Policy N) :
    List (Candidate N) × List String :=
  let costs : List N := inputs.map fun input => ofInt (job.costIn input.pool)
  let carbons := inputs.map (carbonOf job snapshot policy)
  let usable := less (ofInt 0) policy.weights.carbon
  let gaps := if usable then carbonGaps carbons else []
  let (weights, fallbacks) :=
    if gaps = [] then (policy.weights, [])
    else (policy.fallbackWeights, gaps ++ ["fallback:" ++ policy.fallback.text])
  let carbonNorms := normalizeLowerBetter (carbons.map fun carbon => carbon.toOption.getD (ofInt 0))
  let parts := (costs.zip (normalizeLowerBetter costs)).zip (carbons.zip carbonNorms)
  let candidates := (inputs.zip parts).map fun (input, (cost, costNorm), (carbon, carbonNorm)) =>
    candidate job weights input cost costNorm carbon.toOption carbonNorm
  (candidates.insertionSort fun one two => ¬ better two one, fallbacks)

end

end GpuBroker.ControlPlane
