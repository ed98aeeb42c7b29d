/-
This file is the policy's eligibility filter: which worker may be considered
for a job at all, and the rejection recorded for one that may not.
-/
import GpuBroker.ControlPlane.Domain

namespace GpuBroker.ControlPlane

structure Rejection where
  worker : WorkerID
  pool : PoolID
  reason : RejectReason
  detail : String
  deriving DecidableEq

/-- Why a worker with some free GPUs is not a candidate for a job, if it is not. `held` names the
starving job a worker is kept for, and `avail` what a project may still hold. -/
def filter (job : Job) (worker : Worker) (pool : Pool) (free : Int)
    (held : WorkerID → Option JobID) (avail : ProjectID → Option MicroUSD) : Option Rejection :=
  let rej := fun reason detail =>
    some { worker := worker.id, pool := worker.pool, reason, detail : Rejection }
  if job.allowedPools ≠ [] ∧ ¬ job.allowedPools.contains worker.pool then rej .poolNotAllowed ""
  else if worker.state ≠ .ready then rej .workerNotReady worker.state.text
  else match worker.capability.satisfies job.requirements with
  | some reason => rej reason ""
  | none =>
      if free < job.requirements.gpus then
        rej .capacity (toString free ++ " free, " ++ toString job.requirements.gpus ++ " needed")
      else if (held worker.id).any fun holder => holder ≠ job.id then
        -- the holder is usually another tenant's job, so it is not named
        rej .protectedHead ""
      else if pool.interruptible = true ∧ ¬ job.attempt + 1 < job.maxAttempts then
        rej .interruptible "this would be the last attempt"
      else
        let cost := costOf pool.pricePerGPUHour job.requirements.gpus job.maxRuntime
        if (avail job.project).any fun available => cost > available then
          rej .budget ("needs " ++ moneyText cost ++ ", project has " ++
            moneyText ((avail job.project).getD 0))
        else if job.budgetCap > 0 ∧ cost > job.budgetCap then
          rej .budget ("needs " ++ moneyText cost ++ ", job cap " ++ moneyText job.budgetCap)
        else none

/-- What a job costs in a pool for its whole runtime. -/
def Job.costIn (job : Job) (pool : Pool) : MicroUSD :=
  costOf pool.pricePerGPUHour job.requirements.gpus job.maxRuntime

/-- Every gate the filter checks. -/
structure Passes (job : Job) (worker : Worker) (pool : Pool) (free : Int)
    (held : WorkerID → Option JobID) (avail : ProjectID → Option MicroUSD) : Prop where
  allowed : job.allowedPools = [] ∨ job.allowedPools.contains worker.pool = true
  ready : worker.state = .ready
  satisfied : worker.capability.satisfies job.requirements = none
  room : job.requirements.gpus ≤ free
  unheld : ∀ holder, held worker.id = some holder → holder = job.id
  retriable : pool.interruptible = true → job.attempt + 1 < job.maxAttempts
  funded : ∀ available, avail job.project = some available → job.costIn pool ≤ available
  capped : 0 < job.budgetCap → job.costIn pool ≤ job.budgetCap

/-- The filter lets a worker through exactly when it passes every gate. -/
theorem filter_eq_none {job : Job} {worker : Worker} {pool : Pool} {free : Int}
    {held : WorkerID → Option JobID} {avail : ProjectID → Option MicroUSD} :
    filter job worker pool free held avail = none ↔ Passes job worker pool free held avail := by
  have within : ∀ {limit : Option MicroUSD} {cost : MicroUSD},
      ¬ (limit.any fun available => cost > available) = true ↔
        ∀ available, limit = some available → cost ≤ available := by
    intro limit cost
    cases limit <;> simp
  have own : ¬ ((held worker.id).any fun holder => holder ≠ job.id) = true ↔
      ∀ holder, held worker.id = some holder → holder = job.id := by
    cases held worker.id <;> simp
  unfold filter
  simp only
  constructor
  · intro passes
    split at passes
    · cases passes
    next allowed =>
    split at passes
    · cases passes
    next ready =>
    split at passes
    · cases passes
    next satisfied =>
    split at passes
    · cases passes
    next room =>
    split at passes
    · cases passes
    next unheld =>
    split at passes
    · cases passes
    next retriable =>
    split at passes
    · cases passes
    next funded =>
    split at passes
    · cases passes
    next capped =>
    refine ⟨?_, not_not.mp ready, satisfied, not_lt.mp room, own.mp unheld, ?_, within.mp funded,
      fun cap => not_lt.mp fun above => capped ⟨cap, above⟩⟩
    · by_cases any : job.allowedPools = []
      · exact Or.inl any
      · exact Or.inr (not_not.mp fun outside => allowed ⟨any, outside⟩)
    · exact fun vanishes => not_not.mp fun last => retriable ⟨vanishes, last⟩
  · intro passes
    rw [← Job.costIn, if_neg fun outside => passes.allowed.elim outside.1 outside.2,
      if_neg (not_not.mpr passes.ready)]
    simp only [passes.satisfied]
    rw [if_neg (not_lt.mpr passes.room), if_neg (own.mpr passes.unheld),
      if_neg fun last => last.2 (passes.retriable last.1), if_neg (within.mpr passes.funded),
      if_neg fun above => absurd (passes.capped above.1) (not_le.mpr above.2)]

end GpuBroker.ControlPlane
