/-
This file is admission beside placement: which submitted jobs are queued, and
whether the scheduler's filter could ever accept them.

Both look at the same workers, pools, budget and cap. Only the filter looks at
interruptible pools: it keeps a job on its last attempt out of them, and a job
with a single attempt is on its last attempt from the start.
-/
import GpuBroker.ControlPlane.Ticks
import GpuBroker.ControlPlane.Deeds
import GpuBroker.ControlPlane.JobCap

namespace GpuBroker.ControlPlane

open Library Library.Transaction

/-! ### Costs -/

/-- A saturating quotient of more is no less. -/
theorem saturated_mono (limit : Int) (unit : Nat) {low high : Nat} (below : low ≤ high) :
    (if low / 2 ^ 64 ≥ unit then limit
      else if ((low / unit : Nat) : Int) > limit then limit else ((low / unit : Nat) : Int)) ≤
    (if high / 2 ^ 64 ≥ unit then limit
      else if ((high / unit : Nat) : Int) > limit then limit else ((high / unit : Nat) : Int)) := by
  have units : low / unit ≤ high / unit := Nat.div_le_div_right below
  have words : low / 2 ^ 64 ≤ high / 2 ^ 64 := Nat.div_le_div_right below
  split_ifs <;> omega

/-- A longer span costs no less. -/
theorem costOf_mono (rate : MicroUSD) (gpus : Int) {short long : Duration} (shorter : short ≤ long) :
    costOf rate gpus short ≤ costOf rate gpus long := by
  by_cases free : short ≤ 0 ∨ gpus ≤ 0 ∨ rate ≤ 0
  · rw [costOf, if_pos free]
    exact costOf_nonneg _ _ _
  · have priced : ¬ (long ≤ 0 ∨ gpus ≤ 0 ∨ rate ≤ 0) := by
      rintro (none | rest)
      · exact free (Or.inl (shorter.trans none))
      · exact free (Or.inr rest)
    unfold costOf
    rw [if_neg free, if_neg priced]
    exact saturated_mono maxInt64 hour.toNat
      (Nat.add_le_add_right (Nat.mul_le_mul_left _ (Int.toNat_le_toNat shorter)) _)

/-! ### Workers that suit a job -/

/-- The pool a snapshot of the database finds under an id. -/
def Db.poolOf (db : Db) (id : PoolID) : Pool :=
  (db.pools.find id).getD
    { id := "", name := "", kind := .simulated, region := "", pricePerGPUHour := 0
      interruptible := false }

/-- The worker as it would be were it ready with all its GPUs free. -/
def Worker.idle (worker : Worker) : Worker := { worker with state := .ready, gpusReserved := 0 }

/-- The scheduler's filter accepts the job on some registered worker, were that worker idle. -/
def Placeable (db : Db) (job : Job) : Prop :=
  ∃ worker ∈ db.workers.rows,
    filter job worker.idle (db.poolOf worker.pool) worker.idle.freeGPUs (fun _ => none)
      (projectAvailableAll db) = none

instance (db : Db) (job : Job) : Decidable (Placeable db job) :=
  inferInstanceAs (Decidable (∃ worker ∈ db.workers.rows, _ = _))

/-- What admission asks of a worker: its pool is allowed, it meets the requirements, and the job's
project and its cap can pay for it. -/
structure Suits (db : Db) (job : Job) (worker : Worker) : Prop where
  allowed : job.allowedPools = [] ∨ job.allowedPools.contains worker.pool = true
  satisfied : worker.capability.satisfies job.requirements = none
  funded : ∀ available, projectAvailableAll db job.project = some available →
    job.costIn (db.poolOf worker.pool) ≤ available
  capped : 0 < job.budgetCap → job.costIn (db.poolOf worker.pool) ≤ job.budgetCap

theorem satisfies_room {capability : Capability} {needs : Requirements}
    (satisfied : capability.satisfies needs = none) : needs.gpus ≤ capability.gpus := by
  unfold Capability.satisfies at satisfied
  split_ifs at satisfied with _ _ _ room
  exact not_lt.mp room

/-- At its first attempt a job can be placed on a worker that suits it, unless the worker is
interruptible and the attempt is the last. -/
theorem placeable_iff {db : Db} {job : Job} (first : job.attempt = 0) :
    Placeable db job ↔ ∃ worker ∈ db.workers.rows, Suits db job worker ∧
      ((db.poolOf worker.pool).interruptible = true → 2 ≤ job.maxAttempts) := by
  unfold Placeable
  constructor
  · rintro ⟨worker, member, accepted⟩
    have passes := filter_eq_none.mp accepted
    refine ⟨worker, member, ⟨passes.allowed, passes.satisfied, passes.funded, passes.capped⟩, fun vanishes => ?_⟩
    have retriable := passes.retriable vanishes
    omega
  · rintro ⟨worker, member, suits, lasts⟩
    refine ⟨worker, member, filter_eq_none.mpr ?_⟩
    refine ⟨suits.allowed, rfl, suits.satisfied, ?_, nofun, fun vanishes => ?_, suits.funded,
      suits.capped⟩
    · have room := satisfies_room suits.satisfied
      show job.requirements.gpus ≤ worker.capability.gpus - 0
      omega
    · have retriable := lasts vanishes
      omega

/-! ### What a submission leaves -/

theorem insertJob_pools {job : Job} {db next : Db} {result : Unit}
    (finished : Tx.insertJob job db = .ok (result, next)) : next.pools = db.pools := by
  simp only [Tx.insertJob, bind_ok, get_ok, require_ok, need_ok, set_ok] at finished
  obtain ⟨_, _, pair, _, _, ⟨_, rfl⟩, _, _, ⟨_, rfl⟩, rfl⟩ := finished
  cases pair
  rfl

theorem apply_pools {job result : Job} {target : JobState} {actor : Actor}
    {reason correlation : String} {time : Time} {db next : Db}
    (finished : Service.apply job target actor reason correlation time db = .ok (result, next)) :
    next.pools = db.pools := by
  simp only [Service.apply, Tx.saveJob, Tx.insertTransition, bind_ok, get_ok, need_ok, set_ok,
    require_ok, fallible_ok] at finished
  obtain ⟨_, _, ⟨_, rfl⟩, _, _, ⟨_, _, read, _, _, ⟨_, rfl⟩, rfl⟩, _, _,
    ⟨_, _, again, _, _, ⟨_, rfl⟩, rfl⟩, final⟩ := finished
  cases read
  cases again
  cases pure_ok.mp final
  rfl

theorem unless_ok {Result : Type} {condition : Prop} [Decidable condition] {fault : Fault}
    {rest : Except Fault Result} {result : Result} :
    (if condition then .error fault else rest) = .ok result ↔ ¬ condition ∧ rest = .ok result := by
  by_cases holds : condition
  · rw [if_pos holds]
    exact ⟨nofun, fun both => absurd holds both.1⟩
  · rw [if_neg holds]
    exact ⟨fun same => ⟨holds, same⟩, And.right⟩

/-- What a request says that passed the checks: it names things that can be named, and every number is
within its bounds. -/
structure SubmitRequest.Within (valid : SubmitRequest) (now : Time) (policies : List String) :
    Prop where
  image : imageText valid.image = true ∧ valid.image.utf8ByteSize ≤ 256
  arguments : valid.command.length ≠ 0 ∧ valid.command.length ≤ 64
  nulFree : ¬ valid.command.any fun arg => arg.toList.contains (Char.ofNat 0)
  bytes : (valid.command.map String.utf8ByteSize).sum ≤ 8192
  gpus : 1 ≤ valid.gpus ∧ valid.gpus ≤ 64
  models : modelText valid.gpuModel = true ∧ modelText valid.runtime = true
  memory : 0 ≤ valid.minGPUMemGB ∧ valid.minGPUMemGB ≤ 1024
  priority : 0 ≤ valid.priority ∧ valid.priority ≤ 9
  runtime : 0 < valid.maxRuntime ∧ valid.maxRuntime ≤ 7 * 24 * hour
  delay : 0 ≤ valid.maxDelay ∧ valid.maxDelay ≤ 48 * hour
  deadline : ∀ time, valid.deadline = some time → now + valid.maxRuntime < time
  cap : 0 ≤ valid.budgetCap
  attempts : 1 ≤ valid.maxAttempts ∧ valid.maxAttempts ≤ 10
  policy : valid.policy = "" ∨ policies.contains valid.policy = true
  pools : valid.allowedPools.length ≤ 16

/-- A validated request is the one that was sent, its attempts filled in, and is within the bounds. -/
theorem validate_ok {request valid : SubmitRequest} {now : Time} {policies : List String}
    (validated : request.validate now policies = .ok valid) :
    valid = { request with
      maxAttempts := if request.maxAttempts = 0 then 3 else request.maxAttempts } ∧
      valid.Within now policies := by
  have filled : (if request.maxAttempts = 0 then { request with maxAttempts := 3 } else request) =
      { request with
        maxAttempts := if request.maxAttempts = 0 then 3 else request.maxAttempts } := by
    split <;> rfl
  unfold SubmitRequest.validate at validated
  simp only [unless_ok, not_or, not_lt, not_not, not_and_or, Except.ok.injEq, filled] at validated
  obtain ⟨image, arguments, nulFree, bytes, gpus, models, memory, priority, runtime, delay, deadline,
    cap, attempts, policy, pools, rfl⟩ := validated
  refine ⟨rfl, image, arguments, nulFree, bytes, gpus, models, memory, priority,
    ⟨not_le.mp runtime.1, runtime.2⟩, delay, ?_, cap, attempts, policy, pools⟩
  intro time due
  change request.deadline = some time at due
  rw [due] at deadline
  exact not_le.mp fun late => deadline (decide_eq_true late)

/-- The cheapest cost is that of some worker whose pool is allowed and who meets the requirements. -/
theorem cheapestCost_some {job : Job} {db next : Db} {cheapest : MicroUSD}
    (fleet : db.workers.rows ≠ [])
    (finished : Service.cheapestCost job db = .ok (some cheapest, next)) :
    ∃ worker ∈ db.workers.rows,
      (job.allowedPools = [] ∨ job.allowedPools.contains worker.pool = true) ∧
        worker.capability.satisfies job.requirements = none ∧
          cheapest = job.costIn (db.poolOf worker.pool) := by
  unfold Service.cheapestCost at finished
  obtain ⟨_, _, pools, finished⟩ := bind_ok.mp finished
  obtain ⟨_, _, workers, finished⟩ := bind_ok.mp finished
  cases pools
  cases workers
  have chosen := congrArg Prod.fst (pure_ok.mp finished)
  rw [if_neg (by simpa using fleet)] at chosen
  obtain ⟨worker, listed, same⟩ := List.mem_map.mp (List.min?_mem chosen.symm)
  obtain ⟨member, eligible⟩ := List.mem_filter.mp listed
  rw [Bool.and_eq_true, Bool.or_eq_true, List.isEmpty_iff, Option.isNone_iff_eq_none] at eligible
  refine ⟨worker, member, eligible.1, eligible.2, same.symm.trans ?_⟩
  have price : ((db.pools.rows.find? fun pool => pool.id = worker.pool).map Pool.pricePerGPUHour).getD 0 =
      (db.poolOf worker.pool).pricePerGPUHour := by
    unfold Db.poolOf Table.find
    cases db.pools.rows.find? fun pool => pool.id = worker.pool <;> rfl
  rw [Job.costIn, ← price]

/-- A job that is queued costs what its project and its cap can pay for. -/
theorem admission_queued {job : Job} {cheapest : Option MicroUSD} {available : MicroUSD}
    (queued : (Service.admission job cheapest available).1 = .queued) :
    ∃ cost, cheapest = some cost ∧ cost ≤ available ∧ (0 < job.budgetCap → cost ≤ job.budgetCap) := by
  unfold Service.admission at queued
  cases cheapest with
  | none => cases queued
  | some cost =>
      simp only at queued
      split at queued
      · cases queued
      next affordable =>
      split at queued
      · cases queued
      next within =>
      exact ⟨cost, rfl, not_lt.mp affordable, fun capped => not_lt.mp fun above => within ⟨capped, above⟩⟩

/-- What a submission that is queued leaves: the job's row is at its first attempt, and some worker
suits it. -/
structure Admitted (db next : Db) (request : SubmitRequest) (id : JobID) : Prop where
  workers : next.workers = db.workers
  pools : next.poolOf = db.poolOf
  available : projectAvailableAll next = projectAvailableAll db
  row : ∃ stored, next.jobs.find id = some stored ∧ stored.attempt = 0 ∧
    stored.maxAttempts = (if request.maxAttempts = 0 then 3 else request.maxAttempts) ∧
      1 ≤ stored.maxAttempts ∧ (db.workers.rows ≠ [] → ∃ worker ∈ db.workers.rows, Suits db stored worker)

theorem submit_admitted {service : Service} {principal : Principal} {request : SubmitRequest}
    {correlation : String} {id : JobID} {now appliedAt : Time} {db next : Db} {job : Job}
    {refusal : Option Fault}
    (finished : service.submit principal request correlation id now appliedAt db =
      .ok ((job, refusal), next)) (queued : job.state = .queued) : Admitted db next request id := by
  unfold Service.submit at finished
  obtain ⟨_, _, isUser, finished⟩ := bind_ok.mp finished
  obtain ⟨_, rfl⟩ := require_ok.mp isUser
  obtain ⟨valid, _, validated, finished⟩ := bind_ok.mp finished
  obtain ⟨validated, rfl⟩ := fallible_ok.mp validated
  obtain ⟨same, within⟩ := validate_ok validated
  have filled := congrArg SubmitRequest.maxAttempts same
  have enough := within.attempts.1
  simp only at finished
  have named : (if valid.policy = "" then { valid with policy := service.cfg.defaultPolicy }
      else valid).maxAttempts = valid.maxAttempts := by
    split <;> rfl
  generalize (if valid.policy = "" then { valid with policy := service.cfg.defaultPolicy }
      else valid) = asked at named finished
  rw [← named] at filled enough
  obtain ⟨project, _, readProject, finished⟩ := bind_ok.mp finished
  obtain ⟨owner, rfl⟩ := requestedProject_spec readProject
  obtain ⟨_, _, belowLimits, finished⟩ := bind_ok.mp finished
  cases checkQueue_reads service _ _ _ _ _ belowLimits
  obtain ⟨_, one, inserts, finished⟩ := bind_ok.mp finished
  obtain ⟨_, _, jobs, inserted, wroteJob⟩ := Tx.insertJob_spec inserts
  have keptPools := insertJob_pools inserts
  obtain ⟨cheapest, _, readCheapest, finished⟩ := bind_ok.mp finished
  cases cheapestCost_reads _ _ _ _ readCheapest
  obtain ⟨spend, _, readSpend, finished⟩ := bind_ok.mp finished
  obtain ⟨spent, rfl⟩ := Tx.projectSpend_spec readSpend
  obtain ⟨moved, two, applies, finished⟩ := bind_ok.mp finished
  cases pure_ok.mp finished
  have first := Table.sets_insert inserted
  rw [show jobs = one.jobs by rw [wroteJob]] at first
  obtain ⟨_, reached, attempt, _, _, _, wrote⟩ := apply_spec applies
  obtain ⟨saved, _⟩ := apply_sets applies first.find_self
  have pools : next.pools = one.pools := apply_pools applies
  have oneWorkers : one.workers = db.workers := by rw [wroteJob]
  have workers : next.workers = one.workers := by rw [wrote]
  have projects : next.projects = db.projects := by rw [wrote, wroteJob]
  have ledger : next.ledger = db.ledger := by rw [wrote, wroteJob]
  have samePools : one.poolOf = db.poolOf := by
    funext id
    unfold Db.poolOf
    rw [keptPools]
  refine ⟨workers.trans oneWorkers, ?_, ?_, _, saved.find_self, attempt, filled, enough, fun fleet => ?_⟩
  · rw [← samePools]
    funext id
    unfold Db.poolOf
    rw [pools]
  · funext id
    unfold projectAvailableAll
    rw [projects, ledger]
  · rw [reached] at queued
    obtain ⟨cost, rfl, affordable, within⟩ := admission_queued queued
    rw [← oneWorkers] at fleet ⊢
    obtain ⟨worker, member, allowed, satisfied, price⟩ := cheapestCost_some fleet readCheapest
    -- the runtime is stored in whole seconds, which cost no more
    have cheaper : costOf (db.poolOf worker.pool).pricePerGPUHour asked.gpus
        (asked.maxRuntime / second * second) ≤ cost := by
      rw [price, ← samePools]
      exact costOf_mono _ _ (Int.ediv_mul_le _ (by decide))
    refine ⟨worker, member, ⟨allowed, satisfied, fun available funds => cheaper.trans ?_,
      fun capped => cheaper.trans (within capped)⟩⟩
    have funds : (db.projects.find project.id).map (fun row => row.budget -
        committedOf db.ledger project.id) = some available := funds
    rw [owner, Option.map_some, Option.some.injEq] at funds
    rw [← funds, committedOf, ← show one.ledger = db.ledger by rw [wroteJob], ← spent]
    unfold projectAvailable at affordable
    linarith

/-- What suits a job is the same where workers, pools and funds are. -/
theorem Admitted.suits_iff {db next : Db} {request : SubmitRequest} {id : JobID}
    (admitted : Admitted db next request id) (job : Job) (worker : Worker) :
    Suits next job worker ↔ Suits db job worker := by
  constructor <;> intro suits
  · exact ⟨suits.allowed, suits.satisfied, admitted.pools ▸ admitted.available ▸ suits.funded,
      admitted.pools ▸ suits.capped⟩
  · exact ⟨suits.allowed, suits.satisfied, admitted.pools.symm ▸ admitted.available.symm ▸ suits.funded,
      admitted.pools.symm ▸ suits.capped⟩

/-! ### Admission and placement -/

/-- A worker suits the job in a pool that is not interruptible. -/
def Staying (db : Db) (job : Job) : Prop :=
  ∃ worker ∈ db.workers.rows, Suits db job worker ∧ (db.poolOf worker.pool).interruptible = false

/-- On a fleet that is not empty, a job that a submission queues can be placed at its first attempt on
some worker, were it idle, exactly when the submission does not ask for a single attempt or a worker
suits the job in a pool that is not interruptible. -/
theorem admitted_placeable_iff (service : Service) (principal : Principal) (request : SubmitRequest)
    (correlation : String) (id : JobID) (now appliedAt : Time) (db next : Db) (job stored : Job)
    (refusal : Option Fault) (fleet : db.workers.rows ≠ [])
    (finished : service.submit principal request correlation id now appliedAt db =
      .ok ((job, refusal), next)) (queued : job.state = .queued)
    (found : next.jobs.find id = some stored) :
    Placeable next stored ↔ request.maxAttempts ≠ 1 ∨ Staying db stored := by
  have admitted := submit_admitted finished queued
  obtain ⟨row, hasRow, first, attempts, enough, suited⟩ := admitted.row
  cases found.symm.trans hasRow
  have retriable : request.maxAttempts ≠ 1 ↔ 2 ≤ stored.maxAttempts := by
    rw [attempts] at enough ⊢
    split at enough <;> omega
  rw [placeable_iff first, retriable]
  simp only [admitted.suits_iff, admitted.pools, admitted.workers]
  constructor
  · rintro ⟨worker, member, suits, lasts⟩
    cases vanishes : (db.poolOf worker.pool).interruptible with
    | false => exact Or.inr ⟨worker, member, suits, vanishes⟩
    | true => exact Or.inl (lasts vanishes)
  · rintro (twice | ⟨worker, member, suits, stays⟩)
    · obtain ⟨worker, member, suits⟩ := suited fleet
      exact ⟨worker, member, suits, fun _ => twice⟩
    · refine ⟨worker, member, suits, fun vanishes => ?_⟩
      rw [stays] at vanishes
      cases vanishes

/-- A tenant with ten dollars, and one worker in one pool. -/
def fleetOf (interruptible : Bool) : Db :=
  (run plainService
    [.request (.createTenant "tenant" "project" 10000000 0 0),
      .request (.upsertPool
        { id := "pool", name := "pool", kind := .simulated, region := "region"
          pricePerGPUHour := 1000000, interruptible }),
      .request (.register ⟨.bootstrap, "user", "tenant", .member, "", "pool"⟩ "worker"
        { gpuModel := "a100", gpus := 1, gpuMemGB := 80, runtimes := ["sim"], region := "" }
        "worker" 0)] .initial).toDb

/-- A submission for one GPU, with so many attempts. -/
def submitOnce (attempts : Int) (db : Db) : Option ((Job × Option Fault) × Db) :=
  (plainService.submit ⟨.user, "user", "tenant", .member, "", ""⟩
    { cappedRequest 0 with maxAttempts := attempts } "request" "job" 0 0 db).toOption

/-- The pool is interruptible and the job has two attempts. -/
theorem admitted_placeable_iff_twice :
    ∃ job refusal next stored, submitOnce 2 (fleetOf true) = some ((job, refusal), next) ∧
      job.state = .queued ∧ next.jobs.find "job" = some stored ∧ Placeable next stored := by
  have admits : (submitOnce 2 (fleetOf true)).any (fun outcome =>
      outcome.1.1.state = .queued && (outcome.2.jobs.find "job").isSome) = true := by
    decide +kernel
  obtain ⟨⟨⟨job, refusal⟩, next⟩, submitted, admitted⟩ := (Option.any_eq_true _ _).mp admits
  obtain ⟨queued, there⟩ := Bool.and_eq_true_iff.mp admitted
  obtain ⟨stored, found⟩ := Option.isSome_iff_exists.mp there
  exact ⟨job, refusal, next, stored, submitted, of_decide_eq_true queued, found,
    (admitted_placeable_iff plainService ⟨.user, "user", "tenant", .member, "", ""⟩
      { cappedRequest 0 with maxAttempts := 2 } "request" "job" 0 0 (fleetOf true) next job stored refusal
      (by decide +kernel) (ok_of_toOption submitted) (of_decide_eq_true queued) found).mpr
        (Or.inl (by decide))⟩

/-- The pool is interruptible and the job has one attempt: it is queued, and can never be placed. -/
theorem admitted_unplaceable :
    (fleetOf true).workers.rows ≠ [] ∧ (submitOnce 1 (fleetOf true)).any (fun outcome =>
      outcome.1.1.state = .queued &&
        (outcome.2.jobs.find "job").any fun stored => ¬ Placeable outcome.2 stored) = true := by
  decide +kernel

end GpuBroker.ControlPlane
