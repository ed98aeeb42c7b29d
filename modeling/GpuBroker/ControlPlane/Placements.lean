/-
This file is what a pass of a policy gives out.

The order of the queue only rearranges it and the scores only choose among the
workers that passed the filter, so a placement is always on such a worker. From
this each of the three bounds is a meter of the pass: the free GPUs of a worker,
what a project may still hold, and what a tenant's maximum leaves.
-/
import GpuBroker.ControlPlane.Decide
import Mathlib.Data.Rat.Defs

namespace GpuBroker.ControlPlane

open Library

section

variable {N : Type} [Number N] {snapshot : Snapshot N} {policy : Policy N} {digest : String}
  {held : Held} {left : Left} {ordered : OrderedJob N}

open Number

/-! ### Order and scores -/

/-- The order of the queue rearranges it. -/
theorem orderJobs_perm (snapshot : Snapshot N) (policy : Policy N) :
    ((orderJobs snapshot policy).map OrderedJob.job).Perm snapshot.jobs := by
  have same : (orderJobs snapshot policy).map OrderedJob.job =
      ((snapshot.jobs.map (snapshot.keyed policy)).insertionSort fun one two =>
        ¬ ahead two one).map OrderedJob.job := by
    unfold orderJobs
    rw [List.map_map]
    conv_rhs => rw [← List.zipIdx_map_fst 0 (List.insertionSort _ _), List.map_map]
    rfl
  rw [same]
  refine ((List.perm_insertionSort _ _).map _).trans ?_
  rw [List.map_map]
  exact .of_eq (List.map_id _)

theorem mem_orderJobs (member : ordered ∈ orderJobs snapshot policy) :
    ordered.job ∈ snapshot.jobs :=
  (orderJobs_perm snapshot policy).mem_iff.mp (List.mem_map_of_mem member)

omit [Number N] in
theorem mem_sorted {worker : Worker} : worker ∈ snapshot.sorted ↔ worker ∈ snapshot.workers :=
  (List.perm_insertionSort _ _).mem_iff

/-- A scored candidate is one of those that passed, with its cost. -/
theorem mem_score {job : Job} {inputs : List CandidateInput} {best : Candidate N}
    (member : best ∈ (score job inputs snapshot policy).1) :
    ∃ input ∈ inputs, best.worker = input.worker.id ∧ best.pool = input.worker.pool ∧
      best.cost = toMoney (ofInt (job.costIn input.pool) : N) := by
  unfold score at member
  simp only at member
  rw [(List.perm_insertionSort _ _).mem_iff, List.mem_map] at member
  obtain ⟨⟨input, ⟨cost, costNorm⟩, ⟨carbon, carbonNorm⟩⟩, paired, rfl⟩ := member
  refine ⟨input, (List.of_mem_zip paired).1, rfl, rfl, ?_⟩
  obtain ⟨index, within, same⟩ := List.mem_iff_getElem.mp paired
  simp only [List.getElem_zip, List.getElem_map, Prod.mk.injEq] at same
  obtain ⟨rfl, ⟨rfl, _⟩, _⟩ := same
  rfl

/-- Every worker that passed is scored. -/
theorem score_length (job : Job) (inputs : List CandidateInput) (snapshot : Snapshot N)
    (policy : Policy N) : (score job inputs snapshot policy).1.length = inputs.length := by
  have normalized : ∀ values : List N, (normalizeLowerBetter values).length = values.length := by
    intro values
    cases values <;> simp [normalizeLowerBetter]
  unfold score
  simp only
  rw [List.length_insertionSort, List.length_map]
  simp [normalized]

/-! ### One decision -/

omit [Number N] in
theorem mem_survivors {job : Job} {input : CandidateInput} :
    input ∈ survivors job snapshot held left ↔
      ∃ worker ∈ snapshot.workers,
        Passes job worker (snapshot.pool worker.pool) (left.free worker.id) held left.avail ∧
        input = { worker, pool := snapshot.pool worker.pool, free := left.free worker.id } := by
  unfold survivors
  simp only [List.mem_map, List.mem_filter, mem_sorted, Option.isNone_iff_eq_none, filter_eq_none]
  constructor
  · rintro ⟨worker, ⟨member, passes⟩, rfl⟩
    exact ⟨worker, member, passes, rfl⟩
  · rintro ⟨worker, member, passes, rfl⟩
    exact ⟨worker, ⟨member, passes⟩, rfl⟩

/-- What a placement of a job was decided on. -/
structure PlacedOn (snapshot : Snapshot N) (held : Held) (left : Left) (job : Job)
    (decision : PolicyDecision N) (worker : Worker) : Prop where
  member : worker ∈ snapshot.workers
  chosen : decision.chosenWorker = worker.id
  pool : decision.chosenPool = worker.pool
  passes : Passes job worker (snapshot.pool worker.pool) (left.free worker.id) held left.avail
  quota : job.overQuota (snapshot.tenantMaxGPUs job.tenant) (left.active job.tenant) = false
  effect : decision.budgetEffect = toMoney (ofInt (job.costIn (snapshot.pool worker.pool)) : N)

/-- What a decision does to what is left. -/
inductive Outcome (snapshot : Snapshot N) (held : Held) (left : Left) (job : Job)
    (decision : PolicyDecision N) : Left → Prop
  | placed {worker : Worker} (action : decision.action = .place)
      (on : PlacedOn snapshot held left job decision worker) :
      Outcome snapshot held left job decision (left.take job decision.chosenWorker decision.budgetEffect)
  | aside {next : Left} (action : decision.action ≠ .place) (free : next.free = left.free)
      (avail : next.avail = left.avail) (active : next.active = left.active) :
      Outcome snapshot held left job decision next

/-- Every decision is about its job, and places it on a worker that passed the filter or takes
nothing. -/
theorem decideJob_outcome (snapshot : Snapshot N) (policy : Policy N) (digest : String)
    (held : Held) (left : Left) (ordered : OrderedJob N) :
    (decideJob snapshot policy digest held left ordered).1.job = ordered.job.id ∧
      (decideJob snapshot policy digest held left ordered).1.tenant = ordered.job.tenant ∧
      Outcome snapshot held left ordered.job
        (decideJob snapshot policy digest held left ordered).1
        (decideJob snapshot policy digest held left ordered).2 := by
  unfold decideJob
  simp only
  split
  · exact ⟨rfl, rfl, .aside nofun rfl rfl rfl⟩
  split
  · exact ⟨rfl, rfl, .aside nofun rfl rfl rfl⟩
  split
  · exact ⟨rfl, rfl, .aside nofun rfl rfl rfl⟩
  next quota =>
  split
  · unfold decideStuck
    split
    · exact ⟨rfl, rfl, .aside nofun rfl rfl rfl⟩
    · exact ⟨rfl, rfl, .aside nofun rfl rfl rfl⟩
  · next best others found =>
    have member : best ∈ (score ordered.job (survivors ordered.job snapshot held left) snapshot
        policy).1 := by
      rw [found]
      exact List.mem_cons_self
    obtain ⟨input, among, sameWorker, samePool, cost⟩ := mem_score member
    obtain ⟨worker, isWorker, passes, rfl⟩ := mem_survivors.mp among
    unfold decideBest
    simp only
    split
    · exact ⟨rfl, rfl, .aside nofun rfl rfl rfl⟩
    · refine ⟨rfl, rfl, ?_⟩
      exact .placed rfl ⟨isWorker, sameWorker, samePool, passes, by simpa using quota, cost⟩

/-! ### Three meters -/

/-- The queue with its decisions. -/
def Policy.outcomes (policy : Policy N) (snapshot : Snapshot N) (digest : String) :
    List (OrderedJob N × PolicyDecision N) :=
  (orderJobs snapshot policy).zip (policy.decide snapshot digest)

/-- The decision places its job, and a property of the two holds. -/
def placing (which : Job → PolicyDecision N → Bool) (ordered : OrderedJob N)
    (decision : PolicyDecision N) : Bool :=
  decision.action = .place && which ordered.job decision

def onWorker (id : WorkerID) (_ : Job) (decision : PolicyDecision N) : Bool :=
  decision.chosenWorker = id

def ofProject (id : ProjectID) (job : Job) (_ : PolicyDecision N) : Bool := job.project = id

def ofTenant (id : TenantID) (job : Job) (_ : PolicyDecision N) : Bool := job.tenant = id

def gpusOf (ordered : OrderedJob N) (_ : PolicyDecision N) : Int := ordered.job.requirements.gpus

def costOfDecision (_ : OrderedJob N) (decision : PolicyDecision N) : Int := decision.budgetEffect

/-- A reading of what is left is a meter when a placement draws on it no more than it holds and
nothing else moves it. -/
theorem decideJob_meter {items : List (OrderedJob N)} {lasts : Left → Prop} {level : Left → Int}
    {which : Job → PolicyDecision N → Bool} {amount : OrderedJob N → PolicyDecision N → Int}
    (placed : ∀ ordered ∈ items, ∀ left decision worker, lasts left →
      PlacedOn snapshot held left ordered.job decision worker →
        lasts (left.take ordered.job decision.chosenWorker decision.budgetEffect) ∧
        (which ordered.job decision = true → amount ordered decision ≤ level left ∧
          level (left.take ordered.job decision.chosenWorker decision.budgetEffect) =
            level left - amount ordered decision) ∧
        (which ordered.job decision = false →
          level (left.take ordered.job decision.chosenWorker decision.budgetEffect) = level left))
    (aside : ∀ left next : Left, next.free = left.free → next.avail = left.avail →
      next.active = left.active → level next = level left ∧ (lasts left → lasts next)) :
    Meter (decideJob snapshot policy digest held) items lasts level (placing which) amount := by
  have each : ∀ ordered ∈ items, ∀ left, lasts left →
      lasts (decideJob snapshot policy digest held left ordered).2 ∧
        if placing which ordered (decideJob snapshot policy digest held left ordered).1 then
          amount ordered (decideJob snapshot policy digest held left ordered).1 ≤ level left ∧
            level (decideJob snapshot policy digest held left ordered).2 =
              level left - amount ordered (decideJob snapshot policy digest held left ordered).1
        else level (decideJob snapshot policy digest held left ordered).2 = level left := by
    intro ordered member left start
    obtain ⟨_, _, outcome⟩ := decideJob_outcome snapshot policy digest held left ordered
    generalize (decideJob snapshot policy digest held left ordered).1 = decision at outcome ⊢
    generalize (decideJob snapshot policy digest held left ordered).2 = next at outcome ⊢
    cases outcome with
    | placed action on =>
        obtain ⟨later, drop, still⟩ := placed ordered member left decision _ start on
        refine ⟨later, ?_⟩
        unfold placing
        cases chosen : which ordered.job decision with
        | true => rw [action, if_pos (by rfl)]; exact drop chosen
        | false => rw [action, if_neg (by simp)]; exact still chosen
    | aside action free avail active =>
        obtain ⟨level_, later⟩ := aside left next free avail active
        refine ⟨later start, ?_⟩
        rw [if_neg (by simp [placing, action])]
        exact level_
  exact
    { last := fun ordered member left start => (each ordered member left start).1
      within := fun ordered member left start draws => by
        have step := (each ordered member left start).2
        rw [if_pos draws] at step
        exact step.1
      drop := fun ordered member left start draws => by
        have step := (each ordered member left start).2
        rw [if_pos draws] at step
        exact step.2
      still := fun ordered member left start draws => by
        have step := (each ordered member left start).2
        rwa [if_neg (by simp [draws])] at step }

/-- The free GPUs of a worker. -/
theorem worker_meter (items : List (OrderedJob N)) (id : WorkerID) :
    Meter (decideJob snapshot policy digest held) items (fun _ => True) (fun left => left.free id)
      (placing (onWorker id)) gpusOf := by
  refine decideJob_meter (fun ordered _ left decision worker _ on => ⟨trivial, ?_, ?_⟩)
    fun left next free _ _ => ⟨congrFun free id, fun _ => trivial⟩
  · intro chosen
    have own : decision.chosenWorker = id := of_decide_eq_true chosen
    refine ⟨?_, ?_⟩
    · rw [← own, on.chosen]
      exact on.passes.room
    · show Function.update left.free decision.chosenWorker _ id = _
      rw [own, Function.update_self]
      rfl
  · intro other
    have apart : id ≠ decision.chosenWorker := fun own => by simp [onWorker, own] at other
    exact Function.update_of_ne apart _ _

/-- Costs below 2 ^ 53 go through the numbers of the scores unchanged. -/
def CostsExact (N : Type) [Number N] : Prop :=
  ∀ cost : MicroUSD, 0 ≤ cost → cost < 2 ^ 53 → toMoney (ofInt cost : N) = cost

/-- No job costs 2 ^ 53 micro-dollars or more on any worker. -/
def Snapshot.cheap (snapshot : Snapshot N) : Prop :=
  ∀ job ∈ snapshot.jobs, ∀ worker ∈ snapshot.workers,
    job.costIn (snapshot.pool worker.pool) < 2 ^ 53

/-- A placement's effect on the budget is the cost of the job on its worker. -/
theorem PlacedOn.exact {job : Job} {decision : PolicyDecision N} {worker : Worker}
    (on : PlacedOn snapshot held left job decision worker) (exact_ : CostsExact N)
    (cheap : snapshot.cheap) (queued : job ∈ snapshot.jobs) :
    decision.budgetEffect = job.costIn (snapshot.pool worker.pool) :=
  on.effect.trans (exact_ _ (costOf_nonneg _ _ _) (cheap job queued worker on.member))

/-- What a project may still hold. -/
theorem project_meter (exact_ : CostsExact N) (cheap : snapshot.cheap) (id : ProjectID) :
    Meter (decideJob snapshot policy digest held) (orderJobs snapshot policy)
      (fun left => (left.avail id).isSome = true) (fun left => (left.avail id).getD 0)
      (placing (ofProject id)) costOfDecision := by
  refine decideJob_meter (fun ordered member left decision worker known on => ⟨?_, ?_, ?_⟩)
    fun left next _ avail _ => ⟨by rw [avail], fun known => by rwa [avail]⟩
  · show (Function.update left.avail ordered.job.project _ id).isSome = true
    by_cases own : id = ordered.job.project
    · rw [own, Function.update_self]
      rfl
    · rwa [Function.update_of_ne own]
  · intro chosen
    have own : ordered.job.project = id := of_decide_eq_true chosen
    obtain ⟨available, has⟩ := Option.isSome_iff_exists.mp known
    have cost := on.exact exact_ cheap (mem_orderJobs member)
    refine ⟨?_, ?_⟩
    · show decision.budgetEffect ≤ _
      rw [cost, has]
      exact on.passes.funded available (own ▸ has)
    · show (Function.update left.avail ordered.job.project _ id).getD 0 = _
      rw [own, Function.update_self]
      rfl
  · intro other
    have apart : id ≠ ordered.job.project := fun own => by simp [ofProject, own] at other
    show (Function.update left.avail ordered.job.project _ id).getD 0 = _
    rw [Function.update_of_ne apart]

/-- What a tenant's maximum leaves. -/
theorem tenant_meter (items : List (OrderedJob N)) {id : TenantID} {max : Int} (positive : 0 < max)
    (limit : snapshot.tenantMaxGPUs id = some max) :
    Meter (decideJob snapshot policy digest held) items (fun _ => True)
      (fun left => max - left.active id) (placing (ofTenant id)) gpusOf := by
  refine decideJob_meter (fun ordered _ left decision worker _ on => ⟨trivial, ?_, ?_⟩)
    fun left next _ _ active => ⟨by rw [active], fun _ => trivial⟩
  · intro chosen
    have own : ordered.job.tenant = id := of_decide_eq_true chosen
    refine ⟨?_, ?_⟩
    · have within := on.quota
      rw [own, limit] at within
      simp only [Job.overQuota, Option.any_some, Bool.and_eq_false_iff, decide_eq_false_iff_not]
        at within
      show ordered.job.requirements.gpus ≤ _
      rcases within with unlimited | within
      · exact absurd positive unlimited
      · omega
    · show max - Function.update left.active ordered.job.tenant _ id = _
      rw [own, Function.update_self]
      show _ = _ - ordered.job.requirements.gpus
      omega
  · intro other
    have apart : id ≠ ordered.job.tenant := fun own => by simp [ofTenant, own] at other
    show max - Function.update left.active ordered.job.tenant _ id = _
    rw [Function.update_of_ne apart]

/-! ### The pass -/

/-- What holds of the job and the worker of a placement. -/
structure Fits (snapshot : Snapshot N) (held : Held) (job : Job)
    (decision : PolicyDecision N) (worker : Worker) : Prop where
  member : worker ∈ snapshot.workers
  chosen : decision.chosenWorker = worker.id
  ready : worker.state = .ready
  satisfied : worker.capability.satisfies job.requirements = none
  allowed : job.allowedPools = [] ∨ job.allowedPools.contains worker.pool = true
  retriable : (snapshot.pool worker.pool).interruptible = true → job.attempt + 1 < job.maxAttempts
  cost : decision.budgetEffect = job.costIn (snapshot.pool worker.pool)
  capped : 0 < job.budgetCap → decision.budgetEffect ≤ job.budgetCap
  unheld : ∀ holder, held worker.id = some holder → holder = job.id

/-- What a pass gives out: one decision for each queued job, in queue order; on a worker, of a
project and of a tenant with a maximum no more than there was, if anything; and every placement
fits. -/
structure WithinBounds (snapshot : Snapshot N) (policy : Policy N) (digest : String) : Prop where
  queue : ((orderJobs snapshot policy).map OrderedJob.job).Perm snapshot.jobs
  one : (policy.decide snapshot digest).map (fun decision => decision.job) =
    (orderJobs snapshot policy).map fun ordered => ordered.job.id
  workers : ∀ worker ∈ snapshot.workers,
    (∃ pair ∈ policy.outcomes snapshot digest, placing (onWorker worker.id) pair.1 pair.2 = true) →
      drawn (placing (onWorker worker.id)) gpusOf (policy.outcomes snapshot digest) ≤
        worker.freeGPUs
  projects : ∀ project available, snapshot.projectAvailable project = some available →
    (∃ pair ∈ policy.outcomes snapshot digest, placing (ofProject project) pair.1 pair.2 = true) →
      drawn (placing (ofProject project)) costOfDecision (policy.outcomes snapshot digest) ≤
        available
  tenants : ∀ tenant max, snapshot.tenantMaxGPUs tenant = some max → 0 < max →
    (∃ pair ∈ policy.outcomes snapshot digest, placing (ofTenant tenant) pair.1 pair.2 = true) →
      snapshot.tenantActiveGPUs tenant +
        drawn (placing (ofTenant tenant)) gpusOf (policy.outcomes snapshot digest) ≤ max
  fits : ∀ ordered decision, (ordered, decision) ∈ policy.outcomes snapshot digest →
    decision.action = .place →
      ∃ worker, Fits snapshot (heldWorkers snapshot policy) ordered.job decision worker

omit [Number N] in
/-- The free GPUs a pass starts with are the worker's own. -/
theorem start_free (snapshot : Snapshot N) {worker : Worker} (member : worker ∈ snapshot.workers) :
    (Left.start snapshot).free worker.id = worker.freeGPUs := by
  have found : snapshot.workers.find? (fun other => other.id = worker.id) = some worker :=
    @Table.find_of_mem _ _ Worker.id _ ⟨snapshot.workers, snapshot.workersDistinct⟩ worker member
  unfold Left.start
  simp only
  rw [found]
  rfl

/-- A decision of the pass was made against what its predecessors left. -/
theorem decide_pair {decision : PolicyDecision N}
    (member : (ordered, decision) ∈ policy.outcomes snapshot digest) :
    ordered ∈ orderJobs snapshot policy ∧
      ∃ left next, Outcome snapshot (heldWorkers snapshot policy) left ordered.job decision next := by
  obtain ⟨before, after, split, rfl⟩ := outputs_pair member
  refine ⟨split ▸ by simp, _, _, (decideJob_outcome _ _ _ _ _ _).2.2⟩

/-- The outcomes of a pass are about its jobs, each under its own id. -/
theorem mem_outcomes {pair : OrderedJob N × PolicyDecision N} (member : pair ∈ policy.outcomes snapshot digest) :
    pair.1.job ∈ snapshot.jobs ∧ pair.2.job = pair.1.job.id := by
  obtain ⟨before, after, split, same⟩ := outputs_pair member
  have queued : pair.1 ∈ orderJobs snapshot policy := by
    rw [split]
    simp
  refine ⟨mem_orderJobs queued, ?_⟩
  rw [same]
  exact (decideJob_outcome _ _ _ _ _ _).1

/-- The job of an outcome is the one its decision's id names. -/
theorem find_outcome {pair : OrderedJob N × PolicyDecision N} (member : pair ∈ policy.outcomes snapshot digest) :
    snapshot.jobs.find? (fun job => job.id = pair.2.job) = some pair.1.job := by
  obtain ⟨queued, same⟩ := mem_outcomes member
  rw [same]
  exact @Table.find_of_mem _ _ Job.id _ ⟨snapshot.jobs, snapshot.jobsDistinct⟩ _ queued

theorem outcomes_decisions (policy : Policy N) (snapshot : Snapshot N) (digest : String) :
    (policy.outcomes snapshot digest).map Prod.snd = policy.decide snapshot digest :=
  List.map_snd_zip (length_outputs _ _ _).le

/-- The jobs of the decisions of a pass are those of the queue. -/
theorem pass_jobs (items : List (OrderedJob N)) (left : Left) :
    (outputs (decideJob snapshot policy digest held) items left).map (fun decision => decision.job) =
      items.map fun ordered => ordered.job.id := by
  induction items generalizing left with
  | nil => rfl
  | cons first rest inductionHypothesis =>
      simp only [outputs, List.map_cons, inductionHypothesis]
      rw [(decideJob_outcome snapshot policy digest held left first).1]

/-- For every snapshot and policy, with costs that the numbers of the scores carry exactly, a pass
keeps within its bounds. -/
theorem decide_within_bounds (snapshot : Snapshot N) (policy : Policy N) (digest : String)
    (exact_ : CostsExact N) (cheap : snapshot.cheap) : WithinBounds snapshot policy digest where
  queue := orderJobs_perm snapshot policy
  one := pass_jobs _ _
  workers worker member some_placed := by
    rw [← start_free snapshot member]
    exact (worker_meter _ worker.id).drawn_le trivial some_placed
  projects project available has some_placed := by
    have bound := (project_meter exact_ cheap project).drawn_le
      (show ((Left.start snapshot).avail project).isSome = true by
        show (snapshot.projectAvailable project).isSome = true
        rw [has]
        rfl) some_placed
    rwa [show (Left.start snapshot).avail project = some available from has] at bound
  tenants tenant max limit positive some_placed := by
    have bound := (tenant_meter _ positive limit).drawn_le trivial some_placed
    rw [show (Left.start snapshot).active = snapshot.tenantActiveGPUs from rfl] at bound
    have same : drawn (placing (ofTenant tenant)) gpusOf (policy.outcomes snapshot digest) ≤ _ :=
      bound
    omega
  fits ordered decision member places := by
    obtain ⟨queued, left, next, outcome⟩ := decide_pair member
    cases outcome with
    | aside action free avail active => exact absurd places action
    | placed action on =>
        have cost := on.exact exact_ cheap (mem_orderJobs queued)
        have passes := on.passes
        exact ⟨_, on.member, on.chosen, passes.ready, passes.satisfied, passes.allowed,
          passes.retriable, cost, fun cap => cost ▸ passes.capped cap, passes.unheld⟩

end

/-! ### Exact arithmetic -/

/-- Rounded to a whole number, halves away from zero. -/
def roundRat (x : Rat) : Int := if 0 ≤ x then (x + 1 / 2).floor else -(1 / 2 - x).floor

/-- A rational with three decimals. -/
def fixedRat (x : Rat) : String :=
  let thousandths := (roundRat (x * 1000)).natAbs
  let digits := toString (thousandths % 1000)
  (if x < 0 then "-" else "") ++ toString (thousandths / 1000) ++ "." ++
    "".pushn '0' (3 - digits.length) ++ digits

instance : Number Rat where
  ofInt x := (x : Rat)
  toMoney x := x.num.tdiv x.den
  add := (· + ·)
  sub := (· - ·)
  mul := (· * ·)
  div := (· / ·)
  less x y := x < y
  same x y := x = y
  round x := (roundRat x : Rat)
  fixed3 := fixedRat

theorem costsExact_rat : CostsExact Rat := by
  intro cost _ _
  show (cost : Rat).num.tdiv (cost : Rat).den = cost
  simp

/-- First in, first out, with the best fit. -/
def fifoPolicy : Policy Rat where
  version := "fifo@v1"
  ordering := .fifo
  weights := { fit := 1, cost := 0, carbon := 0, deadline := 0 }
  agingStep := 0
  maxAgingBoost := 0
  fairShare := { wFair := 0, wAge := 0, ageMax := 0 }
  priorityWeight := 0
  starvationGuard := 0
  allowPreemption := false
  allowDelay := false
  delayMinImprovement := 0
  carbonMaxAge := 0
  fallback := .unset
  emergency := false

/-- A queued job of the tenant and project for some GPUs for an hour, without a cap. -/
def queuedJob (id : JobID) (gpus : Int) (submittedAt : Time) : Job where
  id := id
  tenant := "tenant"
  project := "project"
  image := "trainer"
  command := ["train"]
  requirements := { gpus := gpus, gpuModel := "", minGPUMemGB := 0, runtime := "" }
  priority := 0
  preemptible := false
  deadline := none
  maxRuntime := hour
  maxDelay := 0
  budgetCap := 0
  policyName := "fifo"
  allowedPools := []
  maxAttempts := 3
  attempt := 0
  state := .queued
  notBefore := none
  submittedAt := submittedAt
  startedAt := none
  finishedAt := none
  updatedAt := submittedAt
  version := 1

/-- A ready worker of the one pool. -/
def readyWorker (id : WorkerID) (gpus reserved : Int) : Worker where
  id := id
  pool := "pool"
  name := id
  capability := { gpuModel := "a100", gpus := gpus, gpuMemGB := 80, runtimes := ["sim"], region := "" }
  gpusReserved := reserved
  state := .ready
  lastHeartbeat := 0
  version := 0

/-- The pool, at a dollar per GPU-hour. -/
def dollarPool : Pool where
  id := "pool"
  name := "pool"
  kind := .simulated
  region := "region"
  pricePerGPUHour := 1000000
  interruptible := false

/-- One uncapped job and a free worker; beside them a worker, a project and a tenant that are past
their limits and that nothing is placed on. -/
def overdrawnSnapshot : Snapshot Rat where
  now := hour
  jobs := [queuedJob "job" 1 0]
  jobsDistinct := by decide
  workers := [readyWorker "worker" 1 0, readyWorker "shrunk" 1 2]
  workersDistinct := by decide
  pools _ := some dollarPool
  pue _ := 1
  running := []
  tenantUsage := []
  tenantActiveGPUs tenant := if tenant = "idle" then 2 else 0
  tenantMaxGPUs tenant := if tenant = "idle" then some 1 else none
  projectAvailable project := if project = "idle" then some (-1) else none
  carbon _ := { current := none, forecast := [], forecastModel := "" }

theorem decide_within_bounds_overdrawn : WithinBounds overdrawnSnapshot fifoPolicy "digest" :=
  decide_within_bounds overdrawnSnapshot fifoPolicy "digest" costsExact_rat
    (by unfold Snapshot.cheap; decide)

/-- Limits bound nothing where nothing is placed, and no cap is not a cap of 0: read without these
exceptions each of the four bounds fails. -/
theorem limits_passed_over :
    (fifoPolicy.outcomes overdrawnSnapshot "digest").any (fun pair =>
      pair.2.action = .place && pair.1.job.budgetCap < pair.2.budgetEffect) = true ∧
    overdrawnSnapshot.workers.any (fun worker => worker.freeGPUs <
      drawn (placing (onWorker worker.id)) gpusOf
        (fifoPolicy.outcomes overdrawnSnapshot "digest")) = true ∧
    (overdrawnSnapshot.projectAvailable "idle").any (fun available => available <
      drawn (placing (ofProject "idle")) costOfDecision
        (fifoPolicy.outcomes overdrawnSnapshot "digest")) = true ∧
    (overdrawnSnapshot.tenantMaxGPUs "idle").any (fun max => 0 < max &&
      max < overdrawnSnapshot.tenantActiveGPUs "idle" + drawn (placing (ofTenant "idle")) gpusOf
        (fifoPolicy.outcomes overdrawnSnapshot "digest")) = true := by
  decide +kernel

end GpuBroker.ControlPlane
