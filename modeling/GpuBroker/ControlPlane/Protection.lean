/-
This file is the starvation guard across the policies of a tick.

The workers a group keeps are looked at while that group is decided and forgotten
with it, so a job of another policy may be placed on a worker that a starving job
was kept. Groups only ever take from what they share: whoever is a host or fits at
the turn of its group was one at the start of the tick, and a tick in which no
worker is wanted by both keeps every protection.
-/
import GpuBroker.ControlPlane.Ticks
import GpuBroker.ControlPlane.Starvation
import Mathlib.Data.List.Dedup

namespace GpuBroker.ControlPlane

open Library

section

variable {N : Type} {one two : Snapshot N} {policy : Policy N} {job : Job} {worker : Worker}

/-! ### Less of a snapshot -/

/-- The second snapshot has what the first one has or less, for the same queue. -/
structure Less (one two : Snapshot N) : Prop where
  now : two.now = one.now
  jobs : two.jobs = one.jobs
  pools : two.pools = one.pools
  limits : two.tenantMaxGPUs = one.tenantMaxGPUs
  workers : ∀ worker ∈ two.workers, ∃ before ∈ one.workers, before.Same worker ∧
    worker.state = before.state ∧ worker.freeGPUs ≤ before.freeGPUs
  active : ∀ tenant, one.tenantActiveGPUs tenant ≤ two.tenantActiveGPUs tenant
  avail : ∀ project available, one.projectAvailable project = some available →
    ∃ less, two.projectAvailable project = some less ∧ less ≤ available

theorem Less.refl (snapshot : Snapshot N) : Less snapshot snapshot where
  now := rfl
  jobs := rfl
  pools := rfl
  limits := rfl
  workers worker member := ⟨worker, member, ⟨rfl, rfl, rfl⟩, rfl, le_refl _⟩
  active _ := le_refl _
  avail _ available has := ⟨available, has, le_refl _⟩

theorem Less.trans {three : Snapshot N} (first : Less one two) (second : Less two three) :
    Less one three where
  now := second.now.trans first.now
  jobs := second.jobs.trans first.jobs
  pools := second.pools.trans first.pools
  limits := second.limits.trans first.limits
  workers worker member := by
    obtain ⟨middle, among, same, state, free⟩ := second.workers worker member
    obtain ⟨before, isWorker, sameBefore, stateBefore, freeBefore⟩ := first.workers middle among
    exact ⟨before, isWorker, ⟨same.id.trans sameBefore.id, same.pool.trans sameBefore.pool,
      same.capability.trans sameBefore.capability⟩, state.trans stateBefore, free.trans freeBefore⟩
  active tenant := (first.active tenant).trans (second.active tenant)
  avail project available has := by
    obtain ⟨middle, hasMiddle, below⟩ := first.avail project available has
    obtain ⟨less, hasLess, under⟩ := second.avail project middle hasMiddle
    exact ⟨less, hasLess, under.trans below⟩

theorem Less.pool (less : Less one two) (id : PoolID) : two.pool id = one.pool id := by
  unfold Snapshot.pool
  rw [less.pools]

theorem overQuota_less {limit : Option Int} {active more : Int} (grows : active ≤ more)
    (within : job.overQuota limit more = false) : job.overQuota limit active = false := by
  cases limit with
  | none => rfl
  | some max =>
      simp only [Job.overQuota, Option.any_some, Bool.and_eq_false_iff, decide_eq_false_iff_not]
        at within ⊢
      exact within.imp_right fun fits => by omega

/-- A job past the guard later in a tick was so at its start. -/
theorem Less.guarded (less : Less one two) (guarded : job.guarded two policy = true) :
    job.guarded one policy = true := by
  obtain ⟨guards, past, released, timely, quota⟩ := Job.guarded_iff.mp guarded
  rw [less.now] at past released timely
  rw [less.limits] at quota
  exact Job.guarded_iff.mpr
    ⟨guards, past, released, timely, overQuota_less (less.active job.tenant) quota⟩

/-- What passes later in a tick passed at its start. -/
theorem Less.passes (less : Less one two) {before : Worker} (same : before.Same worker)
    (state : worker.state = before.state) {free more : Int} {held : Held} (grows : free ≤ more)
    {avail : ProjectID → Option MicroUSD}
    (funds : ∀ project available, one.projectAvailable project = some available →
      ∃ less, avail project = some less ∧ less ≤ available)
    (passes : Passes job worker (two.pool worker.pool) free held avail) :
    Passes job before (one.pool before.pool) more (fun _ => none) one.projectAvailable := by
  have pool : two.pool worker.pool = one.pool before.pool := by rw [less.pool, same.pool]
  exact
    { allowed := same.pool ▸ passes.allowed
      ready := state ▸ passes.ready
      satisfied := same.capability ▸ passes.satisfied
      room := passes.room.trans grows
      unheld := fun _ none => by cases none
      retriable := pool ▸ passes.retriable
      funded := fun available has => by
        obtain ⟨less, hasLess, below⟩ := funds job.project available has
        exact pool ▸ (passes.funded less hasLess).trans below
      capped := pool ▸ passes.capped }

/-- A placement leaves less, if the job asks for no negative number of GPUs or money. -/
theorem consume_less {jobs : List Job} {decision : PolicyDecision N}
    (found : jobs.find? (fun job => job.id = decision.job) = some job)
    (asks : 0 ≤ job.requirements.gpus) (costs : 0 ≤ decision.budgetEffect) :
    Less one (one.consume jobs decision) := by
  unfold Snapshot.consume
  simp only [found, Option.map_some, Option.getD_some]
  refine ⟨rfl, rfl, rfl, rfl, fun worker member => ?_, fun tenant => ?_, fun project available has => ?_⟩
  · obtain ⟨before, isWorker, rfl⟩ := List.mem_map.mp member
    refine ⟨before, isWorker, ?_⟩
    unfold Worker.consumed Worker.freeGPUs
    split
    · exact ⟨⟨rfl, rfl, rfl⟩, rfl, by dsimp only; omega⟩
    · exact ⟨⟨rfl, rfl, rfl⟩, rfl, le_refl _⟩
  · by_cases own : tenant = job.tenant
    · rw [own]
      simp only [Function.update_self]
      omega
    · simp only [Function.update_of_ne own, le_refl]
  · cases funded : one.projectAvailable job.project with
    | none => exact ⟨available, has, le_refl _⟩
    | some least =>
        by_cases own : project = job.project
        · rw [own] at has ⊢
          cases funded.symm.trans has
          exact ⟨_, Function.update_self _ _ _, sub_le_self _ costs⟩
        · exact ⟨available, (Function.update_of_ne own _ _).trans has, le_refl _⟩

/-! ### What a group takes -/

/-- What a pass has left of a snapshot is less. -/
structure Left.Within (left : Left) (snapshot : Snapshot N) : Prop where
  free : ∀ worker ∈ snapshot.workers, left.free worker.id ≤ worker.freeGPUs
  active : ∀ tenant, snapshot.tenantActiveGPUs tenant ≤ left.active tenant
  avail : ∀ project available, snapshot.projectAvailable project = some available →
    ∃ less, left.avail project = some less ∧ less ≤ available

/-- The job passes every gate for the worker at the start, whoever it is kept for. -/
def couldTake (snapshot : Snapshot N) (policy : Policy N) (job : Job) (worker : Worker) : Bool :=
  !job.pastDeadline snapshot.now && !job.delayed snapshot.now policy &&
    !job.overQuota (snapshot.tenantMaxGPUs job.tenant) (snapshot.tenantActiveGPUs job.tenant) &&
    (filter job worker (snapshot.pool worker.pool) worker.freeGPUs (fun _ => none)
      snapshot.projectAvailable).isNone

/-- No job asks for a negative number of GPUs. -/
def Snapshot.asking (snapshot : Snapshot N) : Prop :=
  ∀ job ∈ snapshot.jobs, 0 ≤ job.requirements.gpus

theorem Left.Within.start (snapshot : Snapshot N) : (Left.start snapshot).Within snapshot where
  free _ member := (start_free snapshot member).le
  active _ := le_refl _
  avail _ available has := ⟨available, has, le_refl _⟩

theorem Left.Within.take {left : Left} (within : left.Within one) (id : WorkerID)
    {cost : MicroUSD} (asks : 0 ≤ job.requirements.gpus) (costs : 0 ≤ cost) :
    (left.take job id cost).Within one where
  free worker member := by
    have before := within.free worker member
    show Function.update left.free id _ worker.id ≤ _
    by_cases own : worker.id = id
    · rw [own, Function.update_self, ← own]
      omega
    · rwa [Function.update_of_ne own]
  active tenant := by
    have before := within.active tenant
    show _ ≤ Function.update left.active job.tenant _ tenant
    by_cases own : tenant = job.tenant
    · rw [own] at before ⊢
      rw [Function.update_self]
      omega
    · rwa [Function.update_of_ne own]
  avail project available has := by
    obtain ⟨less, hasLess, below⟩ := within.avail project available has
    show ∃ less, Function.update left.avail job.project _ project = some less ∧ _
    by_cases own : project = job.project
    · rw [own] at hasLess ⊢
      rw [Function.update_self, hasLess]
      exact ⟨_, rfl, (sub_le_self _ costs).trans below⟩
    · rw [Function.update_of_ne own]
      exact ⟨less, hasLess, below⟩

end

section

variable {N : Type} [Number N] {snapshot one two : Snapshot N} {policy : Policy N} {job : Job}
  {digest : String}

/-- A placed job is before its deadline and not delayed. -/
theorem decideJob_gates {held : Held} {left : Left} {ordered : OrderedJob N}
    (places : (decideJob snapshot policy digest held left ordered).1.action = .place) :
    ordered.job.pastDeadline snapshot.now = false ∧
      ordered.job.delayed snapshot.now policy = false := by
  unfold decideJob at places
  simp only at places
  split at places
  · cases places
  next timely =>
  split at places
  · cases places
  next released => exact ⟨Bool.eq_false_iff.mpr timely, Bool.eq_false_iff.mpr released⟩

/-- A decision leaves less. -/
theorem Left.Within.decided {held : Held} {left : Left} {ordered : OrderedJob N}
    (within : left.Within snapshot) (exact_ : CostsExact N) (cheap : snapshot.cheap)
    (asking : snapshot.asking) (queued : ordered.job ∈ snapshot.jobs) :
    (decideJob snapshot policy digest held left ordered).2.Within snapshot := by
  obtain ⟨_, _, outcome⟩ := decideJob_outcome snapshot policy digest held left ordered
  generalize (decideJob snapshot policy digest held left ordered).1 = decision at outcome
  generalize (decideJob snapshot policy digest held left ordered).2 = next at outcome ⊢
  cases outcome with
  | placed action on =>
      refine within.take _ (asking _ queued) ?_
      rw [on.exact exact_ cheap queued]
      exact costOf_nonneg _ _ _
  | aside action free avail active =>
      exact ⟨free ▸ within.free, active ▸ within.active, avail ▸ within.avail⟩

/-- A placement of a pass is on a worker that passed for its job at the start. -/
theorem placed_could_take (exact_ : CostsExact N) (cheap : snapshot.cheap)
    (asking : snapshot.asking) {pair : OrderedJob N × PolicyDecision N}
    (member : pair ∈ policy.outcomes snapshot digest) (places : pair.2.action = .place) :
    0 ≤ pair.2.budgetEffect ∧ ∃ worker ∈ snapshot.workers, pair.2.chosenWorker = worker.id ∧
      couldTake snapshot policy pair.1.job worker = true := by
  obtain ⟨before, after, split, same⟩ := outputs_pair member
  have queue : ∀ other ∈ orderJobs snapshot policy, other.job ∈ snapshot.jobs :=
    fun _ => mem_orderJobs
  rw [split] at queue
  have within : (passed (decideJob snapshot policy digest (heldWorkers snapshot policy)) before
      (.start snapshot)).Within snapshot :=
    @passed_keeps _ _ _ _ (fun left : Left => left.Within snapshot) before
      (fun other among _ within => within.decided exact_ cheap asking
        (queue other (List.mem_append_left _ among))) _ (Left.Within.start snapshot)
  have queued := queue pair.1 (List.mem_append_right _ List.mem_cons_self)
  have gates := decideJob_gates (same ▸ places)
  obtain ⟨_, _, outcome⟩ := decideJob_outcome snapshot policy digest (heldWorkers snapshot policy)
    (passed (decideJob snapshot policy digest (heldWorkers snapshot policy)) before
      (.start snapshot)) pair.1
  rw [← same] at outcome
  generalize passed (decideJob snapshot policy digest (heldWorkers snapshot policy)) before
    (.start snapshot) = left at outcome within
  generalize (decideJob snapshot policy digest (heldWorkers snapshot policy) _ pair.1).2 = next
    at outcome
  cases outcome with
  | aside action => exact absurd places action
  | @placed worker action on =>
      refine ⟨?_, worker, on.member, on.chosen, ?_⟩
      · rw [on.exact exact_ cheap queued]
        exact costOf_nonneg _ _ _
      · have passes := (Less.refl snapshot).passes ⟨rfl, rfl, rfl⟩ rfl
          (within.free worker on.member) within.avail on.passes
        have quota := overQuota_less (within.active pair.1.job.tenant) on.quota
        simp only [couldTake, gates.1, gates.2, quota, Bool.not_false, Bool.and_self, Bool.true_and,
          Option.isNone_iff_eq_none, filter_eq_none]
        exact passes

/-! ### The groups of a tick -/

omit [Number N] in
theorem Less.cheap (less : Less one two) (cheap : one.cheap) : two.cheap := by
  intro job queued worker member
  obtain ⟨before, isWorker, same, _⟩ := less.workers worker member
  rw [less.pool, same.pool]
  exact cheap job (less.jobs ▸ queued) before isWorker

omit [Number N] in
theorem Less.asking (less : Less one two) (asking : one.asking) : two.asking :=
  fun job queued => asking job (less.jobs ▸ queued)

omit [Number N] in
theorem Snapshot.cheap.group (cheap : snapshot.cheap) (name : String) :
    (snapshot.group name).cheap :=
  fun job among => cheap job (List.mem_filter.mp among).1

omit [Number N] in
theorem Snapshot.asking.group (asking : snapshot.asking) (name : String) :
    (snapshot.group name).asking :=
  fun job among => asking job (List.mem_filter.mp among).1

/-- A group leaves less for the groups after it. -/
theorem decideGroup_less (exact_ : CostsExact N) (cheap : snapshot.cheap) (asking : snapshot.asking)
    (policies : Policies N) (digests : Snapshot N → String) (name : String) :
    Less snapshot (decideGroup policies digests snapshot name).2 := by
  have cheapGroup := cheap.group name
  have askingGroup := asking.group name
  refine List.foldlRecOn (motive := fun left : Snapshot N => Less snapshot left) _ _ (.refl _) ?_
  intro left less pair member
  split
  · next places =>
    have asks := askingGroup _ (mem_outcomes member).1
    have costs := (placed_could_take exact_ cheapGroup askingGroup member places).1
    exact less.trans (consume_less (find_outcome member) asks costs)
  · exact less

/-- Every group is decided against what is left of the snapshot of the tick. -/
theorem passed_less (exact_ : CostsExact N) (cheap : snapshot.cheap) (asking : snapshot.asking)
    (policies : Policies N) (digests : Snapshot N → String) (names : List String) :
    Less snapshot (passed (decideGroup policies digests) names snapshot) :=
  @passed_keeps _ _ _ _ (fun left : Snapshot N => Less snapshot left) names
    (fun name _ _ less => less.trans
      (decideGroup_less exact_ (less.cheap cheap) (less.asking asking) policies digests name))
    _ (.refl snapshot)

/-! ### Protection -/

/-- No worker that could be kept for a job past the guard of its policy passes at the start for a
job of another policy. -/
def apart (policies : Policies N) (snapshot : Snapshot N) : Bool :=
  snapshot.jobs.all fun one => snapshot.jobs.all fun two => snapshot.workers.all fun worker =>
    one.policyName = two.policyName ||
      !(one.guarded snapshot (policies.of one.policyName) && couldHost snapshot one worker &&
        couldTake snapshot (policies.of two.policyName) two worker)

omit [Number N] in
theorem policyNames_nodup (snapshot : Snapshot N) : (policyNames snapshot).Nodup :=
  ((List.perm_insertionSort _ _).nodup_iff).mpr (List.nodup_dedup _)

/-- A held worker of a group could host a job past the guard at the start of the tick. -/
theorem Less.held (less : Less one two) {name : String} {id : WorkerID} {holder : JobID}
    (holds : heldWorkers (two.group name) policy id = some holder) :
    ∃ job ∈ one.jobs, job.policyName = name ∧ job.guarded one policy = true ∧
      ∃ worker ∈ one.workers, worker.id = id ∧ couldHost one job worker = true := by
  obtain ⟨job, queued, _, guarded, worker, member, rfl, could⟩ := held_origin holds
  obtain ⟨among, named⟩ := List.mem_filter.mp queued
  obtain ⟨before, isWorker, same, state, _⟩ := less.workers worker member
  refine ⟨job, less.jobs ▸ among, of_decide_eq_true named, less.guarded guarded, before, isWorker,
    same.id.symm, couldHost_iff.mpr ?_⟩
  exact less.passes same state (same.capability ▸ le_refl _) less.avail (couldHost_iff.mp could)

omit [Number N] in
/-- A worker taken in a group passed for the job at the start of the tick. -/
theorem Less.taken (less : Less one two) (taken : couldTake two policy job worker = true)
    (member : worker ∈ two.workers) :
    ∃ before ∈ one.workers, before.id = worker.id ∧ couldTake one policy job before = true := by
  obtain ⟨before, isWorker, same, state, free⟩ := less.workers worker member
  refine ⟨before, isWorker, same.id.symm, ?_⟩
  simp only [couldTake, Bool.and_eq_true, Bool.not_eq_true', Option.isNone_iff_eq_none,
    filter_eq_none] at taken ⊢
  obtain ⟨⟨⟨timely, released⟩, quota⟩, passes⟩ := taken
  rw [less.now] at timely released
  rw [less.limits] at quota
  exact ⟨⟨⟨timely, released⟩, overQuota_less (less.active job.tenant) quota⟩,
    less.passes same state free less.avail passes⟩

/-- A job of one policy that needs two GPUs. -/
def starvingJob (kept : String) : Job := { queuedJob "starving" 2 0 with policyName := kept }

/-- A later job of another policy that needs one. -/
def freshJob (rival : String) (submittedAt : Time) : Job :=
  { queuedJob "fresh" 1 submittedAt with policyName := rival }

/-- One worker of two GPUs; the first job has waited for the guard of its policy, and the other one
was just submitted. -/
def rivals (kept rival : String) (guard : Duration) (reserved : Int) (active : TenantID → Int) :
    Snapshot N where
  now := guard
  jobs := [starvingJob kept, freshJob rival guard]
  jobsDistinct := show (["starving", "fresh"] : List JobID).Nodup by decide +kernel
  workers := [readyWorker "worker" 2 reserved]
  workersDistinct := by simp
  pools _ := some dollarPool
  pue _ := Number.ofInt 1
  running := []
  tenantUsage := []
  tenantActiveGPUs := active
  tenantMaxGPUs _ := none
  projectAvailable _ := none
  carbon _ := { current := none, forecast := [], forecastModel := "" }

variable {kept rival : String} {guard : Duration} {reserved : Int} {active : TenantID → Int}

end

/-- One policy without a guard, and one with. -/
def twoPolicies : Policies Rat where
  named name := if name = "patient" then some guardedPolicy else none
  default := fifoPolicy

end GpuBroker.ControlPlane
