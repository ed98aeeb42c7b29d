/-
This file is the starvation guard: which worker it keeps for a job, and the
progress it makes over successive ticks.

The oldest starving job chooses before anyone holds a worker, so it is kept the
one with the most free GPUs among all that could host it, and no other job is
placed there. What is free on that worker only grows until the job fits, even
when the next tick keeps it another one.
-/
import GpuBroker.ControlPlane.Placements
import Mathlib.Data.Int.ConditionallyCompleteOrder
import Mathlib.Data.List.MinMax
import Mathlib.Tactic.Linarith

namespace GpuBroker.ControlPlane

open Library

section

variable {N : Type} {snapshot : Snapshot N} {policy : Policy N} {job : Job}
  {worker : Worker} {held : Held}

/-! ### The job and its hosts -/

/-- Past the guard, and not delayed, expired or over its tenant's maximum. -/
def Job.guarded (job : Job) (snapshot : Snapshot N) (policy : Policy N) : Bool :=
  0 < policy.starvationGuard && policy.starvationGuard ≤ snapshot.now - job.submittedAt &&
    !job.delayed snapshot.now policy && !job.pastDeadline snapshot.now &&
    !job.overQuota (snapshot.tenantMaxGPUs job.tenant) (snapshot.tenantActiveGPUs job.tenant)

/-- The worker passes every gate for the job but free capacity. -/
def couldHost (snapshot : Snapshot N) (job : Job) (worker : Worker) : Bool :=
  (filter job worker (snapshot.pool worker.pool) worker.capability.gpus (fun _ => none)
    snapshot.projectAvailable).isNone

def hosts (snapshot : Snapshot N) (job : Job) : List Worker :=
  snapshot.workers.filter (couldHost snapshot job)

/-- The most free GPUs of a worker that could host the job. -/
def roomFor (snapshot : Snapshot N) (job : Job) : WithBot Int :=
  @List.maximum Int Int.instLinearOrder.toPreorder Int.decLt ((hosts snapshot job).map Worker.freeGPUs)

theorem couldHost_iff : couldHost snapshot job worker = true ↔
    Passes job worker (snapshot.pool worker.pool) worker.capability.gpus (fun _ => none)
      snapshot.projectAvailable := by
  unfold couldHost
  rw [Option.isNone_iff_eq_none, filter_eq_none]

theorem mem_hosts : worker ∈ hosts snapshot job ↔
    worker ∈ snapshot.workers ∧ couldHost snapshot job worker = true := List.mem_filter

/-- With what is left, neither a maximum nor a budget stands against the job on any worker. -/
def Job.unbound (job : Job) (snapshot : Snapshot N) (left : Left) : Bool :=
  !job.overQuota (snapshot.tenantMaxGPUs job.tenant) (left.active job.tenant) &&
    snapshot.workers.all fun worker => (left.avail job.project).all fun available =>
      job.costIn (snapshot.pool worker.pool) ≤ available

theorem Job.unbound_quota {left : Left} (free : job.unbound snapshot left = true) :
    job.overQuota (snapshot.tenantMaxGPUs job.tenant) (left.active job.tenant) = false := by
  simpa using (Bool.and_eq_true_iff.mp free).1

theorem Job.unbound_funded {left : Left} (free : job.unbound snapshot left = true)
    (member : worker ∈ snapshot.workers) (available : MicroUSD)
    (has : left.avail job.project = some available) :
    job.costIn (snapshot.pool worker.pool) ≤ available := by
  have each := List.all_eq_true.mp (Bool.and_eq_true_iff.mp free).2 worker member
  rw [has] at each
  exact of_decide_eq_true each

/-! ### Age -/

theorem older_iff {one two : Job} : older one two = true ↔
    one.submittedAt < two.submittedAt ∨ one.submittedAt = two.submittedAt ∧ one.id < two.id := by
  unfold older
  split
  · next same => simp [same]
  · next apart => simp [apart]

theorem not_older_iff {one two : Job} : ¬ older one two = true ↔
    two.submittedAt ≤ one.submittedAt ∧ (one.submittedAt = two.submittedAt → two.id ≤ one.id) := by
  rw [older_iff, not_or, not_lt, not_and]
  exact and_congr_right fun _ => imp_congr_right fun _ => String.not_lt

instance : IsTrans Job (fun one two => ¬ older two one = true) where
  trans one two three first second := by
    rw [not_older_iff] at first second ⊢
    refine ⟨first.1.trans second.1, fun same => ?_⟩
    have level : two.submittedAt = one.submittedAt := le_antisymm (same ▸ second.1) first.1
    exact String.le_trans (first.2 level) (second.2 (same.trans level.symm))

instance : Std.Total (fun one two : Job => ¬ older two one = true) where
  total one two := by
    rw [not_older_iff, not_older_iff]
    rcases lt_trichotomy one.submittedAt two.submittedAt with before | level | after
    · exact Or.inl ⟨before.le, fun same => absurd same before.ne'⟩
    · exact (String.le_total one.id two.id).imp (fun id => ⟨level.le, fun _ => id⟩)
        fun id => ⟨level.ge, fun _ => id⟩
    · exact Or.inr ⟨after.le, fun same => absurd same after.ne'⟩

theorem Job.guarded_iff : job.guarded snapshot policy = true ↔
    0 < policy.starvationGuard ∧ policy.starvationGuard ≤ snapshot.now - job.submittedAt ∧
      job.delayed snapshot.now policy = false ∧ job.pastDeadline snapshot.now = false ∧
        job.overQuota (snapshot.tenantMaxGPUs job.tenant) (snapshot.tenantActiveGPUs job.tenant) =
          false := by
  simp only [Job.guarded, Bool.and_eq_true, decide_eq_true_eq, Bool.not_eq_true', and_assoc]

/-! ### The kept worker -/

theorem guardStarvation_eq (snapshot : Snapshot N) (policy : Policy N) (workers : List Worker)
    (held : Held) (job : Job) :
    guardStarvation snapshot policy workers held job =
      if job.guarded snapshot policy = true then
        match protectedFor job workers snapshot held with
        | none => held
        | some worker => Function.update held worker.id (some job.id)
      else held := by
  unfold guardStarvation Job.guarded
  grind

theorem protectedFor_eq (job : Job) (workers : List Worker) (snapshot : Snapshot N) (held : Held) :
    protectedFor job workers snapshot held =
      (workers.filter fun worker => (held worker.id).isNone &&
        (filter job worker (snapshot.pool worker.pool) worker.capability.gpus held
          snapshot.projectAvailable).isNone).argmax Worker.freeGPUs := by
  unfold protectedFor List.argmax
  congr 1
  funext pick worker
  cases pick <;> rfl

/-- A worker kept for a job could host it, and no one held it before. -/
theorem protectedFor_some {workers : List Worker}
    (kept : protectedFor job workers snapshot held = some worker) :
    worker ∈ workers ∧ held worker.id = none ∧ couldHost snapshot job worker = true := by
  rw [protectedFor_eq] at kept
  obtain ⟨member, gates⟩ := List.mem_filter.mp (List.argmax_mem kept)
  obtain ⟨free, passes⟩ := Bool.and_eq_true_iff.mp gates
  have passes := filter_eq_none.mp (Option.isNone_iff_eq_none.mp passes)
  refine ⟨member, Option.isNone_iff_eq_none.mp free, couldHost_iff.mpr ?_⟩
  exact { passes with unheld := fun _ none => by cases none }

theorem eligible_eq (snapshot : Snapshot N) (job : Job) (worker : Worker) :
    ((none : Option JobID).isNone && (filter job worker (snapshot.pool worker.pool)
      worker.capability.gpus (fun _ => none) snapshot.projectAvailable).isNone) =
      couldHost snapshot job worker := rfl

/-- While no worker is held, a job that some worker could host is kept the one of them with the
most free GPUs. -/
theorem protectedFor_first (hosted : ∃ worker ∈ snapshot.workers, couldHost snapshot job worker = true) :
    ∃ worker ∈ snapshot.workers, couldHost snapshot job worker = true ∧
      protectedFor job snapshot.sorted snapshot (fun _ => none) = some worker ∧
        roomFor snapshot job = worker.freeGPUs := by
  rw [protectedFor_eq]
  simp only [eligible_eq]
  obtain ⟨host, isHost, could⟩ := hosted
  cases kept : (snapshot.sorted.filter (couldHost snapshot job)).argmax Worker.freeGPUs with
  | none =>
      have empty := List.filter_eq_nil_iff.mp (List.argmax_eq_none.mp kept) host
        (mem_sorted.mpr isHost)
      exact absurd could empty
  | some worker =>
      obtain ⟨member, could⟩ := List.mem_filter.mp (List.argmax_mem kept)
      refine ⟨worker, mem_sorted.mp member, could, rfl, List.maximum_eq_coe_iff.mpr ⟨?_, ?_⟩⟩
      · exact List.mem_map_of_mem (mem_hosts.mpr ⟨mem_sorted.mp member, could⟩)
      · intro free among
        obtain ⟨other, isHost, rfl⟩ := List.mem_map.mp among
        obtain ⟨isWorker, could⟩ := mem_hosts.mp isHost
        exact List.le_of_mem_argmax (List.mem_filter.mpr ⟨mem_sorted.mpr isWorker, could⟩) kept

/-- What is held stays held. -/
theorem guardStarvation_keeps {workers : List Worker} {id : WorkerID} {holder : JobID}
    (holds : held id = some holder) (job : Job) :
    guardStarvation snapshot policy workers held job id = some holder := by
  rw [guardStarvation_eq]
  split
  · split
    · exact holds
    · next kept =>
      have free := (protectedFor_some kept).2.1
      rw [Function.update_of_ne, holds]
      rintro rfl
      rw [holds] at free
      cases free
  · exact holds

/-- A job that could start nowhere, or is not past the guard, changes nothing while no worker is
held. -/
theorem guardStarvation_stranger
    (stranger : job.guarded snapshot policy = true →
      ∀ worker ∈ snapshot.workers, couldHost snapshot job worker = false) :
    guardStarvation snapshot policy snapshot.sorted (fun _ => none) job = fun _ => none := by
  rw [guardStarvation_eq]
  split
  · next guarded =>
    split
    · rfl
    · next kept =>
      obtain ⟨member, _, could⟩ := protectedFor_some kept
      rw [stranger guarded _ (mem_sorted.mp member)] at could
      cases could
  · rfl

end

section

variable {N : Type} [Number N] {snapshot : Snapshot N} {policy : Policy N} {job : Job}

/-- The queue by age. -/
def byAge (snapshot : Snapshot N) (policy : Policy N) : List Job :=
  ((orderJobs snapshot policy).map OrderedJob.job).insertionSort fun one two => ¬ older two one

theorem heldWorkers_eq (snapshot : Snapshot N) (policy : Policy N) :
    heldWorkers snapshot policy =
      (byAge snapshot policy).foldl (guardStarvation snapshot policy snapshot.sorted)
        fun _ => none := rfl

theorem mem_byAge : job ∈ byAge snapshot policy ↔ job ∈ snapshot.jobs :=
  ((List.perm_insertionSort _ _).trans (orderJobs_perm snapshot policy)).mem_iff

/-- A held worker is kept for a queued job past the guard that it could host. -/
theorem held_origin {id : WorkerID} {holder : JobID}
    (holds : heldWorkers snapshot policy id = some holder) :
    ∃ job ∈ snapshot.jobs, job.id = holder ∧ job.guarded snapshot policy = true ∧
      ∃ worker ∈ snapshot.workers, worker.id = id ∧ couldHost snapshot job worker = true := by
  rw [heldWorkers_eq] at holds
  refine List.foldlRecOn (motive := fun held : Held => held id = some holder → _) _ _
    (fun none => by cases none) (fun held origin job member holds => ?_) holds
  rw [guardStarvation_eq] at holds
  split at holds
  · next guarded =>
    split at holds
    · exact origin holds
    · next worker kept =>
      obtain ⟨among, _, could⟩ := protectedFor_some kept
      by_cases same : id = worker.id
      · rw [same, Function.update_self] at holds
        exact ⟨job, mem_byAge.mp member, Option.some.inj holds, guarded, worker, mem_sorted.mp among,
          same.symm, could⟩
      · rw [Function.update_of_ne same] at holds
        exact origin holds
  · exact origin holds

/-- The oldest of the jobs that could hold a worker holds the one with the most free GPUs. -/
theorem held_oldest (queued : job ∈ snapshot.jobs) (guarded : job.guarded snapshot policy = true)
    (hosted : ∃ worker ∈ snapshot.workers, couldHost snapshot job worker = true)
    (oldest : ∀ other ∈ snapshot.jobs, other.guarded snapshot policy = true →
      (∃ worker ∈ snapshot.workers, couldHost snapshot other worker = true) →
        other.id ≠ job.id → older job other = true) :
    ∃ worker ∈ snapshot.workers, couldHost snapshot job worker = true ∧
      heldWorkers snapshot policy worker.id = some job.id ∧
        roomFor snapshot job = worker.freeGPUs := by
  obtain ⟨before, after, split⟩ := List.append_of_mem (mem_byAge.mpr queued : job ∈ byAge snapshot policy)
  have ordered : (byAge snapshot policy).Pairwise fun one two => ¬ older two one = true :=
    List.pairwise_insertionSort _ _
  have distinct : ((byAge snapshot policy).map Job.id).Nodup :=
    ((((List.perm_insertionSort _ _).trans (orderJobs_perm snapshot policy)).map Job.id).nodup_iff).mpr
      snapshot.jobsDistinct
  rw [split] at ordered distinct
  -- the jobs before it in age keep nothing
  have first : before.foldl (guardStarvation snapshot policy snapshot.sorted) (fun _ => none) =
      fun _ => none := by
    refine List.foldlRecOn (motive := fun held : Held => held = fun _ => none) _ _ rfl ?_
    rintro _ rfl other member
    refine guardStarvation_stranger fun guarded worker isWorker => ?_
    refine Bool.eq_false_iff.mpr fun could => ?_
    have apart : other.id ≠ job.id := by
      rw [List.map_append, List.nodup_append] at distinct
      exact distinct.2.2 _ (List.mem_map_of_mem member) _ (List.mem_map_of_mem List.mem_cons_self)
    have queued : other ∈ snapshot.jobs := by
      rw [← @mem_byAge _ _ _ policy, split]
      exact List.mem_append_left _ member
    exact (List.pairwise_append.mp ordered).2.2 other member job List.mem_cons_self
      (oldest other queued guarded ⟨worker, isWorker, could⟩ apart)
  obtain ⟨worker, isWorker, could, kept, most⟩ := protectedFor_first hosted
  refine ⟨worker, isWorker, could, ?_, most⟩
  rw [heldWorkers_eq, split, List.foldl_append, first, List.foldl_cons]
  -- it takes the worker, and keeps it from the jobs after it
  refine List.foldlRecOn (motive := fun held : Held => held worker.id = some job.id) _ _ ?_
    fun held holds other _ => guardStarvation_keeps holds other
  rw [guardStarvation_eq, if_pos guarded, kept]
  exact Function.update_self _ _ _

/-! ### A tick -/

variable {digest : String} {held : Held} {left : Left} {ordered : OrderedJob N}

/-- On a held worker only its holder is placed. -/
theorem placed_on_held {id : WorkerID} {holder : JobID} (holds : heldWorkers snapshot policy id = some holder)
    {pair : OrderedJob N × PolicyDecision N} (member : pair ∈ policy.outcomes snapshot digest)
    (places : pair.2.action = .place) (chosen : pair.2.chosenWorker = id) :
    pair.1.job.id = holder := by
  obtain ⟨_, left, next, outcome⟩ := decide_pair member
  cases outcome with
  | placed action on => exact (on.passes.unheld holder (on.chosen ▸ chosen ▸ holds)).symm
  | aside action => exact absurd places action

/-- Nothing is delayed by a policy that delays nothing, and no job that may not wait. -/
theorem delayFor_patient {best : Candidate N} {pool : Pool} {fallbacks : List String}
    (patient : policy.allowDelay = false ∨ job.maxDelay ≤ 0) :
    delayFor job best pool snapshot policy fallbacks = none := by
  unfold delayFor
  grind

/-- Nothing is delayed where the carbon of the region is not known. -/
theorem delayFor_dark {best : Candidate N} {pool : Pool} {fallbacks : List String}
    (dark : (snapshot.carbon pool.region).current = none) :
    delayFor job best pool snapshot policy fallbacks = none := by
  unfold delayFor
  rw [dark]
  cases best.carbonGrams <;> rfl

/-- A job with a worker that passes for it is placed, where it is not delayed. -/
theorem decideJob_place (patient : ∀ best fallbacks,
      delayFor ordered.job best (snapshot.pool best.pool) snapshot policy fallbacks = none)
    (timely : ordered.job.pastDeadline snapshot.now = false)
    (released : ordered.job.delayed snapshot.now policy = false)
    (quota : ordered.job.overQuota (snapshot.tenantMaxGPUs ordered.job.tenant)
      (left.active ordered.job.tenant) = false)
    (some_pass : survivors ordered.job snapshot held left ≠ []) :
    (decideJob snapshot policy digest held left ordered).1.action = .place := by
  unfold decideJob
  simp only [timely, released, quota, Bool.false_eq_true, if_false]
  split
  · next empty =>
    have none := score_length ordered.job (survivors ordered.job snapshot held left) snapshot policy
    rw [empty] at none
    exact absurd (List.eq_nil_of_length_eq_zero none.symm) some_pass
  · unfold decideBest
    simp only [patient]

/-- A job that no worker passes for preempts or waits. -/
theorem decideJob_stuck (timely : ordered.job.pastDeadline snapshot.now = false)
    (released : ordered.job.delayed snapshot.now policy = false)
    (quota : ordered.job.overQuota (snapshot.tenantMaxGPUs ordered.job.tenant)
      (left.active ordered.job.tenant) = false)
    (none_pass : survivors ordered.job snapshot held left = []) :
    decideJob snapshot policy digest held left ordered =
      decideStuck snapshot policy held left ordered.job { blank ordered policy digest with
        considered := snapshot.workers.length
        rejected := rejections ordered.job snapshot held left } := by
  unfold decideJob
  simp only [timely, released, quota, Bool.false_eq_true, if_false]
  split
  · rfl
  · next found =>
    have scored := score_length ordered.job (survivors ordered.job snapshot held left) snapshot policy
    rw [found, none_pass] at scored
    cases scored

/-- Where nothing is delayed or preempted, a job before its deadline is placed or waits. -/
theorem decideJob_waits (patient : policy.allowDelay = false)
    (gentle : policy.allowPreemption = false)
    (timely : ordered.job.pastDeadline snapshot.now = false)
    (unplaced : (decideJob snapshot policy digest held left ordered).1.action ≠ .place) :
    (decideJob snapshot policy digest held left ordered).1.action = .wait := by
  revert unplaced
  unfold decideJob decideStuck decideBest delayFor
  simp only [timely, patient, gentle, Bool.false_eq_true, if_false]
  grind

/-! ### Successive ticks -/

/-- The job is placed by the decisions on a snapshot. -/
def Policy.places (policy : Policy N) (snapshot : Snapshot N) (digest : String) (id : JobID) :
    Bool :=
  (policy.decide snapshot digest).any fun decision => decision.job = id && decision.action = .place

/-- Whether a job is unbound at its turn, beside what its decision leaves. -/
def unboundTurn (policy : Policy N) (snapshot : Snapshot N) (digest : String) (left : Left)
    (ordered : OrderedJob N) : Bool × Left :=
  (ordered.job.unbound snapshot left,
    (decideJob snapshot policy digest (heldWorkers snapshot policy) left ordered).2)

/-- No maximum and no budget is binding in a tick, at its start and at the turn of each job. -/
def unbound (policy : Policy N) (snapshot : Snapshot N) (digest : String) : Bool :=
  (snapshot.jobs.all fun job => job.unbound snapshot (.start snapshot)) &&
    (outputs (unboundTurn policy snapshot digest) (orderJobs snapshot policy) (.start snapshot)).all id

/-- A tick on a fleet of ready workers, with no maximum and no budget binding. -/
structure Plain (policy : Policy N) (digest : Snapshot N → String) (snapshot : Snapshot N) :
    Prop where
  ready : ∀ worker ∈ snapshot.workers, worker.state = .ready
  unbound : unbound policy snapshot (digest snapshot) = true

/-- The same machine, at another time. -/
structure Worker.Same (worker later : Worker) : Prop where
  id : later.id = worker.id
  pool : later.pool = worker.pool
  capability : later.capability = worker.capability

/-- One tick follows another: its decisions were applied, jobs that ran may have finished, and
whatever is queued since was submitted since, or was behind all that were read. -/
structure Succeeds (policy : Policy N) (digest : Snapshot N → String) (one two : Snapshot N) :
    Prop where
  clock : one.now ≤ two.now
  pools : two.pools = one.pools
  stays : ∀ worker ∈ one.workers, ∃ later ∈ two.workers, worker.Same later ∧
    later.gpusReserved ≤ worker.gpusReserved +
      drawn (placing (onWorker worker.id)) gpusOf (policy.outcomes one (digest one))
  fleet : ∀ later ∈ two.workers, ∃ worker ∈ one.workers, worker.Same later
  waits : ∀ pair ∈ policy.outcomes one (digest one), pair.2.action = .wait → pair.1.job ∈ two.jobs
  arrives : ∀ job ∈ two.jobs,
    (∃ pair ∈ policy.outcomes one (digest one), pair.2.action = .wait ∧ pair.1.job = job) ∨
      job.notBefore = none ∧
        (one.now ≤ job.submittedAt ∨ ∀ other ∈ one.jobs, older other job = true)
  plain : Plain policy digest two

/-- A job past the guard that could start on some worker if it were free. -/
structure Starving (policy : Policy N) (snapshot : Snapshot N) (job : Job) : Prop where
  queued : job ∈ snapshot.jobs
  guarded : job.guarded snapshot policy = true
  hosted : ∃ worker ∈ snapshot.workers, couldHost snapshot job worker = true

/-- The oldest of them. -/
structure Oldest (policy : Policy N) (snapshot : Snapshot N) (job : Job) : Prop
    extends Starving policy snapshot job where
  first : ∀ other, Starving policy snapshot other → other.id ≠ job.id → older job other = true

/-- One tick follows another, and the job is still waiting within its deadline. -/
structure Waits (policy : Policy N) (digest : Snapshot N → String) (job : Job)
    (one two : Snapshot N) : Prop extends Succeeds policy digest one two where
  unplaced : policy.places one (digest one) job.id = false
  timely : job.pastDeadline two.now = false

theorem unbound_start (free : unbound policy snapshot digest = true) (queued : job ∈ snapshot.jobs) :
    job.unbound snapshot (.start snapshot) = true :=
  List.all_eq_true.mp (Bool.and_eq_true_iff.mp free).1 job queued

theorem unbound_turn (free : unbound policy snapshot digest = true)
    {before after : List (OrderedJob N)}
    (split : orderJobs snapshot policy = before ++ ordered :: after) :
    ordered.job.unbound snapshot (passed
      (decideJob snapshot policy digest (heldWorkers snapshot policy)) before
        (.start snapshot)) = true := by
  have each := List.all_eq_true.mp (Bool.and_eq_true_iff.mp free).2
  rw [split] at each
  have turn := each _ (List.of_mem_zip
    (outputs_at (unboundTurn policy snapshot digest) before ordered after _)).2
  rwa [@passed_congr _ _ _ _ (unboundTurn policy snapshot digest)
    (decideJob snapshot policy digest (heldWorkers snapshot policy)) fun _ _ => rfl] at turn

/-! ### The worker of the oldest job -/

/-- Nobody before its holder takes from a held worker. -/
theorem free_of_held {before after : List (OrderedJob N)}
    (split : orderJobs snapshot policy = before ++ ordered :: after) {worker : Worker}
    (member : worker ∈ snapshot.workers)
    (holds : heldWorkers snapshot policy worker.id = some ordered.job.id) :
    (passed (decideJob snapshot policy digest (heldWorkers snapshot policy)) before
      (.start snapshot)).free worker.id = worker.freeGPUs := by
  have distinct : (((orderJobs snapshot policy).map OrderedJob.job).map Job.id).Nodup :=
    (((orderJobs_perm snapshot policy).map Job.id).nodup_iff).mpr snapshot.jobsDistinct
  refine @passed_keeps _ _ _ _ (fun left : Left => left.free worker.id = worker.freeGPUs) before
    (fun other among left kept => ?_) _ (start_free snapshot member)
  have apart : other.job.id ≠ ordered.job.id := by
    rw [split, List.map_map, List.map_append, List.nodup_append] at distinct
    exact distinct.2.2 _ (List.mem_map_of_mem among) _ (List.mem_map_of_mem List.mem_cons_self)
  obtain ⟨_, _, outcome⟩ := decideJob_outcome snapshot policy digest (heldWorkers snapshot policy)
    left other
  generalize (decideJob snapshot policy digest (heldWorkers snapshot policy) left other).1 =
    decision at outcome
  generalize (decideJob snapshot policy digest (heldWorkers snapshot policy) left other).2 = next
    at outcome ⊢
  cases outcome with
  | placed action on =>
      refine (Function.update_of_ne (fun same => apart ?_) _ _).trans kept
      exact (on.passes.unheld _ (on.chosen ▸ same ▸ holds)).symm
  | aside action free => exact (congrFun free worker.id).trans kept

/-- The worker the oldest job is kept. -/
theorem Oldest.kept (oldest : Oldest policy snapshot job) :
    ∃ worker ∈ snapshot.workers, couldHost snapshot job worker = true ∧
      heldWorkers snapshot policy worker.id = some job.id ∧
        roomFor snapshot job = worker.freeGPUs :=
  held_oldest oldest.queued oldest.guarded oldest.hosted fun other queued guarded hosted apart =>
    oldest.first other ⟨queued, guarded, hosted⟩ apart

omit [Number N] in
theorem Starving.timely (starving : Starving policy snapshot job) :
    job.pastDeadline snapshot.now = false :=
  (Job.guarded_iff.mp starving.guarded).2.2.2.1

/-- The decision of a queued job of a pass. -/
theorem turn_of (queued : job ∈ snapshot.jobs) (policy : Policy N) (digest : String) :
    ∃ before ordered after, orderJobs snapshot policy = before ++ ordered :: after ∧
      ordered.job = job ∧
      (ordered, (decideJob snapshot policy digest (heldWorkers snapshot policy)
        (passed (decideJob snapshot policy digest (heldWorkers snapshot policy)) before
          (.start snapshot)) ordered).1) ∈ policy.outcomes snapshot digest := by
  obtain ⟨ordered, member, same⟩ :=
    List.mem_map.mp ((orderJobs_perm snapshot policy).mem_iff.mpr queued)
  obtain ⟨before, after, split⟩ := List.append_of_mem member
  refine ⟨before, ordered, after, split, same, ?_⟩
  have turn := outputs_at (decideJob snapshot policy digest (heldWorkers snapshot policy)) before
    ordered after (.start snapshot)
  rwa [← split] at turn

theorem places_iff {id : JobID} : policy.places snapshot digest id = true ↔
    ∃ pair ∈ policy.outcomes snapshot digest, pair.2.action = .place ∧ pair.1.job.id = id := by
  unfold Policy.places
  rw [← outcomes_decisions, List.any_map, List.any_eq_true]
  refine exists_congr fun pair => and_congr_right fun member => ?_
  simp only [Function.comp_apply, (mem_outcomes member).2, Bool.and_eq_true, decide_eq_true_eq]
  exact and_comm

/-- The oldest job is placed once its room is enough. -/
theorem Oldest.placed (oldest : Oldest policy snapshot job) (patient : policy.allowDelay = false)
    (ready : ∀ worker ∈ snapshot.workers, worker.state = .ready)
    (free : unbound policy snapshot digest = true)
    (room : (job.requirements.gpus : WithBot Int) ≤ roomFor snapshot job) :
    policy.places snapshot digest job.id = true := by
  obtain ⟨worker, member, could, holds, most⟩ := oldest.kept
  obtain ⟨_, _, released, timely, _⟩ := Job.guarded_iff.mp oldest.guarded
  obtain ⟨before, ordered, after, split, rfl, turn⟩ := turn_of oldest.queued policy digest
  have unbound := unbound_turn free split
  refine places_iff.mpr ⟨_, turn, ?_, rfl⟩
  refine decideJob_place (fun _ _ => delayFor_patient (Or.inl patient)) timely released (Job.unbound_quota unbound)
    (List.ne_nil_of_mem (mem_survivors.mpr ⟨worker, member, ?_, rfl⟩))
  have passes := couldHost_iff.mp could
  exact
    { allowed := passes.allowed
      ready := ready worker member
      satisfied := passes.satisfied
      room := by
        rw [free_of_held split member holds]
        rw [most] at room
        exact WithBot.coe_le_coe.mp room
      unheld := fun holder other => Option.some.inj (other.symm.trans holds)
      retriable := passes.retriable
      funded := Job.unbound_funded unbound member
      capped := passes.capped }

/-! ### Progress -/

variable {one two : Snapshot N} {digests : Snapshot N → String}

omit [Number N] in
theorem Worker.Same.symm {later : Worker} (same : worker.Same later) : later.Same worker :=
  ⟨same.id.symm, same.pool.symm, same.capability.symm⟩

/-- What could host a job at one time could at another, if no budget stands against it then. -/
theorem couldHost_same {later : Worker} (same : worker.Same later) (pools : two.pools = one.pools)
    (plain : Plain policy digests two) (queued : job ∈ two.jobs) (member : later ∈ two.workers)
    (could : couldHost one job worker = true) : couldHost two job later = true := by
  have passes := couldHost_iff.mp could
  have pool : two.pool later.pool = one.pool worker.pool := by
    unfold Snapshot.pool
    rw [pools, same.pool]
  refine couldHost_iff.mpr
    { allowed := same.pool ▸ passes.allowed
      ready := plain.ready later member
      satisfied := same.capability ▸ passes.satisfied
      room := same.capability ▸ passes.room
      unheld := fun _ none => by cases none
      retriable := pool ▸ passes.retriable
      funded := Job.unbound_funded (unbound_start plain.unbound queued) member
      capped := pool ▸ passes.capped }

/-- A job that waits is still in the queue. -/
theorem Waits.queued (waits : Waits policy digests job one two) (patient : policy.allowDelay = false)
    (gentle : policy.allowPreemption = false) (queued : job ∈ one.jobs)
    (timely : job.pastDeadline one.now = false) : job ∈ two.jobs := by
  obtain ⟨before, ordered, after, split, rfl, turn⟩ := turn_of queued policy (digests one)
  refine waits.waits _ turn (decideJob_waits patient gentle timely fun placed => ?_)
  have places : policy.places one (digests one) ordered.job.id = true :=
    places_iff.mpr ⟨_, turn, placed, rfl⟩
  rw [waits.unplaced] at places
  cases places

/-- While the oldest job waits, the largest room for it does not decrease. -/
theorem Oldest.room (oldest : Oldest policy one job) (waits : Waits policy digests job one two)
    (queued : job ∈ two.jobs) : roomFor one job ≤ roomFor two job := by
  obtain ⟨worker, member, could, holds, most⟩ := oldest.kept
  obtain ⟨later, isWorker, same, reserved⟩ := waits.stays worker member
  -- nobody was placed on the worker it is kept
  have none_placed : drawn (placing (onWorker worker.id)) gpusOf
      (policy.outcomes one (digests one)) = 0 := by
    refine drawn_none ?_
    rintro ⟨pair, among, draws⟩
    obtain ⟨action, chosen⟩ := Bool.and_eq_true_iff.mp draws
    have own := placed_on_held holds among (of_decide_eq_true action) (of_decide_eq_true chosen)
    have places : policy.places one (digests one) job.id = true :=
      places_iff.mpr ⟨pair, among, of_decide_eq_true action, own⟩
    rw [waits.unplaced] at places
    cases places
  have host : later ∈ hosts two job :=
    mem_hosts.mpr ⟨isWorker, couldHost_same same waits.pools waits.plain queued isWorker could⟩
  have more : worker.freeGPUs ≤ later.freeGPUs := by
    unfold Worker.freeGPUs
    rw [same.capability]
    omega
  calc roomFor one job = worker.freeGPUs := most
    _ ≤ later.freeGPUs := WithBot.coe_le_coe.mpr more
    _ ≤ roomFor two job := List.le_maximum_of_mem' (List.mem_map_of_mem host)

/-- While the oldest job waits, it stays the oldest. -/
theorem Oldest.next (oldest : Oldest policy one job) (waits : Waits policy digests job one two)
    (plain : Plain policy digests one) (fresh : ∀ other ∈ one.jobs, other.notBefore = none)
    (queued : job ∈ two.jobs) : Oldest policy two job := by
  obtain ⟨guards, past, released, _, _⟩ := Job.guarded_iff.mp oldest.guarded
  have clock := waits.clock
  have plainNext := waits.plain
  refine ⟨⟨queued, Job.guarded_iff.mpr ⟨guards, ?_, ?_, waits.timely, ?_⟩, ?_⟩,
    fun other starving apart => ?_⟩
  · linarith
  · simp [Job.delayed, fresh job oldest.queued]
  · exact Job.unbound_quota (unbound_start plainNext.unbound queued)
  · obtain ⟨worker, member, could⟩ := oldest.hosted
    obtain ⟨later, isWorker, same, _⟩ := waits.stays worker member
    exact ⟨later, isWorker, couldHost_same same waits.pools plainNext queued isWorker could⟩
  · rcases waits.arrives other starving.queued with ⟨pair, among, _, rfl⟩ | ⟨_, since | behind⟩
    · have waited : pair.1.job ∈ one.jobs := (mem_outcomes among).1
      obtain ⟨_, _, _, timely, _⟩ := Job.guarded_iff.mp starving.guarded
      by_cases passed : policy.starvationGuard ≤ one.now - pair.1.job.submittedAt
      · -- it was starving before, so it was younger then
        refine oldest.first _ ⟨waited, Job.guarded_iff.mpr ⟨guards, passed, ?_, ?_, ?_⟩, ?_⟩ apart
        · simp [Job.delayed, fresh _ waited]
        · unfold Job.pastDeadline at timely ⊢
          cases has : pair.1.job.deadline with
          | none => rfl
          | some deadline =>
              rw [has] at timely
              simp only [Option.any_some, decide_eq_false_iff_not, not_not] at timely ⊢
              linarith
        · exact Job.unbound_quota (unbound_start plain.unbound waited)
        · obtain ⟨later, isWorker, could⟩ := starving.hosted
          obtain ⟨worker, member, same⟩ := waits.fleet later isWorker
          exact ⟨worker, member, couldHost_same same.symm waits.pools.symm plain waited member could⟩
      · refine older_iff.mpr (Or.inl ?_)
        linarith
    · refine older_iff.mpr (Or.inl ?_)
      linarith
    · exact behind job oldest.queued

/-- No job of a following tick was delayed, if none of this one was. -/
theorem Succeeds.fresh (succeeds : Succeeds policy digests one two)
    (fresh : ∀ job ∈ one.jobs, job.notBefore = none) : ∀ job ∈ two.jobs, job.notBefore = none := by
  intro job queued
  rcases succeeds.arrives job queued with ⟨pair, among, _, rfl⟩ | ⟨none, _⟩
  · exact fresh _ (mem_outcomes among).1
  · exact none

open Relation

theorem plain_reached {first : Snapshot N} (plain : Plain policy digests first)
    (fresh : ∀ job ∈ first.jobs, job.notBefore = none)
    (reached : ReflTransGen (Succeeds policy digests) first one) :
    Plain policy digests one ∧ ∀ job ∈ one.jobs, job.notBefore = none := by
  induction reached with
  | refl => exact ⟨plain, fresh⟩
  | tail _ succeeds inductionHypothesis =>
      exact ⟨succeeds.plain, succeeds.fresh inductionHypothesis.2⟩

/-- The oldest job is the oldest in every tick it waits for. -/
theorem Oldest.later (oldest : Oldest policy one job) (patient : policy.allowDelay = false)
    (gentle : policy.allowPreemption = false) (plain : Plain policy digests one)
    (fresh : ∀ job ∈ one.jobs, job.notBefore = none)
    (waited : ReflTransGen (Waits policy digests job) one two) :
    Oldest policy two job ∧ Plain policy digests two ∧ ∀ job ∈ two.jobs, job.notBefore = none := by
  induction waited with
  | refl => exact ⟨oldest, plain, fresh⟩
  | tail _ waits inductionHypothesis =>
      obtain ⟨before, plainBefore, freshBefore⟩ := inductionHypothesis
      have queued := waits.queued patient gentle before.queued before.timely
      exact ⟨before.next waits plainBefore freshBefore queued, waits.plain,
        waits.toSucceeds.fresh freshBefore⟩

/-- In successive ticks of a patient policy with a guard, from the tick in which a job is the oldest
starving one until it is placed or past its deadline, the largest room for it does not decrease, and
it is placed in the first tick in which that is its demand or more. -/
theorem guard_progresses (policy : Policy N) (digests : Snapshot N → String)
    (patient : policy.allowDelay = false) (gentle : policy.allowPreemption = false)
    {first start now : Snapshot N} (plain : Plain policy digests first)
    (fresh : ∀ job ∈ first.jobs, job.notBefore = none)
    (reached : ReflTransGen (Succeeds policy digests) first start) {job : Job}
    (oldest : Oldest policy start job) (waited : ReflTransGen (Waits policy digests job) start now) :
    (∀ next, Waits policy digests job now next → roomFor now job ≤ roomFor next job) ∧
      ((job.requirements.gpus : WithBot Int) ≤ roomFor now job →
        policy.places now (digests now) job.id = true) := by
  obtain ⟨plainStart, freshStart⟩ := plain_reached plain fresh reached
  obtain ⟨oldestNow, plainNow, _⟩ := oldest.later patient gentle plainStart freshStart waited
  refine ⟨fun next waits => ?_, oldestNow.placed patient plainNow.ready plainNow.unbound⟩
  exact oldestNow.room waits (waits.queued patient gentle oldestNow.queued oldestNow.timely)

end

/-! ### A large job among small ones -/

/-- First in, first out, with a guard of an hour. -/
def guardedPolicy : Policy Rat := { fifoPolicy with starvationGuard := hour }

/-- A job that needs two GPUs of the one worker, and a later one that needs one. -/
def starvingSnapshot (now : Time) (reserved : Int) : Snapshot Rat where
  now := now
  jobs := [queuedJob "large" 2 0, queuedJob "small" 1 hour]
  jobsDistinct := by decide
  workers := [readyWorker "worker" 4 reserved]
  workersDistinct := by simp
  pools _ := some dollarPool
  pue _ := 1
  running := []
  tenantUsage := []
  tenantActiveGPUs _ := 0
  tenantMaxGPUs _ := none
  projectAvailable _ := some 1000000000
  carbon _ := { current := none, forecast := [], forecastModel := "" }

theorem starvingSnapshot_plain (now : Time) (reserved : Int)
    (free : unbound guardedPolicy (starvingSnapshot now reserved) "" = true) :
    Plain guardedPolicy (fun _ => "") (starvingSnapshot now reserved) where
  ready worker member := by
    cases List.mem_singleton.mp member
    rfl
  unbound := free

/-- In the first tick one GPU is free, and neither job gets it; in the second one two are, and the
large job is placed. -/
theorem guard_progresses_large :
    guardedPolicy.places (starvingSnapshot hour 3) "" "large" = false ∧
      guardedPolicy.places (starvingSnapshot (2 * hour) 2) "" "large" = true := by
  have unplaced : guardedPolicy.places (starvingSnapshot hour 3) "" "large" = false := by
    decide +kernel
  have plain := starvingSnapshot_plain hour 3 (by decide +kernel)
  have oldest : Oldest guardedPolicy (starvingSnapshot hour 3) (queuedJob "large" 2 0) := by
    refine ⟨⟨List.mem_cons_self, by decide +kernel, _, List.mem_cons_self, by decide +kernel⟩, ?_⟩
    intro other starving apart
    rcases List.mem_cons.mp starving.queued with rfl | later
    · exact absurd rfl apart
    · cases List.mem_singleton.mp later
      decide
  have waits : Waits guardedPolicy (fun _ => "") (queuedJob "large" 2 0) (starvingSnapshot hour 3)
      (starvingSnapshot (2 * hour) 2) :=
    { clock := by decide
      pools := rfl
      stays := fun worker member => by
        cases List.mem_singleton.mp member
        exact ⟨_, List.mem_cons_self, ⟨rfl, rfl, rfl⟩, by decide +kernel⟩
      fleet := fun later member => by
        cases List.mem_singleton.mp member
        exact ⟨_, List.mem_cons_self, rfl, rfl, rfl⟩
      waits := fun pair among _ => (mem_outcomes among).1
      arrives := fun job queued => by
        have all_wait : ∀ job ∈ (starvingSnapshot hour 3).jobs,
            ((guardedPolicy.outcomes (starvingSnapshot hour 3) "").any fun pair =>
              pair.2.action = .wait ∧ pair.1.job = job) = true := by
          decide +kernel
        obtain ⟨pair, among, both⟩ := List.any_eq_true.mp (all_wait job queued)
        exact Or.inl ⟨pair, among, of_decide_eq_true both⟩
      plain := starvingSnapshot_plain (2 * hour) 2 (by decide +kernel)
      unplaced
      timely := rfl }
  refine ⟨unplaced, ?_⟩
  exact (guard_progresses guardedPolicy (fun _ => "") rfl rfl plain (by decide) .refl oldest
    (.single waits)).2 (by decide +kernel)

end GpuBroker.ControlPlane
