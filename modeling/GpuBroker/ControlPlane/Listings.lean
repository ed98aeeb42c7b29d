/-
This file is the decision beside the order in which a snapshot lists things.

A decision sorts jobs by score and by age, workers by id and victims by
priority, and each of these orders ends in a comparison of ids; everything else
looks rows up by id or counts them. So a snapshot whose jobs, workers and
running jobs are listed in another order is decided alike, and all that the
digest of a snapshot changes of its decisions is that they carry it.
-/
import GpuBroker.ControlPlane.Queues
import GpuBroker.ControlPlane.Exact

namespace GpuBroker.ControlPlane

open Library

/-! ### Lists in another order -/

/-- A list and the list in another order are sorted alike, where the order tells the items apart. -/
theorem insertionSort_perm {Item : Type} {relation : Item → Item → Prop} [DecidableRel relation]
    [IsTrans Item relation] [Std.Total relation] {items others : List Item} (reordered : items.Perm others)
    (apart : ∀ one ∈ items, ∀ two ∈ items, relation one two → relation two one → one = two) :
    items.insertionSort relation = others.insertionSort relation := by
  refine @List.Perm.eq_of_pairwise _ relation _ _ (fun one two isOne isTwo => ?_)
    (List.pairwise_insertionSort _ _) (List.pairwise_insertionSort _ _) ?_
  · refine apart one ((List.perm_insertionSort _ _).mem_iff.mp isOne) two ?_
    exact reordered.mem_iff.mpr ((List.perm_insertionSort _ _).mem_iff.mp isTwo)
  · exact (List.perm_insertionSort _ _).trans (reordered.trans (List.perm_insertionSort _ _).symm)

/-- Rows with distinct keys are found alike in another order. -/
theorem find_perm {Row Key : Type} [DecidableEq Key] {key : Row → Key} {rows others : List Row}
    (distinct : (rows.map key).Nodup) (reordered : rows.Perm others) (id : Key) :
    rows.find? (fun row => key row = id) = others.find? fun row => key row = id := by
  have distinct' : (others.map key).Nodup := (reordered.map key).nodup_iff.mp distinct
  cases found : rows.find? fun row => key row = id with
  | none =>
      refine (List.find?_eq_none.mpr fun row member => ?_).symm
      exact List.find?_eq_none.mp found row (reordered.mem_iff.mpr member)
  | some row =>
      have same : key row = id := by simpa using List.find?_some found
      have member : row ∈ others := reordered.mem_iff.mp (List.mem_of_find?_eq_some found)
      subst same
      exact (@Table.find_of_mem _ _ _ _ ⟨others, distinct'⟩ row member).symm

section

variable {N : Type} [Number N] {snapshot : Snapshot N} {policy : Policy N}

/-! ### A snapshot listed in another order -/

/-- The snapshot with its jobs, workers and running jobs in another order. -/
def Snapshot.relist (snapshot : Snapshot N) {jobs : List Job} (jobsPerm : jobs.Perm snapshot.jobs)
    {workers : List Worker} (workersPerm : workers.Perm snapshot.workers) (running : List RunningJob) :
    Snapshot N :=
  { snapshot with
    jobs := jobs
    jobsDistinct := (jobsPerm.map Job.id).nodup_iff.mpr snapshot.jobsDistinct
    workers := workers
    workersDistinct := (workersPerm.map Worker.id).nodup_iff.mpr snapshot.workersDistinct
    running := running }

variable {jobs : List Job} (jobsPerm : jobs.Perm snapshot.jobs) {workers : List Worker}
  (workersPerm : workers.Perm snapshot.workers) {running : List RunningJob}

/-! ### The queue and the workers -/

theorem queue_relist (comparable : Comparable N) (policy : Policy N) :
    queue (snapshot.relist jobsPerm workersPerm running) policy = queue snapshot policy := by
  have := comparable.trans snapshot policy
  have := comparable.total snapshot policy
  have order : (snapshot.relist jobsPerm workersPerm running).sooner policy = snapshot.sooner policy := rfl
  rw [queue_eq, queue_eq, order]
  refine insertionSort_perm jobsPerm ?_
  intro one isOne two isTwo first second
  exact jobs_apart (jobsPerm.mem_iff.mp isOne) (jobsPerm.mem_iff.mp isTwo) (comparable.apart first second)

/-- The queue with its places is made from the queue of jobs. -/
theorem orderJobs_eq_queue (snapshot : Snapshot N) (policy : Policy N) :
    orderJobs snapshot policy = ((queue snapshot policy).map (snapshot.keyed policy)).zipIdx.map
      fun (ordered, index) => { ordered with key := { ordered.key with position := index + 1 } } := by
  rw [queue_eq, List.map_insertionSort (fun one two => ¬ snapshot.sooner policy two one)
    (fun one two : OrderedJob N => ¬ ahead two one) _ _ fun _ _ _ _ => Iff.rfl]
  rfl

theorem orderJobs_relist (comparable : Comparable N) (policy : Policy N) :
    orderJobs (snapshot.relist jobsPerm workersPerm running) policy = orderJobs snapshot policy := by
  rw [orderJobs_eq_queue, orderJobs_eq_queue, queue_relist jobsPerm workersPerm comparable]
  rfl

instance : IsTrans Worker (fun one two => ¬ two.id < one.id) where
  trans _ _ _ first second := String.not_lt.mpr (String.le_trans (String.not_lt.mp first) (String.not_lt.mp second))

instance : Std.Total (fun one two : Worker => ¬ two.id < one.id) where
  total one two := (String.le_total one.id two.id).imp String.not_lt.mpr String.not_lt.mpr

omit [Number N] in
theorem sorted_relist : (snapshot.relist jobsPerm workersPerm running).sorted = snapshot.sorted := by
  refine insertionSort_perm workersPerm fun one isOne two isTwo first second => ?_
  refine List.inj_on_of_nodup_map snapshot.workersDistinct (workersPerm.mem_iff.mp isOne)
    (workersPerm.mem_iff.mp isTwo) ?_
  exact String.le_antisymm (String.not_lt.mp first) (String.not_lt.mp second)

theorem heldWorkers_relist (comparable : Comparable N) (policy : Policy N) :
    heldWorkers (snapshot.relist jobsPerm workersPerm running) policy = heldWorkers snapshot policy := by
  unfold heldWorkers
  rw [orderJobs_relist jobsPerm workersPerm comparable, sorted_relist]
  rfl

omit [Number N] in
theorem start_relist : Left.start (snapshot.relist jobsPerm workersPerm running) = Left.start snapshot := by
  have found : ∀ id, (workers.find? fun worker => worker.id = id) = snapshot.workers.find? fun worker => worker.id = id :=
    find_perm ((workersPerm.map Worker.id).nodup_iff.mpr snapshot.workersDistinct) workersPerm
  unfold Left.start
  refine congrArg (fun free => Left.mk free _ _ _) (funext fun id => ?_)
  exact congrArg (fun worker => (Option.map Worker.freeGPUs worker).getD 0) (found id)

/-! ### Victims -/

theorem not_spareable_iff {one two : RunningJob} : ¬ spareable two one = true ↔
    one.priority ≤ two.priority ∧ (one.priority = two.priority →
      two.startedAt ≤ one.startedAt ∧ (one.startedAt = two.startedAt → one.job ≤ two.job)) := by
  unfold spareable
  by_cases level : two.priority = one.priority
  · rw [if_neg (not_not.mpr level)]
    by_cases together : two.startedAt = one.startedAt
    · rw [if_neg (not_not.mpr together), decide_eq_true_iff]
      exact ⟨fun behind => ⟨level.ge, fun _ => ⟨together.le, fun _ => String.not_lt.mp behind⟩⟩,
        fun order => String.not_lt.mpr ((order.2 level.symm).2 together.symm)⟩
    · rw [if_pos together, decide_eq_true_iff, gt_iff_lt, not_lt]
      exact ⟨fun later => ⟨level.ge, fun _ => ⟨later, fun same => absurd same.symm together⟩⟩,
        fun order => (order.2 level.symm).1⟩
  · rw [if_pos level, decide_eq_true_iff, not_lt]
    exact ⟨fun below => ⟨below, fun same => absurd same.symm level⟩, And.left⟩

instance : IsTrans (RunningJob × Worker) (fun one two => ¬ spareable two.1 one.1 = true) where
  trans one two three first second := by
    rw [not_spareable_iff] at first second ⊢
    refine ⟨first.1.trans second.1, fun level => ?_⟩
    have middle : one.1.priority = two.1.priority := le_antisymm first.1 (level ▸ second.1)
    obtain ⟨started, ids⟩ := first.2 middle
    obtain ⟨started', ids'⟩ := second.2 (middle.symm.trans level)
    refine ⟨started'.trans started, fun together => ?_⟩
    have same : one.1.startedAt = two.1.startedAt := le_antisymm (together ▸ started') started
    exact String.le_trans (ids same) (ids' (same.symm.trans together))

instance : Std.Total (fun one two : RunningJob × Worker => ¬ spareable two.1 one.1 = true) where
  total one two := by
    rw [not_spareable_iff, not_spareable_iff]
    rcases lt_trichotomy one.1.priority two.1.priority with low | level | high
    · exact Or.inl ⟨low.le, fun same => absurd same low.ne⟩
    · rcases lt_trichotomy one.1.startedAt two.1.startedAt with early | together | late
      · exact Or.inr ⟨level.ge, fun _ => ⟨early.le, fun same => absurd same early.ne'⟩⟩
      · exact (String.le_total one.1.job two.1.job).imp
          (fun id => ⟨level.le, fun _ => ⟨together.ge, fun _ => id⟩⟩)
          fun id => ⟨level.ge, fun _ => ⟨together.le, fun _ => id⟩⟩
      · exact Or.inl ⟨level.le, fun _ => ⟨late.le, fun same => absurd same late.ne'⟩⟩
    · exact Or.inr ⟨high.le, fun same => absurd same high.ne⟩

/-- A running job as a victim, with its worker, if its removal lets the job fit. -/
def victimOf (job : Job) (snapshot : Snapshot N) (held : Held) (left : Left) (running : RunningJob) :
    Option (RunningJob × Worker) :=
  if ¬ running.preemptible ∨ running.priority ≥ job.priority ∨ left.preempted.contains running.job then none
  else match snapshot.workers.find? fun worker => worker.id = running.worker with
    | none => none
    | some worker =>
        if worker.state ≠ .ready then none
        else if (filter job worker (snapshot.pool worker.pool) (left.free worker.id + running.gpus) held
          left.avail).isSome then none
        else some (running, worker)

omit [Number N] in
theorem victimOf_fst {job : Job} {held : Held} {left : Left} {running : RunningJob} {victim : RunningJob × Worker}
    (found : victimOf job snapshot held left running = some victim) : victim.1 = running := by
  unfold victimOf at found
  split at found
  · exact nomatch found
  split at found
  · exact nomatch found
  split at found
  · exact nomatch found
  split at found
  · exact nomatch found
  · cases found
    rfl

omit [Number N] in
/-- The victim is one whatever the order of the running jobs, no two of which have one id. -/
theorem pickVictim_relist (runningPerm : running.Perm snapshot.running)
    (distinct : (snapshot.running.map RunningJob.job).Nodup) (job : Job) (held : Held) (left : Left) :
    pickVictim job (snapshot.relist jobsPerm workersPerm running) held left = pickVictim job snapshot held left := by
  have found : ∀ id, (workers.find? fun worker => worker.id = id) = snapshot.workers.find? fun worker => worker.id = id :=
    find_perm ((workersPerm.map Worker.id).nodup_iff.mpr snapshot.workersDistinct) workersPerm
  have alike : victimOf job (snapshot.relist jobsPerm workersPerm running) held left = victimOf job snapshot held left := by
    funext running
    unfold victimOf
    rw [show (snapshot.relist jobsPerm workersPerm _).workers = workers from rfl, found]
    rfl
  show ((running.filterMap (victimOf job (snapshot.relist jobsPerm workersPerm running) held left)).insertionSort
      fun one two => ¬ spareable two.1 one.1).head? =
    ((snapshot.running.filterMap (victimOf job snapshot held left)).insertionSort
      fun one two => ¬ spareable two.1 one.1).head?
  rw [alike]
  refine congrArg List.head? (insertionSort_perm (runningPerm.filterMap _) ?_)
  intro one isOne two isTwo first second
  obtain ⟨running, listed, isVictim⟩ := List.mem_filterMap.mp isOne
  obtain ⟨running', listed', isVictim'⟩ := List.mem_filterMap.mp isTwo
  have same : running = running' := by
    refine List.inj_on_of_nodup_map distinct (runningPerm.mem_iff.mp listed) (runningPerm.mem_iff.mp listed') ?_
    rw [← victimOf_fst isVictim, ← victimOf_fst isVictim']
    rw [not_spareable_iff] at first second
    have level := le_antisymm first.1 second.1
    have together := le_antisymm (second.2 level.symm).1 (first.2 level).1
    exact String.le_antisymm ((first.2 level).2 together) ((second.2 level.symm).2 together.symm)
  rw [same, isVictim'] at isVictim
  exact (Option.some.inj isVictim).symm

/-! ### The pass -/

theorem decideJob_relist (runningPerm : running.Perm snapshot.running)
    (distinct : (snapshot.running.map RunningJob.job).Nodup) (policy : Policy N) (digest : String) (held : Held) :
    decideJob (snapshot.relist jobsPerm workersPerm running) policy digest held =
      decideJob snapshot policy digest held := by
  funext left ordered
  have rejected : rejections ordered.job (snapshot.relist jobsPerm workersPerm running) held left =
      rejections ordered.job snapshot held left := by
    unfold rejections
    rw [sorted_relist]
    rfl
  have surviving : survivors ordered.job (snapshot.relist jobsPerm workersPerm running) held left =
      survivors ordered.job snapshot held left := by
    unfold survivors
    rw [sorted_relist]
    rfl
  have counted : (snapshot.relist jobsPerm workersPerm running).workers.length = snapshot.workers.length :=
    workersPerm.length_eq
  have stuck : decideStuck (snapshot.relist jobsPerm workersPerm running) policy held left ordered.job =
      decideStuck snapshot policy held left ordered.job := by
    funext draft
    unfold decideStuck
    rw [pickVictim_relist jobsPerm workersPerm runningPerm distinct]
  unfold decideJob
  dsimp only
  rw [rejected, surviving, counted, stuck]
  rfl

/-- A snapshot listed in another order is decided alike. -/
theorem decide_relist (comparable : Comparable N) (runningPerm : running.Perm snapshot.running)
    (distinct : (snapshot.running.map RunningJob.job).Nodup) (policy : Policy N) (digest : String) :
    policy.decide (snapshot.relist jobsPerm workersPerm running) digest = policy.decide snapshot digest := by
  unfold Policy.decide
  rw [heldWorkers_relist jobsPerm workersPerm comparable, orderJobs_relist jobsPerm workersPerm comparable,
    start_relist, decideJob_relist jobsPerm workersPerm runningPerm distinct]

/-! ### The digest -/

/-- The decision with another digest. -/
def PolicyDecision.stamped (digest : String) (decision : PolicyDecision N) : PolicyDecision N :=
  { decision with inputDigest := digest }

/-- A step of the pass stores the digest and does nothing else with it. -/
theorem decideJob_stamped (snapshot : Snapshot N) (policy : Policy N) (digest digest' : String) (held : Held)
    (left : Left) (ordered : OrderedJob N) :
    decideJob snapshot policy digest' held left ordered =
      ((decideJob snapshot policy digest held left ordered).1.stamped digest',
        (decideJob snapshot policy digest held left ordered).2) := by
  unfold decideJob
  dsimp only
  split
  · rfl
  split
  · rfl
  split
  · rfl
  cases score ordered.job (survivors ordered.job snapshot held left) snapshot policy with
  | mk candidates fallbacks =>
      cases candidates with
      | nil =>
          dsimp only [decideStuck]
          split <;> rfl
      | cons best rest =>
          dsimp only [decideBest, blank]
          split <;> rfl

/-- The same decisions with another digest. -/
theorem decide_stamped (snapshot : Snapshot N) (policy : Policy N) (digest digest' : String) :
    policy.decide snapshot digest' = (policy.decide snapshot digest).map (PolicyDecision.stamped digest') := by
  unfold Policy.decide
  generalize orderJobs snapshot policy = items
  generalize Left.start snapshot = left
  induction items generalizing left with
  | nil => rfl
  | cons item rest inductionHypothesis =>
      rw [outputs, outputs, decideJob_stamped snapshot policy digest digest', inductionHypothesis]
      rfl

end

/-! ### Listing order -/

/-- A decision does not depend on the order in which a snapshot lists its jobs, its workers and what runs: apart from
the digest the decisions are the same, one after another. -/
theorem decide_listing (snapshot : Snapshot ℚ) {jobs : List Job} (jobsPerm : jobs.Perm snapshot.jobs)
    {workers : List Worker} (workersPerm : workers.Perm snapshot.workers) {running : List RunningJob}
    (runningPerm : running.Perm snapshot.running) (distinct : (snapshot.running.map RunningJob.job).Nodup)
    (policy : Policy ℚ) (digest digest' : String) :
    (policy.decide (snapshot.relist jobsPerm workersPerm running) digest').map (PolicyDecision.stamped "") =
      (policy.decide snapshot digest).map (PolicyDecision.stamped "") := by
  rw [decide_stamped _ policy digest digest', decide_relist jobsPerm workersPerm comparable_rat runningPerm distinct,
    List.map_map]
  rfl

/-- Two jobs of one age wait for two full workers, on each of which a job of lower priority runs. -/
def crowdedSnapshot : Snapshot ℚ :=
  { overdrawnSnapshot with
    jobs := [queuedJob "job-1" 1 0, queuedJob "job-2" 1 0]
    jobsDistinct := by decide
    workers := [readyWorker "worker-1" 1 1, readyWorker "worker-2" 1 1]
    workersDistinct := by decide
    running := [⟨"run-1", "worker-1", 1, -1, true, 0⟩, ⟨"run-2", "worker-2", 1, -1, true, 0⟩] }

/-- Listed backwards the crowded snapshot is decided alike. -/
theorem crowded_backwards :
    (fifoPolicy.decide (crowdedSnapshot.relist (List.reverse_perm _) (List.reverse_perm _)
        crowdedSnapshot.running.reverse) "backwards").map (PolicyDecision.stamped "") =
      (fifoPolicy.decide crowdedSnapshot "forwards").map (PolicyDecision.stamped "") :=
  decide_listing crowdedSnapshot (List.reverse_perm _) (List.reverse_perm _) (List.reverse_perm _) (by decide) fifoPolicy
    "forwards" "backwards"

end GpuBroker.ControlPlane
