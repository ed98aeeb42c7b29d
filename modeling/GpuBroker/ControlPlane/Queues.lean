/-
This file is the order of the queue beside its jobs: a job's place depends on the
job alone, so the queue of some of the jobs is the queue of all without the
others, and what is decided of a job depends only on the jobs before it.

The scores are only ever compared here, so all that is asked of their numbers is
that the comparisons are those of a linear order.
-/
import GpuBroker.ControlPlane.Ticks
import GpuBroker.ControlPlane.Starvation

namespace GpuBroker.ControlPlane

open Library

/-! ### Sorting some of a list -/

/-- Sorting some of the items is sorting all and dropping the others, where the order tells the
items apart. -/
theorem insertionSort_filter {Item : Type} {relation : Item → Item → Prop} [DecidableRel relation]
    [IsTrans Item relation] [Std.Total relation] (keep : Item → Bool) {items : List Item}
    (apart : ∀ one ∈ items, ∀ two ∈ items, relation one two → relation two one → one = two) :
    (items.filter keep).insertionSort relation = (items.insertionSort relation).filter keep := by
  refine @List.Perm.eq_of_pairwise _ relation _ _ (fun one two isOne isTwo => ?_)
    (List.pairwise_insertionSort _ _) ((List.pairwise_insertionSort _ _).sublist List.filter_sublist) ?_
  · refine apart one (List.mem_of_mem_filter ((List.perm_insertionSort _ _).mem_iff.mp isOne)) two ?_
    exact (List.perm_insertionSort _ _).mem_iff.mp (List.mem_of_mem_filter isTwo)
  · exact (List.perm_insertionSort _ _).trans ((List.perm_insertionSort _ _).symm.filter _)

/-! ### Scores that compare -/

section

variable {N : Type} [Number N] {snapshot : Snapshot N} {policy : Policy N} {one two job : Job}

open Number

/-- The comparisons are those of a linear order on the numbers' values, which numbers that print
differently may share. -/
def Comparable (N : Type) [Number N] : Prop :=
  ∃ (Value : Type) (_ : LinearOrder Value) (value : N → Value),
    (∀ one two : N, same one two = true ↔ value one = value two) ∧
      ∀ one two : N, less one two = true ↔ value one < value two

theorem comparable_rat : Comparable Rat :=
  ⟨Rat, inferInstance, id, fun _ _ => decide_eq_true_iff, fun _ _ => decide_eq_true_iff⟩

theorem Comparable.same_self (comparable : Comparable N) (x : N) : same x x = true := by
  obtain ⟨_, _, _, same_iff, _⟩ := comparable
  exact (same_iff x x).mpr rfl

/-- The first job is ahead of the second one in the queue of the snapshot. -/
def Snapshot.sooner (snapshot : Snapshot N) (policy : Policy N) (one two : Job) : Bool :=
  ahead (snapshot.keyed policy one) (snapshot.keyed policy two)

/-- Of two jobs with different ids one is older. -/
theorem older_total (apart : one.id ≠ two.id) (younger : ¬ older one two = true) :
    older two one = true := by
  obtain ⟨before, ids⟩ := not_older_iff.mp younger
  rw [older_iff]
  rcases lt_or_eq_of_le before with first | level
  · exact Or.inl first
  · refine Or.inr ⟨level, ?_⟩
    by_contra above
    exact apart (String.le_antisymm (String.not_lt.mp above) (ids level.symm))

/-- A job is not ahead of another one that scores more, or as much and is no younger. -/
theorem Comparable.not_sooner_iff (comparable : Comparable N) (snapshot : Snapshot N)
    (policy : Policy N) : ∃ (Value : Type) (_ : LinearOrder Value) (value : Job → Value),
      ∀ one two, ¬ snapshot.sooner policy two one = true ↔
        value two ≤ value one ∧ (value two = value one → ¬ older two one = true) := by
  obtain ⟨Value, order, value, same_iff, less_iff⟩ := comparable
  refine ⟨Value, order, fun job => value (snapshot.keyed policy job).key.score, fun one two => ?_⟩
  unfold Snapshot.sooner ahead
  split
  · next level =>
    have level := (same_iff _ _).mp level
    exact ⟨fun younger => ⟨level.le, fun _ => younger⟩, fun both => both.2 level⟩
  · next apart =>
    have apart : ¬ value _ = value _ := fun level => apart ((same_iff _ _).mpr level)
    rw [less_iff, not_lt]
    exact ⟨fun below => ⟨below, fun level => absurd level apart⟩, And.left⟩

theorem Comparable.trans (comparable : Comparable N) (snapshot : Snapshot N) (policy : Policy N) :
    IsTrans Job fun one two => ¬ snapshot.sooner policy two one = true := by
  obtain ⟨Value, order, value, sooner_iff⟩ := comparable.not_sooner_iff snapshot policy
  refine ⟨fun one two three first second => ?_⟩
  rw [sooner_iff] at first second ⊢
  refine ⟨second.1.trans first.1, fun level => ?_⟩
  have middle : value two = value one := le_antisymm first.1 (level ▸ second.1)
  exact trans_of (fun one two : Job => ¬ older two one = true) (first.2 middle)
    (second.2 (level.trans middle.symm))

theorem Comparable.total (comparable : Comparable N) (snapshot : Snapshot N) (policy : Policy N) :
    Std.Total fun one two : Job => ¬ snapshot.sooner policy two one = true := by
  obtain ⟨Value, order, value, sooner_iff⟩ := comparable.not_sooner_iff snapshot policy
  refine ⟨fun one two => ?_⟩
  rw [sooner_iff, sooner_iff]
  rcases lt_trichotomy (value one) (value two) with less | level | more
  · exact Or.inr ⟨less.le, fun level => absurd level less.ne⟩
  · exact (total_of (fun one two : Job => ¬ older two one = true) one two).imp
      (fun younger => ⟨level.ge, fun _ => younger⟩) fun younger => ⟨level.le, fun _ => younger⟩
  · exact Or.inl ⟨more.le, fun level => absurd level more.ne⟩

/-- Jobs with different ids never share a place. -/
theorem Comparable.apart (comparable : Comparable N)
    (first : ¬ snapshot.sooner policy two one = true)
    (second : ¬ snapshot.sooner policy one two = true) : one.id = two.id := by
  obtain ⟨Value, order, value, sooner_iff⟩ := comparable.not_sooner_iff snapshot policy
  rw [sooner_iff] at first second
  by_contra apart
  have level := le_antisymm first.1 second.1
  exact second.2 level.symm (older_total (Ne.symm apart) (first.2 level))

/-! ### The queue -/

/-- The jobs in the policy's order. -/
def queue (snapshot : Snapshot N) (policy : Policy N) : List Job :=
  (orderJobs snapshot policy).map OrderedJob.job

theorem queue_eq (snapshot : Snapshot N) (policy : Policy N) :
    queue snapshot policy =
      snapshot.jobs.insertionSort fun one two => ¬ snapshot.sooner policy two one := by
  have sorted : queue snapshot policy =
      ((snapshot.jobs.map (snapshot.keyed policy)).insertionSort fun one two =>
        ¬ ahead two one).map OrderedJob.job := by
    unfold queue orderJobs
    rw [List.map_map]
    conv_rhs => rw [← List.zipIdx_map_fst 0 (List.insertionSort _ _), List.map_map]
    rfl
  rw [sorted, ← List.map_insertionSort (fun one two => ¬ snapshot.sooner policy two one)
    (fun one two : OrderedJob N => ¬ ahead two one) _ _ fun _ _ _ _ => Iff.rfl, List.map_map]
  exact List.map_id _

theorem mem_queue : job ∈ queue snapshot policy ↔ job ∈ snapshot.jobs :=
  (orderJobs_perm snapshot policy).mem_iff

theorem queue_distinct (snapshot : Snapshot N) (policy : Policy N) :
    ((queue snapshot policy).map Job.id).Nodup :=
  ((orderJobs_perm snapshot policy).map Job.id).nodup_iff.mpr snapshot.jobsDistinct

omit [Number N] in
theorem jobs_apart (isOne : one ∈ snapshot.jobs) (isTwo : two ∈ snapshot.jobs)
    (same : one.id = two.id) : one = two :=
  List.inj_on_of_nodup_map snapshot.jobsDistinct isOne isTwo same

theorem queue_sorted (comparable : Comparable N) (snapshot : Snapshot N) (policy : Policy N) :
    (queue snapshot policy).Pairwise fun one two => ¬ snapshot.sooner policy two one = true := by
  have := comparable.trans snapshot policy
  have := comparable.total snapshot policy
  rw [queue_eq]
  exact List.pairwise_insertionSort _ _

/-- The queue of one policy's jobs is the queue without the others. -/
theorem queue_group (comparable : Comparable N) (snapshot : Snapshot N) (policy : Policy N)
    (name : String) :
    queue (snapshot.group name) policy =
      (queue snapshot policy).filter fun job => job.policyName = name := by
  have := comparable.trans snapshot policy
  have := comparable.total snapshot policy
  have order : (snapshot.group name).sooner policy = snapshot.sooner policy := rfl
  rw [queue_eq, queue_eq, order]
  exact insertionSort_filter _ fun one isOne two isTwo first second =>
    jobs_apart isOne isTwo (comparable.apart first second)

/-- By age too. -/
theorem byAge_group (comparable : Comparable N) (snapshot : Snapshot N) (policy : Policy N)
    (name : String) :
    byAge (snapshot.group name) policy =
      (byAge snapshot policy).filter fun job => job.policyName = name := by
  have jobs : byAge (snapshot.group name) policy =
      (queue (snapshot.group name) policy).insertionSort fun one two => ¬ older two one := rfl
  rw [jobs, queue_group comparable]
  refine insertionSort_filter _ fun one isOne two isTwo first second => ?_
  refine jobs_apart (mem_queue.mp isOne) (mem_queue.mp isTwo) ?_
  by_contra apart
  exact first (older_total apart second)

end

end GpuBroker.ControlPlane
