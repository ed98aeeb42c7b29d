/-
This file is a policy's answer about a hypothetical job, beside the tick that
would decide it.

The answer is one pass of the job's policy over the whole queue, in which jobs of
other policies are ordered and placed by rules that are not theirs. The tick
decides each policy's jobs apart, against what the groups before them took. The
two give a job the same verdict as long as every job of another policy stays out
of its way in both.
-/
import GpuBroker.ControlPlane.Queues
import GpuBroker.ControlPlane.Protection
import GpuBroker.ControlPlane.Admissions

namespace GpuBroker.ControlPlane

open Library

/-! ### The answer and the tick -/

section

variable {N : Type}

/-- The snapshot with one more queued job. -/
def Snapshot.join (snapshot : Snapshot N) (job : Job) (fresh : job.id ∉ snapshot.jobs.map Job.id) :
    Snapshot N :=
  { snapshot with
    jobs := snapshot.jobs ++ [job]
    jobsDistinct := by
      rw [List.map_append, List.nodup_append]
      refine ⟨snapshot.jobsDistinct, List.nodup_singleton _, fun id member other alone => ?_⟩
      rintro rfl
      exact fresh (List.mem_singleton.mp alone ▸ member) }

/-- What a decision tells its job: the action, and the worker and pool chosen. -/
structure Verdict where
  action : Action
  worker : WorkerID
  pool : PoolID
  deriving DecidableEq

def PolicyDecision.verdict (decision : PolicyDecision N) : Verdict where
  action := decision.action
  worker := decision.chosenWorker
  pool := decision.chosenPool

end

section

variable {N : Type} [Number N]

namespace Service

/-- The request as it is read: validated, and under the default policy if it names none. -/
def validated (service : Service) (principal : Principal) (request : SubmitRequest) (now : Time) :
    Except Fault SubmitRequest :=
  if principal.kind ≠ .user then .error (.forbidden "")
  else (request.validate now service.policies).map fun valid =>
    if valid.policy = "" then { valid with policy := service.cfg.defaultPolicy } else valid

/-- The hypothetical job of a request, in its tenant's default project if it names none. -/
def hypothetical (principal : Principal) (request : SubmitRequest)
    (defaultProject : Option ProjectID) (now : Time) : Job :=
  let project := if request.project = "" then defaultProject.getD "" else request.project
  { requested principal request project "explain" now with
    image := "", command := [], preemptible := false, state := .queued, updatedAt := 0 }

/-- Run the policy over the snapshot for one hypothetical job without writing anything. It joins the
queue, and only its own decision is returned. -/
def explain (service : Service) (policies : Policies N) (digest : Snapshot N → String)
    (principal : Principal) (request : SubmitRequest) (now : Time)
    (defaultProject : Option ProjectID) (snapshot : Snapshot N)
    (fresh : "explain" ∉ snapshot.jobs.map Job.id) : Except Fault (PolicyDecision N) := do
  let request ← service.validated principal request now
  let joined := snapshot.join (hypothetical principal request defaultProject now) fresh
  (((policies.of request.policy).decide joined (digest joined)).find? fun decision =>
    decision.job = "explain").elim (.error .notFound) .ok

end Service

/-- What a tick over the snapshot decides for a job. -/
def tickVerdict (policies : Policies N) (digest : Snapshot N → String) (snapshot : Snapshot N)
    (id : JobID) : Option Verdict :=
  ((tickOutcomes policies digest snapshot).find? fun pair => pair.2.job = id).map fun pair =>
    pair.2.verdict

/-! ### A turn in a pass -/

variable {snapshot : Snapshot N} {policy : Policy N} {digest : String} {held : Held} {left : Left}
  {job other : Job}

/-- The verdict on a job and what it leaves, without the record of how it came about. -/
def turn (snapshot : Snapshot N) (policy : Policy N) (held : Held) (left : Left) (job : Job) :
    Verdict × Left :=
  let (decision, next) := decideJob snapshot policy "" held left
    { job, key := { position := 0, score := Number.ofInt 0 } }
  (decision.verdict, next)

theorem decideJob_turn (snapshot : Snapshot N) (policy : Policy N) (digest : String) (held : Held)
    (left : Left) (ordered : OrderedJob N) :
    ((decideJob snapshot policy digest held left ordered).1.verdict,
      (decideJob snapshot policy digest held left ordered).2) =
      turn snapshot policy held left ordered.job := by
  unfold turn decideJob
  simp only
  split
  · rfl
  split
  · rfl
  split
  · rfl
  split
  · unfold decideStuck
    split <;> rfl
  · unfold decideBest
    simp only
    split <;> rfl

/-- The jobs of a pass leave what their turns leave. -/
theorem passed_turn (digest : String) (items : List (OrderedJob N)) (left : Left) :
    passed (decideJob snapshot policy digest held) items left =
      passed (turn snapshot policy held) (items.map OrderedJob.job) left := by
  rw [passed_map]
  refine passed_congr (fun left ordered => ?_) items left
  rw [← decideJob_turn snapshot policy digest held left ordered]

/-- A turn looks at no other job of the queue. -/
theorem turn_group (snapshot : Snapshot N) (policy : Policy N) (name : String) :
    turn (snapshot.group name) policy = turn snapshot policy := rfl

/-- A job's verdict is that of its turn after the jobs before it. -/
theorem decide_verdict {before after : List Job}
    (split : queue snapshot policy = before ++ job :: after) (digest : String) :
    ((policy.decide snapshot digest).find? fun decision => decision.job = job.id).map
        PolicyDecision.verdict =
      some (turn snapshot policy (heldWorkers snapshot policy)
        (passed (turn snapshot policy (heldWorkers snapshot policy)) before (.start snapshot))
          job).1 := by
  have distinct := queue_distinct snapshot policy
  rw [split, List.map_append, List.nodup_append] at distinct
  obtain ⟨earlier, rest, cut, rfl, here⟩ := List.map_eq_append_iff.mp split
  obtain ⟨ordered, later, rfl, rfl, rfl⟩ := List.map_eq_cons_iff.mp here
  have none_earlier : (outputs (decideJob snapshot policy digest (heldWorkers snapshot policy)) earlier
      (.start snapshot)).find? (fun decision => decision.job = ordered.job.id) = none := by
    refine List.find?_eq_none.mpr fun decision member own => ?_
    have among : decision.job ∈ List.map (fun decision => decision.job) (outputs (decideJob snapshot policy
        digest (heldWorkers snapshot policy)) earlier (.start snapshot)) := List.mem_map_of_mem member
    rw [pass_jobs] at among
    rw [List.map_map] at distinct
    exact distinct.2.2 _ among _ List.mem_cons_self (of_decide_eq_true own)
  have about := (decideJob_outcome snapshot policy digest (heldWorkers snapshot policy)
    (passed (decideJob snapshot policy digest (heldWorkers snapshot policy)) earlier
      (.start snapshot)) ordered).1
  have own := decideJob_turn snapshot policy digest (heldWorkers snapshot policy)
    (passed (decideJob snapshot policy digest (heldWorkers snapshot policy)) earlier
      (.start snapshot)) ordered
  unfold Policy.decide
  rw [cut, outputs_append, List.find?_append, none_earlier, Option.none_or, outputs,
    List.find?_cons, decide_eq_true about, ← passed_turn digest]
  exact congrArg some (congrArg Prod.fst own)

/-! ### Jobs that take nothing -/

/-- Nothing can be given to the job by the policy, whatever is free: it is past its deadline, delayed,
over its tenant's maximum, or every worker fails one of its other gates. -/
def Job.idle (job : Job) (snapshot : Snapshot N) (policy : Policy N) : Bool :=
  job.pastDeadline snapshot.now || job.delayed snapshot.now policy ||
    job.overQuota (snapshot.tenantMaxGPUs job.tenant) (snapshot.tenantActiveGPUs job.tenant) ||
    snapshot.workers.all fun worker => (filter job worker (snapshot.pool worker.pool)
      job.requirements.gpus (fun _ => none) snapshot.projectAvailable).isSome

omit [Number N] in
/-- A worker that passes with less passes all gates but free capacity. -/
theorem passes_idle {worker : Worker} {free : Int}
    {avail : ProjectID → Option MicroUSD} (member : worker ∈ snapshot.workers)
    (funds : ∀ project available, snapshot.projectAvailable project = some available →
      ∃ less, avail project = some less ∧ less ≤ available)
    (passes : Passes job worker (snapshot.pool worker.pool) free held avail) :
    (snapshot.workers.all fun worker => (filter job worker (snapshot.pool worker.pool)
      job.requirements.gpus (fun _ => none) snapshot.projectAvailable).isSome) = false := by
  have atStart := (Less.refl snapshot).passes ⟨rfl, rfl, rfl⟩ rfl (le_refl free) funds passes
  refine List.all_eq_false.mpr ⟨worker, member, ?_⟩
  rw [filter_eq_none.mpr { atStart with room := le_refl _ }]
  exact Bool.false_ne_true

omit [Number N] in
/-- A job that takes nothing keeps no worker. -/
theorem guardStarvation_idle (idle : job.idle snapshot policy = true) (held : Held) :
    guardStarvation snapshot policy snapshot.sorted held job = held := by
  rw [guardStarvation_eq]
  split
  · next guarded =>
    obtain ⟨_, _, released, timely, quota⟩ := Job.guarded_iff.mp guarded
    split
    · rfl
    · next kept =>
      obtain ⟨member, _, could⟩ := protectedFor_some kept
      have hosts := passes_idle (mem_sorted.mp member) (fun _ available has => ⟨available, has, le_refl _⟩)
        (couldHost_iff.mp could)
      rw [Job.idle, timely, released, quota, hosts] at idle
      cases idle
  · rfl

/-- A job that takes nothing leaves what it found. -/
theorem turn_idle (idle : job.idle snapshot policy = true) (held : Held) {left : Left}
    (within : left.Within snapshot) : (turn snapshot policy held left job).2 = left := by
  cases timely : job.pastDeadline snapshot.now with
  | true => simp [turn, decideJob, timely]
  | false =>
  cases released : job.delayed snapshot.now policy with
  | true => simp [turn, decideJob, timely, released]
  | false =>
  cases quota : job.overQuota (snapshot.tenantMaxGPUs job.tenant) (left.active job.tenant) with
  | true => simp [turn, decideJob, timely, released, quota]
  | false =>
  have nowhere : (snapshot.workers.all fun worker => (filter job worker (snapshot.pool worker.pool)
      job.requirements.gpus (fun _ => none) snapshot.projectAvailable).isSome) = true := by
    have atStart := overQuota_less (within.active job.tenant) quota
    rwa [Job.idle, timely, released, atStart] at idle
  have fails : ∀ worker ∈ snapshot.workers, ∀ free,
      filter job worker (snapshot.pool worker.pool) free held left.avail ≠ none := by
    intro worker member free passes
    rw [passes_idle member within.avail (filter_eq_none.mp passes)] at nowhere
    cases nowhere
  have empty : survivors job snapshot held left = [] := by
    refine List.map_eq_nil_iff.mpr (List.filter_eq_nil_iff.mpr fun worker member passes => ?_)
    exact fails worker (mem_sorted.mp member) _ (Option.isNone_iff_eq_none.mp passes)
  have spared : pickVictim job snapshot held left = none := by
    unfold pickVictim
    simp only
    rw [List.head?_eq_none_iff, ← List.length_eq_zero_iff, List.length_insertionSort,
      List.length_eq_zero_iff, List.filterMap_eq_nil_iff]
    intro running _
    split
    · rfl
    split
    · rfl
    next worker found =>
    split
    · rfl
    refine if_pos (Option.isSome_iff_ne_none.mpr (fails worker (List.mem_of_find?_eq_some found) _))
  unfold turn
  rw [decideJob_stuck timely released quota empty, decideStuck, spared, ite_self]

/-! ### The queue without the jobs of other policies -/

/-- Where the jobs of other policies take nothing or are not past the guard, they keep no worker. -/
theorem heldWorkers_group (comparable : Comparable N) (name : String)
    (still : ∀ other ∈ snapshot.jobs, other.policyName ≠ name →
      other.idle snapshot policy = true ∨ other.guarded snapshot policy = false) :
    heldWorkers (snapshot.group name) policy = heldWorkers snapshot policy := by
  rw [heldWorkers_eq, heldWorkers_eq, byAge_group comparable, List.foldl_filter]
  refine List.foldl_ext _ _ _ fun held other member => ?_
  split
  · rfl
  · next apart =>
    rcases still other (mem_byAge.mp member) (by simpa using apart) with idle | unguarded
    · exact (guardStarvation_idle idle held).symm
    · rw [guardStarvation_eq, unguarded]
      rfl

/-- A job's verdict is the same among the jobs of its policy, where the others take nothing, or come
later and are not past the guard. -/
theorem verdict_group (comparable : Comparable N) (exact_ : CostsExact N) (cheap : snapshot.cheap)
    (asking : snapshot.asking) (queued : job ∈ snapshot.jobs)
    (still : ∀ other ∈ snapshot.jobs, other.policyName ≠ job.policyName →
      other.idle snapshot policy = true ∨
        snapshot.sooner policy other job = false ∧ other.guarded snapshot policy = false)
    (one two : String) :
    ((policy.decide (snapshot.group job.policyName) one).find? fun decision =>
        decision.job = job.id).map PolicyDecision.verdict =
      ((policy.decide snapshot two).find? fun decision => decision.job = job.id).map
        PolicyDecision.verdict := by
  obtain ⟨before, after, split⟩ := List.append_of_mem
    (mem_queue.mpr queued : job ∈ queue snapshot policy)
  have splitGroup : queue (snapshot.group job.policyName) policy =
      (before.filter fun other => other.policyName = job.policyName) ++
        job :: after.filter fun other => other.policyName = job.policyName := by
    rw [queue_group comparable, split, List.filter_append, List.filter_cons,
      if_pos (decide_eq_true rfl)]
  have sorted := queue_sorted comparable snapshot policy
  have distinct := queue_distinct snapshot policy
  have among : ∀ other ∈ before, other ∈ snapshot.jobs := fun other member =>
    mem_queue.mp (show other ∈ queue snapshot policy from split ▸ List.mem_append_left _ member)
  rw [split, List.pairwise_append] at sorted
  rw [split, List.map_append, List.nodup_append] at distinct
  have same := heldWorkers_group comparable job.policyName fun other member apart =>
    (still other member apart).imp_right And.right
  rw [decide_verdict split, decide_verdict splitGroup, turn_group, same]
  congr 3
  refine @passed_filter _ _ _ _ (fun left : Left => left.Within snapshot) _ _
    (fun other member left within => ?_) (fun other member apart left within => ?_) _
    (Left.Within.start snapshot)
  · exact within.decided exact_ cheap asking (among other member)
  · refine turn_idle ?_ _ within
    refine (still other (among other member) (of_decide_eq_false apart)).resolve_right fun later => ?_
    -- whoever comes before the job in the queue is ahead of it
    have ids := comparable.apart (sorted.2.2 other member job List.mem_cons_self)
      (Bool.eq_false_iff.mp later.1)
    exact distinct.2.2 _ (List.mem_map_of_mem member) _ List.mem_cons_self ids

/-! ### The groups before a job's own -/

omit [Number N] in
theorem couldTake_idle {worker : Worker} (member : worker ∈ snapshot.workers)
    (takes : couldTake snapshot policy job worker = true) : job.idle snapshot policy = false := by
  simp only [couldTake, Bool.and_eq_true, Bool.not_eq_true', Option.isNone_iff_eq_none,
    filter_eq_none] at takes
  obtain ⟨⟨⟨timely, released⟩, quota⟩, passes⟩ := takes
  rw [Job.idle, timely, released, quota,
    passes_idle member (fun _ available has => ⟨available, has, le_refl _⟩) passes]
  rfl

/-- A group whose jobs take nothing leaves the snapshot as it is. -/
theorem decideGroup_idle (exact_ : CostsExact N) (cheap : snapshot.cheap)
    (asking : snapshot.asking) (policies : Policies N) (digests : Snapshot N → String)
    {name : String} (idle : ∀ other ∈ snapshot.jobs, other.policyName = name →
      other.idle snapshot (policies.of name) = true) :
    (decideGroup policies digests snapshot name).2 = snapshot := by
  refine List.foldlRecOn (motive := fun left : Snapshot N => left = snapshot) _ _ rfl ?_
  rintro _ rfl pair member
  refine if_neg fun places => ?_
  obtain ⟨queued, named⟩ := List.mem_filter.mp (mem_outcomes member).1
  obtain ⟨_, worker, isWorker, _, takes⟩ :=
    placed_could_take exact_ (cheap.group name) (asking.group name) member places
  exact Bool.false_ne_true ((couldTake_idle isWorker takes).symm.trans
    (idle pair.1.job queued (of_decide_eq_true named)))

instance transUnlike : IsTrans String (fun one two => ¬ two < one) where
  trans _ _ _ first second := String.not_lt.mpr (String.le_trans (String.not_lt.mp first)
    (String.not_lt.mp second))

instance totalUnlike : Std.Total (fun one two : String => ¬ two < one) where
  total one two := (String.le_total one two).imp String.not_lt.mpr String.not_lt.mpr

omit [Number N] in
theorem policyNames_sorted (snapshot : Snapshot N) :
    (policyNames snapshot).Pairwise fun one two => ¬ two < one :=
  List.pairwise_insertionSort _ _

/-- A job's verdict in a tick is that of its policy among its own jobs, where the groups before take
nothing. -/
theorem tickVerdict_eq (exact_ : CostsExact N) (cheap : snapshot.cheap) (asking : snapshot.asking)
    (policies : Policies N) (digests : Snapshot N → String) (queued : job ∈ snapshot.jobs)
    (idle : ∀ other ∈ snapshot.jobs, other.policyName < job.policyName →
      other.idle snapshot (policies.of other.policyName) = true) :
    tickVerdict policies digests snapshot job.id =
      (((policies.of job.policyName).decide (snapshot.group job.policyName)
        (digests (snapshot.group job.policyName))).find? fun decision => decision.job = job.id).map
          PolicyDecision.verdict := by
  have isName : job.policyName ∈ policyNames snapshot :=
    (List.perm_insertionSort _ _).mem_iff.mpr (List.mem_dedup.mpr (List.mem_map_of_mem queued))
  have names := policyNames_nodup snapshot
  have sorted := policyNames_sorted snapshot
  obtain ⟨before, after, split⟩ := List.append_of_mem isName
  rw [split, List.nodup_append] at names
  rw [split, List.pairwise_append] at sorted
  have earlier : ∀ name ∈ before, name < job.policyName := by
    intro name member
    by_contra above
    exact names.2.2 name member job.policyName List.mem_cons_self (String.le_antisymm
      (String.not_lt.mp (sorted.2.2 name member job.policyName List.mem_cons_self))
      (String.not_lt.mp above))
  have whole : passed (decideGroup policies digests) before snapshot = snapshot := by
    refine @passed_keeps _ _ _ _ (fun left : Snapshot N => left = snapshot) before ?_ _ rfl
    rintro name member _ rfl
    exact decideGroup_idle exact_ cheap asking policies digests fun other among named =>
      named ▸ idle other among (named ▸ earlier name member)
  have none_before : ((outputs (decideGroup policies digests) before snapshot).flatMap
      Group.outcomes).find? (fun pair => pair.2.job = job.id) = none := by
    refine List.find?_eq_none.mpr fun pair member own => ?_
    obtain ⟨group, isGroup, outcome⟩ := List.mem_flatMap.mp member
    obtain ⟨first, name, rest, cut, rfl⟩ := mem_outputs isGroup
    have less := passed_less exact_ cheap asking policies digests first
    obtain ⟨among, ids⟩ := mem_outcomes outcome
    obtain ⟨among, named⟩ := List.mem_filter.mp among
    have same : pair.1.job = job :=
      jobs_apart (less.jobs ▸ among) queued (ids.symm.trans (of_decide_eq_true own))
    rw [same] at named
    have isEarlier := earlier name (cut ▸ List.mem_append_right _ List.mem_cons_self)
    rw [of_decide_eq_true named] at isEarlier
    exact String.lt_irrefl _ isEarlier
  unfold tickVerdict tickOutcomes tickGroups
  rw [split, outputs_append, whole, outputs, List.flatMap_append, List.find?_append, none_before,
    Option.none_or, List.flatMap_cons, List.find?_append]
  -- its own group decides it
  obtain ⟨first, rest, place⟩ := List.append_of_mem (mem_queue.mpr
    (List.mem_filter.mpr ⟨queued, decide_eq_true rfl⟩) :
      job ∈ queue (snapshot.group job.policyName) (policies.of job.policyName))
  have decided := decide_verdict place (digests (snapshot.group job.policyName))
  rw [← outcomes_decisions, List.find?_map, Option.map_map] at decided ⊢
  obtain ⟨pair, found, _⟩ := Option.map_eq_some_iff.mp decided
  have own : (decideGroup policies digests snapshot job.policyName).1.outcomes.find?
      (fun pair => pair.2.job = job.id) = some pair := found
  rw [own, Option.some_or, found]
  rfl

/-! ### Predictions -/

/-- The other job is out of the way of the job in a tick and in an explanation: a tick decides it
later or gives it nothing, and an explanation gives it nothing, or decides it later and keeps it no
worker. -/
def Job.clear (other : Job) (policies : Policies N) (snapshot : Snapshot N) (job : Job) : Bool :=
  other.policyName = job.policyName ||
    (job.policyName < other.policyName || other.idle snapshot (policies.of other.policyName)) &&
      (other.idle snapshot (policies.of job.policyName) ||
        !snapshot.sooner (policies.of job.policyName) other job &&
          !other.guarded snapshot (policies.of job.policyName))

theorem clear_own {policies : Policies N} (own : other.policyName = job.policyName) :
    other.clear policies snapshot job = true :=
  Bool.or_eq_true_iff.mpr (Or.inl (decide_eq_true own))

/-- A pass of a job's policy over the whole queue gives it the verdict of the tick, where every job is
out of its way. -/
theorem verdict_clear (comparable : Comparable N) (exact_ : CostsExact N) (cheap : snapshot.cheap)
    (asking : snapshot.asking) (policies : Policies N) (digests : Snapshot N → String)
    (queued : job ∈ snapshot.jobs)
    (clear : ∀ other ∈ snapshot.jobs, other.clear policies snapshot job = true) (digest : String) :
    tickVerdict policies digests snapshot job.id =
      (((policies.of job.policyName).decide snapshot digest).find? fun decision =>
        decision.job = job.id).map PolicyDecision.verdict := by
  have apart : ∀ other ∈ snapshot.jobs, other.policyName ≠ job.policyName →
      (job.policyName < other.policyName ∨ other.idle snapshot (policies.of other.policyName) = true) ∧
        (other.idle snapshot (policies.of job.policyName) = true ∨
          snapshot.sooner (policies.of job.policyName) other job = false ∧
            other.guarded snapshot (policies.of job.policyName) = false) := by
    intro other member apart
    have out := clear other member
    simp only [Job.clear, Bool.or_eq_true, Bool.and_eq_true, decide_eq_true_eq,
      Bool.not_eq_true'] at out
    exact out.resolve_left apart
  rw [tickVerdict_eq exact_ cheap asking policies digests queued fun other member earlier => ?_,
    verdict_group comparable exact_ cheap asking queued fun other member differs =>
      (apart other member differs).2]
  have differs : other.policyName ≠ job.policyName := fun same =>
    String.lt_irrefl _ (same ▸ earlier)
  exact (apart other member differs).1.resolve_left fun later =>
    String.lt_irrefl _ (String.lt_trans earlier later)

/-- The explanation of a request has the action, the worker and the pool that a tick decides for its
job in the queue. -/
def Predicts (service : Service) (policies : Policies N) (digest : Snapshot N → String)
    (principal : Principal) (request : SubmitRequest) (now : Time)
    (defaultProject : Option ProjectID) (snapshot : Snapshot N)
    (fresh : "explain" ∉ snapshot.jobs.map Job.id) : Prop :=
  ∃ valid decision, service.validated principal request now = .ok valid ∧
    service.explain policies digest principal request now defaultProject snapshot fresh =
      .ok decision ∧
    tickVerdict policies digest
      (snapshot.join (Service.hypothetical principal valid defaultProject now) fresh) "explain" =
        some decision.verdict

variable {service : Service} {policies : Policies N} {digests : Snapshot N → String}
  {principal : Principal} {request valid : SubmitRequest} {now : Time}
  {defaultProject : Option ProjectID}

/-- For a valid request the explanation is the decision of a pass over the joined queue. -/
theorem predicts_iff (accepted : service.validated principal request now = .ok valid)
    (fresh : "explain" ∉ snapshot.jobs.map Job.id) :
    Predicts service policies digests principal request now defaultProject snapshot fresh ↔
      tickVerdict policies digests
        (snapshot.join (Service.hypothetical principal valid defaultProject now) fresh) "explain" =
      (((policies.of valid.policy).decide
        (snapshot.join (Service.hypothetical principal valid defaultProject now) fresh)
        (digests (snapshot.join (Service.hypothetical principal valid defaultProject now)
          fresh))).find? fun decision => decision.job = "explain").map PolicyDecision.verdict := by
  have queued : Service.hypothetical principal valid defaultProject now ∈
      (snapshot.join (Service.hypothetical principal valid defaultProject now) fresh).jobs :=
    List.mem_append_right _ List.mem_cons_self
  obtain ⟨before, after, split⟩ := List.append_of_mem (mem_queue.mpr queued :
    _ ∈ queue (snapshot.join (Service.hypothetical principal valid defaultProject now) fresh)
      (policies.of valid.policy))
  have decided := decide_verdict split
    (digests (snapshot.join (Service.hypothetical principal valid defaultProject now) fresh))
  obtain ⟨decision, found, _⟩ := Option.map_eq_some_iff.mp decided
  have answers : service.explain policies digests principal request now defaultProject snapshot
      fresh = .ok decision := by
    unfold Service.explain
    rw [accepted]
    exact congrArg (fun found : Option (PolicyDecision N) => found.elim _ Except.ok) found
  rw [show List.find? (fun decision => decide (decision.job = "explain")) _ = some decision from found]
  constructor
  · rintro ⟨_, _, again, explained, same⟩
    cases accepted.symm.trans again
    cases answers.symm.trans explained
    exact same
  · exact fun same => ⟨valid, decision, accepted, answers, same⟩

/-! ### Two jobs and one worker -/

/-- The job under another id and policy. -/
def Job.under (job : Job) (id : JobID) (name : String) : Job :=
  { job with id := id, policyName := name }

/-- A worker that the job takes whole. -/
def contested (job : Job) (reserved : Int) : Worker where
  id := "worker"
  pool := job.allowedPools.headD "pool"
  name := "worker"
  capability :=
    { gpuModel := job.requirements.gpuModel, gpus := job.requirements.gpus
      gpuMemGB := job.requirements.minGPUMemGB, runtimes := [job.requirements.runtime], region := "" }
  gpusReserved := reserved
  state := .ready
  lastHeartbeat := 0
  version := 0

/-- Such a worker in a free pool, with no limits, at the time the job is submitted. -/
def arena (job : Job) (jobs : List Job) (jobsDistinct : (jobs.map Job.id).Nodup) : Snapshot N where
  now := job.submittedAt
  jobs := jobs
  jobsDistinct := jobsDistinct
  workers := [contested job 0]
  workersDistinct := List.nodup_singleton _
  pools _ := some { dollarPool with pricePerGPUHour := 0 }
  pue _ := Number.ofInt 1
  running := []
  tenantUsage := []
  tenantActiveGPUs _ := 0
  tenantMaxGPUs _ := none
  projectAvailable _ := none
  carbon _ := { current := none, forecast := [], forecastModel := "" }

/-- What a validated request says of its job: it asks for a GPU, its deadline is ahead, and it was not
delayed. -/
structure Job.Begun (job : Job) : Prop where
  asks : 1 ≤ job.requirements.gpus
  timely : job.pastDeadline job.submittedAt = false
  released : job.notBefore = none

theorem validated_begun (accepted : service.validated principal request now = .ok valid) :
    (Service.hypothetical principal valid defaultProject now).Begun := by
  unfold Service.validated at accepted
  obtain ⟨_, mapped⟩ := unless_ok.mp accepted
  cases checked : request.validate now service.policies with
  | error fault =>
      rw [checked] at mapped
      cases mapped
  | ok filled =>
      rw [checked] at mapped
      have within := (validate_ok checked).2
      have kept : valid.gpus = filled.gpus ∧ valid.deadline = filled.deadline := by
        cases mapped
        simp only
        split <;> exact ⟨rfl, rfl⟩
      refine ⟨within.gpus.1.trans_eq kept.1.symm, ?_, rfl⟩
      show Option.any (fun time => ¬ now < time) valid.deadline = false
      rw [kept.2]
      cases due : filled.deadline with
      | none => rfl
      | some time =>
          have ahead : now < time :=
            (lt_add_of_pos_right now within.runtime.1).trans (within.deadline time due)
          simp [ahead]

section

variable {jobs : List Job} {distinct : (jobs.map Job.id).Nodup} {id : JobID} {name : String}

omit [Number N] in
theorem contested_satisfies (job : Job) (reserved : Int) :
    (contested job reserved).capability.satisfies job.requirements = none := by
  simp [contested, Capability.satisfies]

omit [Number N] in
theorem contested_allowed (job : Job) (reserved : Int) :
    job.allowedPools = [] ∨ job.allowedPools.contains (contested job reserved).pool = true := by
  unfold contested
  cases job.allowedPools with
  | nil => exact Or.inl rfl
  | cons first rest => exact Or.inr (by simp)

theorem arena_free (job other : Job) (snapshot : Snapshot N)
    (pools : snapshot.pools = (arena job jobs distinct : Snapshot N).pools) (id : PoolID) :
    other.costIn (snapshot.pool id) = 0 := by
  unfold Job.costIn Snapshot.pool
  rw [pools]
  exact if_pos (Or.inr (Or.inr (le_refl 0)))

theorem arena_cheap (job : Job) : (arena job jobs distinct : Snapshot N).cheap := by
  intro other _ worker _
  rw [arena_free job other (arena job jobs distinct : Snapshot N) rfl]
  decide

/-- Nothing is kept for jobs that were just submitted. -/
theorem recent_held (recent : ∀ other ∈ snapshot.jobs, other.submittedAt = snapshot.now) :
    heldWorkers snapshot policy = fun _ => none := by
  funext worker
  refine Option.eq_none_iff_forall_ne_some.mpr fun holder holds => ?_
  obtain ⟨other, queued, _, guarded, _⟩ := held_origin holds
  obtain ⟨positive, past, _⟩ := Job.guarded_iff.mp guarded
  rw [recent other queued, sub_self] at past
  exact absurd positive (not_lt.mpr past)

/-- With the worker free the job is placed there, under whatever policy. -/
theorem arena_place (begun : job.Begun) {left : Left}
    (free : left.free "worker" = job.requirements.gpus) (avail : left.avail = fun _ => none)
    (ordered : OrderedJob N) (own : ordered.job = job.under id name) :
    (decideJob (arena job jobs distinct) policy digest (fun _ => none) left ordered).1.action =
        .place ∧
      (decideJob (arena job jobs distinct) policy digest (fun _ => none) left ordered).1.chosenWorker =
        "worker" ∧
      (decideJob (arena job jobs distinct) policy digest (fun _ => none) left ordered).2.free "worker" =
        0 := by
  have passes : Passes ordered.job (contested job 0)
      ((arena job jobs distinct : Snapshot N).pool (contested job 0).pool)
      (left.free (contested job 0).id) (fun _ => none) left.avail := by
    rw [own, avail]
    refine ⟨contested_allowed job 0, rfl, contested_satisfies job 0, free.ge, nofun, nofun, nofun,
      fun cap => ?_⟩
    rw [arena_free job _ (arena job jobs distinct : Snapshot N) rfl]
    exact cap.le
  have places := @decideJob_place N _ (arena job jobs distinct) policy digest (fun _ => none) left
    ordered (fun _ _ => delayFor_dark rfl) (own ▸ begun.timely)
    (by rw [own]; unfold Job.delayed Job.under; rw [begun.released]; rfl) (by rw [own]; rfl)
    (List.ne_nil_of_mem (mem_survivors.mpr ⟨_, List.mem_cons_self, passes, rfl⟩))
  obtain ⟨_, _, outcome⟩ := decideJob_outcome (arena job jobs distinct) policy digest (fun _ => none)
    left ordered
  generalize (decideJob (arena job jobs distinct) policy digest (fun _ => none) left ordered).1 =
    decision at places outcome ⊢
  generalize (decideJob (arena job jobs distinct) policy digest (fun _ => none) left ordered).2 =
    next at outcome ⊢
  cases outcome with
  | aside action => exact absurd places action
  | placed action on =>
      have chosen := on.chosen.trans (congrArg Worker.id (List.mem_singleton.mp on.member))
      refine ⟨places, chosen, ?_⟩
      show Function.update left.free decision.chosenWorker _ "worker" = 0
      rw [chosen, show (contested job 0).id = "worker" from rfl, Function.update_self, free, own]
      exact sub_self _

/-- With the worker full it is not. -/
theorem arena_full (begun : job.Begun) {left : Left} (full : left.free "worker" = 0)
    (ordered : OrderedJob N) (own : ordered.job = job.under id name) :
    (decideJob (arena job jobs distinct) policy digest held left ordered).1.action ≠ .place := by
  intro places
  obtain ⟨_, _, outcome⟩ := decideJob_outcome (arena job jobs distinct) policy digest held left ordered
  generalize (decideJob (arena job jobs distinct) policy digest held left ordered).2 = next at outcome
  cases outcome with
  | aside action => exact absurd places action
  | placed action on =>
      have room := on.passes.room
      rw [List.mem_singleton.mp on.member, own, show (contested job 0).id = "worker" from rfl,
        full] at room
      exact absurd begun.asks (not_le.mpr (lt_of_le_of_lt room zero_lt_one))

theorem turn_place (begun : job.Begun) {left : Left}
    (free : left.free "worker" = job.requirements.gpus) (avail : left.avail = fun _ => none) :
    (turn (arena job jobs distinct) policy (fun _ => none) left (job.under id name)).1.action = .place ∧
      (turn (arena job jobs distinct) policy (fun _ => none) left (job.under id name)).2.free "worker" =
        0 := by
  obtain ⟨places, _, full⟩ := @arena_place N _ policy "" job jobs distinct id name begun left free avail
    ⟨job.under id name, _⟩ rfl
  exact ⟨places, full⟩

theorem turn_full (begun : job.Begun) {left : Left} (full : left.free "worker" = 0) :
    (turn (arena job jobs distinct) policy held left (job.under id name)).1.action ≠ .place :=
  arena_full begun full ⟨job.under id name, _⟩ rfl

/-! ### A rival ahead of the job in one of the two -/

/-- The same job under another policy: where that policy's name is before the job's own it is younger,
and older otherwise. -/
def Job.rival (job : Job) (name : String) : Job :=
  job.under (if name < job.policyName then "z" else "a") name

theorem rival_fresh (named : job.id = "explain") (name : String) :
    job.id ∉ ([job.rival name]).map Job.id := by
  rw [named, List.map_singleton, List.mem_singleton]
  show "explain" ≠ if name < job.policyName then "z" else "a"
  split <;> decide

theorem rivals_distinct (named : job.id = "explain") (name : String) :
    ([job.rival name, job].map Job.id).Nodup := by
  refine List.nodup_cons.mpr ⟨?_, List.nodup_singleton _⟩
  have fresh := rival_fresh named name
  rw [List.map_singleton, List.mem_singleton] at fresh ⊢
  exact Ne.symm fresh

theorem rivals_ask : ∀ other ∈ [job.rival name, job],
    other.requirements.gpus = job.requirements.gpus := by
  intro other member
  rcases List.mem_cons.mp member with rfl | same
  · rfl
  · rw [List.mem_singleton.mp same]

theorem arena_asking (begun : job.Begun) {distinct : ([job.rival name, job].map Job.id).Nodup} :
    (arena job [job.rival name, job] distinct : Snapshot N).asking := fun other member => by
  rw [rivals_ask other member]
  exact zero_le_one.trans begun.asks

/-- Under whatever policy the two are ordered by their ids. -/
theorem rivals_queue (comparable : Comparable N) (name : String)
    (distinct : ([job.rival name, job].map Job.id).Nodup) :
    queue (arena job [job.rival name, job] distinct : Snapshot N) policy =
      if job.id < (job.rival name).id then [job, job.rival name] else [job.rival name, job] := by
  have sooner : (arena job [job.rival name, job] distinct : Snapshot N).sooner policy job
      (job.rival name) = decide (job.id < (job.rival name).id) := by
    unfold Snapshot.sooner ahead
    rw [show (Snapshot.keyed _ policy (job.rival name)).key.score =
      (Snapshot.keyed (arena job [job.rival name, job] distinct : Snapshot N) policy job).key.score
        from rfl, comparable.same_self, if_pos rfl]
    exact if_pos rfl
  rw [queue_eq]
  show List.insertionSort _ [job.rival name, job] = _
  rw [List.insertionSort_cons, List.insertionSort_cons, List.insertionSort_nil, List.orderedInsert_nil,
    List.orderedInsert_cons, sooner]
  by_cases younger : job.id < (job.rival name).id <;> simp [younger]

theorem arena_start_free (job : Job) :
    (Left.start (arena job jobs distinct : Snapshot N)).free "worker" = job.requirements.gpus := by
  have only : contested job 0 ∈ (arena job jobs distinct : Snapshot N).workers := List.mem_cons_self
  exact (start_free _ only).trans (sub_zero _)

theorem arena_group {kept : List Job} (keeps : jobs.filter (fun other => other.policyName = name) = kept)
    (keptDistinct : (kept.map Job.id).Nodup) :
    (arena job jobs distinct : Snapshot N).group name = arena job kept keptDistinct := by
  subst keeps
  rfl

/-- The rival's group takes the worker whole. -/
theorem rival_takes (begun : job.Begun) (apart : job.policyName ≠ name)
    (distinct : ([job.rival name, job].map Job.id).Nodup) (policies : Policies N)
    (digests : Snapshot N → String) :
    ∀ worker ∈ (decideGroup policies digests
      (arena job [job.rival name, job] distinct : Snapshot N) name).2.workers,
      worker.freeGPUs = 0 := by
  have keeps : [job.rival name, job].filter (fun other => other.policyName = name) =
      [job.rival name] := by
    have own : (job.rival name).policyName = name := rfl
    simp [own, apart]
  have alone : ([job.rival name].map Job.id).Nodup := List.nodup_singleton _
  have group : (arena job [job.rival name, job] distinct : Snapshot N).group name =
      arena job [job.rival name] alone := arena_group keeps alone
  have single : (orderJobs (arena job [job.rival name] alone : Snapshot N) (policies.of name)).map
      OrderedJob.job = [job.rival name] :=
    List.perm_singleton.mp (orderJobs_perm (arena job [job.rival name] alone : Snapshot N) _)
  obtain ⟨ordered, rest, cut, own, none_after⟩ := List.map_eq_cons_iff.mp single
  have held : heldWorkers (arena job [job.rival name] alone : Snapshot N) (policies.of name) =
      fun _ => none :=
    recent_held fun other queued => by rw [List.mem_singleton.mp queued]; rfl
  let rivals : Snapshot N := arena job [job.rival name] alone
  obtain ⟨places, chosen, _⟩ : (decideJob rivals (policies.of name) (digests rivals) (fun _ => none)
      (.start rivals) ordered).1.action = .place ∧ _ :=
    arena_place begun (arena_start_free job) rfl ordered own
  have about := (decideJob_outcome rivals (policies.of name) (digests rivals) (fun _ => none)
    (.start rivals) ordered).1
  unfold decideGroup Policy.outcomes Policy.decide
  simp only
  rw [group, held, cut, List.map_eq_nil_iff.mp none_after, outputs, outputs]
  generalize (decideJob rivals (policies.of name) (digests rivals) (fun _ => none) (.start rivals)
    ordered).1 = decision at places chosen about
  have found : [job.rival name].find? (fun other => other.id = decision.job) = some (job.rival name) := by
    rw [about, own]
    exact List.find?_cons_of_pos (decide_eq_true rfl)
  show ∀ worker ∈ (if decision.action = .place then
    Snapshot.consume _ [job.rival name] decision else _).workers, worker.freeGPUs = 0
  rw [if_pos places]
  unfold Snapshot.consume
  simp only [found, chosen]
  intro worker member
  rw [List.mem_singleton.mp member]
  show job.requirements.gpus - (0 + job.requirements.gpus) = 0
  rw [zero_add, sub_self]

/-- The job is then not placed in its own group. -/
theorem rival_first (exact_ : CostsExact N) (begun : job.Begun) (earlier : name < job.policyName)
    (distinct : ([job.rival name, job].map Job.id).Nodup) (policies : Policies N)
    (digests : Snapshot N → String) {verdict : Verdict}
    (told : tickVerdict policies digests (arena job [job.rival name, job] distinct) job.id =
      some verdict) : verdict.action ≠ .place := by
  have apart : job.policyName ≠ name := fun same => String.lt_irrefl _ (same ▸ earlier)
  have cheap : (arena job [job.rival name, job] distinct : Snapshot N).cheap := arena_cheap job
  have asking : (arena job [job.rival name, job] distinct : Snapshot N).asking := arena_asking begun
  have names : policyNames (arena job [job.rival name, job] distinct : Snapshot N) =
      [name, job.policyName] := by
    show (List.dedup [name, job.policyName]).insertionSort _ = _
    rw [List.dedup_eq_self.mpr (List.nodup_cons.mpr ⟨by simpa using apart.symm, List.nodup_singleton _⟩)]
    exact List.Pairwise.insertionSort_eq
      (List.pairwise_pair.mpr fun later => String.lt_irrefl _ (String.lt_trans earlier later))
  obtain ⟨pair, found, rfl⟩ := Option.map_eq_some_iff.mp told
  intro places
  have own := List.find?_some found
  have member := List.mem_of_find?_eq_some found
  unfold tickOutcomes tickGroups at member
  rw [names, outputs, outputs, outputs, List.flatMap_cons, List.flatMap_cons, List.flatMap_nil,
    List.append_nil, List.mem_append] at member
  rcases member with member | member
  · -- the rival's group decides only the rival
    obtain ⟨among, ids⟩ := mem_outcomes member
    obtain ⟨among, named⟩ := List.mem_filter.mp among
    have same := jobs_apart among (List.mem_cons_of_mem _ List.mem_cons_self)
      (ids.symm.trans (of_decide_eq_true own))
    exact apart (same ▸ of_decide_eq_true named)
  · have less := decideGroup_less exact_ cheap asking policies digests name
    obtain ⟨_, worker, isWorker, _, takes⟩ := placed_could_take exact_
      ((less.cheap cheap).group job.policyName) ((less.asking asking).group job.policyName) member places
    have among := (List.mem_filter.mp (mem_outcomes member).1).1
    rw [less.jobs] at among
    simp only [couldTake, Bool.and_eq_true, Option.isNone_iff_eq_none, filter_eq_none] at takes
    have room := takes.2.room
    rw [rival_takes begun apart distinct policies digests worker isWorker, rivals_ask _ among] at room
    exact absurd begun.asks (not_le.mpr (lt_of_le_of_lt room zero_lt_one))

/-- Beside a rival the explanation and the tick differ: one of them decides the rival first. -/
theorem rival_differs (comparable : Comparable N) (exact_ : CostsExact N) (begun : job.Begun)
    (named : job.id = "explain") (apart : name ≠ job.policyName)
    (distinct : ([job.rival name, job].map Job.id).Nodup) (policies : Policies N)
    (digests : Snapshot N → String) (digest : String) :
    tickVerdict policies digests (arena job [job.rival name, job] distinct) job.id ≠
      (((policies.of job.policyName).decide (arena job [job.rival name, job] distinct)
        digest).find? fun decision => decision.job = job.id).map PolicyDecision.verdict := by
  have recent : ∀ other ∈ (arena job [job.rival name, job] distinct : Snapshot N).jobs,
      other.submittedAt = (arena job [job.rival name, job] distinct : Snapshot N).now := by
    intro other member
    rcases List.mem_cons.mp member with rfl | same
    · rfl
    · rw [List.mem_singleton.mp same]
      rfl
  have order : queue (arena job [job.rival name, job] distinct : Snapshot N)
      (policies.of job.policyName) = _ := rivals_queue comparable name distinct
  by_cases earlier : name < job.policyName
  · -- the explanation decides the job before the younger rival
    rw [named, show (job.rival name).id = "z" from if_pos earlier, if_pos (by decide)] at order
    rw [decide_verdict (show _ = [] ++ job :: [job.rival name] from order), recent_held recent]
    intro same
    refine rival_first exact_ begun earlier distinct policies digests same ?_
    exact (turn_place begun (arena_start_free job) rfl).1
  · have later : job.policyName < name := by
      by_contra below
      exact apart (String.le_antisymm (String.not_lt.mp below) (String.not_lt.mp earlier))
    rw [named, show (job.rival name).id = "a" from if_neg earlier, if_neg (by decide)] at order
    have alone : queue ((arena job [job.rival name, job] distinct : Snapshot N).group job.policyName)
        (policies.of job.policyName) = [] ++ job :: [] := by
      have other : (job.rival name).policyName = name := rfl
      rw [queue_group comparable, order]
      simp [other, apart]
    have recentGroup : ∀ other ∈ ((arena job [job.rival name, job] distinct : Snapshot N).group
        job.policyName).jobs, other.submittedAt = job.submittedAt :=
      fun other member => recent other (List.mem_filter.mp member).1
    have idle : ∀ other ∈ [job.rival name, job], other.policyName < job.policyName →
        other.idle (arena job [job.rival name, job] distinct) (policies.of other.policyName) = true := by
      intro other member before
      rcases List.mem_cons.mp member with rfl | same
      · exact absurd before earlier
      · rw [List.mem_singleton.mp same] at before
        exact absurd before (String.lt_irrefl _)
    rw [decide_verdict (show _ = [job.rival name] ++ job :: [] from order), recent_held recent,
      tickVerdict_eq exact_ (arena_cheap job) (arena_asking begun) policies digests
        (List.mem_cons_of_mem _ List.mem_cons_self) idle,
      decide_verdict alone, turn_group, recent_held recentGroup]
    intro same
    refine turn_full begun (turn_place begun (arena_start_free job) rfl).2
      ((congrArg Verdict.action (Option.some.inj same)).symm.trans ?_)
    exact (turn_place begun (arena_start_free job) rfl).1

/-! ### When an explanation predicts -/

/-- For every valid request the explanation predicts the tick where every queued job is out of the way
of the hypothetical one; and it does so for every snapshot of some mix of policies exactly when all of
them are the request's own. -/
theorem explain_predicts_iff (comparable : Comparable N) (exact_ : CostsExact N) (service : Service)
    (policies : Policies N) (digests : Snapshot N → String) (principal : Principal)
    (request valid : SubmitRequest) (now : Time) (defaultProject : Option ProjectID)
    (accepted : service.validated principal request now = .ok valid) :
    let job := Service.hypothetical principal valid defaultProject now
    (∀ (snapshot : Snapshot N) (fresh : "explain" ∉ snapshot.jobs.map Job.id),
      (snapshot.join job fresh).cheap → (snapshot.join job fresh).asking →
      (∀ other ∈ snapshot.jobs, other.clear policies (snapshot.join job fresh) job = true) →
        Predicts service policies digests principal request now defaultProject snapshot fresh) ∧
    ∀ mix : Set String,
      (∀ (snapshot : Snapshot N) (fresh : "explain" ∉ snapshot.jobs.map Job.id),
        (snapshot.join job fresh).cheap → (snapshot.join job fresh).asking →
        (∀ other ∈ snapshot.jobs, other.policyName ∈ mix) →
          Predicts service policies digests principal request now defaultProject snapshot fresh) ↔
      ∀ name ∈ mix, name = valid.policy := by
  intro job
  have predicts : ∀ (snapshot : Snapshot N) (fresh : "explain" ∉ snapshot.jobs.map Job.id),
      (snapshot.join job fresh).cheap → (snapshot.join job fresh).asking →
      (∀ other ∈ snapshot.jobs, other.clear policies (snapshot.join job fresh) job = true) →
        Predicts service policies digests principal request now defaultProject snapshot fresh := by
    intro snapshot fresh cheap asking clear
    refine (predicts_iff accepted fresh).mpr ?_
    refine verdict_clear comparable exact_ cheap asking policies digests
      (List.mem_append_right _ List.mem_cons_self) (fun other member => ?_) _
    rcases List.mem_append.mp member with queued | own
    · exact clear other queued
    · exact clear_own (congrArg Job.policyName (List.mem_singleton.mp own))
  refine ⟨predicts, fun mix => ⟨fun always name among => ?_, fun own snapshot fresh cheap asking mixed => ?_⟩⟩
  · by_contra apart
    have begun : job.Begun := validated_begun accepted
    have distinct := rivals_distinct (rfl : job.id = "explain") name
    refine rival_differs comparable exact_ begun rfl apart distinct policies digests _
      ((predicts_iff accepted (rival_fresh rfl name)).mp
        (always (arena job [job.rival name] (List.nodup_singleton _)) (rival_fresh rfl name)
          ?_ ?_ fun other member => ?_))
    · exact (arena_cheap job : (arena job [job.rival name, job] distinct : Snapshot N).cheap)
    · exact (arena_asking begun : (arena job [job.rival name, job] distinct : Snapshot N).asking)
    · rw [List.mem_singleton.mp member]
      exact among
  · refine predicts snapshot fresh cheap asking fun other member => ?_
    exact clear_own (own _ (mixed other member))

end

end

/-- An hour old job of the guarded policy that needs so many GPUs, and a worker with one. -/
def mixedQueue (gpus : Int) : Snapshot Rat where
  now := hour
  jobs := [{ queuedJob "job" gpus 0 with policyName := "patient" }]
  jobsDistinct := List.nodup_singleton _
  workers := [readyWorker "worker" 1 0]
  workersDistinct := List.nodup_singleton _
  pools _ := some dollarPool
  pue _ := 1
  running := []
  tenantUsage := []
  tenantActiveGPUs _ := 0
  tenantMaxGPUs _ := none
  projectAvailable _ := none
  carbon _ := { current := none, forecast := [], forecastModel := "" }

theorem mixedQueue_fresh (gpus : Int) : "explain" ∉ (mixedQueue gpus).jobs.map Job.id := by
  show "explain" ∉ ["job"]
  decide

/-- A user of the tenant. -/
def someUser : Principal := ⟨.user, "user", "tenant", .member, "", ""⟩

theorem someUser_validated :
    plainService.validated someUser (cappedRequest 0) hour =
      .ok { cappedRequest 0 with policy := "balanced" } := by
  rfl

/-- The job of the other policy needs more GPUs than there are. -/
theorem explain_predicts_idle :
    Predicts plainService twoPolicies (fun _ => "") someUser (cappedRequest 0) hour none
      (mixedQueue 8) (mixedQueue_fresh 8) :=
  (explain_predicts_iff comparable_rat costsExact_rat plainService twoPolicies (fun _ => "") someUser
    (cappedRequest 0) _ hour none someUser_validated).1 (mixedQueue 8) (mixedQueue_fresh 8)
    (by unfold Snapshot.cheap; decide +kernel) (by unfold Snapshot.asking; decide +kernel)
    (by decide +kernel)

/-- The job of the other policy takes the only GPU in the explanation, and comes second in the tick. -/
theorem explain_mispredicts :
    ¬ Predicts plainService twoPolicies (fun _ => "") someUser (cappedRequest 0) hour none
      (mixedQueue 1) (mixedQueue_fresh 1) := by
  rw [predicts_iff someUser_validated]
  decide +kernel

end GpuBroker.ControlPlane
