/-
This file is a scheduling tick: what the leader reads, what the policies decide
of it, and how the decisions are applied while others go on.

Each statement of the snapshot sees the database as it is then, so requests of
others may commit between two of them. The jobs are decided in groups, one for
each policy, every group against what the groups before it took; the decisions
are then applied one transaction at a time, between any requests.
-/
import GpuBroker.ControlPlane.Placements
import GpuBroker.ControlPlane.Runs

namespace GpuBroker.ControlPlane

open Library

/-! ### The statements of a snapshot -/

/-- The oldest queued jobs, up to a limit. -/
def listQueued (limit : Nat) (db : Db) : List Job :=
  ((db.jobs.rows.filter fun job => job.state = .queued).insertionSort fun one two =>
    ¬ older two one).take limit

theorem listQueued_sublist (limit : Nat) (db : Db) :
    ∃ jobs, (listQueued limit db).Sublist jobs ∧
      jobs.Perm (db.jobs.rows.filter fun job => job.state = .queued) :=
  ⟨_, List.take_sublist _ _, List.perm_insertionSort _ _⟩

theorem listQueued_distinct (limit : Nat) (db : Db) :
    ((listQueued limit db).map Job.id).Nodup := by
  obtain ⟨jobs, sublist, perm⟩ := listQueued_sublist limit db
  refine (sublist.map Job.id).nodup ((perm.map Job.id).nodup_iff.mpr ?_)
  exact (List.filter_sublist.map Job.id).nodup db.jobs.distinct

theorem listQueued_found {limit : Nat} {db : Db} {job : Job} (member : job ∈ listQueued limit db) :
    db.jobs.find job.id = some job ∧ job.state = .queued := by
  obtain ⟨jobs, sublist, perm⟩ := listQueued_sublist limit db
  obtain ⟨stored, queued⟩ := List.mem_filter.mp (perm.mem_iff.mp (sublist.subset member))
  exact ⟨Table.find_of_mem stored, of_decide_eq_true queued⟩

/-- The jobs that hold capacity; one on its last attempt is reported as not preemptible. -/
def listRunning (db : Db) : List RunningJob :=
  (db.jobs.rows.filterMap fun job =>
    if [JobState.reserved, .dispatched, .running].contains job.state then
      (db.reservations.select fun row => row.job = job.id ∧ row.active).map fun row =>
        { job := job.id, worker := row.worker, gpus := row.gpus, priority := job.priority
          preemptible := job.preemptible && decide (job.attempt < job.maxAttempts)
          startedAt := job.startedAt.getD row.createdAt }
    else none).insertionSort fun one two => ¬ two.job < one.job

/-- The GPUs of a tenant's unreleased reservations. -/
def tenantActiveGPUs (books : Books) (tenant : TenantID) : Int :=
  books.reservations.total fun row =>
    if row.active ∧ (books.jobs.find row.job).any (fun job => job.tenant = tenant) then row.gpus
    else 0

def tenantMaxGPUs (db : Db) (tenant : TenantID) : Option Int :=
  (db.quotas.find tenant).map Quota.maxActiveGPUs

def projectAvailableAll (db : Db) (id : ProjectID) : Option MicroUSD :=
  (db.projects.find id).map fun project => project.budget - committedOf db.ledger id

/-- What a snapshot takes from elsewhere than the tables of the model. -/
structure Outside (N : Type) where
  now : Time
  tenantUsage : List (TenantID × N)
  pue : PoolID → N
  carbon : String → RegionCarbon N

/-- The requests of others that commit between two statements of a snapshot. -/
structure Pauses where
  afterJobs : List Request
  afterWorkers : List Request
  afterPools : List Request
  afterRunning : List Request
  afterActive : List Request
  afterMax : List Request

/-- The database after some requests. -/
def requests (service : Service) (asked : List Request) (db : Database) : Database :=
  run service (asked.map Call.request) db

/-- The snapshot of a tick and the database at its end. -/
def readSnapshot {N : Type} (service : Service) (limit : Nat) (pauses : Pauses)
    (outside : Outside N) (db : Database) : Snapshot N × Database :=
  let one := requests service pauses.afterJobs db
  let two := requests service pauses.afterWorkers one
  let three := requests service pauses.afterPools two
  let four := requests service pauses.afterRunning three
  let five := requests service pauses.afterActive four
  let six := requests service pauses.afterMax five
  ({ now := outside.now
     jobs := listQueued limit db.toDb, jobsDistinct := listQueued_distinct limit db.toDb
     workers := one.workers.rows, workersDistinct := one.workers.distinct
     pools := two.pools.find, pue := outside.pue
     running := listRunning three.toDb
     tenantUsage := outside.tenantUsage
     tenantActiveGPUs := tenantActiveGPUs four.toBooks
     tenantMaxGPUs := tenantMaxGPUs five.toDb
     projectAvailable := projectAvailableAll six.toDb
     carbon := outside.carbon }, six)

/-! ### The groups of a tick -/

section

variable {N : Type} [Number N]

/-- The policies of the service, and the default one. -/
structure Policies (N : Type) where
  named : String → Option (Policy N)
  default : Policy N

/-- The policy of a job that names this one. -/
def Policies.of (policies : Policies N) (name : String) : Policy N :=
  (policies.named name).getD policies.default

/-- The snapshot with the jobs of one policy. -/
def Snapshot.group (snapshot : Snapshot N) (name : String) : Snapshot N :=
  { snapshot with
    jobs := snapshot.jobs.filter fun job => job.policyName = name
    jobsDistinct := (List.filter_sublist.map Job.id).nodup snapshot.jobsDistinct }

/-- A worker row of the snapshot with GPUs taken. -/
def Worker.consumed (id : WorkerID) (gpus : Int) (worker : Worker) : Worker :=
  if worker.id = id then { worker with gpusReserved := worker.gpusReserved + gpus } else worker

theorem Worker.consumed_id (id : WorkerID) (gpus : Int) (worker : Worker) :
    (worker.consumed id gpus).id = worker.id := by
  unfold Worker.consumed
  split <;> rfl

/-- Take a placement out of the shared snapshot, so that the next group sees what remains. -/
def Snapshot.consume (snapshot : Snapshot N) (jobs : List Job) (decision : PolicyDecision N) :
    Snapshot N :=
  let job := jobs.find? fun job => job.id = decision.job
  let gpus := (job.map fun job => job.requirements.gpus).getD 0
  let tenant := (job.map Job.tenant).getD ""
  let project := (job.map Job.project).getD ""
  { snapshot with
    workers := snapshot.workers.map (Worker.consumed decision.chosenWorker gpus)
    workersDistinct := by
      rw [List.map_map, show Worker.id ∘ Worker.consumed decision.chosenWorker gpus = Worker.id from
        funext (Worker.consumed_id _ _)]
      exact snapshot.workersDistinct
    tenantActiveGPUs := Function.update snapshot.tenantActiveGPUs tenant
      (snapshot.tenantActiveGPUs tenant + gpus)
    projectAvailable :=
      match snapshot.projectAvailable project with
      | none => snapshot.projectAvailable
      | some available => Function.update snapshot.projectAvailable project
          (some (available - decision.budgetEffect)) }

/-- A group as it was decided: its snapshot and policy, and its jobs with their decisions. -/
structure Group (N : Type) where
  snapshot : Snapshot N
  policy : Policy N
  outcomes : List (OrderedJob N × PolicyDecision N)

/-- What is left of a snapshot after the placements of a group. -/
def Snapshot.consumeAll (snapshot : Snapshot N) (jobs : List Job)
    (outcomes : List (OrderedJob N × PolicyDecision N)) : Snapshot N :=
  outcomes.foldl (fun snapshot pair =>
    if pair.2.action = .place then snapshot.consume jobs pair.2 else snapshot) snapshot

/-- Decide the group of a policy, and leave what remains. -/
def decideGroup (policies : Policies N) (digest : Snapshot N → String) (snapshot : Snapshot N)
    (name : String) : Group N × Snapshot N :=
  let sub := snapshot.group name
  let policy := policies.of name
  let outcomes := policy.outcomes sub (digest sub)
  ({ snapshot := sub, policy, outcomes }, snapshot.consumeAll sub.jobs outcomes)

/-- The policies of the queue, in the order of their names. -/
def policyNames (snapshot : Snapshot N) : List String :=
  (snapshot.jobs.map Job.policyName).dedup.insertionSort fun one two => ¬ two < one

/-- The groups of a tick, in order. -/
def tickGroups (policies : Policies N) (digest : Snapshot N → String) (snapshot : Snapshot N) :
    List (Group N) :=
  outputs (decideGroup policies digest) (policyNames snapshot) snapshot

/-- The jobs of a tick with their decisions, in the order they are applied. -/
def tickOutcomes (policies : Policies N) (digest : Snapshot N → String) (snapshot : Snapshot N) :
    List (OrderedJob N × PolicyDecision N) :=
  (tickGroups policies digest snapshot).flatMap Group.outcomes

/-! ### The leader -/

/-- The database, the token of the leader, and the decisions of its current tick that are still to
be applied, each beside the job it is about. -/
structure Leader (N : Type) where
  db : Database
  epoch : Int
  pending : List (OrderedJob N × PolicyDecision N)

/-- Before anyone leads. -/
def Leader.initial (N : Type) : Leader N where
  db := .initial
  epoch := 0
  pending := []

/-- What happens under one leader: a request of someone else, the leadership taken (again), a tick
up to its decisions, or the application of the next decision. A tick that ended early leaves its
decisions unapplied. -/
inductive LeaderAct (N : Type)
  | request (asked : Request)
  | tryLead
  | tick (limit : Nat) (pauses : Pauses) (outside : Outside N)
  | apply (tickID : String) (attempt : AttemptID) (reservation : ReservationID)
      (now appliedAt : Time)

def LeaderAct.perform (service : Service) (policies : Policies N) (digest : Snapshot N → String)
    (leader : Leader N) : LeaderAct N → Leader N
  | request asked => { leader with db := (Call.request asked).perform service leader.db }
  | tryLead =>
      let db := Call.tryLead.perform service leader.db
      { db, epoch := db.epoch, pending := [] }
  | tick limit pauses outside =>
      let (snapshot, db) := readSnapshot service limit pauses outside leader.db
      { leader with db, pending := tickOutcomes policies digest snapshot }
  | apply tickID attempt reservation now appliedAt =>
      match leader.pending with
      | [] => leader
      | (_, decision) :: rest =>
          { leader with
            db := (Call.applyDecision leader.epoch tickID decision.toDecision attempt reservation
              now appliedAt).perform service leader.db
            pending := rest }

/-- The state after some acts. -/
def lead (service : Service) (policies : Policies N) (digest : Snapshot N → String) :
    List (LeaderAct N) → Leader N → Leader N
  | [], leader => leader
  | act :: rest, leader =>
      lead service policies digest rest (act.perform service policies digest leader)

end

end GpuBroker.ControlPlane
