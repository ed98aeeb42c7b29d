/-
This file is the time a job is held back to, as its row keeps it.

Nothing but a delay sets the time, and nothing but the close of an attempt
clears it: each call is read once for what it writes of the jobs, and whatever
is true of delays over a run follows from that.
-/
import GpuBroker.ControlPlane.Admissions
import GpuBroker.ControlPlane.Deeds

namespace GpuBroker.ControlPlane

open Library Library.Transaction

/-! ### The row of a job -/

/-- What a call leaves of a job's row: the time it is held back to, and a place outside the queue if it
had one; or a closed attempt has cleared the time. -/
inductive Postponed (job later : Job) : Prop
  | kept (saved : ∃ moved, later = Job.saved job moved) (notBefore : later.notBefore = job.notBefore)
      (queue : later.state = .queued → job.state = .queued)
  | closed (saved : ∃ moved, later = Job.saved job moved) (held : job.state.holdsCapacity = true)
      (notBefore : later.notBefore = none)
      (ended : later.state = .queued ∨ later.state.terminal = true)

theorem Postponed.refl (job : Job) : Postponed job job := .kept ⟨job, rfl⟩ rfl id

/-- What a call wrote of the jobs. -/
inductive Writes (jobs next : Table Job Job.id) : Prop
  | nothing (same : next = jobs)
  | fresh {row : Job} (new : jobs.find row.id = none) (sets : jobs.Sets next row)
      (undelayed : row.notBefore = none) (window : 0 ≤ row.maxDelay)
  | row {job moved : Job} (found : jobs.find job.id = some job)
      (sets : jobs.Sets next (Job.saved job moved)) (postponed : Postponed job (Job.saved job moved))

/-- A job that was there is there, as the call left it. -/
theorem Writes.job {jobs next : Table Job Job.id} (writes : Writes jobs next) {id : JobID} {job : Job}
    (found : jobs.find id = some job) : ∃ later, next.find id = some later ∧ Postponed job later := by
  cases writes with
  | nothing same => exact ⟨job, same ▸ found, .refl job⟩
  | fresh new sets undelayed window =>
      have other : id ≠ Job.id _ := fun own => by
        rw [own, new] at found
        cases found
      exact ⟨job, (sets.find_other other).trans found, .refl job⟩
  | @row old moved stored sets postponed =>
      by_cases own : id = old.id
      · subst own
        cases stored.symm.trans found
        exact ⟨_, sets.find_self, postponed⟩
      · exact ⟨job, (sets.find_other own).trans found, .refl job⟩

/-- Every job that is there allows a delay of no less than nothing. -/
def Allowing (jobs : Table Job Job.id) : Prop := ∀ id job, jobs.find id = some job → 0 ≤ job.maxDelay

theorem Writes.allowing {jobs next : Table Job Job.id} (writes : Writes jobs next)
    (allowing : Allowing jobs) : Allowing next := by
  cases writes with
  | nothing same => exact same ▸ allowing
  | fresh new sets undelayed window =>
      intro id job found
      rcases sets.found found with ⟨rfl, _⟩ | ⟨_, before⟩
      · exact window
      · exact allowing id job before
  | @row old moved stored sets postponed =>
      intro id job found
      rcases sets.found found with ⟨rfl, _⟩ | ⟨_, before⟩
      · exact allowing _ old stored
      · exact allowing id job before

/-! ### What the requests write -/

theorem apply_notBefore {job result : Job} {target : JobState} {actor : Actor}
    {reason correlation : String} {time : Time} {db next : Db}
    (finished : Service.apply job target actor reason correlation time db = .ok (result, next)) :
    result.notBefore = job.notBefore := by
  simp only [Service.apply, bind_ok, fallible_ok] at finished
  obtain ⟨⟨moved, record⟩, _, ⟨legal, rfl⟩, _, _, _, _, _, _, final⟩ := finished
  cases pure_ok.mp final
  unfold transition at legal
  split at legal
  · cases legal
  split at legal
  · cases legal
  · cases legal
    rfl

/-- A transition to a state other than queued keeps the time of the job's row. -/
theorem apply_writes {job row result : Job} {target : JobState} {actor : Actor}
    {reason correlation : String} {time : Time} {db next : Db}
    (stored : db.jobs.find job.id = some row) (same : job.notBefore = row.notBefore)
    (finished : Service.apply job target actor reason correlation time db = .ok (result, next))
    (leaves : target ≠ .queued) : Writes db.jobs next.jobs := by
  have key : job.id = row.id := (Table.find_key stored).symm
  obtain ⟨_, reached, _, _, _, _, _⟩ := apply_spec finished
  refine .row (key ▸ stored) (apply_sets finished stored).1 (.kept ⟨result, rfl⟩ ?_ fun queued => ?_)
  · exact (apply_notBefore finished).trans same
  · exact absurd (reached.symm.trans queued) leaves

/-- The row of a job holds it back to a time. -/
def HeldTo (id : JobID) (time : Option Time) (db : Db) : Prop :=
  ∃ row, db.jobs.find id = some row ∧ row.notBefore = time

theorem HeldTo.moved {job moved : Job} {time : Option Time} {jobs : Table Job Job.id} {db : Db}
    (held : HeldTo job.id time db) (sets : jobs.Sets db.jobs (Job.saved job moved)) :
    moved.notBefore = time := by
  obtain ⟨row, found, kept⟩ := held
  cases found.symm.trans sets.find_self
  exact kept

theorem apply_heldTo (job : Job) (target : JobState) (actor : Actor) (reason correlation : String)
    (time : Time) : Keeps (fun _ => HeldTo job.id job.notBefore)
      (Service.apply job target actor reason correlation time) := by
  intro db result next finished
  obtain ⟨_, _, _, _, _, ⟨row, stored, _⟩, _⟩ := apply_spec finished
  have key : row.id = job.id := Table.find_key stored
  have found := (apply_sets finished stored).1.find_self
  rw [show (Job.saved row result).id = job.id from key] at found
  have kept : result.notBefore = job.notBefore := apply_notBefore finished
  exact ⟨_, found, kept⟩

theorem jobStateForOutcome_ends (job : Job) (outcome : AttemptOutcome) (now : Time) :
    jobStateForOutcome job outcome now = .queued ∨
      (jobStateForOutcome job outcome now).terminal = true := by
  unfold jobStateForOutcome
  cases outcome <;> simp only <;> repeat' split
  all_goals first | exact Or.inl rfl | exact Or.inr rfl

theorem closeAttempt_heldTo {service : Service} {job result : Job} {outcome : AttemptOutcome}
    {exit : Option Int} {reason correlation : String} {actor : Actor} {now appliedAt : Time}
    {db next : Db}
    (finished : service.closeAttempt job outcome exit reason actor correlation now appliedAt db =
      .ok (result, next)) : HeldTo job.id none next := by
  refine (?_ : Keeps (fun _ => HeldTo job.id none) _) db result next finished
  unfold Service.closeAttempt
  refine keeps_rest fun reservation => keeps_rest fun attempt => keeps_rest fun closed =>
    keeps_rest fun _ => keeps_rest fun budget => keeps_rest fun _ => keeps_rest fun released =>
    keeps_rest fun _ => keeps_rest fun _ => ?_
  exact apply_heldTo { job with notBefore := none } _ _ _ _ _

/-- The close of an attempt clears the time. -/
theorem closeAttempt_writes {service : Service} {job result : Job} {outcome : AttemptOutcome}
    {exit : Option Int} {reason correlation : String} {actor : Actor} {now appliedAt : Time}
    {db next : Db} (sound : Sound db.toBooks) (stored : db.jobs.find job.id = some job)
    (finished : service.closeAttempt job outcome exit reason actor correlation now appliedAt db =
      .ok (result, next)) : Writes db.jobs next.jobs := by
  obtain ⟨closing, ofJob, _, wrote, _, _, state⟩ := closeAttempt_closing stored finished
  subst ofJob
  have sets : db.jobs.Sets next.jobs (Job.saved closing.job closing.next) := by
    rw [wrote]
    exact closing.find_job
  have cleared : closing.next.notBefore = none := (closeAttempt_heldTo finished).moved sets
  refine .row closing.jobFound sets (.closed ⟨_, rfl⟩ ?_ cleared ?_)
  · obtain ⟨_, _, ⟨attempt, hasAttempt, _⟩, _⟩ := sound.paired _ _ closing.reservationFound
    exact (sound.current _ _ closing.reservationFound closing.active _ attempt
      (closing.reservationJob ▸ closing.jobFound) hasAttempt).1
  · show closing.next.state = .queued ∨ closing.next.state.terminal = true
    rw [state]
    exact jobStateForOutcome_ends _ _ _

/-- A new job is held back to no time, and allows a delay of no less than nothing. -/
theorem submit_writes {service : Service} {principal : Principal} {request : SubmitRequest}
    {correlation : String} {id : JobID} {now appliedAt : Time} {db next : Db}
    {result : Job × Option Fault}
    (finished : service.submit principal request correlation id now appliedAt db =
      .ok (result, next)) : Writes db.jobs next.jobs := by
  unfold Service.submit at finished
  obtain ⟨_, _, isUser, finished⟩ := bind_ok.mp finished
  obtain ⟨_, rfl⟩ := require_ok.mp isUser
  obtain ⟨valid, _, validated, finished⟩ := bind_ok.mp finished
  obtain ⟨validated, rfl⟩ := fallible_ok.mp validated
  have window := (validate_ok validated).2.delay.1
  simp only at finished
  have same : (if valid.policy = "" then { valid with policy := service.cfg.defaultPolicy }
      else valid).maxDelay = valid.maxDelay := by
    split <;> rfl
  generalize (if valid.policy = "" then { valid with policy := service.cfg.defaultPolicy }
      else valid) = asked at same finished
  obtain ⟨project, _, readProject, finished⟩ := bind_ok.mp finished
  obtain ⟨_, rfl⟩ := requestedProject_spec readProject
  obtain ⟨_, _, belowLimits, finished⟩ := bind_ok.mp finished
  cases checkQueue_reads service _ _ _ _ _ belowLimits
  obtain ⟨_, one, inserts, finished⟩ := bind_ok.mp finished
  obtain ⟨_, _, jobs, inserted, wroteJob⟩ := Tx.insertJob_spec inserts
  obtain ⟨cheapest, _, readCheapest, finished⟩ := bind_ok.mp finished
  cases cheapestCost_reads _ _ _ _ readCheapest
  obtain ⟨spend, _, readSpend, finished⟩ := bind_ok.mp finished
  obtain ⟨_, rfl⟩ := Tx.projectSpend_spec readSpend
  obtain ⟨moved, two, applies, finished⟩ := bind_ok.mp finished
  cases pure_ok.mp finished
  have first := Table.sets_insert inserted
  rw [show jobs = one.jobs by rw [wroteJob]] at first
  have sets := first.trans (apply_sets applies first.find_self).1 rfl
  refine .fresh ?_ sets (apply_notBefore applies) ?_
  · exact (Table.insert_eq_some inserted).1
  · -- the column counts whole seconds
    show 0 ≤ asked.maxDelay / second * second
    rw [same]
    exact mul_nonneg (Int.ediv_nonneg window (by decide)) (by decide)

theorem cancel_writes {service : Service} {principal : Principal} {id : JobID}
    {correlation : String} {now appliedAt : Time} {db next : Db} {result : Job}
    (sound : Sound db.toBooks)
    (finished : service.cancel principal id correlation now appliedAt db = .ok (result, next)) :
    Writes db.jobs next.jobs := by
  unfold Service.cancel at finished
  obtain ⟨_, _, isUser, finished⟩ := bind_ok.mp finished
  obtain ⟨_, rfl⟩ := require_ok.mp isUser
  obtain ⟨_, _, owned, finished⟩ := bind_ok.mp finished
  cases Tx.getJob_reads _ _ _ _ _ owned
  obtain ⟨job, _, locks, finished⟩ := bind_ok.mp finished
  obtain ⟨found, rfl⟩ := Tx.lockJob_spec locks
  have stored : db.jobs.find job.id = some job := by rwa [Table.find_key found]
  cases state : job.state <;> simp only [state] at finished
  case submitted | queued => exact apply_writes stored rfl finished nofun
  case reserved => exact closeAttempt_writes sound stored finished
  case dispatched | running => exact apply_writes stored rfl finished nofun
  all_goals
    cases pure_ok.mp finished
    exact .nothing rfl

theorem handleDispatch_writes {service : Service} {principal : Principal} {event : OutboxEvent}
    {now appliedAt : Time} {db next : Db} {result : Option Service.Dispatch}
    (finished : service.handleDispatch principal event now appliedAt db = .ok (result, next)) :
    Writes db.jobs next.jobs := by
  unfold Service.handleDispatch at finished
  obtain ⟨job, _, locks, finished⟩ := bind_ok.mp finished
  obtain ⟨found, rfl⟩ := Tx.lockJob_spec locks
  obtain ⟨attempt, _, reads, finished⟩ := bind_ok.mp finished
  obtain ⟨_, rfl⟩ := Tx.getAttempt_spec reads
  obtain ⟨_, marked, marks, finished⟩ := bind_ok.mp finished
  have same : marked.jobs = db.jobs := by rw [Tx.markDelivered_quiet _ _ _ _ _ marks]
  rw [← same]
  have stored : marked.jobs.find job.id = some job := by
    rw [same, Table.find_key found]
    exact found
  split at finished
  · cases pure_ok.mp finished
    exact .nothing rfl
  cases state : job.state <;> simp only [state] at finished
  case reserved =>
    obtain ⟨_, leased, puts, finished⟩ := bind_ok.mp finished
    obtain ⟨moved, claimed, applies, finished⟩ := bind_ok.mp finished
    cases pure_ok.mp finished
    have kept : leased.jobs = marked.jobs := by rw [Tx.putLease_quiet _ _ _ _ puts]
    rw [← kept] at stored ⊢
    exact apply_writes stored rfl applies nofun
  case dispatched =>
    obtain ⟨lease, _, readLease, finished⟩ := bind_ok.mp finished
    obtain ⟨_, rfl⟩ := Tx.getLease_spec readLease
    obtain ⟨_, _, needs, finished⟩ := bind_ok.mp finished
    obtain ⟨_, rfl⟩ := need_ok.mp needs
    cases pure_ok.mp finished
    exact .nothing rfl
  all_goals
    cases pure_ok.mp finished
    exact .nothing rfl

theorem ack_writes {service : Service} {principal : Principal} {dispatch : Service.Dispatch}
    {now appliedAt : Time} {db next : Db} {result : Service.AckResult}
    (finished : service.ack principal dispatch now appliedAt db = .ok (result, next)) :
    Writes db.jobs next.jobs := by
  obtain ⟨job, attempt, marked, vouched, jobs, _, _, ⟨_, _, rfl⟩ |
    ⟨_, _, renewed, _, moved, renews, applies⟩⟩ := ack_spec finished
  · exact .nothing jobs
  · have same : renewed.jobs = db.jobs := by rw [Tx.renewLeases_quiet _ _ _ _ _ _ _ renews, jobs]
    rw [← same]
    refine @apply_writes (job.started now) job _ _ _ _ _ _ _ _ ?_ rfl applies nofun
    rw [same]
    exact vouched.job_stored

theorem heartbeat_writes {service : Service} {principal : Principal} {state : WorkerState}
    {held : List AttemptID} {now : Time} {db next : Db} {result : Service.HeartbeatResult}
    (finished : service.heartbeat principal state held now db = .ok (result, next)) :
    Writes db.jobs next.jobs := by
  unfold Service.heartbeat at finished
  obtain ⟨_, _, isWorker, finished⟩ := bind_ok.mp finished
  obtain ⟨_, rfl⟩ := require_ok.mp isWorker
  obtain ⟨_, _, reported, finished⟩ := bind_ok.mp finished
  obtain ⟨_, rfl⟩ := require_ok.mp reported
  obtain ⟨_, _, few, finished⟩ := bind_ok.mp finished
  obtain ⟨_, rfl⟩ := require_ok.mp few
  obtain ⟨_, touched, touches, finished⟩ := bind_ok.mp finished
  obtain ⟨_, renewed, renews, finished⟩ := bind_ok.mp finished
  obtain ⟨_, _, reads, finished⟩ := bind_ok.mp finished
  cases get_ok.mp reads
  cases pure_ok.mp finished
  refine .nothing ?_
  rw [Tx.renewLeases_quiet _ _ _ _ _ _ _ renews, Tx.touchWorker_spec touches]

/-- A report closes the attempt of its job at most once. -/
theorem reportLoop_writes {service : Service} {principal : Principal} {job : Job}
    {attempt : AttemptID} :
    ∀ {events : List (WorkerEvent × Service.EventReadings)} {final result : Option AttemptOutcome}
      {db next : Db}, Sound db.toBooks → db.jobs.find job.id = some job →
      service.reportLoop principal job attempt events none final db = .ok (result, next) →
        Writes db.jobs next.jobs := by
  intro events
  induction events with
  | nil =>
      intro final result db next _ _ finished
      cases pure_ok.mp finished
      exact .nothing rfl
  | cons head rest inductionHypothesis =>
      intro final result db next sound found finished
      obtain ⟨event, readings⟩ := head
      unfold Service.reportLoop at finished
      obtain ⟨_, stored, stores, finished⟩ := bind_ok.mp finished
      have books := Tx.insertAttemptEvent_quiet _ _ _ _ stores
      rw [← books] at sound found ⊢
      by_cases terminal : event.kind = some .exit
      · rw [if_neg (not_not.mpr terminal)] at finished
        obtain ⟨outcome, _, needs, finished⟩ := bind_ok.mp finished
        obtain ⟨_, rfl⟩ := need_ok.mp needs
        obtain ⟨_, _, acknowledged, finished⟩ := bind_ok.mp finished
        obtain ⟨_, rfl⟩ := require_ok.mp acknowledged
        obtain ⟨_, middle, closes, finished⟩ := bind_ok.mp finished
        rw [(reportLoop_closed finished).1]
        exact closeAttempt_writes sound found closes
      · rw [if_pos terminal] at finished
        exact inductionHypothesis sound found finished

theorem reportEvents_writes {service : Service} {principal : Principal} {attempt : AttemptID}
    {events : List (WorkerEvent × Service.EventReadings)} {db next : Db}
    {result : Option AttemptOutcome} (sound : Sound db.toBooks)
    (finished : service.reportEvents principal attempt events db = .ok (result, next)) :
    Writes db.jobs next.jobs := by
  unfold Service.reportEvents at finished
  obtain ⟨_, _, isWorker, finished⟩ := bind_ok.mp finished
  obtain ⟨_, rfl⟩ := require_ok.mp isWorker
  obtain ⟨_, _, bounded, finished⟩ := bind_ok.mp finished
  obtain ⟨_, rfl⟩ := require_ok.mp bounded
  obtain ⟨_, _, shaped, finished⟩ := bind_ok.mp finished
  obtain ⟨_, rfl⟩ := require_ok.mp shaped
  obtain ⟨_, _, outcomes, finished⟩ := bind_ok.mp finished
  obtain ⟨_, rfl⟩ := require_ok.mp outcomes
  obtain ⟨row, _, reads, finished⟩ := bind_ok.mp finished
  obtain ⟨_, rfl⟩ := Tx.getAttempt_spec reads
  obtain ⟨_, _, ours, finished⟩ := bind_ok.mp finished
  obtain ⟨_, rfl⟩ := require_ok.mp ours
  obtain ⟨job, _, locks, finished⟩ := bind_ok.mp finished
  obtain ⟨jobFound, rfl⟩ := Tx.lockJob_spec locks
  obtain ⟨again, _, rereads, finished⟩ := bind_ok.mp finished
  obtain ⟨_, rfl⟩ := Tx.getAttempt_spec rereads
  have stored : db.jobs.find job.id = some job := by rwa [Table.find_key jobFound]
  cases outcome : again.outcome with
  | some known =>
      rw [outcome] at finished
      refine .nothing ?_
      rw [(reportLoop_closed finished).1]
  | none =>
      rw [outcome] at finished
      exact reportLoop_writes sound stored finished

theorem reclaim_writes {service : Service} {attempt : AttemptID} {check : Tx Bool}
    {reason : String} {now appliedAt : Time} {db next : Db} {result : Bool}
    (sound : Sound db.toBooks) (reads : Tx.Reads check)
    (finished : service.reclaim attempt check reason now appliedAt db = .ok (result, next)) :
    Writes db.jobs next.jobs := by
  unfold Service.reclaim at finished
  obtain ⟨row, _, readRow, finished⟩ := bind_ok.mp finished
  obtain ⟨_, rfl⟩ := Tx.getAttempt_spec readRow
  obtain ⟨job, _, locks, finished⟩ := bind_ok.mp finished
  obtain ⟨jobFound, rfl⟩ := Tx.lockJob_spec locks
  have stored : db.jobs.find job.id = some job := by rwa [Table.find_key jobFound]
  obtain ⟨again, _, rereads, finished⟩ := bind_ok.mp finished
  obtain ⟨_, rfl⟩ := Tx.getAttempt_spec rereads
  split at finished
  · obtain ⟨_, dropped, drops, finished⟩ := bind_ok.mp finished
    cases pure_ok.mp finished
    refine .nothing ?_
    rw [Tx.deleteLease_quiet _ _ _ _ drops]
  · obtain ⟨still, _, checks, finished⟩ := bind_ok.mp finished
    cases reads _ _ _ checks
    split at finished
    · obtain ⟨_, middle, closes, finished⟩ := bind_ok.mp finished
      cases pure_ok.mp finished
      exact closeAttempt_writes sound stored closes
    · cases pure_ok.mp finished
      exact .nothing rfl

theorem reclaimLease_writes {service : Service} {attempt : AttemptID} {pass now appliedAt : Time}
    {db next : Db} {result : Bool} (sound : Sound db.toBooks)
    (finished : service.reclaimLease attempt pass now appliedAt db = .ok (result, next)) :
    Writes db.jobs next.jobs := by
  refine reclaim_writes sound ?_ finished
  intro db result next finished
  obtain ⟨_, _, reads, finished⟩ := bind_ok.mp finished
  obtain ⟨_, rfl⟩ := Tx.getLease_spec reads
  cases pure_ok.mp finished
  rfl

theorem reclaimStale_writes {service : Service} {reservation : Reservation} {now appliedAt : Time}
    {db next : Db} {result : Bool} (sound : Sound db.toBooks)
    (finished : service.reclaimStale reservation now appliedAt db = .ok (result, next)) :
    Writes db.jobs next.jobs := by
  refine reclaim_writes sound ?_ finished
  intro db result next finished
  obtain ⟨_, _, locks, finished⟩ := bind_ok.mp finished
  obtain ⟨_, rfl⟩ := Tx.lockJob_spec locks
  cases pure_ok.mp finished
  rfl

theorem timeoutStop_writes {service : Service} {id : JobID} {now : Time} {db next : Db}
    {result : Unit} (finished : service.timeoutStop id now db = .ok (result, next)) :
    Writes db.jobs next.jobs := by
  unfold Service.timeoutStop at finished
  obtain ⟨job, _, locks, finished⟩ := bind_ok.mp finished
  obtain ⟨_, rfl⟩ := Tx.lockJob_spec locks
  cases start : job.startedAt with
  | none =>
      simp only [start] at finished
      cases pure_ok.mp finished
      exact .nothing rfl
  | some started =>
      simp only [start] at finished
      split at finished
      · obtain ⟨reservation, _, reads, asked⟩ := bind_ok.mp finished
        obtain ⟨_, rfl⟩ := Tx.activeReservation_spec reads
        rcases requestStop_row asked with unchanged | ⟨_, _, _, jobs, _⟩
        · exact .nothing (congrArg Books.jobs unchanged)
        · exact .nothing jobs
      · cases pure_ok.mp finished
        exact .nothing rfl

/-- From balanced books a request writes no row but as above. -/
theorem Request.writes (service : Service) (request : Request) {db next : Db}
    (balanced : Balanced db.toBooks) (finished : request.body service db = .ok ((), next)) :
    Writes db.jobs next.jobs := by
  have sound := balanced.sound
  have jobs : next.live = db.live → Writes db.jobs next.jobs := fun same =>
    .nothing (congrArg Live.jobs same)
  cases request with
  | createTenant tenant project budget maxQueuedJobs maxActiveGPUs =>
      exact jobs (createTenant_live finished)
  | upsertPool pool => exact jobs (upsertPool_live finished)
  | register principal name capability id now =>
      obtain ⟨_, ran⟩ := ignore_ok finished
      exact jobs (register_live ran)
  | submit principal request correlation id now appliedAt =>
      obtain ⟨_, ran⟩ := ignore_ok finished
      exact submit_writes ran
  | cancel principal id correlation now appliedAt =>
      obtain ⟨_, ran⟩ := ignore_ok finished
      exact cancel_writes sound ran
  | claimDispatches principal max now =>
      obtain ⟨_, ran⟩ := ignore_ok finished
      exact jobs (claimDispatches_live ran)
  | handleDispatch principal event now appliedAt =>
      obtain ⟨_, ran⟩ := ignore_ok finished
      exact handleDispatch_writes ran
  | ack principal dispatch now appliedAt =>
      obtain ⟨_, ran⟩ := ignore_ok finished
      exact ack_writes ran
  | heartbeat principal state held now =>
      obtain ⟨_, ran⟩ := ignore_ok finished
      exact heartbeat_writes ran
  | reportEvents principal attempt events =>
      obtain ⟨_, ran⟩ := ignore_ok finished
      exact reportEvents_writes sound ran
  | markWorkersOffline before =>
      obtain ⟨_, ran⟩ := ignore_ok finished
      exact jobs (markWorkersOffline_live ran)
  | reclaimLease attempt pass now appliedAt =>
      obtain ⟨_, ran⟩ := ignore_ok finished
      exact reclaimLease_writes sound ran
  | reclaimStale reservation now appliedAt =>
      obtain ⟨_, ran⟩ := ignore_ok finished
      exact reclaimStale_writes sound ran
  | timeoutStop id now => exact timeoutStop_writes finished
  | repairLedger now =>
      obtain ⟨_, ran⟩ := ignore_ok finished
      cases (balanced.repairLedger now).symm.trans ran
      exact .nothing rfl
  | recomputeCapacity =>
      obtain ⟨_, ran⟩ := ignore_ok finished
      cases balanced.sound.recomputeCapacity.symm.trans ran
      exact .nothing rfl
  | pruneOutbox before =>
      exact .nothing (congrArg Books.jobs (Tx.pruneOutbox_quiet before _ _ _ finished))

/-! ### What the scheduler writes -/

/-- What an applied decision wrote of the jobs: nothing, a queued job that leaves the queue with its
time kept, or, for a delay, the time of its job. -/
inductive Enacted (decision : Decision) (jobs next : Table Job Job.id) : Prop
  | nothing (action : decision.action ≠ .delay) (same : next = jobs)
  | left {job moved : Job} (action : decision.action ≠ .delay) (found : jobs.find job.id = some job)
      (queued : job.state = .queued) (sets : jobs.Sets next (Job.saved job moved))
      (notBefore : moved.notBefore = job.notBefore) (leaves : moved.state ≠ .queued)
  | delayed {job moved : Job} (action : decision.action = .delay)
      (found : jobs.find job.id = some job) (own : job.id = decision.job)
      (queued : job.state = .queued) (sets : jobs.Sets next (Job.saved job moved))
      (notBefore : moved.notBefore = decision.delayUntil)

theorem place_heldTo {epoch : Int} {job : Job} {decision : Decision} {actor : Actor}
    {tick : String} {attempt : AttemptID} {reservation : ReservationID} {now appliedAt : Time}
    {db next : Db} {result : Unit}
    (finished : Service.place epoch job decision actor tick attempt reservation now appliedAt db =
      .ok (result, next)) : HeldTo job.id job.notBefore next := by
  refine (?_ : Keeps (fun _ => HeldTo job.id job.notBefore) _) db result next finished
  unfold Service.place
  refine keeps_rest fun _ => keeps_rest fun project => keeps_rest fun ⟨outstanding, settled⟩ =>
    keeps_rest fun pool => keeps_rest fun _ => keeps_rest fun _ => keeps_rest fun _ =>
    keeps_rest fun _ => keeps_rest fun _ => ?_
  intro db result next finished
  obtain ⟨_, _, applies, enqueues⟩ := bind_ok.mp finished
  unfold HeldTo
  rw [Tx.enqueue_quiet _ _ _ _ _ _ _ enqueues]
  exact apply_heldTo { job with attempt := job.attempt + 1 } _ _ _ _ _ _ _ _ applies

/-- A placement keeps the time. -/
theorem place_notBefore {epoch : Int} {job : Job} {decision : Decision} {actor : Actor}
    {tick : String} {attempt : AttemptID} {reservation : ReservationID} {now appliedAt : Time}
    {db next : Db} {result : Unit} (stored : db.jobs.find job.id = some job)
    (queued : job.state = .queued)
    (finished : Service.place epoch job decision actor tick attempt reservation now appliedAt db =
      .ok (result, next)) :
    ∃ moved, db.jobs.Sets next.jobs (Job.saved job moved) ∧ moved.notBefore = job.notBefore ∧
      moved.state ≠ .queued := by
  obtain ⟨placement, ofJob, _, _, _, _, wrote⟩ := place_spec stored queued finished
  subst ofJob
  have sets : db.jobs.Sets next.jobs (Job.saved placement.job placement.next) := by
    rw [wrote]
    exact placement.find_job
  refine ⟨placement.next, sets, ?_, by rw [placement.nextState]; nofun⟩
  exact (place_heldTo finished).moved sets

theorem enact_writes {epoch : Int} {tick : String} {decision : Decision} {attempt : AttemptID}
    {reservation : ReservationID} {now appliedAt : Time} {db next : Db} {result : Unit}
    (finished : Service.enact epoch tick decision attempt reservation now appliedAt db =
      .ok (result, next)) : Enacted decision db.jobs next.jobs := by
  unfold Service.enact at finished
  obtain ⟨job, _, locks, finished⟩ := bind_ok.mp finished
  obtain ⟨found, rfl⟩ := Tx.lockJob_spec locks
  have stored : db.jobs.find job.id = some job := by rwa [Table.find_key found]
  obtain ⟨_, _, isQueued, finished⟩ := bind_ok.mp finished
  obtain ⟨queued, rfl⟩ := require_ok.mp isQueued
  have recorded : ∀ {middle : Db} {done : Unit},
      Tx.insertDecision tick decision now middle = .ok (done, next) → next.jobs = middle.jobs :=
    fun ran => congrArg Books.jobs (Tx.insertDecision_quiet _ _ _ _ _ _ ran)
  cases action : decision.action <;> simp only [action] at finished
  case place =>
    obtain ⟨_, placed, places, records⟩ := bind_ok.mp finished
    obtain ⟨moved, sets, kept, leaves⟩ := place_notBefore stored queued places
    rw [recorded records]
    exact .left (by rw [action]; nofun) stored queued sets kept leaves
  case delay =>
    obtain ⟨_, saved, saves, records⟩ := bind_ok.mp finished
    have sets := (saveJob_sets saves stored).1
    rw [recorded records]
    exact .delayed action stored (Table.find_key found) queued sets rfl
  case wait =>
    refine .nothing (by rw [action]; nofun) ?_
    obtain ⟨last, _, reads, finished⟩ := bind_ok.mp finished
    cases Tx.reads_of_get _ _ _ _ reads
    split at finished
    · cases pure_ok.mp finished
      rfl
    · exact recorded finished
  case preempt =>
    refine .nothing (by rw [action]; nofun) ?_
    obtain ⟨_, _, reads, finished⟩ := bind_ok.mp finished
    cases get_ok.mp reads
    obtain ⟨victim, _, needs, finished⟩ := bind_ok.mp finished
    obtain ⟨_, rfl⟩ := need_ok.mp needs
    obtain ⟨_, stopped, stops, records⟩ := bind_ok.mp finished
    rw [recorded records]
    rcases requestStop_row stops with unchanged | ⟨_, _, _, jobs, _⟩
    · exact congrArg Books.jobs unchanged
    · exact jobs
  case expire =>
    obtain ⟨moved, expired, expires, records⟩ := bind_ok.mp finished
    obtain ⟨_, reached, _, _, _, _, _⟩ := apply_spec expires
    rw [recorded records]
    exact .left (by rw [action]; nofun) stored queued (apply_sets expires stored).1
      (apply_notBefore expires) (by rw [reached]; nofun)

end GpuBroker.ControlPlane
