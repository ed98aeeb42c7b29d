/-
This file says once what a committed call did to the jobs, the attempts and the
leases.

A move of the books keeps what the money and the counters need; the life of an
attempt needs more: which edge its job took, who acknowledged or closed it, on
what ground, and what became of its lease. A deed is that account, one case for
each thing a call can do, and whatever is true of an attempt over time is
proved of deeds.
-/
import GpuBroker.ControlPlane.Runs

namespace GpuBroker.ControlPlane

open Library Library.Transaction

/-! ### What a call can do -/

/-- The tables an attempt lives in. -/
structure Live where
  jobs : Table Job Job.id
  attempts : Table Attempt Attempt.id
  leases : Table Lease Lease.attempt

def Db.live (db : Db) : Live := { jobs := db.jobs, attempts := db.attempts, leases := db.leases }

theorem live_eq {db next : Db} (books : next.toBooks = db.toBooks)
    (leases : next.leases = db.leases) : next.live = db.live := by
  unfold Db.live
  rw [books, leases]

/-- The lease of an attempt goes. -/
def withoutLease (db : Live) (id : AttemptID) : Table Lease Lease.attempt :=
  db.leases.erase fun row => row.attempt = id

/-- The leases after a worker's renewal. -/
def Renewed (service : Service) (db next : Live) (worker : WorkerID) (ids : List AttemptID)
    (now : Time) : Prop :=
  ∀ id, next.leases.find id = (db.leases.find id).map fun row =>
    if row.worker = worker ∧ ids.contains row.attempt then
      { row with expiresAt := now + service.cfg.leaseTTL, renewedAt := now }
    else row

/-- The ground on which a call closes an attempt of a job. -/
inductive Ground (db : Live) (job : Job) (attempt : Attempt) : Call → Prop
  /-- Its own worker reported the end. -/
  | report {principal : Principal} {events : List (WorkerEvent × Service.EventReadings)}
      (own : attempt.worker = principal.worker) :
      Ground db job attempt (.request (.reportEvents principal attempt.id events))
  /-- The job was cancelled before any worker claimed it. -/
  | cancel {principal : Principal} {correlation : String} {now appliedAt : Time}
      (reserved : job.state = .reserved) :
      Ground db job attempt (.request (.cancel principal job.id correlation now appliedAt))
  /-- The lease had expired by the pass's reading. -/
  | expired {pass now appliedAt : Time} {lease : Lease}
      (held : db.leases.find attempt.id = some lease) (past : lease.expiresAt ≤ pass) :
      Ground db job attempt (.request (.reclaimLease attempt.id pass now appliedAt))
  /-- The job of the reservation was still reserved. -/
  | stale {reservation : Reservation} {now appliedAt : Time} {owner : Job}
      (ofAttempt : reservation.attempt = attempt.id)
      (found : db.jobs.find reservation.job = some owner) (reserved : owner.state = .reserved) :
      Ground db job attempt (.request (.reclaimStale reservation now appliedAt))

/-- What asks a worker to stop an attempt of a job. -/
inductive Asks (service : Service) (job : Job) : Call → StopKind → Prop
  | preempt {call : Call} : Asks service job call .preempt
  | timeout {now started : Time} (running : job.state = .running)
      (start : job.startedAt = some started)
      (concluded : now - started > job.maxRuntime + service.cfg.timeoutGrace) :
      Asks service job (.request (.timeoutStop job.id now)) .timeout

/-- What a call did to the jobs, the attempts and the leases. -/
inductive Deed (service : Service) (db next : Live) : Call → Prop
  | aside {call : Call} (same : next = db) : Deed service db next call
  | submitted {principal : Principal} {request : SubmitRequest} {correlation : String} {id : JobID}
      {now appliedAt : Time} {job : Job} (fresh : db.jobs.find job.id = none)
      (admitted : job.state = .queued ∨ job.state = .failed)
      (jobs : db.jobs.Sets next.jobs job) (attempts : next.attempts = db.attempts)
      (leases : next.leases = db.leases) :
      Deed service db next (.request (.submit principal request correlation id now appliedAt))
  /-- The job goes on without an attempt being touched. -/
  | moved {call : Call} {job moved : Job} (found : db.jobs.find job.id = some job)
      (number : moved.attempt = job.attempt)
      (edge : moved.state = job.state ∨ job.state.canTransition moved.state = true)
      (holding : moved.state.holdsCapacity = job.state.holdsCapacity)
      (target : moved.state = .queued ∨ moved.state = .expired ∨ moved.state = .cancelled ∨
        moved.state = .cancelRequested)
      (jobs : db.jobs.Sets next.jobs (Job.saved job moved))
      (attempts : next.attempts = db.attempts) (leases : next.leases = db.leases) :
      Deed service db next call
  | placed {epoch : Int} {tick : String} {decision : Decision} {id : AttemptID}
      {reservation : ReservationID} {now appliedAt : Time} {job moved : Job} {opened : Attempt}
      (found : db.jobs.find job.id = some job) (queued : job.state = .queued)
      (number : moved.attempt = job.attempt + 1)
      (state : moved.state = .reserved) (fresh : db.attempts.find opened.id = none)
      (ofJob : opened.job = job.id) (numbered : opened.number = job.attempt + 1)
      (unacked : opened.ackedAt = none) (unclosed : opened.outcome = none)
      (unasked : opened.stopRequested = none)
      (jobs : db.jobs.Sets next.jobs (Job.saved job moved))
      (attempts : db.attempts.Sets next.attempts opened) (leases : next.leases = db.leases) :
      Deed service db next (.applyDecision epoch tick decision id reservation now appliedAt)
  /-- A worker claimed the attempt and holds a lease on it. -/
  | claimed {principal : Principal} {event : OutboxEvent} {now appliedAt : Time} {job moved : Job}
      {attempt : Attempt} (found : db.jobs.find job.id = some job) (ofEvent : event.job = job.id)
      (reserved : job.state = .reserved) (number : moved.attempt = job.attempt)
      (state : moved.state = .dispatched)
      (attemptFound : db.attempts.find attempt.id = some attempt)
      (attemptOfEvent : event.attempt = attempt.id) (own : attempt.worker = principal.worker)
      (unclosed : attempt.outcome = none) (current : job.attempt = attempt.number)
      (jobs : db.jobs.Sets next.jobs (Job.saved job moved))
      (attempts : next.attempts = db.attempts)
      (leases : ∀ id, next.leases.find id =
        if id = attempt.id ∧ (db.leases.find id).all (fun row => row.worker = principal.worker) then
          some { attempt := attempt.id, worker := principal.worker
                 expiresAt := now + service.cfg.leaseTTL, renewedAt := now }
        else db.leases.find id) :
      Deed service db next (.request (.handleDispatch principal event now appliedAt))
  /-- The worker acknowledged the attempt and runs it. -/
  | started {principal : Principal} {dispatch : Service.Dispatch} {now appliedAt : Time}
      {job moved : Job} {attempt : Attempt} (found : db.jobs.find job.id = some job)
      (dispatched : job.state = .dispatched) (number : moved.attempt = job.attempt)
      (state : moved.state = .running)
      (start : moved.startedAt = job.startedAt.or (some now))
      (forJob : dispatch.job = job.id) (attemptFound : db.attempts.find attempt.id = some attempt)
      (forAttempt : dispatch.attempt = attempt.id) (own : attempt.worker = principal.worker)
      (ofJob : attempt.job = job.id) (unacked : attempt.ackedAt = none)
      (unclosed : attempt.outcome = none)
      (jobs : db.jobs.Sets next.jobs (Job.saved job moved))
      (attempts : db.attempts.Sets next.attempts { attempt with ackedAt := some now })
      (leases : Renewed service db next principal.worker [attempt.id] now) :
      Deed service db next (.request (.ack principal dispatch now appliedAt))
  /-- The worker acknowledged an attempt whose job is being cancelled. -/
  | noticed {principal : Principal} {dispatch : Service.Dispatch} {now appliedAt : Time}
      {job : Job} {attempt : Attempt} (found : db.jobs.find job.id = some job)
      (cancelling : job.state = .cancelRequested)
      (attemptFound : db.attempts.find attempt.id = some attempt)
      (ofJob : attempt.job = job.id) (unacked : attempt.ackedAt = none)
      (unclosed : attempt.outcome = none) (jobs : next.jobs = db.jobs)
      (attempts : db.attempts.Sets next.attempts { attempt with ackedAt := some now })
      (leases : next.leases = db.leases) :
      Deed service db next (.request (.ack principal dispatch now appliedAt))
  | renewed {principal : Principal} {state : WorkerState} {held : List AttemptID} {now : Time}
      (jobs : next.jobs = db.jobs) (attempts : next.attempts = db.attempts)
      (leases : Renewed service db next principal.worker held now) :
      Deed service db next (.request (.heartbeat principal state held now))
  /-- The worker of an open attempt is asked to stop it. -/
  | ordered {call : Call} {kind : StopKind} {job : Job} {attempt : Attempt}
      (found : db.jobs.find job.id = some job)
      (attemptFound : db.attempts.find attempt.id = some attempt) (ofJob : attempt.job = job.id)
      (unclosed : attempt.outcome = none) (asks : Asks service job call kind)
      (jobs : next.jobs = db.jobs)
      (attempts : db.attempts.Sets next.attempts { attempt with stopRequested := some kind })
      (leases : next.leases = db.leases) : Deed service db next call
  | closed {call : Call} {job moved : Job} {attempt ended : Attempt} {outcome : AttemptOutcome}
      {time : Time} (found : db.jobs.find job.id = some job)
      (number : moved.attempt = job.attempt)
      (edge : job.state.canTransition moved.state = true)
      (state : moved.state = jobStateForOutcome job outcome time)
      (attemptFound : db.attempts.find attempt.id = some attempt) (ofJob : attempt.job = job.id)
      (unclosed : attempt.outcome = none) (close : ended.outcome = some outcome)
      (ground : Ground db job attempt call)
      (jobs : db.jobs.Sets next.jobs (Job.saved job moved))
      (attempts : db.attempts.Sets next.attempts (Attempt.ended ended attempt))
      (leases : next.leases = withoutLease db attempt.id) : Deed service db next call
  /-- A lease that outlived its attempt is dropped. -/
  | dropped {call : Call} {attempt : Attempt}
      (attemptFound : db.attempts.find attempt.id = some attempt)
      (ended : attempt.outcome ≠ none) (jobs : next.jobs = db.jobs)
      (attempts : next.attempts = db.attempts) (leases : next.leases = withoutLease db attempt.id) :
      Deed service db next call

/-! ### Statements on one row -/

theorem saveJob_sets {job row : Job} {previous : Int} {db next : Db} {result : Unit}
    (finished : Tx.saveJob job previous db = .ok (result, next))
    (stored : db.jobs.find job.id = some row) :
    db.jobs.Sets next.jobs (Job.saved row job) ∧ next.attempts = db.attempts := by
  obtain ⟨_, _, _, wrote⟩ := Tx.saveJob_spec finished
  rw [wrote]
  exact ⟨Table.sets_modify stored (fun row => Job.saved row job) fun _ => rfl, rfl⟩

/-- A transition writes its job and leaves the attempts. -/
theorem apply_sets {job result row : Job} {target : JobState} {actor : Actor}
    {reason correlation : String} {time : Time} {db next : Db}
    (finished : Service.apply job target actor reason correlation time db = .ok (result, next))
    (stored : db.jobs.find job.id = some row) :
    db.jobs.Sets next.jobs (Job.saved row result) ∧ next.attempts = db.attempts := by
  obtain ⟨_, _, _, _, _, _, wrote⟩ := apply_spec finished
  rw [wrote]
  exact ⟨Table.sets_modify stored (fun row => Job.saved row result) fun _ => rfl, rfl⟩

/-- The job a transaction has locked moves along an edge that holds the same. -/
theorem locked_apply_deed {service : Service} {call : Call} {job result : Job} {target : JobState}
    {actor : Actor} {reason correlation : String} {time : Time} {db next : Db}
    (stored : db.jobs.find job.id = some job)
    (holding : target.holdsCapacity = job.state.holdsCapacity)
    (targets : target = .queued ∨ target = .expired ∨ target = .cancelled ∨
      target = .cancelRequested)
    (finished : Service.apply job target actor reason correlation time db = .ok (result, next)) :
    Deed service db.live next.live call := by
  obtain ⟨edge, reached, number, _, _, _, _⟩ := apply_spec finished
  obtain ⟨jobs, attempts⟩ := apply_sets finished stored
  exact .moved stored number (Or.inr (reached ▸ edge)) (reached ▸ holding) (reached ▸ targets) jobs
    attempts (apply_leases _ _ _ _ _ _ _ _ _ finished)

/-- A closing is a deed on its ground. -/
theorem closing_deed {service : Service} {call : Call} {job : Job} {outcome : AttemptOutcome}
    {time : Time} {db next : Db} (sound : Sound db.toBooks) {closing : Closing db.toBooks}
    (closed : Closed closing db.leases job outcome time next)
    (ground : Ground db.live job closing.attempt call) : Deed service db.live next.live call := by
  obtain ⟨ofJob, withOutcome, wrote, lease, edge, state⟩ := closed
  subst ofJob withOutcome
  obtain ⟨_, _, ⟨attempt, hasAttempt, owner, _, _⟩, _⟩ :=
    sound.paired _ _ closing.reservationFound
  cases closing.attemptFound.symm.trans hasAttempt
  have jobs : db.jobs.Sets next.jobs (Job.saved closing.job closing.next) := by
    rw [wrote]
    exact closing.find_job
  have attempts : db.attempts.Sets next.attempts (Attempt.ended closing.closed closing.attempt) := by
    rw [wrote]
    exact closing.find_attempt
  have close : closing.closed.outcome = some closing.outcome := rfl
  exact .closed closing.jobFound closing.nextAttempt edge state closing.attempt_stored
    (owner.trans closing.reservationJob) closing.unclosed close ground jobs attempts lease

/-! ### Submission and cancellation -/

theorem admission_state (job : Job) (cheapest : Option MicroUSD) (available : MicroUSD) :
    (Service.admission job cheapest available).1 = .queued ∨
      (Service.admission job cheapest available).1 = .failed := by
  unfold Service.admission
  cases cheapest with
  | none => exact Or.inr rfl
  | some cheapest => dsimp only; split_ifs <;> simp

theorem submit_deed {service : Service} {principal : Principal} {request : SubmitRequest}
    {correlation : String} {id : JobID} {now appliedAt : Time} {db next : Db}
    {result : Job × Option Fault}
    (finished : service.submit principal request correlation id now appliedAt db =
      .ok (result, next)) :
    Deed service db.live next.live
      (.request (.submit principal request correlation id now appliedAt)) := by
  unfold Service.submit at finished
  obtain ⟨_, _, isUser, finished⟩ := bind_ok.mp finished
  obtain ⟨_, rfl⟩ := require_ok.mp isUser
  obtain ⟨valid, _, validated, finished⟩ := bind_ok.mp finished
  obtain ⟨_, rfl⟩ := fallible_ok.mp validated
  simp only at finished
  obtain ⟨project, _, readProject, finished⟩ := bind_ok.mp finished
  obtain ⟨_, rfl⟩ := requestedProject_spec readProject
  obtain ⟨_, _, belowLimits, finished⟩ := bind_ok.mp finished
  cases checkQueue_reads service _ _ _ _ _ belowLimits
  obtain ⟨_, one, inserts, finished⟩ := bind_ok.mp finished
  obtain ⟨_, _, jobs, inserted, wroteJob⟩ := Tx.insertJob_spec inserts
  have keptLeases := Tx.insertJob_leases _ _ _ _ inserts
  obtain ⟨cheapest, _, readCheapest, finished⟩ := bind_ok.mp finished
  cases cheapestCost_reads _ _ _ _ readCheapest
  obtain ⟨spend, _, readSpend, finished⟩ := bind_ok.mp finished
  obtain ⟨_, rfl⟩ := Tx.projectSpend_spec readSpend
  obtain ⟨moved, two, applies, finished⟩ := bind_ok.mp finished
  cases pure_ok.mp finished
  have first := Table.sets_insert inserted
  have grown : one.jobs = jobs := by rw [wroteJob]
  rw [← grown] at first
  obtain ⟨_, reached, _, _, _, _, _⟩ := apply_spec applies
  obtain ⟨second, attempts⟩ := apply_sets applies first.find_self
  refine .submitted ?_ ?_ (first.trans second rfl) ?_ ?_
  · exact (Table.insert_eq_some inserted).1
  · show moved.state = _ ∨ moved.state = _
    rw [reached]
    exact admission_state _ _ _
  · show next.attempts = db.attempts
    rw [attempts, wroteJob]
  · show next.leases = db.leases
    rw [apply_leases _ _ _ _ _ _ _ _ _ applies, keptLeases]

theorem cancel_deed {service : Service} {principal : Principal} {id : JobID}
    {correlation : String} {now appliedAt : Time} {db next : Db} {result : Job}
    (sound : Sound db.toBooks)
    (finished : service.cancel principal id correlation now appliedAt db = .ok (result, next)) :
    Deed service db.live next.live (.request (.cancel principal id correlation now appliedAt)) := by
  unfold Service.cancel at finished
  obtain ⟨_, _, isUser, finished⟩ := bind_ok.mp finished
  obtain ⟨_, rfl⟩ := require_ok.mp isUser
  obtain ⟨_, _, owned, finished⟩ := bind_ok.mp finished
  cases Tx.getJob_reads _ _ _ _ _ owned
  obtain ⟨job, _, locks, finished⟩ := bind_ok.mp finished
  obtain ⟨found, rfl⟩ := Tx.lockJob_spec locks
  have stored : db.jobs.find job.id = some job := by rwa [Table.find_key found]
  cases state : job.state <;> simp only [state] at finished
  case submitted | queued =>
    refine locked_apply_deed stored ?_ (Or.inr (Or.inr (Or.inl rfl))) finished
    rw [state]
    rfl
  case reserved =>
    obtain ⟨closing, closed⟩ := closeAttempt_closing stored finished
    refine closing_deed sound closed ?_
    rw [← show job.id = id from Table.find_key found]
    exact .cancel state
  case dispatched | running =>
    refine locked_apply_deed stored ?_ (Or.inr (Or.inr (Or.inr rfl))) finished
    rw [state]
    rfl
  all_goals
    cases pure_ok.mp finished
    exact .aside rfl

/-! ### The scheduler -/

/-- The row an order to stop is written on, when it is written. -/
theorem requestStop_row {id : AttemptID} {kind : StopKind} {db next : Db} {result : Unit}
    (finished : Tx.requestStop id kind db = .ok (result, next)) :
    next.toBooks = db.toBooks ∨
      ∃ attempt, db.attempts.find id = some attempt ∧ attempt.outcome = none ∧
        next.jobs = db.jobs ∧
        db.attempts.Sets next.attempts { attempt with stopRequested := some kind } := by
  rcases Tx.requestStop_spec finished with unchanged | ⟨⟨attempt, found, unclosed⟩, wrote⟩
  · exact Or.inl unchanged
  · refine Or.inr ⟨attempt, found, unclosed, by rw [wrote], ?_⟩
    rw [wrote]
    exact Table.sets_modify found (fun row => { row with stopRequested := some kind }) fun _ => rfl

/-- The attempt of an unreleased reservation is of the reservation's job. -/
theorem Sound.attempt_owner {books : Books} (sound : Sound books) {row : Reservation}
    {attempt : Attempt} (held : books.reservations.find row.id = some row)
    (found : books.attempts.find row.attempt = some attempt) : attempt.job = row.job := by
  obtain ⟨_, _, ⟨other, hasOther, owner, _, _⟩, _⟩ := sound.paired _ _ held
  cases found.symm.trans hasOther
  exact owner

/-- Asking the worker of a reservation to stop is a deed. -/
theorem requestStop_deed {service : Service} {call : Call} {kind : StopKind} {row : Reservation}
    {job : Job} {db next : Db} {result : Unit} (sound : Sound db.toBooks)
    (held : db.reservations.find row.id = some row) (found : db.jobs.find job.id = some job)
    (ofJob : row.job = job.id) (asks : Asks service job call kind)
    (finished : Tx.requestStop row.attempt kind db = .ok (result, next)) :
    Deed service db.live next.live call := by
  have leases := Tx.requestStop_leases _ _ _ _ _ finished
  rcases requestStop_row finished with unchanged | ⟨attempt, hasAttempt, unclosed, jobs, attempts⟩
  · exact .aside (live_eq unchanged leases)
  · have owner : attempt.job = job.id := (sound.attempt_owner held hasAttempt).trans ofJob
    have stored : db.attempts.find attempt.id = some attempt := by rwa [Table.find_key hasAttempt]
    exact .ordered found stored owner unclosed asks jobs attempts leases

theorem place_leases (epoch : Int) (job : Job) (decision : Decision) (actor : Actor)
    (tick : String) (attempt : AttemptID) (reservation : ReservationID) (now appliedAt : Time) :
    KeepsLeases (Service.place epoch job decision actor tick attempt reservation now appliedAt) := by
  unfold Service.place
  refine keepsLeases_bind (keepsLeases_require _ _) fun _ => ?_
  refine keepsLeases_bind (fun _ _ _ ran => by rw [(Tx.lockProject_spec ran).2]) fun project => ?_
  refine keepsLeases_bind (fun _ _ _ ran => by rw [(Tx.projectSpend_spec ran).2]) fun spend => ?_
  refine keepsLeases_bind (fun _ _ _ ran => by rw [(Tx.getPool_spec ran).2]) fun pool => ?_
  refine keepsLeases_bind (keepsLeases_require _ _) fun _ => ?_
  refine keepsLeases_bind (Tx.reserveCapacity_leases _ _) fun _ => ?_
  refine keepsLeases_bind (Tx.insertAttempt_leases _) fun _ => ?_
  refine keepsLeases_bind (Tx.insertReservation_leases _) fun _ => ?_
  refine keepsLeases_bind (keepsLeases_whenever _ (Tx.insertLedger_leases _)) fun _ => ?_
  exact keepsLeases_bind (apply_leases _ _ _ _ _ _) fun _ => Tx.enqueue_leases _ _ _ _

/-- Enacting a decision is a deed of the scheduler. -/
theorem enact_deed {service : Service} {epoch : Int} {tick : String} {decision : Decision}
    {attempt : AttemptID} {reservation : ReservationID} {now appliedAt : Time} {db next : Db}
    {result : Unit} (sound : Sound db.toBooks)
    (finished : Service.enact epoch tick decision attempt reservation now appliedAt db =
      .ok (result, next)) :
    Deed service db.live next.live
      (.applyDecision epoch tick decision attempt reservation now appliedAt) := by
  unfold Service.enact at finished
  obtain ⟨job, _, locks, finished⟩ := bind_ok.mp finished
  obtain ⟨found, rfl⟩ := Tx.lockJob_spec locks
  have stored : db.jobs.find job.id = some job := by rwa [Table.find_key found]
  obtain ⟨_, _, isQueued, finished⟩ := bind_ok.mp finished
  obtain ⟨queued, rfl⟩ := require_ok.mp isQueued
  -- recording the decision touches none of the three tables
  have recorded : ∀ {middle : Db} {done : Unit},
      Tx.insertDecision tick decision now middle = .ok (done, next) → next.live = middle.live :=
    fun ran => live_eq (Tx.insertDecision_quiet _ _ _ _ _ _ ran)
      (Tx.insertDecision_leases _ _ _ _ _ _ ran)
  cases action : decision.action <;> simp only [action] at finished
  case place =>
    obtain ⟨_, placed, places, records⟩ := bind_ok.mp finished
    obtain ⟨placement, ofJob, _, _, _, _, wrote⟩ := place_spec stored queued places
    subst ofJob
    have jobs : db.jobs.Sets placed.jobs (Job.saved placement.job placement.next) := by
      rw [wrote]
      exact placement.find_job
    have attempts : db.attempts.Sets placed.attempts placement.opened := by
      rw [wrote]
      exact placement.find_attempt
    have fresh : db.attempts.find placement.opened.id = none := placement.fresh_attempt
    rw [recorded records]
    exact .placed stored queued placement.nextAttempt placement.nextState fresh rfl rfl rfl rfl rfl
      jobs attempts (place_leases _ _ _ _ _ _ _ _ _ _ _ _ places)
  case delay =>
    obtain ⟨_, saved, saves, records⟩ := bind_ok.mp finished
    obtain ⟨jobs, attempts⟩ := saveJob_sets saves stored
    rw [recorded records]
    refine .moved stored ?_ (Or.inl ?_) ?_ (Or.inl ?_) jobs attempts
      (Tx.saveJob_leases _ _ _ _ _ saves)
    all_goals first | rfl | exact queued
  case wait =>
    obtain ⟨last, _, reads, finished⟩ := bind_ok.mp finished
    cases Tx.reads_of_get _ _ _ _ reads
    split at finished
    · cases pure_ok.mp finished
      exact .aside rfl
    · exact .aside (recorded finished)
  case preempt =>
    obtain ⟨_, _, reads, finished⟩ := bind_ok.mp finished
    cases get_ok.mp reads
    obtain ⟨victim, _, needs, finished⟩ := bind_ok.mp finished
    obtain ⟨selected, rfl⟩ := need_ok.mp needs
    obtain ⟨_, stopped, stops, records⟩ := bind_ok.mp finished
    obtain ⟨present, _⟩ := Table.select_mem selected
    obtain ⟨_, ⟨owner, hasOwner, _⟩, _, _⟩ := sound.paired _ _ present
    have ownerFound : db.jobs.find owner.id = some owner := by rwa [Table.find_key hasOwner]
    rw [recorded records]
    exact requestStop_deed sound present ownerFound (Table.find_key hasOwner).symm .preempt stops
  case expire =>
    obtain ⟨_, expired, expires, records⟩ := bind_ok.mp finished
    rw [recorded records]
    refine locked_apply_deed stored ?_ (Or.inr (Or.inl rfl)) expires
    rw [queued]
    rfl

/-! ### The worker protocol -/

theorem handleDispatch_deed {service : Service} {principal : Principal} {event : OutboxEvent}
    {now appliedAt : Time} {db next : Db} {result : Option Service.Dispatch}
    (finished : service.handleDispatch principal event now appliedAt db = .ok (result, next)) :
    Deed service db.live next.live
      (.request (.handleDispatch principal event now appliedAt)) := by
  unfold Service.handleDispatch at finished
  obtain ⟨job, _, locks, finished⟩ := bind_ok.mp finished
  obtain ⟨found, rfl⟩ := Tx.lockJob_spec locks
  obtain ⟨attempt, _, reads, finished⟩ := bind_ok.mp finished
  obtain ⟨attemptFound, rfl⟩ := Tx.getAttempt_spec reads
  obtain ⟨_, marked, marks, finished⟩ := bind_ok.mp finished
  have same : marked.live = db.live :=
    live_eq (Tx.markDelivered_quiet _ _ _ _ _ marks) (Tx.markDelivered_leases _ _ _ _ _ marks)
  rw [← same]
  have stored : marked.live.jobs.find job.id = some job := by
    rw [same, Table.find_key found]
    exact found
  have attemptStored : marked.live.attempts.find attempt.id = some attempt := by
    rw [same, Table.find_key attemptFound]
    exact attemptFound
  split at finished
  · cases pure_ok.mp finished
    exact .aside rfl
  next valid =>
  obtain ⟨own, unclosed, current⟩ : attempt.worker = principal.worker ∧ attempt.outcome = none ∧
      job.attempt = attempt.number := by
    simpa [not_or] using valid
  cases state : job.state <;> simp only [state] at finished
  case reserved =>
    obtain ⟨_, leased, puts, finished⟩ := bind_ok.mp finished
    obtain ⟨moved, claimed, applies, finished⟩ := bind_ok.mp finished
    cases pure_ok.mp finished
    have books := Tx.putLease_quiet _ _ _ _ puts
    have leases := Tx.putLease_leases puts
    have leasedStored : leased.jobs.find job.id = some job := by
      rw [books]
      exact stored
    obtain ⟨_, reached, number, _, _, _, _⟩ := apply_spec applies
    obtain ⟨jobs, attempts⟩ := apply_sets applies leasedStored
    rw [books] at jobs attempts
    refine .claimed stored (Table.find_key found).symm state number reached attemptStored
      (Table.find_key attemptFound).symm own unclosed current jobs attempts fun id => ?_
    show next.leases.find id = _
    rw [apply_leases _ _ _ _ _ _ _ _ _ applies, leases id]
    rfl
  case dispatched =>
    obtain ⟨lease, _, readLease, finished⟩ := bind_ok.mp finished
    obtain ⟨_, rfl⟩ := Tx.getLease_spec readLease
    obtain ⟨_, _, needs, finished⟩ := bind_ok.mp finished
    obtain ⟨_, rfl⟩ := need_ok.mp needs
    cases pure_ok.mp finished
    exact .aside rfl
  all_goals
    cases pure_ok.mp finished
    exact .aside rfl

/-- An acknowledgement that was taken found the attempt open and not acknowledged. -/
theorem ackAttempt_row {id : AttemptID} {time : Time} {db next : Db}
    (finished : Tx.ackAttempt id time db = .ok (true, next)) :
    ∃ row, db.attempts.find id = some row ∧ row.ackedAt = none ∧ row.outcome = none ∧
      next.jobs = db.jobs ∧ db.attempts.Sets next.attempts { row with ackedAt := some time } := by
  obtain ⟨wrote, _⟩ := Tx.ackAttempt_spec finished
  simp only [Tx.ackAttempt, bind_ok, get_ok, set_ok, pure_ok] at finished
  obtain ⟨_, _, pair, _, _, _, final⟩ := finished
  cases pair
  obtain ⟨row, found, unset⟩ := (Option.any_eq_true _ _).mp (Prod.mk.inj final).1.symm
  simp only [Attempt.open, Bool.and_eq_true, Option.isNone_iff_eq_none] at unset
  rw [wrote]
  exact ⟨row, found, unset.1, unset.2, rfl,
    Table.sets_modify found (fun row => { row with ackedAt := some time }) fun _ => rfl⟩

/-- What an acknowledgement went by: its caller is the worker of the dispatch and of the attempt,
its code verifies, and its digest is that of the spec stored for the job. -/
structure Vouched (service : Service) (principal : Principal) (dispatch : Service.Dispatch)
    (db : Db) (job : Job) (attempt : Attempt) : Prop where
  jobFound : db.jobs.find dispatch.job = some job
  attemptFound : db.attempts.find dispatch.attempt = some attempt
  addressee : dispatch.worker = principal.worker
  own : attempt.worker = principal.worker
  ofJob : attempt.job = job.id
  signed : service.verify dispatch.attempt dispatch.worker dispatch.leaseExpires
    dispatch.specDigest dispatch.mac = true
  digest : service.specDigest job.image job.command job.requirements.gpus
    (job.maxRuntime / second) = dispatch.specDigest
  unacked : attempt.ackedAt = none
  unclosed : attempt.outcome = none

namespace Vouched

variable {service : Service} {principal : Principal} {dispatch : Service.Dispatch} {db : Db}
  {job : Job} {attempt : Attempt}

theorem job_stored (vouched : Vouched service principal dispatch db job attempt) :
    db.jobs.find job.id = some job := by
  rw [Table.find_key vouched.jobFound]
  exact vouched.jobFound

theorem attempt_stored (vouched : Vouched service principal dispatch db job attempt) :
    db.attempts.find attempt.id = some attempt := by
  rw [Table.find_key vouched.attemptFound]
  exact vouched.attemptFound

end Vouched

/-- An acknowledgement that went through was vouched for, and marked its attempt; it was told to
cancel, or it found the job dispatched and started it. -/
theorem ack_spec {service : Service} {principal : Principal} {dispatch : Service.Dispatch}
    {now appliedAt : Time} {db next : Db} {result : Service.AckResult}
    (finished : service.ack principal dispatch now appliedAt db = .ok (result, next)) :
    ∃ job attempt marked, Vouched service principal dispatch db job attempt ∧
      marked.jobs = db.jobs ∧ marked.leases = db.leases ∧
      db.attempts.Sets marked.attempts { attempt with ackedAt := some now } ∧
      (result = .cancel ∧ job.state = .cancelRequested ∧ next = marked ∨
        result = .run ∧ job.state = .dispatched ∧ ∃ renewed renewing moved,
          Tx.renewLeases principal.worker [attempt.id] now (now + service.cfg.leaseTTL) marked =
            .ok (renewing, renewed) ∧
          Service.apply (job.started now) .running principal.actor
            "worker acknowledged and started" attempt.id appliedAt renewed = .ok (moved, next)) := by
  unfold Service.ack at finished
  obtain ⟨_, _, owned, finished⟩ := bind_ok.mp finished
  obtain ⟨⟨_, addressee⟩, rfl⟩ := require_ok.mp owned
  obtain ⟨_, _, signs, finished⟩ := bind_ok.mp finished
  obtain ⟨signed, rfl⟩ := require_ok.mp signs
  obtain ⟨job, _, locks, finished⟩ := bind_ok.mp finished
  obtain ⟨jobFound, rfl⟩ := Tx.lockJob_spec locks
  obtain ⟨attempt, _, reads, finished⟩ := bind_ok.mp finished
  obtain ⟨attemptFound, rfl⟩ := Tx.getAttempt_spec reads
  obtain ⟨_, _, ours, finished⟩ := bind_ok.mp finished
  obtain ⟨⟨own, ofJob⟩, rfl⟩ := require_ok.mp ours
  obtain ⟨_, _, hashes, finished⟩ := bind_ok.mp finished
  obtain ⟨digest, rfl⟩ := require_ok.mp hashes
  obtain ⟨worker, _, readWorker, finished⟩ := bind_ok.mp finished
  cases Tx.getWorker_reads _ _ _ _ readWorker
  obtain ⟨_, _, capable, finished⟩ := bind_ok.mp finished
  obtain ⟨_, rfl⟩ := require_ok.mp capable
  obtain ⟨acked, marked, acks, finished⟩ := bind_ok.mp finished
  obtain ⟨_, _, first, finished⟩ := bind_ok.mp finished
  obtain ⟨rfl, rfl⟩ := require_ok.mp first
  obtain ⟨row, hasRow, unacked, unclosed, jobs, attempts⟩ := ackAttempt_row acks
  rw [Table.find_key attemptFound] at hasRow
  cases attemptFound.symm.trans hasRow
  refine ⟨job, attempt, marked,
    ⟨jobFound, attemptFound, addressee, own, ofJob, signed, digest, unacked, unclosed⟩, jobs,
    Tx.ackAttempt_leases _ _ _ _ _ acks, attempts, ?_⟩
  cases state : job.state <;> simp only [state] at finished
  case cancelRequested =>
    cases pure_ok.mp finished
    exact Or.inl ⟨rfl, rfl, rfl⟩
  case dispatched =>
    obtain ⟨renewing, renewed, renews, finished⟩ := bind_ok.mp finished
    obtain ⟨moved, _, applies, finished⟩ := bind_ok.mp finished
    cases pure_ok.mp finished
    exact Or.inr ⟨rfl, rfl, renewed, renewing, moved, renews, applies⟩
  all_goals exact absurd finished throw_ok

theorem ack_deed {service : Service} {principal : Principal} {dispatch : Service.Dispatch}
    {now appliedAt : Time} {db next : Db} {result : Service.AckResult}
    (finished : service.ack principal dispatch now appliedAt db = .ok (result, next)) :
    Deed service db.live next.live (.request (.ack principal dispatch now appliedAt)) := by
  obtain ⟨job, attempt, marked, vouched, jobs, keptLeases, attempts, ⟨_, state, rfl⟩ |
    ⟨_, state, renewed, _, moved, renews, applies⟩⟩ := ack_spec finished
  · exact .noticed vouched.job_stored state vouched.attempt_stored vouched.ofJob vouched.unacked
      vouched.unclosed jobs attempts keptLeases
  · have books := Tx.renewLeases_quiet _ _ _ _ _ _ _ renews
    obtain ⟨leases, _⟩ := Tx.renewLeases_leases renews
    have startedStored : renewed.jobs.find (job.started now).id = some job := by
      rw [books, jobs]
      exact vouched.job_stored
    obtain ⟨_, reached, number, _, _, _, _⟩ := apply_spec applies
    have start := apply_started applies
    obtain ⟨movedJobs, movedAttempts⟩ := apply_sets applies startedStored
    rw [books] at movedJobs movedAttempts
    rw [jobs] at movedJobs
    refine .started vouched.job_stored state number reached start
      (Table.find_key vouched.jobFound).symm vouched.attempt_stored
      (Table.find_key vouched.attemptFound).symm vouched.own vouched.ofJob vouched.unacked
      vouched.unclosed movedJobs ?_ fun id => ?_
    · show db.attempts.Sets next.attempts _
      rw [movedAttempts]
      exact attempts
    · show next.leases.find id = _
      rw [apply_leases _ _ _ _ _ _ _ _ _ applies, leases id, keptLeases]
      rfl

theorem heartbeat_deed {service : Service} {principal : Principal} {state : WorkerState}
    {held : List AttemptID} {now : Time} {db next : Db} {result : Service.HeartbeatResult}
    (finished : service.heartbeat principal state held now db = .ok (result, next)) :
    Deed service db.live next.live (.request (.heartbeat principal state held now)) := by
  unfold Service.heartbeat at finished
  obtain ⟨_, _, isWorker, finished⟩ := bind_ok.mp finished
  obtain ⟨_, rfl⟩ := require_ok.mp isWorker
  obtain ⟨_, _, reported, finished⟩ := bind_ok.mp finished
  obtain ⟨_, rfl⟩ := require_ok.mp reported
  obtain ⟨_, _, few, finished⟩ := bind_ok.mp finished
  obtain ⟨_, rfl⟩ := require_ok.mp few
  obtain ⟨_, touched, touches, finished⟩ := bind_ok.mp finished
  obtain ⟨_, renewed, renews, finished⟩ := bind_ok.mp finished
  obtain ⟨_, _, reads, finished⟩ := bind_ok.mp finished
  cases get_ok.mp reads
  cases pure_ok.mp finished
  have books := Tx.renewLeases_quiet _ _ _ _ _ _ _ renews
  have wroteWorker := Tx.touchWorker_spec touches
  refine .renewed ?_ ?_ fun id => ?_
  · show next.jobs = db.jobs
    rw [books, wroteWorker]
  · show next.attempts = db.attempts
    rw [books, wroteWorker]
  · show next.leases.find id = _
    rw [(Tx.renewLeases_leases renews).1 id, Tx.touchWorker_leases _ _ _ _ _ _ touches]
    rfl

/-- An open attempt has the unreleased reservation of its job. -/
theorem Sound.open_reserved {books : Books} (sound : Sound books) {id : AttemptID} {row : Attempt}
    (found : books.attempts.find id = some row) (unclosed : row.outcome = none) :
    ∃ reservation held, books.reservations.find reservation = some held ∧ held.attempt = id ∧
      held.releasedAt = none ∧ held.job = row.job := by
  obtain ⟨reservation, held, hasReservation, ofAttempt⟩ := sound.covered id row found
  obtain ⟨_, _, ⟨attempt, hasAttempt, owner, _, ends⟩, _⟩ := sound.paired _ _ hasReservation
  rw [ofAttempt] at hasAttempt
  cases found.symm.trans hasAttempt
  exact ⟨reservation, held, hasReservation, ofAttempt, ends.mp unclosed, owner.symm⟩

/-- A job has at most one open attempt. -/
theorem Sound.open_single {books : Books} (sound : Sound books) {one two : AttemptID}
    {row other : Attempt} (found : books.attempts.find one = some row)
    (otherFound : books.attempts.find two = some other) (unclosed : row.outcome = none)
    (otherUnclosed : other.outcome = none) (sameJob : row.job = other.job) : row = other := by
  obtain ⟨first, held, hasHeld, ofOne, unreleased, ofJob⟩ := sound.open_reserved found unclosed
  obtain ⟨second, kept, hasKept, ofTwo, alsoUnreleased, alsoOfJob⟩ :=
    sound.open_reserved otherFound otherUnclosed
  have same : first = second := sound.exclusive _ _ _ _ hasHeld hasKept unreleased alsoUnreleased
    (by rw [ofJob, alsoOfJob, sameJob])
  rw [same] at hasHeld
  cases hasHeld.symm.trans hasKept
  rw [← ofOne, ofTwo] at found
  exact Option.some.inj (found.symm.trans otherFound)

/-- An open attempt of a closing's job is the one it closes. -/
theorem Sound.closing_attempt {books : Books} (sound : Sound books) (closing : Closing books)
    {id : AttemptID} {row : Attempt} (found : books.attempts.find id = some row)
    (unclosed : row.outcome = none) (ofJob : row.job = closing.job.id) : closing.attempt = row := by
  have owner := sound.attempt_owner closing.reservationFound closing.attemptFound
  refine sound.open_single closing.attempt_stored found closing.unclosed unclosed ?_
  rw [owner, closing.reservationJob, ofJob]

/-- Once a report knows the outcome it leaves the leases alone. -/
theorem reportLoop_leases {service : Service} {principal : Principal} {job : Job}
    {attempt : AttemptID} {outcome : AttemptOutcome}
    (events : List (WorkerEvent × Service.EventReadings)) :
    ∀ final, KeepsLeases
      (service.reportLoop principal job attempt events (some outcome) final) := by
  induction events with
  | nil => exact fun final => keepsLeases_pure final
  | cons head rest inductionHypothesis =>
      intro final
      unfold Service.reportLoop
      refine keepsLeases_bind (Tx.insertAttemptEvent_leases _) fun _ => ?_
      split
      · exact inductionHypothesis final
      · exact inductionHypothesis (some outcome)

/-- A report of an open attempt leaves the three tables alone or closes the job's attempt. -/
theorem reportLoop_closes {service : Service} {principal : Principal} {job : Job}
    {attempt : AttemptID} :
    ∀ {events : List (WorkerEvent × Service.EventReadings)} {final result : Option AttemptOutcome}
      {db next : Db}, db.jobs.find job.id = some job →
      service.reportLoop principal job attempt events none final db = .ok (result, next) →
        next.live = db.live ∨ ∃ (closing : Closing db.toBooks) (outcome : AttemptOutcome)
          (time : Time), Closed closing db.leases job outcome time next := by
  intro events
  induction events with
  | nil =>
      intro final result db next _ finished
      cases pure_ok.mp finished
      exact Or.inl rfl
  | cons head rest inductionHypothesis =>
      intro final result db next found finished
      obtain ⟨event, readings⟩ := head
      unfold Service.reportLoop at finished
      obtain ⟨_, stored, stores, finished⟩ := bind_ok.mp finished
      have books := Tx.insertAttemptEvent_quiet _ _ _ _ stores
      have leases := Tx.insertAttemptEvent_leases _ _ _ _ stores
      rw [← live_eq books leases, ← leases]
      rw [← books] at found ⊢
      by_cases terminal : event.kind = some .exit
      · rw [if_neg (not_not.mpr terminal)] at finished
        obtain ⟨outcome, _, needs, finished⟩ := bind_ok.mp finished
        obtain ⟨_, rfl⟩ := need_ok.mp needs
        obtain ⟨_, _, acknowledged, finished⟩ := bind_ok.mp finished
        obtain ⟨_, rfl⟩ := require_ok.mp acknowledged
        obtain ⟨_, middle, closes, finished⟩ := bind_ok.mp finished
        obtain ⟨closing, closed⟩ := closeAttempt_closing found closes
        refine Or.inr ⟨closing, outcome, readings.now, { closed with wrote := ?_, lease := ?_ }⟩
        · rw [(reportLoop_closed finished).1, closed.wrote]
        · rw [reportLoop_leases rest _ _ _ _ finished, closed.lease]
      · rw [if_pos terminal] at finished
        exact inductionHypothesis found finished

theorem reportEvents_deed {service : Service} {principal : Principal} {attempt : AttemptID}
    {events : List (WorkerEvent × Service.EventReadings)} {db next : Db}
    {result : Option AttemptOutcome} (sound : Sound db.toBooks)
    (finished : service.reportEvents principal attempt events db = .ok (result, next)) :
    Deed service db.live next.live (.request (.reportEvents principal attempt events)) := by
  unfold Service.reportEvents at finished
  obtain ⟨_, _, isWorker, finished⟩ := bind_ok.mp finished
  obtain ⟨_, rfl⟩ := require_ok.mp isWorker
  obtain ⟨_, _, bounded, finished⟩ := bind_ok.mp finished
  obtain ⟨_, rfl⟩ := require_ok.mp bounded
  obtain ⟨_, _, shaped, finished⟩ := bind_ok.mp finished
  obtain ⟨_, rfl⟩ := require_ok.mp shaped
  obtain ⟨_, _, outcomes, finished⟩ := bind_ok.mp finished
  obtain ⟨_, rfl⟩ := require_ok.mp outcomes
  obtain ⟨row, _, reads, finished⟩ := bind_ok.mp finished
  obtain ⟨found, rfl⟩ := Tx.getAttempt_spec reads
  obtain ⟨_, _, ours, finished⟩ := bind_ok.mp finished
  obtain ⟨own, rfl⟩ := require_ok.mp ours
  obtain ⟨job, _, locks, finished⟩ := bind_ok.mp finished
  obtain ⟨jobFound, rfl⟩ := Tx.lockJob_spec locks
  obtain ⟨again, _, rereads, finished⟩ := bind_ok.mp finished
  obtain ⟨foundAgain, rfl⟩ := Tx.getAttempt_spec rereads
  cases found.symm.trans foundAgain
  cases outcome : row.outcome with
  | some known =>
      rw [outcome] at finished
      exact .aside (live_eq (reportLoop_closed finished).1 (reportLoop_leases _ _ _ _ _ finished))
  | none =>
      rw [outcome] at finished
      have key : job.id = row.job := Table.find_key jobFound
      rcases reportLoop_closes (key ▸ jobFound) finished with kept | ⟨closing, _, _, closed⟩
      · exact .aside kept
      · have ofJob : row.job = closing.job.id := by rw [closed.ofJob, key]
        have same : closing.attempt = row := sound.closing_attempt closing found outcome ofJob
        refine closing_deed sound closed ?_
        rw [same, ← show row.id = attempt from Table.find_key found]
        exact .report own

/-! ### Reconciliation -/

/-- A reclaim closes its attempt when its check says so, drops a stray lease, or does nothing. -/
theorem reclaim_deed {service : Service} {call : Call} {attempt : AttemptID} {check : Tx Bool}
    {reason : String} {now appliedAt : Time} {db next : Db} {result : Bool}
    (sound : Sound db.toBooks) (reads : Tx.Reads check)
    (ground : ∀ job row, row.id = attempt → check db = .ok (true, db) →
      Ground db.live job row call)
    (finished : service.reclaim attempt check reason now appliedAt db = .ok (result, next)) :
    Deed service db.live next.live call := by
  unfold Service.reclaim at finished
  obtain ⟨row, _, readRow, finished⟩ := bind_ok.mp finished
  obtain ⟨found, rfl⟩ := Tx.getAttempt_spec readRow
  obtain ⟨job, _, locks, finished⟩ := bind_ok.mp finished
  obtain ⟨jobFound, rfl⟩ := Tx.lockJob_spec locks
  obtain ⟨again, _, rereads, finished⟩ := bind_ok.mp finished
  obtain ⟨foundAgain, rfl⟩ := Tx.getAttempt_spec rereads
  cases found.symm.trans foundAgain
  have rowKey : row.id = attempt := Table.find_key found
  split at finished
  · next ended =>
    obtain ⟨_, dropped, drops, finished⟩ := bind_ok.mp finished
    cases pure_ok.mp finished
    have books := Tx.deleteLease_quiet _ _ _ _ drops
    refine .dropped (rowKey ▸ found) (Option.isSome_iff_ne_none.mp ended) ?_ ?_ ?_
    · show next.jobs = db.jobs
      rw [books]
    · show next.attempts = db.attempts
      rw [books]
    · rw [rowKey]
      exact Tx.deleteLease_leases drops
  · next unended =>
    obtain ⟨still, _, checks, finished⟩ := bind_ok.mp finished
    cases reads _ _ _ checks
    split at finished
    · next holds =>
      subst holds
      obtain ⟨_, middle, closes, finished⟩ := bind_ok.mp finished
      cases pure_ok.mp finished
      have key : job.id = row.job := Table.find_key jobFound
      obtain ⟨closing, closed⟩ := closeAttempt_closing (key ▸ jobFound) closes
      have unclosed : row.outcome = none := by simpa using unended
      have ofJob : row.job = closing.job.id := by rw [closed.ofJob, key]
      have same : closing.attempt = row := sound.closing_attempt closing found unclosed ofJob
      exact closing_deed sound closed (same ▸ ground job row rowKey checks)
    · cases pure_ok.mp finished
      exact .aside rfl

theorem reclaimLease_deed {service : Service} {attempt : AttemptID} {pass now appliedAt : Time}
    {db next : Db} {result : Bool} (sound : Sound db.toBooks)
    (finished : service.reclaimLease attempt pass now appliedAt db = .ok (result, next)) :
    Deed service db.live next.live (.request (.reclaimLease attempt pass now appliedAt)) := by
  refine reclaim_deed sound ?_ ?_ finished
  · intro db result next finished
    obtain ⟨_, _, reads, finished⟩ := bind_ok.mp finished
    obtain ⟨_, rfl⟩ := Tx.getLease_spec reads
    cases pure_ok.mp finished
    rfl
  · rintro job row rfl checked
    obtain ⟨held, _, reads, checked⟩ := bind_ok.mp checked
    obtain ⟨rfl, rfl⟩ := Tx.getLease_spec reads
    have past := (Prod.mk.inj (pure_ok.mp checked)).1.symm
    obtain ⟨lease, found, expired⟩ := (Option.any_eq_true _ _).mp past
    exact .expired found (not_lt.mp (of_decide_eq_true expired))

theorem reclaimStale_deed {service : Service} {reservation : Reservation} {now appliedAt : Time}
    {db next : Db} {result : Bool} (sound : Sound db.toBooks)
    (finished : service.reclaimStale reservation now appliedAt db = .ok (result, next)) :
    Deed service db.live next.live (.request (.reclaimStale reservation now appliedAt)) := by
  refine reclaim_deed sound ?_ ?_ finished
  · intro db result next finished
    obtain ⟨_, _, locks, finished⟩ := bind_ok.mp finished
    obtain ⟨_, rfl⟩ := Tx.lockJob_spec locks
    cases pure_ok.mp finished
    rfl
  · rintro job row ofAttempt checked
    obtain ⟨owner, _, locks, checked⟩ := bind_ok.mp checked
    obtain ⟨found, rfl⟩ := Tx.lockJob_spec locks
    have reserved := (Prod.mk.inj (pure_ok.mp checked)).1.symm
    exact .stale ofAttempt.symm found (of_decide_eq_true reserved)

theorem timeoutStop_deed {service : Service} {id : JobID} {now : Time} {db next : Db}
    {result : Unit} (sound : Sound db.toBooks)
    (finished : service.timeoutStop id now db = .ok (result, next)) :
    Deed service db.live next.live (.request (.timeoutStop id now)) := by
  unfold Service.timeoutStop at finished
  obtain ⟨job, _, locks, finished⟩ := bind_ok.mp finished
  obtain ⟨found, rfl⟩ := Tx.lockJob_spec locks
  cases start : job.startedAt with
  | none =>
      simp only [start] at finished
      cases pure_ok.mp finished
      exact .aside rfl
  | some started =>
      simp only [start] at finished
      split at finished
      · next due =>
        obtain ⟨reservation, _, reads, asked⟩ := bind_ok.mp finished
        obtain ⟨⟨held, ofJob, _⟩, rfl⟩ := Tx.activeReservation_spec reads
        have key : job.id = id := Table.find_key found
        subst key
        exact requestStop_deed sound held found ofJob (.timeout due.1 start due.2) asked
      · cases pure_ok.mp finished
        exact .aside rfl

/-! ### Every call is a deed -/

theorem createTenant_live {tenant : TenantID} {project : ProjectID} {budget : MicroUSD}
    {maxQueuedJobs maxActiveGPUs : Int} {db next : Db} {result : Unit}
    (finished : createTenant tenant project budget maxQueuedJobs maxActiveGPUs db =
      .ok (result, next)) : next.live = db.live := by
  obtain ⟨_, middle, inserts, quotas⟩ := bind_ok.mp finished
  obtain ⟨_, projects, _, wrote⟩ := Tx.insertProject_spec inserts
  rw [live_eq (Tx.upsertQuota_quiet _ _ _ _ quotas) (Tx.upsertQuota_leases _ _ _ _ quotas)]
  unfold Db.live
  rw [wrote, Tx.insertProject_leases _ _ _ _ inserts]

theorem register_live {principal : Principal} {name : String} {capability : Capability}
    {id result : WorkerID} {now : Time} {db next : Db}
    (finished : Service.register principal name capability id now db = .ok (result, next)) :
    next.live = db.live := by
  unfold Service.register at finished
  obtain ⟨_, _, isBootstrap, finished⟩ := bind_ok.mp finished
  obtain ⟨_, rfl⟩ := require_ok.mp isBootstrap
  obtain ⟨_, _, shaped, finished⟩ := bind_ok.mp finished
  obtain ⟨_, rfl⟩ := require_ok.mp shaped
  obtain ⟨_, _, known, finished⟩ := bind_ok.mp finished
  obtain ⟨_, rfl⟩ := require_ok.mp known
  obtain ⟨pool, _, readPool, finished⟩ := bind_ok.mp finished
  obtain ⟨_, rfl⟩ := Tx.getPool_spec readPool
  obtain ⟨existing, _, reads, finished⟩ := bind_ok.mp finished
  cases Tx.reads_of_get _ _ _ _ reads
  unfold Db.live
  cases existing with
  | none =>
      obtain ⟨_, inserted, inserts, finished⟩ := bind_ok.mp finished
      cases pure_ok.mp finished
      obtain ⟨_, workers, _, wrote⟩ := Tx.insertWorker_spec inserts
      rw [wrote, Tx.insertWorker_leases _ _ _ _ inserts]
  | some worker =>
      obtain ⟨_, touched, touches, finished⟩ := bind_ok.mp finished
      cases pure_ok.mp finished
      rw [Tx.touchWorker_spec touches, Tx.touchWorker_leases _ _ _ _ _ _ touches]

theorem claimDispatches_live {service : Service} {principal : Principal} {max : Int} {now : Time}
    {db next : Db} {result : List OutboxEvent}
    (finished : service.claimDispatches principal max now db = .ok (result, next)) :
    next.live = db.live := by
  unfold Service.claimDispatches at finished
  obtain ⟨_, _, isWorker, finished⟩ := bind_ok.mp finished
  obtain ⟨_, rfl⟩ := require_ok.mp isWorker
  exact live_eq (Tx.claim_quiet _ _ _ _ _ _ _ finished) (Tx.claim_leases _ _ _ _ _ _ _ finished)

theorem markWorkersOffline_live {before : Time} {db next : Db} {result : List WorkerID}
    (finished : Tx.markWorkersOffline before db = .ok (result, next)) : next.live = db.live := by
  simp only [Tx.markWorkersOffline, bind_ok, get_ok, set_ok, pure_ok] at finished
  obtain ⟨_, _, pair, _, _, rfl, final⟩ := finished
  cases pair
  cases final
  rfl

theorem upsertPool_live {pool : Pool} {db next : Db} {result : Unit}
    (finished : upsertPool pool db = .ok (result, next)) : next.live = db.live := by
  unfold upsertPool at finished
  obtain ⟨_, _, named, finished⟩ := bind_ok.mp finished
  obtain ⟨_, rfl⟩ := require_ok.mp named
  exact live_eq (Tx.upsertPool_quiet _ _ _ _ finished) (Tx.upsertPool_leases _ _ _ _ finished)

/-- From balanced books every request that finished is a deed. -/
theorem Request.deed (service : Service) (request : Request) {db next : Db}
    (balanced : Balanced db.toBooks) (finished : request.body service db = .ok ((), next)) :
    Deed service db.live next.live (.request request) := by
  have sound := balanced.sound
  cases request with
  | createTenant tenant project budget maxQueuedJobs maxActiveGPUs =>
      exact .aside (createTenant_live finished)
  | upsertPool pool => exact .aside (upsertPool_live finished)
  | register principal name capability id now =>
      obtain ⟨_, ran⟩ := ignore_ok finished
      exact .aside (register_live ran)
  | submit principal request correlation id now appliedAt =>
      obtain ⟨_, ran⟩ := ignore_ok finished
      exact submit_deed ran
  | cancel principal id correlation now appliedAt =>
      obtain ⟨_, ran⟩ := ignore_ok finished
      exact cancel_deed sound ran
  | claimDispatches principal max now =>
      obtain ⟨_, ran⟩ := ignore_ok finished
      exact .aside (claimDispatches_live ran)
  | handleDispatch principal event now appliedAt =>
      obtain ⟨_, ran⟩ := ignore_ok finished
      exact handleDispatch_deed ran
  | ack principal dispatch now appliedAt =>
      obtain ⟨_, ran⟩ := ignore_ok finished
      exact ack_deed ran
  | heartbeat principal state held now =>
      obtain ⟨_, ran⟩ := ignore_ok finished
      exact heartbeat_deed ran
  | reportEvents principal attempt events =>
      obtain ⟨_, ran⟩ := ignore_ok finished
      exact reportEvents_deed sound ran
  | markWorkersOffline before =>
      obtain ⟨_, ran⟩ := ignore_ok finished
      exact .aside (markWorkersOffline_live ran)
  | reclaimLease attempt pass now appliedAt =>
      obtain ⟨_, ran⟩ := ignore_ok finished
      exact reclaimLease_deed sound ran
  | reclaimStale reservation now appliedAt =>
      obtain ⟨_, ran⟩ := ignore_ok finished
      exact reclaimStale_deed sound ran
  | timeoutStop id now => exact timeoutStop_deed sound finished
  | repairLedger now =>
      obtain ⟨_, ran⟩ := ignore_ok finished
      cases (balanced.repairLedger now).symm.trans ran
      exact .aside rfl
  | recomputeCapacity =>
      obtain ⟨_, ran⟩ := ignore_ok finished
      cases balanced.sound.recomputeCapacity.symm.trans ran
      exact .aside rfl
  | pruneOutbox before =>
      exact .aside (live_eq (Tx.pruneOutbox_quiet before _ _ _ finished)
        (Tx.pruneOutbox_leases before _ _ _ finished))

theorem Call.deed_of_ok (service : Service) (call : Call) {db next : Database}
    (balanced : Balanced db.toBooks) (finished : call.body service db = .ok ((), next)) :
    Deed service db.live next.live call := by
  cases call with
  | request asked => exact asked.deed service balanced (onTables_ok.mp finished).1
  | tryLead =>
      obtain ⟨_, ran⟩ := ignore_ok finished
      cases ran
      exact .aside rfl
  | applyDecision epoch tick decision attempt reservation now appliedAt =>
      obtain ⟨_, _, checks, enacts⟩ := bind_ok.mp finished
      obtain ⟨_, rfl⟩ := checkEpoch_ok.mp checks
      exact enact_deed balanced.sound (onTables_ok.mp enacts).1

/-- From balanced books a call is a deed, and a failed one left the tables as they were. -/
theorem Call.deed (service : Service) (call : Call) {db : Database}
    (balanced : Balanced db.toBooks) :
    Deed service db.live (call.perform service db).live call := by
  rcases commit_cases (call.body service) db with ⟨_, finished, _⟩ | unchanged
  · exact call.deed_of_ok service balanced finished
  · rw [Call.perform, unchanged]
    exact .aside rfl

/-! ### What stays -/

/-- Whatever a call does, a job stays with the columns no save writes, its number does not go back,
and its state is as it was or one edge further. -/
theorem Deed.job {service : Service} {call : Call} {db next : Live}
    (deed : Deed service db next call) {id : JobID} {job : Job}
    (found : db.jobs.find id = some job) :
    ∃ later, next.jobs.find id = some later ∧ (∃ moved, later = Job.saved job moved) ∧
      job.attempt ≤ later.attempt ∧
      (later.state = job.state ∨ job.state.canTransition later.state = true) := by
  have kept : next.jobs = db.jobs → ∃ later, next.jobs.find id = some later ∧
      (∃ moved, later = Job.saved job moved) ∧ job.attempt ≤ later.attempt ∧
        (later.state = job.state ∨ job.state.canTransition later.state = true) :=
    fun same => ⟨job, same ▸ found, ⟨job, rfl⟩, le_refl _, Or.inl rfl⟩
  have written : ∀ {old moved : Job}, db.jobs.find old.id = some old →
      db.jobs.Sets next.jobs (Job.saved old moved) →
      old.attempt ≤ moved.attempt →
      (moved.state = old.state ∨ old.state.canTransition moved.state = true) →
      ∃ later, next.jobs.find id = some later ∧ (∃ moved, later = Job.saved job moved) ∧
        job.attempt ≤ later.attempt ∧
        (later.state = job.state ∨ job.state.canTransition later.state = true) := by
    intro old moved stored sets counted edge
    by_cases own : id = old.id
    · subst own
      cases stored.symm.trans found
      exact ⟨_, sets.find_self, ⟨moved, rfl⟩, counted, edge⟩
    · exact ⟨job, (sets.find_other own).trans found, ⟨job, rfl⟩, le_refl _, Or.inl rfl⟩
  cases deed with
  | aside same => exact kept (congrArg Live.jobs same)
  | submitted fresh admitted jobs attempts leases =>
      have other : id ≠ _ := fun own => by
        rw [own, fresh] at found
        cases found
      exact ⟨job, (jobs.find_other other).trans found, ⟨job, rfl⟩, le_refl _, Or.inl rfl⟩
  | moved stored number edge holding target jobs attempts leases => exact written stored jobs number.ge edge
  | placed stored queued number state fresh ofJob numbered unacked unclosed unasked jobs attempts
      leases =>
      refine written stored jobs (by linarith) (Or.inr ?_)
      rw [queued, state]
      rfl
  | claimed stored ofEvent reserved number state attemptFound attemptOfEvent own unclosed current
      jobs attempts leases =>
      refine written stored jobs number.ge (Or.inr ?_)
      rw [reserved, state]
      rfl
  | started stored dispatched number state start forJob attemptFound forAttempt own ofJob unacked
      unclosed jobs attempts leases =>
      refine written stored jobs number.ge (Or.inr ?_)
      rw [dispatched, state]
      rfl
  | noticed stored cancelling attemptFound ofJob unacked unclosed jobs attempts leases =>
      exact kept jobs
  | renewed jobs attempts leases => exact kept jobs
  | ordered stored attemptFound ofJob unclosed asks jobs attempts leases => exact kept jobs
  | closed stored number edge state attemptFound ofJob unclosed close ground jobs attempts leases =>
      exact written stored jobs number.ge (Or.inr edge)
  | dropped attemptFound ended jobs attempts leases => exact kept jobs

/-- What an attempt keeps for good: its job, its number and its worker, and an acknowledgement and
an outcome once it has them. -/
structure Lasting (row later : Attempt) : Prop where
  job : later.job = row.job
  number : later.number = row.number
  worker : later.worker = row.worker
  acked : row.ackedAt ≠ none → later.ackedAt = row.ackedAt
  ended : row.outcome ≠ none → later.outcome = row.outcome

theorem Lasting.refl (row : Attempt) : Lasting row row :=
  ⟨rfl, rfl, rfl, fun _ => rfl, fun _ => rfl⟩

theorem Lasting.trans {one two three : Attempt} (first : Lasting one two)
    (second : Lasting two three) : Lasting one three where
  job := second.job.trans first.job
  number := second.number.trans first.number
  worker := second.worker.trans first.worker
  acked set := by
    have kept := first.acked set
    rw [second.acked (kept ▸ set), kept]
  ended set := by
    have kept := first.ended set
    rw [second.ended (kept ▸ set), kept]

theorem Deed.attempt {service : Service} {call : Call} {db next : Live}
    (deed : Deed service db next call) {id : AttemptID} {row : Attempt}
    (found : db.attempts.find id = some row) :
    ∃ later, next.attempts.find id = some later ∧ Lasting row later := by
  have kept : next.attempts = db.attempts →
      ∃ later, next.attempts.find id = some later ∧ Lasting row later :=
    fun same => ⟨row, same ▸ found, Lasting.refl row⟩
  have written : ∀ {old moved : Attempt}, db.attempts.Sets next.attempts moved →
      db.attempts.find old.id = some old → moved.id = old.id → Lasting old moved →
      ∃ later, next.attempts.find id = some later ∧ Lasting row later := by
    intro old moved sets stored key lasting
    by_cases own : id = old.id
    · subst own
      cases stored.symm.trans found
      exact ⟨moved, key ▸ sets.find_self, lasting⟩
    · exact ⟨row, (sets.find_other (key ▸ own)).trans found, Lasting.refl row⟩
  cases deed with
  | aside same => exact kept (congrArg Live.attempts same)
  | submitted fresh admitted jobs attempts leases => exact kept attempts
  | moved stored number edge holding target jobs attempts leases => exact kept attempts
  | placed stored queued number state fresh ofJob numbered unacked unclosed unasked jobs attempts
      leases =>
      have other : id ≠ _ := fun own => by
        rw [own, fresh] at found
        cases found
      exact ⟨row, (attempts.find_other other).trans found, Lasting.refl row⟩
  | claimed stored ofEvent reserved number state attemptFound attemptOfEvent own unclosed current
      jobs attempts leases => exact kept attempts
  | started stored dispatched number state start forJob attemptFound forAttempt own ofJob unacked
      unclosed jobs attempts leases =>
      exact written attempts attemptFound rfl
        ⟨rfl, rfl, rfl, fun set => absurd unacked set, fun _ => rfl⟩
  | noticed stored cancelling attemptFound ofJob unacked unclosed jobs attempts leases =>
      exact written attempts attemptFound rfl
        ⟨rfl, rfl, rfl, fun set => absurd unacked set, fun _ => rfl⟩
  | renewed jobs attempts leases => exact kept attempts
  | ordered stored attemptFound ofJob unclosed asks jobs attempts leases =>
      exact written attempts attemptFound rfl ⟨rfl, rfl, rfl, fun _ => rfl, fun _ => rfl⟩
  | closed stored number edge state attemptFound ofJob unclosed close ground jobs attempts leases =>
      exact written attempts attemptFound rfl
        ⟨rfl, rfl, rfl, fun _ => rfl, fun set => absurd unclosed set⟩
  | dropped attemptFound ended jobs attempts leases => exact kept attempts

/-- An attempt that was not there before is of a job that was queued, under the job's new number. -/
theorem Deed.attempt_new {service : Service} {call : Call} {db next : Live}
    (deed : Deed service db next call) {id : AttemptID} {row : Attempt}
    (absent : db.attempts.find id = none) (found : next.attempts.find id = some row) :
    ∃ job later, db.jobs.find row.job = some job ∧ job.state = .queued ∧
      next.jobs.find row.job = some later ∧ later.attempt = row.number := by
  have kept : next.attempts = db.attempts → False := by
    intro same
    rw [same, absent] at found
    cases found
  have written : ∀ {old moved : Attempt}, db.attempts.Sets next.attempts moved →
      db.attempts.find old.id = some old → moved.id = old.id → False := by
    intro old moved sets stored key
    rcases sets.found found with ⟨_, own⟩ | ⟨_, before⟩
    · rw [own, key, stored] at absent
      cases absent
    · rw [before] at absent
      cases absent
  cases deed with
  | aside same => exact (kept (congrArg Live.attempts same)).elim
  | submitted fresh admitted jobs attempts leases => exact (kept attempts).elim
  | moved stored number edge holding target jobs attempts leases => exact (kept attempts).elim
  | @placed _ _ _ _ _ _ _ job moved opened stored queued number state fresh ofJob numbered unacked
      unclosed unasked jobs attempts leases =>
      rcases attempts.found found with ⟨rfl, _⟩ | ⟨_, before⟩
      · refine ⟨job, Job.saved job moved, ?_, queued, ?_, number.trans numbered.symm⟩
        · rw [ofJob]
          exact stored
        · rw [ofJob]
          exact jobs.find_self
      · rw [before] at absent
        cases absent
  | claimed stored ofEvent reserved number state attemptFound attemptOfEvent own unclosed current
      jobs attempts leases => exact (kept attempts).elim
  | started stored dispatched number state start forJob attemptFound forAttempt own ofJob unacked
      unclosed jobs attempts leases => exact (written attempts attemptFound rfl).elim
  | noticed stored cancelling attemptFound ofJob unacked unclosed jobs attempts leases =>
      exact (written attempts attemptFound rfl).elim
  | renewed jobs attempts leases => exact (kept attempts).elim
  | ordered stored attemptFound ofJob unclosed asks jobs attempts leases =>
      exact (written attempts attemptFound rfl).elim
  | closed stored number edge state attemptFound ofJob unclosed close ground jobs attempts leases =>
      exact (written attempts attemptFound rfl).elim
  | dropped attemptFound ended jobs attempts leases => exact (kept attempts).elim

/-- A renewal of an attempt's lease by the worker that holds it. -/
inductive Renews : Call → AttemptID → WorkerID → Time → Prop
  | heartbeat {principal : Principal} {state : WorkerState} {held : List AttemptID} {now : Time}
      {id : AttemptID} (named : held.contains id = true) :
      Renews (.request (.heartbeat principal state held now)) id principal.worker now
  | ack {principal : Principal} {dispatch : Service.Dispatch} {now appliedAt : Time} :
      Renews (.request (.ack principal dispatch now appliedAt)) dispatch.attempt principal.worker now

/-- The first claim of an attempt, of a job that is still reserved. -/
inductive Claims (db : Live) : Call → AttemptID → Prop
  | claim {principal : Principal} {event : OutboxEvent} {now appliedAt : Time} {job : Job}
      (found : db.jobs.find event.job = some job) (reserved : job.state = .reserved) :
      Claims db (.request (.handleDispatch principal event now appliedAt)) event.attempt

/-- While an attempt is open its lease stays: it is as it was, renewed, or claimed anew. -/
theorem Deed.lease {service : Service} {call : Call} {db next : Live}
    (deed : Deed service db next call) {id : AttemptID} {lease : Lease} {row : Attempt}
    (found : db.leases.find id = some lease) (open_ : next.attempts.find id = some row)
    (unclosed : row.outcome = none) :
    ∃ later, next.leases.find id = some later ∧ (later = lease ∨ Claims db call id ∨
      ∃ now, Renews call id lease.worker now ∧
        later = { lease with expiresAt := now + service.cfg.leaseTTL, renewedAt := now }) := by
  have kept : next.leases = db.leases → ∃ later, next.leases.find id = some later ∧
      (later = lease ∨ Claims db call id ∨ ∃ now, Renews call id lease.worker now ∧
        later = { lease with expiresAt := now + service.cfg.leaseTTL, renewedAt := now }) :=
    fun same => ⟨lease, same ▸ found, Or.inl rfl⟩
  have key : lease.attempt = id := Table.find_key found
  have erased : ∀ {other : Attempt}, next.leases = withoutLease db other.id → id ≠ other.id →
      next.leases.find id = some lease := by
    intro other leases away
    rw [leases, withoutLease, Table.find_erase, found, Option.filter_some, key]
    simp [away]
  cases deed with
  | aside same => exact kept (congrArg Live.leases same)
  | submitted fresh admitted jobs attempts leases => exact kept leases
  | moved stored number edge holding target jobs attempts leases => exact kept leases
  | placed stored queued number state fresh ofJob numbered unacked unclosed unasked jobs attempts
      leases => exact kept leases
  | @claimed principal event now _ job _ attempt stored ofEvent reserved number state attemptFound
      ofAttempt own unclosed current jobs attempts leases =>
      have after := leases id
      split at after
      · next claims =>
        refine ⟨_, after, Or.inr (Or.inl ?_)⟩
        rw [claims.1, ← ofAttempt]
        exact .claim (ofEvent ▸ stored) reserved
      · exact ⟨lease, after.trans found, Or.inl rfl⟩
  | @started principal dispatch now _ _ _ attempt stored dispatched number state start forJob
      attemptFound forAttempt own ofJob unacked unclosed jobs attempts leases =>
      have after := leases id
      rw [found, Option.map_some] at after
      split at after
      · next chosen =>
        refine ⟨_, after, Or.inr (Or.inr ⟨now, ?_, rfl⟩)⟩
        have named : id = dispatch.attempt := by
          rw [forAttempt, ← key]
          simpa using chosen.2
        rw [chosen.1, named]
        exact .ack
      · exact ⟨lease, after, Or.inl rfl⟩
  | noticed stored cancelling attemptFound ofJob unacked unclosed jobs attempts leases =>
      exact kept leases
  | @renewed principal state held now jobs attempts leases =>
      have after := leases id
      rw [found, Option.map_some] at after
      split at after
      · next chosen =>
        refine ⟨_, after, Or.inr (Or.inr ⟨now, ?_, rfl⟩)⟩
        rw [chosen.1, ← key]
        exact .heartbeat chosen.2
      · exact ⟨lease, after, Or.inl rfl⟩
  | ordered stored attemptFound ofJob unclosed asks jobs attempts leases => exact kept leases
  | @closed _ job _ attempt ended outcome _ stored number edge state attemptFound ofJob unclosed
      close ground jobs attempts leases =>
      have away : id ≠ attempt.id := by
        rintro rfl
        have after := attempts.find_self
        rw [show (Attempt.ended ended attempt).id = attempt.id from rfl, open_] at after
        cases after
        cases close.symm.trans ‹_›
      exact ⟨lease, erased leases away, Or.inl rfl⟩
  | @dropped _ attempt attemptFound ended jobs attempts leases =>
      have away : id ≠ attempt.id := by
        rintro rfl
        rw [attempts] at open_
        cases attemptFound.symm.trans open_
        exact ended unclosed
      exact ⟨lease, erased leases away, Or.inl rfl⟩

end GpuBroker.ControlPlane
