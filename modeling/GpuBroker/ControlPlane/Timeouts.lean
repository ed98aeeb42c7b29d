/-
This file is about the runtime limit: from when the reconciler counts an
attempt's running time.

The start a job records is written by the first acknowledgement of any of its
attempts and is kept by every later one. The reconciler compares the clock with
it, so the stop of a first attempt is due exactly when the attempt itself ran
too long, and an attempt that was retried after a start is charged with its
predecessors' time. The last part is a run in which the second attempt is asked
to stop a second after it was acknowledged.
-/
import GpuBroker.ControlPlane.Deeds
import GpuBroker.ControlPlane.JobCap

namespace GpuBroker.ControlPlane

open Library Library.Transaction

/-! ### When a stop is due -/

/-- The call is the reconciler's check of the attempt's job, at a reading that is later than the
attempt's own acknowledgement by more than its job's limit and the grace. -/
def Overran (service : Service) (db : Live) (call : Call) (attempt : Attempt) : Prop :=
  ∃ now acked job, call = .request (.timeoutStop attempt.job now) ∧
    db.jobs.find attempt.job = some job ∧ attempt.ackedAt = some acked ∧
      now - acked > job.maxRuntime + service.cfg.timeoutGrace

/-- Every attempt the call newly asks to stop for its running time overran. -/
def DueStops (service : Service) (db next : Live) (call : Call) : Prop :=
  ∀ id attempt, next.attempts.find id = some attempt → attempt.stopRequested = some .timeout →
    (∃ old, db.attempts.find id = some old ∧ old.stopRequested = some .timeout) ∨
      Overran service db call attempt

/-- Every call of a run has a property in the state it meets and the one it leaves. -/
def everyDeed (property : Live → Live → Call → Prop) (service : Service) :
    List Call → Database → Prop
  | [], _ => True
  | call :: rest, db =>
      property db.live (call.perform service db).live call ∧
        everyDeed property service rest (call.perform service db)

/-- The condition on a call: if it acknowledges an attempt and starts its job, then the job was
never started before. -/
def firstStart (db : Database) : Call → Bool
  | .request (.ack _ dispatch _ _) =>
      (db.jobs.find dispatch.job).all fun job =>
        job.state ≠ .dispatched || job.startedAt.isNone
  | _ => true

/-- A running job's start is the acknowledgement of its open attempt. -/
def Clocked (db : Live) : Prop :=
  ∀ id job, db.jobs.find id = some job → job.state = .running →
    ∀ other attempt, db.attempts.find other = some attempt → attempt.job = id →
      attempt.outcome = none → attempt.ackedAt = job.startedAt

/-! ### One call -/

/-- A row that is written over one with the same order to stop asks nobody anew. -/
theorem dueStops_of_written {service : Service} {db next : Live} {call : Call}
    {row written : Attempt} (sets : db.attempts.Sets next.attempts written)
    (stored : db.attempts.find row.id = some row) (key : written.id = row.id)
    (same : written.stopRequested = row.stopRequested) : DueStops service db next call := by
  intro id attempt found asked
  rcases sets.found found with ⟨rfl, own⟩ | ⟨_, before⟩
  · exact Or.inl ⟨row, by rw [own, key]; exact stored, same ▸ asked⟩
  · exact Or.inl ⟨attempt, before, asked⟩

/-- While the starts of running jobs are those of their open attempts, every stop is due. -/
theorem Clocked.dueStops {service : Service} {call : Call} {db next : Live}
    (clocked : Clocked db) (deed : Deed service db next call) : DueStops service db next call := by
  have kept : next.attempts = db.attempts → DueStops service db next call :=
    fun same id attempt found asked => Or.inl ⟨attempt, same ▸ found, asked⟩
  cases deed with
  | aside same => exact kept (congrArg Live.attempts same)
  | submitted fresh admitted jobs attempts leases => exact kept attempts
  | moved found number edge holding target jobs attempts leases => exact kept attempts
  | placed found queued number state fresh ofJob numbered unacked unclosed unasked jobs attempts
      leases =>
      intro id attempt after asked
      rcases attempts.found after with ⟨rfl, _⟩ | ⟨_, before⟩
      · rw [unasked] at asked
        cases asked
      · exact Or.inl ⟨attempt, before, asked⟩
  | claimed found ofEvent reserved number state attemptFound attemptOfEvent own unclosed current
      jobs attempts leases => exact kept attempts
  | started found dispatched number state start forJob attemptFound forAttempt own ofJob unacked unclosed
      jobs attempts leases => exact dueStops_of_written attempts attemptFound rfl rfl
  | noticed found cancelling attemptFound ofJob unacked unclosed jobs attempts leases =>
      exact dueStops_of_written attempts attemptFound rfl rfl
  | renewed jobs attempts leases => exact kept attempts
  | @ordered _ kind job row found attemptFound ofJob unclosed asks jobs attempts leases =>
      intro id attempt after asked
      rcases attempts.found after with ⟨rfl, _⟩ | ⟨_, before⟩
      · cases asks with
        | preempt => cases asked
        | @timeout now started running start concluded =>
            have acked : row.ackedAt = some started :=
              (clocked _ _ found running _ _ attemptFound ofJob unclosed).trans start
            refine Or.inr ⟨now, started, job, ?_, ?_, acked, concluded⟩
            · show _ = Call.request (.timeoutStop row.job now)
              rw [ofJob]
            · show db.jobs.find row.job = some job
              rw [ofJob]
              exact found
      · exact Or.inl ⟨attempt, before, asked⟩
  | closed found number edge state attemptFound ofJob unclosed close ground jobs attempts leases =>
      exact dueStops_of_written attempts attemptFound rfl rfl
  | dropped attemptFound ended jobs attempts leases => exact kept attempts

/-- The open attempts of a job after a write of a row that was already open, under the same job
and acknowledgement, or that is closed now. -/
theorem Clocked.written {db next : Live} (clocked : Clocked db) {row written : Attempt}
    (sets : db.attempts.Sets next.attempts written)
    (stored : db.attempts.find row.id = some row)
    (same : written.outcome = none →
      row.outcome = none ∧ written.job = row.job ∧ written.ackedAt = row.ackedAt)
    (jobs : ∀ id job, next.jobs.find id = some job → job.state = .running →
      db.jobs.find id = some job) : Clocked next := by
  intro id job found running other attempt hasAttempt ofJob unclosed
  have before := jobs id job found running
  rcases sets.found hasAttempt with ⟨rfl, own⟩ | ⟨_, old⟩
  · obtain ⟨wasOpen, sameJob, sameAck⟩ := same unclosed
    rw [sameAck]
    exact clocked id job before running _ row stored (sameJob ▸ ofJob) wasOpen
  · exact clocked id job before running other attempt old ofJob unclosed

theorem Clocked.deed {service : Service} {call : Call} {db : Database} {next : Live}
    (balanced : Balanced db.toBooks) (clocked : Clocked db.live)
    (first : firstStart db call = true) (deed : Deed service db.live next call) :
    Clocked next := by
  -- a job row written in a state other than running leaves the running ones
  have others : ∀ {written : Job}, db.live.jobs.Sets next.jobs written →
      written.state ≠ .running → ∀ id job, next.jobs.find id = some job → job.state = .running →
        db.live.jobs.find id = some job := by
    intro written sets idle id job found running
    rcases sets.found found with ⟨rfl, _⟩ | ⟨_, before⟩
    · exact absurd running idle
    · exact before
  have kept : next.attempts = db.live.attempts →
      (∀ id job, next.jobs.find id = some job → job.state = .running →
        db.live.jobs.find id = some job) → Clocked next :=
    fun same jobs id job found running other attempt hasAttempt =>
      clocked id job (jobs id job found running) running other attempt (same ▸ hasAttempt)
  cases deed with
  | aside same =>
      rw [same]
      exact clocked
  | submitted fresh admitted jobs attempts leases =>
      refine kept attempts (others jobs ?_)
      rcases admitted with queued | failed <;> simp_all
  | moved found number edge holding target jobs attempts leases =>
      refine kept attempts (others jobs ?_)
      rcases target with state | state | state | state <;> simp_all [Job.saved]
  | @placed _ _ _ _ _ _ _ job moved opened found queued number state fresh ofJob numbered unacked
      unclosed unasked jobs attempts leases =>
      have idle : (Job.saved job moved).state ≠ .running := by simp [Job.saved, state]
      intro id row hasRow running other attempt hasAttempt ofRow open_
      have before := others jobs idle id row hasRow running
      rcases attempts.found hasAttempt with ⟨rfl, _⟩ | ⟨_, old⟩
      · rw [← ofRow, ofJob, found] at before
        cases before
        rw [queued] at running
        cases running
      · exact clocked id row before running other attempt old ofRow open_
  | claimed found ofEvent reserved number state attemptFound attemptOfEvent own unclosed current
      jobs attempts leases =>
      exact kept attempts (others jobs (by simp [Job.saved, state]))
  | @started _ dispatch now _ job moved row found dispatched number state start forJob attemptFound
      forAttempt own ofJob unacked unclosed jobs attempts leases =>
      have unstarted : job.startedAt = none := by
        have looked : db.jobs.find dispatch.job = some job := forJob ▸ found
        simpa [firstStart, looked, dispatched] using first
      intro id later hasLater running other attempt hasAttempt ofLater open_
      rcases jobs.found hasLater with ⟨rfl, own⟩ | ⟨away, before⟩
      · rcases attempts.found hasAttempt with ⟨rfl, _⟩ | ⟨apart, old⟩
        · show some now = moved.startedAt
          rw [start, unstarted]
          rfl
        · -- the job's one open attempt is the one acknowledged
          have same := balanced.sound.open_single attemptFound old unclosed open_
            (ofJob.trans (ofLater.trans own).symm)
          rw [← Table.find_key old, ← same] at apart
          exact absurd rfl apart
      · rcases attempts.found hasAttempt with ⟨rfl, _⟩ | ⟨_, old⟩
        · exact absurd (ofLater.symm.trans ofJob) away
        · exact clocked id later before running other attempt old ofLater open_
  | @noticed _ _ _ _ job row found cancelling attemptFound ofJob unacked unclosed jobs attempts
      leases =>
      intro id running hasRunning state other attempt hasAttempt ofRunning open_
      rw [jobs] at hasRunning
      rcases attempts.found hasAttempt with ⟨rfl, _⟩ | ⟨_, old⟩
      · rw [← ofRunning] at hasRunning
        cases found.symm.trans ((congrArg _ ofJob.symm).trans hasRunning)
        rw [cancelling] at state
        cases state
      · exact clocked id running hasRunning state other attempt old ofRunning open_
  | renewed jobs attempts leases => exact kept attempts fun id job found _ => jobs ▸ found
  | ordered found attemptFound ofJob unclosed asks jobs attempts leases =>
      exact clocked.written attempts attemptFound (fun open_ => ⟨open_, rfl, rfl⟩)
        fun id job found _ => jobs ▸ found
  | closed found number edge state attemptFound ofJob unclosed close ground jobs attempts leases =>
      refine clocked.written attempts attemptFound (fun open_ => ?_) (others jobs fun running => ?_)
      · cases close.symm.trans open_
      · have holds : JobState.running.holdsCapacity = false := by
          rw [← running]
          exact state ▸ jobStateForOutcome_not_holding _ _ _
        cases holds
  | dropped attemptFound ended jobs attempts leases =>
      exact kept attempts fun id job found _ => jobs ▸ found

/-! ### Runs -/

/-- In every run whose acknowledgements start only jobs that were never started before, every stop
the reconciler requests for running time is due. -/
theorem timeouts_due (service : Service) (calls : List Call)
    (first : everyCall firstStart service calls .initial = true) :
    everyDeed (DueStops service) service calls .initial := by
  have clocked : Clocked Database.initial.live :=
    fun id _ found => absurd ((Table.find_empty id).symm.trans found) nofun
  have balanced : Balanced Database.initial.toBooks := Balanced.initial
  generalize Database.initial = db at first clocked balanced
  induction calls generalizing db with
  | nil => trivial
  | cons call rest inductionHypothesis =>
      obtain ⟨now, later⟩ := Bool.and_eq_true_iff.mp first
      have deed := call.deed service balanced
      refine ⟨clocked.dueStops deed, inductionHypothesis _ later ?_ ?_⟩
      · exact clocked.deed balanced now deed
      · exact balanced.change (call.perform_changes service balanced)

/-- A first attempt that runs a second past its limit is asked to stop, and the stop is due. -/
theorem timeouts_due_first :
    everyDeed (DueStops plainService) plainService
      ((retriedRun 0).take 9 ++ [.request (.timeoutStop "job" (hour + minute + second))])
      .initial :=
  timeouts_due plainService _ (by decide +kernel)

theorem everyDeed_last {property : Live → Live → Call → Prop} {service : Service}
    {calls : List Call} {call : Call} {db : Database}
    (every : everyDeed property service (calls ++ [call]) db) :
    property (run service calls db).live (call.perform service (run service calls db)).live
      call := by
  induction calls generalizing db with
  | nil => exact every.1
  | cons head rest inductionHypothesis => exact inductionHypothesis every.2

/-! ### A second attempt charged with the first one's time -/

/-- The second attempt of the retried job is claimed and acknowledged an hour after the first. -/
def restartedRun : List Call :=
  let worker : Principal :=
    { kind := .worker, user := "user", tenant := "tenant", role := .member, worker := "worker"
      pool := "" }
  let event : OutboxEvent :=
    { id := 2, topic := "worker", job := "job", attempt := "second", availableAt := minute
      attempts := 1, lockedUntil := some (hour + 30 * second), lockedBy := some "worker"
      deliveredAt := none }
  let dispatch : Service.Dispatch :=
    { attempt := "second", job := "job", worker := "worker", image := "trainer"
      command := ["train"], gpus := 1, gpuModel := "", runtime := "", maxRuntimeS := 3600
      leaseExpires := hour + 45 * second, specDigest := "trainer", mac := "secondtrainer" }
  retriedRun 0 ++
    [.request (.handleDispatch worker event hour hour), .request (.ack worker dispatch hour hour)]

/-- With a limit of an hour and a minute of grace, the second attempt is asked to stop a minute and
a second after its own acknowledgement. -/
theorem second_attempt_stopped :
    ¬ everyDeed (DueStops plainService) plainService
      (restartedRun ++ [.request (.timeoutStop "job" (hour + minute + second))]) .initial := by
  intro every
  have due := everyDeed_last every
  have stopped : (((Call.request (.timeoutStop "job" (hour + minute + second))).perform plainService
      (run plainService restartedRun .initial)).attempts.find "second").any (fun attempt =>
        attempt.stopRequested = some .timeout ∧ attempt.ackedAt = some hour ∧
          attempt.job = "job") = true := by
    decide +kernel
  have before : ((run plainService restartedRun .initial).attempts.find "second").all
      (fun attempt => attempt.stopRequested = none) = true := by
    decide +kernel
  have limit : ((run plainService restartedRun .initial).jobs.find "job").all
      (fun job => job.maxRuntime = hour) = true := by
    decide +kernel
  generalize run plainService restartedRun .initial = db at due stopped before limit
  obtain ⟨attempt, found, facts⟩ := (Option.any_eq_true _ _).mp stopped
  obtain ⟨asked, started, ofJob⟩ := of_decide_eq_true facts
  rcases due "second" attempt found asked with ⟨old, hasOld, askedBefore⟩ | overran
  · rw [show db.attempts.find "second" = some old from hasOld] at before
    rw [of_decide_eq_true before] at askedBefore
    cases askedBefore
  · obtain ⟨now, acked, job, same, hasJob, ack, concluded⟩ := overran
    rw [ofJob] at hasJob same
    rw [show db.jobs.find "job" = some job from hasJob] at limit
    cases started.symm.trans ack
    cases same
    rw [show job.maxRuntime = hour from of_decide_eq_true limit] at concluded
    revert concluded
    decide +kernel

end GpuBroker.ControlPlane
