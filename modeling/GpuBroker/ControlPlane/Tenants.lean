/-
This file is what the requests of a user leave of other tenants.

A user submits jobs of the own tenant and cancels them. Whatever the request
names, the jobs of other tenants stay as they are, and so do their attempts and
the leases on these, whether the request succeeds or not.
-/
import GpuBroker.ControlPlane.Deeds

namespace GpuBroker.ControlPlane

open Library Library.Transaction

/-- What a request of a user leaves as it is: the jobs of other tenants, with their attempts and leases. It adds
no attempt, and no job but of the own tenant. -/
structure Spares (tenant : TenantID) (db next : Live) : Prop where
  jobs : ∀ id job, db.jobs.find id = some job → job.tenant ≠ tenant → next.jobs.find id = some job
  attempts : ∀ id row job, db.attempts.find id = some row → db.jobs.find row.job = some job →
    job.tenant ≠ tenant → next.attempts.find id = some row ∧ next.leases.find id = db.leases.find id
  opened : ∀ id, db.attempts.find id = none → next.attempts.find id = none
  submitted : ∀ id job, db.jobs.find id = none → next.jobs.find id = some job → job.tenant = tenant

theorem Spares.refl (tenant : TenantID) (db : Live) : Spares tenant db db where
  jobs := fun _ _ found _ => found
  attempts := fun _ _ _ found _ _ => ⟨found, rfl⟩
  opened := fun _ absent => absent
  submitted := fun _ _ absent found => by
    rw [absent] at found
    cases found

/-- A write of a job of the tenant, beside which the attempts of other jobs stay with their leases, and no attempt
is opened. -/
theorem Spares.job {tenant : TenantID} {db next : Live} {job : Job} (sets : db.jobs.Sets next.jobs job)
    (own : job.tenant = tenant) (before : ∀ row, db.jobs.find job.id = some row → row.tenant = tenant)
    (others : ∀ id row, db.attempts.find id = some row → row.job ≠ job.id →
      next.attempts.find id = some row ∧ next.leases.find id = db.leases.find id)
    (opened : ∀ id, db.attempts.find id = none → next.attempts.find id = none) : Spares tenant db next where
  jobs := fun id row found other => by
    refine (sets.find_other fun same => other ?_).trans found
    exact before row (same ▸ found)
  attempts := fun id row owner found ofJob other =>
    others id row found fun same => other (before owner (same ▸ ofJob))
  opened := opened
  submitted := fun id row absent found => by
    rcases sets.found found with ⟨rfl, _⟩ | ⟨_, old⟩
    · exact own
    · rw [absent] at old
      cases old

/-- A write of a job of the tenant, beside which attempts and leases stay. -/
theorem Spares.jobAlone {tenant : TenantID} {db next : Live} {job : Job} (sets : db.jobs.Sets next.jobs job)
    (own : job.tenant = tenant) (before : ∀ row, db.jobs.find job.id = some row → row.tenant = tenant)
    (attempts : next.attempts = db.attempts) (leases : next.leases = db.leases) : Spares tenant db next :=
  .job sets own before (fun _ _ found _ => ⟨attempts ▸ found, by rw [leases]⟩)
    fun _ absent => by rw [attempts, absent]

/-- The close of the attempt of a job of the tenant. -/
theorem Spares.closed {tenant : TenantID} {db next : Db} {job : Job} {outcome : AttemptOutcome} {time : Time}
    (sound : Sound db.toBooks) {closing : Closing db.toBooks}
    (closed : Closed closing db.leases job outcome time next) (own : job.tenant = tenant) :
    Spares tenant db.live next.live := by
  obtain ⟨rfl, _, wrote, lease, _, _⟩ := closed
  obtain ⟨_, _, ⟨attempt, hasAttempt, owner, _, _⟩, _⟩ := sound.paired _ _ closing.reservationFound
  cases closing.attemptFound.symm.trans hasAttempt
  have jobs : db.jobs.Sets next.jobs (Job.saved closing.job closing.next) := by
    rw [wrote]
    exact closing.find_job
  have attempts : db.attempts.Sets next.attempts (Attempt.ended closing.closed closing.attempt) := by
    rw [wrote]
    exact closing.find_attempt
  refine .job jobs own (fun row found => ?_) (fun id row found other => ?_) fun id absent => ?_
  · cases closing.jobFound.symm.trans found
    exact own
  · have apart : id ≠ closing.attempt.id := by
      rintro rfl
      cases closing.attempt_stored.symm.trans found
      exact other (owner.trans closing.reservationJob)
    refine ⟨(attempts.find_other apart).trans found, ?_⟩
    show next.leases.find id = db.leases.find id
    rw [lease, Table.find_erase]
    cases held : db.leases.find id with
    | none => rfl
    | some row =>
        have key : row.attempt = id := Table.find_key held
        rw [Option.filter_some, if_pos (by simp [key, apart])]
  · refine (attempts.find_other fun same => ?_).trans absent
    rw [show id = closing.attempt.id from same] at absent
    cases absent.symm.trans closing.attempt_stored

/-- A transition of a job of the tenant. -/
theorem Spares.apply {tenant : TenantID} {job row result : Job} {target : JobState} {actor : Actor}
    {reason correlation : String} {time : Time} {db next : Db} (stored : db.jobs.find job.id = some row)
    (own : row.tenant = tenant)
    (finished : Service.apply job target actor reason correlation time db = .ok (result, next)) :
    Spares tenant db.live next.live := by
  obtain ⟨sets, attempts⟩ := apply_sets finished stored
  refine .jobAlone sets own (fun other found => ?_) attempts (apply_leases _ _ _ _ _ _ _ _ _ finished)
  have key : row.id = job.id := Table.find_key stored
  rw [show (Job.saved row result).id = job.id from key] at found
  cases stored.symm.trans found
  exact own

theorem submit_spares {service : Service} {principal : Principal} {request : SubmitRequest}
    {correlation : String} {id : JobID} {now appliedAt : Time} {db next : Db} {result : Job × Option Fault}
    (finished : service.submit principal request correlation id now appliedAt db = .ok (result, next)) :
    Spares principal.tenant db.live next.live := by
  unfold Service.submit at finished
  obtain ⟨_, _, isUser, finished⟩ := bind_ok.mp finished
  obtain ⟨_, rfl⟩ := require_ok.mp isUser
  obtain ⟨valid, _, validated, finished⟩ := bind_ok.mp finished
  obtain ⟨_, rfl⟩ := fallible_ok.mp validated
  simp only at finished
  obtain ⟨project, _, readProject, finished⟩ := bind_ok.mp finished
  obtain ⟨_, rfl⟩ := requestedProject_spec readProject
  obtain ⟨_, _, belowLimits, finished⟩ := bind_ok.mp finished
  cases checkQueue_reads service _ _ _ _ _ belowLimits
  obtain ⟨_, one, inserts, finished⟩ := bind_ok.mp finished
  obtain ⟨_, _, jobs, inserted, wroteJob⟩ := Tx.insertJob_spec inserts
  have keptLeases := Tx.insertJob_leases _ _ _ _ inserts
  obtain ⟨cheapest, _, readCheapest, finished⟩ := bind_ok.mp finished
  cases cheapestCost_reads _ _ _ _ readCheapest
  obtain ⟨spend, _, readSpend, finished⟩ := bind_ok.mp finished
  obtain ⟨_, rfl⟩ := Tx.projectSpend_spec readSpend
  obtain ⟨moved, two, applies, finished⟩ := bind_ok.mp finished
  cases pure_ok.mp finished
  have first := Table.sets_insert inserted
  rw [show jobs = one.jobs by rw [wroteJob]] at first
  obtain ⟨second, attempts⟩ := apply_sets applies first.find_self
  refine .jobAlone (first.trans second rfl) rfl (fun row found => ?_) ?_ ?_
  · -- the job is new
    have fresh := (Table.insert_eq_some inserted).1
    cases fresh.symm.trans found
  · show next.attempts = db.attempts
    rw [attempts, wroteJob]
  · show next.leases = db.leases
    rw [apply_leases _ _ _ _ _ _ _ _ _ applies, keptLeases]

theorem cancel_spares {service : Service} {principal : Principal} {id : JobID} {correlation : String}
    {now appliedAt : Time} {db next : Db} {result : Job} (sound : Sound db.toBooks)
    (finished : service.cancel principal id correlation now appliedAt db = .ok (result, next)) :
    Spares principal.tenant db.live next.live := by
  unfold Service.cancel at finished
  obtain ⟨_, _, isUser, finished⟩ := bind_ok.mp finished
  obtain ⟨_, rfl⟩ := require_ok.mp isUser
  obtain ⟨mine, _, owned, finished⟩ := bind_ok.mp finished
  obtain ⟨_, _, reads, needs⟩ := bind_ok.mp owned
  cases get_ok.mp reads
  obtain ⟨filtered, rfl⟩ := need_ok.mp needs
  obtain ⟨visible, ofTenant⟩ := Option.filter_eq_some_iff.mp filtered
  obtain ⟨job, _, locks, finished⟩ := bind_ok.mp finished
  obtain ⟨found, rfl⟩ := Tx.lockJob_spec locks
  cases visible.symm.trans found
  have own : mine.tenant = principal.tenant := of_decide_eq_true ofTenant
  have stored : db.jobs.find mine.id = some mine := by rwa [Table.find_key found]
  cases state : mine.state <;> simp only [state] at finished
  case submitted | queued => exact .apply stored own finished
  case dispatched | running => exact .apply stored own finished
  case reserved =>
    obtain ⟨closing, closed⟩ := closeAttempt_closing stored finished
    exact .closed sound closed own
  all_goals
    cases pure_ok.mp finished
    exact .refl _ _

/-- A request that is rolled back, or whose body spares the other tenants, spares them. -/
theorem Spares.perform {service : Service} {tenant : TenantID} {asked : Request} {db : Database}
    (body : ∀ next, asked.body service db.toDb = .ok ((), next) → Spares tenant db.live next.live) :
    Spares tenant db.live ((Call.request asked).perform service db).live := by
  rcases commit_cases ((Call.request asked).body service) db with ⟨_, finished, _⟩ | unchanged
  · exact body _ (onTables_ok.mp finished).1
  · rw [Call.perform, unchanged]
    exact .refl _ _

/-- In every state a run of the control plane reaches, a request of a user, for whatever job, leaves the jobs of
other tenants as they are, with their attempts and the leases on them, and adds a job of the own tenant at most. -/
theorem tenants_apart (service : Service) (calls : List Call) (principal : Principal) (request : SubmitRequest)
    (correlation : String) (id : JobID) (now appliedAt : Time) :
    let before := run service calls .initial
    Spares principal.tenant before.live
        ((Call.request (.submit principal request correlation id now appliedAt)).perform service before).live ∧
      Spares principal.tenant before.live
        ((Call.request (.cancel principal id correlation now appliedAt)).perform service before).live := by
  intro before
  have balanced : Balanced before.toBooks := run_initial service calls
  refine ⟨.perform fun next finished => ?_, .perform fun next finished => ?_⟩
  · obtain ⟨_, ran⟩ := ignore_ok finished
    exact submit_spares ran
  · obtain ⟨_, ran⟩ := ignore_ok finished
    exact cancel_spares balanced.sound ran

end GpuBroker.ControlPlane
