/-
This file says what each statement of the store does to the books.

A statement that finished found the rows it asked for, passed the constraints
it is checked against, and left the books changed in one named place or not at
all. The use cases are read through these lemmas only.
-/
import GpuBroker.ControlPlane.Store

namespace GpuBroker.ControlPlane

open Library Library.Transaction

/-- A transaction body that leaves the leases alone. -/
def KeepsLeases {Result : Type} (body : Tx Result) : Prop :=
  Keeps (fun db next : Db => next.leases = db.leases) body

theorem keepsLeases_pure {Result : Type} (value : Result) : KeepsLeases (pure value) := by
  intro db result next finished
  cases pure_ok.mp finished
  rfl

theorem keepsLeases_bind {Result Other : Type} {first : Tx Other} {rest : Other → Tx Result}
    (keepsFirst : KeepsLeases first) (keepsRest : ∀ value, KeepsLeases (rest value)) :
    KeepsLeases (first >>= rest) :=
  keeps_bind (fun one two => two.trans one) keepsFirst keepsRest

theorem keepsLeases_require (condition : Prop) [Decidable condition] (fault : Fault) :
    KeepsLeases (require condition fault) := by
  intro db result next finished
  rw [(require_ok.mp finished).2]

theorem keepsLeases_fallible {Result : Type} (value : Except Fault Result) :
    KeepsLeases (fallible value) := by
  intro db result next finished
  rw [(fallible_ok.mp finished).2]

theorem keepsLeases_whenever (condition : Prop) [Decidable condition] {body : Tx Unit}
    (keeps : KeepsLeases body) : KeepsLeases (whenever condition body) := by
  intro db result next finished
  rcases whenever_ok.mp finished with ⟨_, ran⟩ | ⟨_, rfl⟩
  · exact keeps db result next ran
  · rfl

/-- A transaction body that leaves the books alone. -/
def Quiet {Result : Type} (body : Tx Result) : Prop :=
  Keeps (fun db next : Db => next.toBooks = db.toBooks) body

theorem quiet_pure {Result : Type} (value : Result) : Quiet (pure value) := by
  intro db result next finished
  cases pure_ok.mp finished
  rfl

namespace Tx

/-! ### Statements that leave the books alone -/

/-- A read returns what it returns and writes nothing. -/
def Reads {Result : Type} (body : Tx Result) : Prop :=
  Keeps (fun db next : Db => next = db) body

theorem Reads.quiet {Result : Type} {body : Tx Result} (reads : Reads body) : Quiet body :=
  fun db result next finished => congrArg Db.toBooks (reads db result next finished)

theorem scanInt64_spec {value result : Int} {db next : Db}
    (finished : scanInt64 value db = .ok (result, next)) : value = result ∧ db = next := by
  simp only [scanInt64, bind_ok, require_ok, pure_ok] at finished
  obtain ⟨_, _, ⟨_, rfl⟩, pair⟩ := finished
  cases pair
  exact ⟨rfl, rfl⟩

theorem getProject_spec {tenant : TenantID} {id : ProjectID} {db next : Db} {project : Project}
    (finished : getProject tenant id db = .ok (project, next)) :
    db.projects.find project.id = some project ∧ db = next := by
  simp only [getProject, bind_ok, get_ok, need_ok] at finished
  obtain ⟨_, _, pair, chosen, rfl⟩ := finished
  cases pair
  have found := (Option.filter_eq_some_iff.mp chosen).1
  exact ⟨Table.find_of_mem (Table.find_mem found), rfl⟩

theorem defaultProject_spec {tenant : TenantID} {db next : Db} {project : Project}
    (finished : defaultProject tenant db = .ok (project, next)) :
    db.projects.find project.id = some project ∧ db = next := by
  simp only [defaultProject, bind_ok, get_ok, need_ok] at finished
  obtain ⟨_, _, pair, chosen, rfl⟩ := finished
  cases pair
  refine ⟨Table.find_of_mem ?_, rfl⟩
  rcases Option.or_eq_some_iff.mp chosen with named | ⟨_, least⟩
  · exact List.mem_of_mem_filter (List.mem_of_find?_eq_some named)
  · exact List.mem_of_mem_filter (List.mem_of_find?_eq_some least)

theorem lockProject_spec {id : ProjectID} {db next : Db} {project : Project}
    (finished : lockProject id db = .ok (project, next)) :
    db.projects.find id = some project ∧ db = next := by
  simp only [lockProject, bind_ok, get_ok, need_ok] at finished
  obtain ⟨_, _, pair, found, rfl⟩ := finished
  cases pair
  exact ⟨found, rfl⟩

theorem projectSpend_spec {id : ProjectID} {db next : Db} {spend : MicroUSD × MicroUSD}
    (finished : projectSpend id db = .ok (spend, next)) :
    spend.1 + spend.2 = ledgerSum db.ledger .hold (fun entry => entry.project = id) -
      ledgerSum db.ledger .release (fun entry => entry.project = id) ∧ db = next := by
  simp only [projectSpend, bind_ok, get_ok] at finished
  obtain ⟨_, _, pair, _, _, scanned, _, _, settledScan, _, _, releasedScan, final⟩ := finished
  cases pair
  obtain ⟨rfl, rfl⟩ := scanInt64_spec scanned
  obtain ⟨rfl, rfl⟩ := scanInt64_spec settledScan
  obtain ⟨rfl, rfl⟩ := scanInt64_spec releasedScan
  cases pure_ok.mp final
  exact ⟨by grind, rfl⟩

theorem getPool_spec {id : PoolID} {db next : Db} {pool : Pool}
    (finished : getPool id db = .ok (pool, next)) : db.pools.find id = some pool ∧ db = next := by
  simp only [getPool, bind_ok, get_ok, need_ok] at finished
  obtain ⟨_, _, pair, found, rfl⟩ := finished
  cases pair
  exact ⟨found, rfl⟩

theorem lockJob_spec {id : JobID} {db next : Db} {job : Job}
    (finished : lockJob id db = .ok (job, next)) : db.jobs.find id = some job ∧ db = next := by
  simp only [lockJob, bind_ok, get_ok, need_ok] at finished
  obtain ⟨_, _, pair, found, rfl⟩ := finished
  cases pair
  exact ⟨found, rfl⟩

theorem getAttempt_spec {id : AttemptID} {db next : Db} {attempt : Attempt}
    (finished : getAttempt id db = .ok (attempt, next)) :
    db.attempts.find id = some attempt ∧ db = next := by
  simp only [getAttempt, bind_ok, get_ok, need_ok] at finished
  obtain ⟨_, _, pair, found, rfl⟩ := finished
  cases pair
  exact ⟨found, rfl⟩

theorem activeReservation_spec {job : JobID} {db next : Db} {row : Reservation}
    (finished : activeReservation job db = .ok (row, next)) :
    (db.reservations.find row.id = some row ∧ row.job = job ∧ row.active = true) ∧ db = next := by
  simp only [activeReservation, bind_ok, get_ok, need_ok] at finished
  obtain ⟨_, _, pair, found, rfl⟩ := finished
  cases pair
  obtain ⟨present, chosen⟩ := Table.select_mem found
  simp only [decide_eq_true_eq] at chosen
  exact ⟨⟨present, chosen⟩, rfl⟩

theorem jobBudget_spec {id : JobID} {db next : Db} {budget : JobBudget}
    (finished : jobBudget id db = .ok (budget, next)) :
    budget.outstanding = outstandingOf db.ledger id ∧ db = next := by
  simp only [jobBudget, bind_ok, get_ok] at finished
  obtain ⟨_, _, pair, _, _, scanned, _, _, settledScan, _, _, releasedScan, final⟩ := finished
  cases pair
  obtain ⟨rfl, rfl⟩ := scanInt64_spec scanned
  obtain ⟨rfl, rfl⟩ := scanInt64_spec settledScan
  obtain ⟨rfl, rfl⟩ := scanInt64_spec releasedScan
  cases pure_ok.mp final
  exact ⟨rfl, rfl⟩

theorem getJob_reads (tenant : TenantID) (id : JobID) : Reads (getJob tenant id) := by
  intro db result next finished
  simp only [getJob, bind_ok, get_ok, need_ok] at finished
  obtain ⟨_, _, pair, _, rfl⟩ := finished
  cases pair
  rfl

theorem getWorker_reads (id : WorkerID) : Reads (getWorker id) := by
  intro db result next finished
  simp only [getWorker, bind_ok, get_ok, need_ok] at finished
  obtain ⟨_, _, pair, _, rfl⟩ := finished
  cases pair
  rfl

/-- A body that reads the database and returns a function of it. -/
theorem reads_of_get {Result : Type} (read : Db → Result) :
    Reads (do let db ← get; pure (read db)) := by
  intro db result next finished
  simp only [bind_ok, get_ok, pure_ok] at finished
  obtain ⟨_, _, pair, final⟩ := finished
  cases pair
  cases final
  rfl

theorem getLease_spec {attempt : AttemptID} {db next : Db} {lease : Option Lease}
    (finished : getLease attempt db = .ok (lease, next)) :
    lease = db.leases.find attempt ∧ db = next := by
  simp only [getLease, bind_ok, get_ok, pure_ok] at finished
  obtain ⟨_, _, pair, final⟩ := finished
  cases pair
  cases final
  exact ⟨rfl, rfl⟩

/-- A body that reads the database, may refuse, and then writes outside the books. -/
theorem quiet_of_set {write : Db → Db} (outside : ∀ db, (write db).toBooks = db.toBooks) :
    Quiet (do let db ← get; set (write db)) := by
  intro db result next finished
  simp only [bind_ok, get_ok, set_ok] at finished
  obtain ⟨_, _, pair, rfl⟩ := finished
  cases pair
  exact outside db

theorem upsertQuota_quiet (quota : Quota) : Quiet (upsertQuota quota) := by
  intro db result next finished
  simp only [upsertQuota, bind_ok, get_ok, require_ok, need_ok, set_ok] at finished
  obtain ⟨_, _, pair, _, _, ⟨_, rfl⟩, _, _, ⟨_, rfl⟩, rfl⟩ := finished
  cases pair
  rfl

theorem upsertPool_quiet (pool : Pool) : Quiet (upsertPool pool) := by
  intro db result next finished
  simp only [upsertPool, bind_ok, get_ok, require_ok, need_ok, set_ok] at finished
  obtain ⟨_, _, pair, _, _, ⟨_, rfl⟩, _, _, ⟨_, rfl⟩, _, _, ⟨_, rfl⟩, rfl⟩ := finished
  cases pair
  rfl

theorem insertTransition_quiet (record : TransitionRecord) : Quiet (insertTransition record) := by
  intro db result next finished
  simp only [insertTransition, bind_ok, get_ok, require_ok, set_ok] at finished
  obtain ⟨_, _, pair, _, _, ⟨_, rfl⟩, rfl⟩ := finished
  cases pair
  rfl

theorem insertAttemptEvent_quiet (event : AttemptEvent) : Quiet (insertAttemptEvent event) := by
  intro db result next finished
  unfold insertAttemptEvent at finished
  obtain ⟨_, _, read, rest⟩ := bind_ok.mp finished
  cases get_ok.mp read
  cases taken : db.events.insert event with
  | some events =>
      simp only [taken, bind_ok, set_ok, pure_ok] at rest
      obtain ⟨_, _, rfl, final⟩ := rest
      cases final
      rfl
  | none =>
      simp only [taken, pure_ok] at rest
      cases rest
      rfl

theorem putLease_quiet (lease : Lease) : Quiet (putLease lease) := by
  intro db result next finished
  simp only [putLease, bind_ok, get_ok, need_ok, set_ok] at finished
  obtain ⟨_, _, pair, _, _, ⟨_, rfl⟩, rfl⟩ := finished
  cases pair
  rfl

theorem renewLeases_quiet (worker : WorkerID) (ids : List AttemptID) (now expires : Time) :
    Quiet (renewLeases worker ids now expires) := by
  intro db result next finished
  simp only [renewLeases, bind_ok, get_ok, set_ok, pure_ok] at finished
  obtain ⟨_, _, pair, _, _, rfl, final⟩ := finished
  cases pair
  cases final
  rfl

theorem deleteLease_quiet (attempt : AttemptID) : Quiet (deleteLease attempt) :=
  quiet_of_set fun _ => rfl

theorem insertDecision_quiet (tick : String) (decision : Decision) (time : Time) :
    Quiet (insertDecision tick decision time) := by
  intro db result next finished
  rw [insertDecision, modify_ok] at finished
  rw [show next = _ from finished]

theorem enqueue_quiet (topic : WorkerID) (job : JobID) (attempt : AttemptID) (time : Time) :
    Quiet (enqueue topic job attempt time) := by
  intro db result next finished
  simp only [enqueue, bind_ok, get_ok, need_ok, set_ok] at finished
  obtain ⟨_, _, pair, _, _, ⟨_, rfl⟩, rfl⟩ := finished
  cases pair
  rfl

theorem claim_quiet (topic : WorkerID) (count : Nat) (now : Time) (visibility : Duration) :
    Quiet (claim topic count now visibility) := by
  intro db result next finished
  simp only [claim, bind_ok, get_ok, set_ok, pure_ok] at finished
  obtain ⟨_, _, pair, _, _, rfl, final⟩ := finished
  cases pair
  cases final
  rfl

theorem markDelivered_quiet (id : Nat) (time : Time) : Quiet (markDelivered id time) :=
  quiet_of_set fun _ => rfl

theorem pruneOutbox_quiet (before : Time) : Quiet (pruneOutbox before) :=
  quiet_of_set fun _ => rfl

/-! ### Statements that write the books -/

theorem insertProject_spec {project : Project} {db next : Db} {result : Unit}
    (finished : insertProject project db = .ok (result, next)) :
    0 ≤ project.budget ∧ ∃ projects, db.projects.insert project = some projects ∧
      next.toBooks = { db.toBooks with projects } := by
  simp only [insertProject, bind_ok, get_ok, require_ok, need_ok, set_ok] at finished
  obtain ⟨_, _, pair, _, _, ⟨nonneg, rfl⟩, _, _, ⟨_, rfl⟩, _, _, ⟨inserted, rfl⟩, rfl⟩ := finished
  cases pair
  exact ⟨nonneg, _, inserted, rfl⟩

theorem insertWorker_spec {worker : Worker} {db next : Db} {result : Unit}
    (finished : insertWorker worker db = .ok (result, next)) :
    0 < worker.capability.gpus ∧
      ∃ workers, db.workers.insert { worker with gpusReserved := 0, version := 0 } = some workers ∧
        next.toBooks = { db.toBooks with workers } := by
  simp only [insertWorker, bind_ok, get_ok, require_ok, need_ok, set_ok] at finished
  obtain ⟨_, _, pair, _, _, ⟨check, rfl⟩, _, _, ⟨_, rfl⟩, _, _, ⟨inserted, rfl⟩, rfl⟩ := finished
  cases pair
  exact ⟨check.1, _, inserted, rfl⟩

theorem touchWorker_spec {id : WorkerID} {time : Time} {state : WorkerState} {db next : Db}
    {result : Unit} (finished : touchWorker id time state db = .ok (result, next)) :
    next.toBooks = { db.toBooks with
      workers := db.workers.modify id fun row => { row with
        lastHeartbeat := time, state := state, version := row.version + 1 } } := by
  simp only [touchWorker, bind_ok, get_ok, need_ok, set_ok] at finished
  obtain ⟨_, _, pair, _, _, ⟨_, rfl⟩, rfl⟩ := finished
  cases pair
  rfl

theorem reserveCapacity_spec {id : WorkerID} {gpus : Int} {db next : Db} {result : Unit}
    (finished : reserveCapacity id gpus db = .ok (result, next)) :
    ∃ worker, db.workers.find id = some worker ∧
      worker.gpusReserved + gpus ≤ worker.capability.gpus ∧
      next.toBooks = { db.toBooks with
        workers := db.workers.modify id (Worker.reserve gpus) } := by
  simp only [reserveCapacity, bind_ok, get_ok, need_ok, set_ok] at finished
  obtain ⟨_, _, pair, worker, _, ⟨found, rfl⟩, rfl⟩ := finished
  cases pair
  obtain ⟨present, admitted⟩ := Option.filter_eq_some_iff.mp found
  simp only [decide_eq_true_eq] at admitted
  exact ⟨worker, present, admitted.2, rfl⟩

theorem releaseCapacity_spec {id : WorkerID} {gpus : Int} {db next : Db} {result : Unit}
    (finished : releaseCapacity id gpus db = .ok (result, next)) :
    ∃ worker, db.workers.find id = some worker ∧ gpus ≤ worker.gpusReserved ∧
      next.toBooks = { db.toBooks with
        workers := db.workers.modify id (Worker.giveBack gpus) } := by
  simp only [releaseCapacity, bind_ok, get_ok, need_ok, set_ok] at finished
  obtain ⟨_, _, pair, worker, _, ⟨found, rfl⟩, rfl⟩ := finished
  cases pair
  obtain ⟨present, enough⟩ := Option.filter_eq_some_iff.mp found
  exact ⟨worker, present, by simpa using enough, rfl⟩

theorem insertJob_spec {job : Job} {db next : Db} {result : Unit}
    (finished : insertJob job db = .ok (result, next)) :
    1 ≤ job.maxAttempts ∧ 0 < job.requirements.gpus ∧
      ∃ jobs, db.jobs.insert { job with
          maxRuntime := job.maxRuntime / second * second
          maxDelay := job.maxDelay / second * second } = some jobs ∧
        next.toBooks = { db.toBooks with jobs } := by
  simp only [insertJob, bind_ok, get_ok, require_ok, need_ok, set_ok] at finished
  obtain ⟨_, _, pair, _, _, ⟨check, rfl⟩, _, _, ⟨inserted, rfl⟩, rfl⟩ := finished
  cases pair
  obtain ⟨positive, _, _, _, _, _, atLeastOne, _⟩ := check
  exact ⟨atLeastOne, positive, _, inserted, rfl⟩

theorem saveJob_spec {job : Job} {previous : Int} {db next : Db} {result : Unit}
    (finished : saveJob job previous db = .ok (result, next)) :
    ∃ row, db.jobs.find job.id = some row ∧ row.version = previous ∧
      next.toBooks = { db.toBooks with
        jobs := db.jobs.modify job.id fun row => Job.saved row job } := by
  simp only [saveJob, bind_ok, get_ok, need_ok, set_ok] at finished
  obtain ⟨_, _, pair, row, _, ⟨found, rfl⟩, rfl⟩ := finished
  cases pair
  obtain ⟨present, version⟩ := Option.filter_eq_some_iff.mp found
  exact ⟨row, present, by simpa using version, rfl⟩

theorem insertAttempt_spec {attempt : Attempt} {db next : Db} {result : Unit}
    (finished : insertAttempt attempt db = .ok (result, next)) :
    ∃ attempts, db.attempts.insert attempt = some attempts ∧
      next.toBooks = { db.toBooks with attempts } := by
  simp only [insertAttempt, bind_ok, get_ok, require_ok, need_ok, set_ok] at finished
  obtain ⟨_, _, pair, _, _, ⟨_, rfl⟩, _, _, ⟨_, rfl⟩, _, _, ⟨_, rfl⟩, _, _, ⟨inserted, rfl⟩, rfl⟩ :=
    finished
  cases pair
  exact ⟨_, inserted, rfl⟩

theorem ackAttempt_spec {id : AttemptID} {time : Time} {db next : Db} {acked : Bool}
    (finished : ackAttempt id time db = .ok (acked, next)) :
    next.toBooks = { db.toBooks with
      attempts := if acked then db.attempts.modify id fun row => { row with ackedAt := some time }
        else db.attempts } ∧
      (acked = true → ∃ row, db.attempts.find id = some row ∧ row.outcome = none) := by
  simp only [ackAttempt, bind_ok, get_ok, set_ok, pure_ok] at finished
  obtain ⟨_, _, pair, _, _, rfl, final⟩ := finished
  cases pair
  cases final
  refine ⟨rfl, fun fresh => ?_⟩
  obtain ⟨row, found, unsettled⟩ := (Option.any_eq_true _ _).mp fresh
  simp only [Attempt.open, Bool.and_eq_true, Option.isNone_iff_eq_none] at unsettled
  exact ⟨row, found, unsettled.2⟩

theorem closeAttempt_spec {closed : Attempt} {db next : Db} {result : Unit}
    (finished : closeAttempt closed db = .ok (result, next)) :
    ∃ row, db.attempts.find closed.id = some row ∧ row.outcome = none ∧
      next.toBooks = { db.toBooks with
        attempts := db.attempts.modify closed.id (Attempt.ended closed) } := by
  simp only [closeAttempt, bind_ok, get_ok, need_ok, set_ok] at finished
  obtain ⟨_, _, pair, row, _, ⟨found, rfl⟩, rfl⟩ := finished
  cases pair
  obtain ⟨present, unsettled⟩ := Option.filter_eq_some_iff.mp found
  exact ⟨row, present, by simpa [Attempt.open] using unsettled, rfl⟩

theorem requestStop_spec {id : AttemptID} {kind : StopKind} {db next : Db} {result : Unit}
    (finished : requestStop id kind db = .ok (result, next)) :
    next.toBooks = db.toBooks ∨
      (∃ row, db.attempts.find id = some row ∧ row.outcome = none) ∧
        next.toBooks = { db.toBooks with
          attempts := db.attempts.modify id fun row => { row with stopRequested := some kind } } := by
  simp only [requestStop, bind_ok, get_ok, set_ok] at finished
  obtain ⟨_, _, pair, rfl⟩ := finished
  cases pair
  split
  · next pending =>
    refine Or.inr ⟨?_, rfl⟩
    obtain ⟨row, found, unsettled⟩ := (Option.any_eq_true _ _).mp pending
    simp only [Attempt.open, Bool.and_eq_true, Option.isNone_iff_eq_none] at unsettled
    exact ⟨row, found, unsettled.1⟩
  · exact Or.inl rfl

theorem insertReservation_spec {reservation : Reservation} {db next : Db} {result : Unit}
    (finished : insertReservation reservation db = .ok (result, next)) :
    0 < reservation.gpus ∧ ∃ reservations,
      db.reservations.insert { reservation with releasedAt := none, releaseReason := none } =
        some reservations ∧
      next.toBooks = { db.toBooks with reservations } := by
  simp only [insertReservation, bind_ok, get_ok, require_ok, need_ok, set_ok] at finished
  obtain ⟨_, _, pair, _, _, ⟨positive, rfl⟩, _, _, ⟨_, rfl⟩, _, _, ⟨inserted, rfl⟩, rfl⟩ := finished
  cases pair
  exact ⟨positive, _, inserted, rfl⟩

theorem releaseReservation_spec {id : ReservationID} {time : Time} {reason : String}
    {db next : Db} {released : Bool} {row : Reservation}
    (held : db.reservations.find id = some row) (active : row.active = true)
    (finished : releaseReservation id time reason db = .ok (released, next)) :
    released = true ∧ next.toBooks = { db.toBooks with
      reservations := db.reservations.modify id (Reservation.release time reason) } := by
  simp only [releaseReservation, bind_ok, get_ok, set_ok, pure_ok] at finished
  obtain ⟨_, _, pair, _, _, rfl, final⟩ := finished
  cases pair
  cases final
  have still : (db.reservations.find id).any Reservation.active = true := by
    rw [held]
    exact active
  exact ⟨still, by rw [still]; rfl⟩

theorem insertLedger_spec {entry : LedgerEntry} {db next : Db} {result : Unit}
    (finished : insertLedger entry db = .ok (result, next)) :
    0 < entry.amount ∧ next.toBooks = { db.toBooks with ledger := db.ledger ++ [entry] } := by
  simp only [insertLedger, bind_ok, get_ok, require_ok, need_ok, set_ok] at finished
  obtain ⟨_, _, pair, _, _, ⟨positive, rfl⟩, _, _, ⟨_, rfl⟩, _, _, ⟨_, rfl⟩, rfl⟩ := finished
  cases pair
  exact ⟨positive, rfl⟩

/-! ### Statements that leave the leases alone -/

theorem Reads.keepsLeases {Result : Type} {body : Tx Result} (reads : Reads body) :
    KeepsLeases body :=
  fun db result next finished => congrArg Db.leases (reads db result next finished)

theorem insertProject_leases (project : Project) : KeepsLeases (insertProject project) :=
  keeps_get fun _ => ends_require (ends_require (ends_need fun _ _ => ends_set rfl))

theorem upsertQuota_leases (quota : Quota) : KeepsLeases (upsertQuota quota) :=
  keeps_get fun _ => ends_require (ends_need fun _ _ => ends_set rfl)

theorem upsertPool_leases (pool : Pool) : KeepsLeases (upsertPool pool) :=
  keeps_get fun _ => ends_require (ends_require (ends_need fun _ _ => ends_set rfl))

theorem insertWorker_leases (worker : Worker) : KeepsLeases (insertWorker worker) :=
  keeps_get fun _ => ends_require (ends_require (ends_need fun _ _ => ends_set rfl))

theorem touchWorker_leases (id : WorkerID) (time : Time) (state : WorkerState) :
    KeepsLeases (touchWorker id time state) :=
  keeps_get fun _ => ends_need fun _ _ => ends_set rfl

theorem reserveCapacity_leases (id : WorkerID) (gpus : Int) :
    KeepsLeases (reserveCapacity id gpus) :=
  keeps_get fun _ => ends_need fun _ _ => ends_set rfl

theorem releaseCapacity_leases (id : WorkerID) (gpus : Int) :
    KeepsLeases (releaseCapacity id gpus) :=
  keeps_get fun _ => ends_need fun _ _ => ends_set rfl

theorem insertJob_leases (job : Job) : KeepsLeases (insertJob job) :=
  keeps_get fun _ => ends_require (ends_need fun _ _ => ends_set rfl)

theorem saveJob_leases (job : Job) (previous : Int) : KeepsLeases (saveJob job previous) :=
  keeps_get fun _ => ends_need fun _ _ => ends_set rfl

theorem insertTransition_leases (record : TransitionRecord) :
    KeepsLeases (insertTransition record) :=
  keeps_get fun _ => ends_require (ends_set rfl)

theorem insertAttempt_leases (attempt : Attempt) : KeepsLeases (insertAttempt attempt) :=
  keeps_get fun _ => ends_require (ends_require (ends_require (ends_need fun _ _ => ends_set rfl)))

theorem ackAttempt_leases (id : AttemptID) (time : Time) : KeepsLeases (ackAttempt id time) :=
  keeps_get fun _ => ends_set_bind (ends_pure rfl)

theorem closeAttempt_leases (closed : Attempt) : KeepsLeases (closeAttempt closed) :=
  keeps_get fun _ => ends_need fun _ _ => ends_set rfl

theorem requestStop_leases (id : AttemptID) (kind : StopKind) :
    KeepsLeases (requestStop id kind) :=
  keeps_get fun _ => ends_set rfl

theorem insertAttemptEvent_leases (event : AttemptEvent) :
    KeepsLeases (insertAttemptEvent event) := by
  refine keeps_get fun db => ?_
  cases db.events.insert event with
  | some events => exact ends_set_bind (ends_pure rfl)
  | none => exact ends_pure rfl

theorem insertReservation_leases (reservation : Reservation) :
    KeepsLeases (insertReservation reservation) :=
  keeps_get fun _ => ends_require (ends_require (ends_need fun _ _ => ends_set rfl))

theorem releaseReservation_leases (id : ReservationID) (time : Time) (reason : String) :
    KeepsLeases (releaseReservation id time reason) :=
  keeps_get fun _ => ends_set_bind (ends_pure rfl)

theorem insertLedger_leases (entry : LedgerEntry) : KeepsLeases (insertLedger entry) :=
  keeps_get fun _ => ends_require (ends_need fun _ _ => ends_require (ends_set rfl))

theorem insertDecision_leases (tick : String) (decision : Decision) (time : Time) :
    KeepsLeases (insertDecision tick decision time) := by
  intro db result next finished
  rw [insertDecision, modify_ok] at finished
  rw [show next = _ from finished]

theorem enqueue_leases (topic : WorkerID) (job : JobID) (attempt : AttemptID) (time : Time) :
    KeepsLeases (enqueue topic job attempt time) :=
  keeps_get fun _ => ends_need fun _ _ => ends_set rfl

theorem claim_leases (topic : WorkerID) (count : Nat) (now : Time) (visibility : Duration) :
    KeepsLeases (claim topic count now visibility) :=
  keeps_get fun _ => ends_set_bind (ends_pure rfl)

theorem markDelivered_leases (id : Nat) (time : Time) : KeepsLeases (markDelivered id time) :=
  keeps_get fun _ => ends_set rfl

theorem pruneOutbox_leases (before : Time) : KeepsLeases (pruneOutbox before) :=
  keeps_get fun _ => ends_set rfl

/-! ### Statements that write the leases -/

/-- Putting a lease writes it, unless another worker holds the attempt. -/
theorem putLease_leases {lease : Lease} {db next : Db} {result : Unit}
    (finished : putLease lease db = .ok (result, next)) (id : AttemptID) :
    next.leases.find id =
      if id = lease.attempt ∧ (db.leases.find id).all (fun row => row.worker = lease.worker) then
        some lease
      else db.leases.find id := by
  simp only [putLease, bind_ok, get_ok, need_ok, set_ok] at finished
  obtain ⟨_, _, pair, leases, _, ⟨put, rfl⟩, rfl⟩ := finished
  cases pair
  show leases.find id = _
  cases held : db.leases.find lease.attempt with
  | none =>
      rw [held] at put
      rw [Table.find_insert put]
      by_cases own : id = lease.attempt
      · rw [if_pos own, own, held, if_pos ⟨rfl, rfl⟩]
      · rw [if_neg own, if_neg fun both => own both.1]
  | some row =>
      rw [held] at put
      cases put
      rw [Table.find_update]
      by_cases own : id = lease.attempt
      · have key : row.attempt = lease.attempt := Table.find_key held
        rw [own, held]
        by_cases same : row.worker = lease.worker
        · simp only [Option.map_some, key, same, and_self, decide_true, if_true, Option.all_some]
        · simp [same]
      · rw [if_neg fun both => own both.1]
        cases found : db.leases.find id with
        | none => rfl
        | some other =>
            have key : other.attempt = id := Table.find_key found
            simp [key, own]

/-- A renewal moves the worker's own leases among those named, and names the ones it moved. -/
theorem renewLeases_leases {worker : WorkerID} {ids renewed : List AttemptID} {now expires : Time}
    {db next : Db} (finished : renewLeases worker ids now expires db = .ok (renewed, next)) :
    (∀ id, next.leases.find id = (db.leases.find id).map fun row =>
      if row.worker = worker ∧ ids.contains row.attempt then
        { row with expiresAt := expires, renewedAt := now }
      else row) ∧
      ∀ id, id ∈ renewed ↔
        ids.contains id ∧ ∃ row, db.leases.find id = some row ∧ row.worker = worker := by
  simp only [renewLeases, bind_ok, get_ok, set_ok, pure_ok] at finished
  obtain ⟨_, _, pair, _, _, rfl, final⟩ := finished
  cases pair
  cases final
  refine ⟨fun id => ?_, fun id => ?_⟩
  · refine (Table.find_update _ _ _ ?_ id).trans ?_
    · exact fun _ => rfl
    · congr 1
      funext row
      simp only [Bool.and_eq_true, decide_eq_true_eq]
  · rw [List.mem_map]
    constructor
    · rintro ⟨row, chosen, rfl⟩
      obtain ⟨member, named⟩ := List.mem_filter.mp chosen
      simp only [Bool.and_eq_true, decide_eq_true_eq] at named
      exact ⟨named.2, row, Table.find_of_mem member, named.1⟩
    · rintro ⟨named, row, found, own⟩
      have key : row.attempt = id := Table.find_key found
      refine ⟨row, List.mem_filter.mpr ⟨Table.find_mem found, ?_⟩, key⟩
      rw [key, own, named, decide_eq_true rfl]
      rfl

theorem deleteLease_leases {attempt : AttemptID} {db next : Db} {result : Unit}
    (finished : deleteLease attempt db = .ok (result, next)) :
    next.leases = db.leases.erase fun row => row.attempt = attempt := by
  simp only [deleteLease, bind_ok, get_ok, set_ok] at finished
  obtain ⟨_, _, pair, rfl⟩ := finished
  cases pair
  rfl

end Tx

end GpuBroker.ControlPlane
