/-
This file is the control plane as a system. A call is one transaction with its
arguments, a run is any sequence of calls from the migrated database, and a
call that fails leaves the database as it was.

Nothing restricts the order of the calls or their arguments: a report may be
repeated, a reclaim may come late, a leader may be deposed, clocks may disagree.
Every state a run reaches satisfies the two invariants, and the two repairs of
the reconciler find nothing to repair in it.
-/
import GpuBroker.ControlPlane.Money
import GpuBroker.ControlPlane.Transactions

namespace GpuBroker.ControlPlane

open Library Library.Transaction

/-! ### Calls and runs -/

/-- A transaction on the tables, with the caller, the arguments, the fresh ids and the clock
readings it runs with. -/
inductive Request
  | createTenant (tenant : TenantID) (project : ProjectID) (budget : MicroUSD)
      (maxQueuedJobs maxActiveGPUs : Int)
  | upsertPool (pool : Pool)
  | register (principal : Principal) (name : String) (capability : Capability) (id : WorkerID)
      (now : Time)
  | submit (principal : Principal) (request : SubmitRequest) (correlation : String) (id : JobID)
      (now appliedAt : Time)
  | cancel (principal : Principal) (id : JobID) (correlation : String) (now appliedAt : Time)
  | claimDispatches (principal : Principal) (max : Int) (now : Time)
  | handleDispatch (principal : Principal) (event : OutboxEvent) (now appliedAt : Time)
  | ack (principal : Principal) (dispatch : Service.Dispatch) (now appliedAt : Time)
  | heartbeat (principal : Principal) (state : WorkerState) (held : List AttemptID) (now : Time)
  | reportEvents (principal : Principal) (attempt : AttemptID)
      (events : List (WorkerEvent × Service.EventReadings))
  | markWorkersOffline (before : Time)
  | reclaimLease (attempt : AttemptID) (pass now appliedAt : Time)
  | reclaimStale (reservation : Reservation) (now appliedAt : Time)
  | timeoutStop (id : JobID) (now : Time)
  | repairLedger (now : Time)
  | recomputeCapacity
  | pruneOutbox (before : Time)

/-- A transaction of the control plane: on the tables, or of the scheduler. -/
inductive Call
  | request (asked : Request)
  | tryLead
  | applyDecision (epoch : Int) (tick : String) (decision : Decision) (attempt : AttemptID)
      (reservation : ReservationID) (now appliedAt : Time)

/-- A body run for what it writes. -/
def ignore {State Result : Type} (body : Transaction State Fault Result) :
    Transaction State Fault Unit := do
  let _ ← body
  pure ()

/-- The body a request runs. -/
def Request.body (service : Service) : Request → Tx Unit
  | createTenant tenant project budget maxQueuedJobs maxActiveGPUs =>
      ControlPlane.createTenant tenant project budget maxQueuedJobs maxActiveGPUs
  | upsertPool pool => ControlPlane.upsertPool pool
  | register principal name capability id now =>
      ignore (Service.register principal name capability id now)
  | submit principal request correlation id now appliedAt =>
      ignore (service.submit principal request correlation id now appliedAt)
  | cancel principal id correlation now appliedAt =>
      ignore (service.cancel principal id correlation now appliedAt)
  | claimDispatches principal max now => ignore (service.claimDispatches principal max now)
  | handleDispatch principal event now appliedAt =>
      ignore (service.handleDispatch principal event now appliedAt)
  | ack principal dispatch now appliedAt => ignore (service.ack principal dispatch now appliedAt)
  | heartbeat principal state held now => ignore (service.heartbeat principal state held now)
  | reportEvents principal attempt events =>
      ignore (service.reportEvents principal attempt events)
  | markWorkersOffline before => ignore (Tx.markWorkersOffline before)
  | reclaimLease attempt pass now appliedAt =>
      ignore (service.reclaimLease attempt pass now appliedAt)
  | reclaimStale reservation now appliedAt =>
      ignore (service.reclaimStale reservation now appliedAt)
  | timeoutStop id now => service.timeoutStop id now
  | repairLedger now => ignore (Service.repairLedger now)
  | recomputeCapacity => ignore Tx.recomputeCapacity
  | pruneOutbox before => Tx.pruneOutbox before

/-- The body a call runs. -/
def Call.body (service : Service) : Call → Transaction Database Fault Unit
  | request asked => onTables (asked.body service)
  | tryLead => ignore ControlPlane.tryLead
  | applyDecision epoch tick decision attempt reservation now appliedAt =>
      Service.applyDecision epoch tick decision attempt reservation now appliedAt

/-- The database after a call. -/
def Call.perform (service : Service) (call : Call) (db : Database) : Database :=
  (commit (call.body service) db).2

/-- The database after a sequence of calls. -/
def run (service : Service) : List Call → Database → Database
  | [], db => db
  | call :: rest, db => run service rest (call.perform service db)

theorem run_append (service : Service) (one two : List Call) (db : Database) :
    run service (one ++ two) db = run service two (run service one db) := by
  induction one generalizing db with
  | nil => rfl
  | cons call rest inductionHypothesis => exact inductionHypothesis (call.perform service db)

/-! ### The repairs write nothing -/

/-- Nothing is outstanding of a job that holds no capacity. -/
theorem Balanced.outstanding_idle {books : Books} (balanced : Balanced books) {id : JobID}
    {job : Job} (found : books.jobs.find id = some job) (idle : job.state.holdsCapacity = false) :
    outstandingOf books.ledger id = 0 := by
  obtain ⟨sound, funded⟩ := balanced
  refine (funded.perJob id).trans (Table.total_zero fun other row present => if_neg ?_)
  rintro ⟨active, ofJob⟩
  obtain ⟨_, _, ⟨attempt, hasAttempt, _⟩, _⟩ := sound.paired other row present
  have unreleased : row.releasedAt = none := by simpa [Reservation.active] using active
  have holds := (sound.current other row present unreleased job attempt (ofJob ▸ found)
    hasAttempt).1
  rw [idle] at holds
  cases holds

theorem terminal_idle {state : JobState} (finished : state.terminal = true) :
    state.holdsCapacity = false := by
  by_contra holds
  rw [JobState.holdsCapacity_not_terminal (by simpa using holds)] at finished
  cases finished

/-- No terminal job has anything outstanding, so there is no hold to release. -/
theorem Balanced.repairLedger {db : Db} (balanced : Balanced db.toBooks) (now : Time) :
    Service.repairLedger now db = .ok (0, db) := by
  have none : (db.jobs.rows.filter fun job =>
      job.state.terminal && outstandingOf db.ledger job.id ≠ 0) = [] := by
    refine Table.filter_none fun id job found => ?_
    cases finished : job.state.terminal with
    | false => rfl
    | true =>
      have settled := balanced.outstanding_idle found (terminal_idle finished)
      rw [Table.find_key found, settled]
      rfl
  have ids : Tx.terminalJobsWithOutstanding 200 db = .ok ([], db) := by
    show Except.ok (_, _) = _
    rw [none]
    rfl
  show (Tx.terminalJobsWithOutstanding 200 >>= fun ids => Service.repairLoop now ids 0) db = _
  exact bind_ok.mpr ⟨[], db, ids, rfl⟩

/-! ### Every call changes the books -/

theorem ignore_ok {State Result : Type} {body : Transaction State Fault Result} {state next : State}
    (finished : ignore body state = .ok ((), next)) : ∃ result, body state = .ok (result, next) := by
  obtain ⟨result, _, ran, final⟩ := bind_ok.mp finished
  cases pure_ok.mp final
  exact ⟨result, ran⟩

theorem ignore_of_ok {State Result : Type} {body : Transaction State Fault Result}
    {state next : State} {result : Result} (finished : body state = .ok (result, next)) :
    ignore body state = .ok ((), next) :=
  bind_ok.mpr ⟨result, next, finished, rfl⟩

/-- A request that finishes writes the tables and leaves the leader row. -/
theorem perform_request {service : Service} {asked : Request} {db : Database} {next : Db}
    (finished : asked.body service db.toDb = .ok ((), next)) :
    (Call.request asked).perform service db = { db with toDb := next } := by
  unfold Call.perform commit
  rw [show (Call.request asked).body service db = .ok ((), { db with toDb := next }) from
    onTables_ok.mpr ⟨finished, rfl⟩]

theorem TurnsBooks.ignore {Result : Type} {body : Tx Result} (turns : TurnsBooks body) :
    TurnsBooks (ignore body) := by
  intro db result next finished
  obtain ⟨value, ran⟩ := ignore_ok finished
  exact turns db value next ran

/-- From balanced books every request takes one turn. -/
theorem Request.turns (service : Service) (request : Request) {db next : Db}
    (balanced : Balanced db.toBooks) (finished : request.body service db = .ok ((), next)) :
    Turn db.toBooks next.toBooks := by
  cases request with
  | createTenant tenant project budget maxQueuedJobs maxActiveGPUs =>
      exact (createTenant_moves _ _ _ _ _).turns _ _ _ finished
  | upsertPool pool => exact (upsertPool_moves pool).turns _ _ _ finished
  | register principal name capability id now =>
      exact (register_moves _ _ _ _ _).turns.ignore _ _ _ finished
  | submit principal request correlation id now appliedAt =>
      exact (submit_moves _ _ _ _ _ _ _).turns.ignore _ _ _ finished
  | cancel principal id correlation now appliedAt =>
      exact (cancel_turns _ _ _ _ _ _).ignore _ _ _ finished
  | claimDispatches principal max now =>
      exact (claimDispatches_moves _ _ _ _).turns.ignore _ _ _ finished
  | handleDispatch principal event now appliedAt =>
      exact (handleDispatch_moves _ _ _ _ _).turns.ignore _ _ _ finished
  | ack principal dispatch now appliedAt =>
      exact (ack_moves _ _ _ _ _).turns.ignore _ _ _ finished
  | heartbeat principal state held now =>
      exact (heartbeat_moves _ _ _ _ _).turns.ignore _ _ _ finished
  | reportEvents principal attempt events =>
      exact (reportEvents_turns _ _ _ _).ignore _ _ _ finished
  | markWorkersOffline before =>
      exact (markWorkersOffline_moves before).turns.ignore _ _ _ finished
  | reclaimLease attempt pass now appliedAt =>
      exact (reclaimLease_turns _ _ _ _ _).ignore _ _ _ finished
  | reclaimStale reservation now appliedAt =>
      exact (reclaimStale_turns _ _ _ _).ignore _ _ _ finished
  | timeoutStop id now => exact (timeoutStop_moves _ _ _).turns _ _ _ finished
  | repairLedger now =>
      obtain ⟨_, ran⟩ := ignore_ok finished
      cases (balanced.repairLedger now).symm.trans ran
      exact .moves .refl
  | recomputeCapacity =>
      obtain ⟨_, ran⟩ := ignore_ok finished
      cases balanced.sound.recomputeCapacity.symm.trans ran
      exact .moves .refl
  | pruneOutbox before => exact (Tx.pruneOutbox_quiet before).moves.turns _ _ _ finished

/-- From balanced books a call that finished changed the books once. -/
theorem Call.changes (service : Service) (call : Call) {db next : Database}
    (balanced : Balanced db.toBooks) (finished : call.body service db = .ok ((), next)) :
    Change db.toBooks next.toBooks := by
  cases call with
  | request asked =>
      exact .turn (asked.turns service balanced (onTables_ok.mp finished).1)
  | tryLead =>
      obtain ⟨_, ran⟩ := ignore_ok finished
      cases ran
      exact .turn (.moves .refl)
  | applyDecision epoch tick decision attempt reservation now appliedAt =>
      obtain ⟨_, _, checks, enacts⟩ := bind_ok.mp finished
      obtain ⟨_, rfl⟩ := checkEpoch_ok.mp checks
      exact enact_changes _ _ _ _ _ _ _ _ _ _ (onTables_ok.mp enacts).1

/-- A committed call changes the books once, and a failed one does not. -/
theorem Call.perform_changes (service : Service) (call : Call) {db : Database}
    (balanced : Balanced db.toBooks) : Change db.toBooks (call.perform service db).toBooks := by
  rcases commit_cases (call.body service) db with ⟨_, finished, _⟩ | unchanged
  · exact call.changes service balanced finished
  · rw [Call.perform, unchanged]
    exact .turn (.moves .refl)

theorem run_balanced (service : Service) (calls : List Call) {db : Database}
    (balanced : Balanced db.toBooks) : Balanced (run service calls db).toBooks := by
  induction calls generalizing db with
  | nil => exact balanced
  | cons call rest inductionHypothesis =>
      exact inductionHypothesis (balanced.change (call.perform_changes service balanced))

theorem run_initial (service : Service) (calls : List Call) :
    Balanced (run service calls Database.initial).toBooks :=
  @run_balanced service calls Database.initial Balanced.initial

/-- What every change of balanced books relates, a run relates. -/
theorem run_keeps {relation : Books → Books → Prop} (same : ∀ books, relation books books)
    (compose : ∀ {one two three}, relation one two → relation two three → relation one three)
    (step : ∀ {books next}, Balanced books → Change books next → relation books next)
    (service : Service) (calls : List Call) {db : Database} (balanced : Balanced db.toBooks) :
    relation db.toBooks (run service calls db).toBooks := by
  induction calls generalizing db with
  | nil => exact same _
  | cons call rest inductionHypothesis =>
      have changed := call.perform_changes service balanced
      exact compose (step balanced changed) (inductionHypothesis (balanced.change changed))

end GpuBroker.ControlPlane
