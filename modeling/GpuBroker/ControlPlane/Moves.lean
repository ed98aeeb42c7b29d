/-
This file says once what a transaction can do to the books.

Every committed transaction of the control plane moves the books, closes one
attempt or places one job. Each of the six kinds of move touches one table and
keeps what the invariants read of it; a placement and a closing touch five
tables at once. The two are structures whose fields are the facts the
transaction checked, so one exists only where its checks passed, and the
invariants downstream are proved of moves, closings and placements and never of
transaction bodies.
-/
import Mathlib.Tactic.Linarith
import GpuBroker.ControlPlane.Effects
import GpuBroker.ControlPlane.Service

namespace GpuBroker.ControlPlane

open Library Library.Transaction

/-! ### The moves -/

/-- What the ledger holds against a project's budget: holds that were not released. -/
def committedOf (ledger : List LedgerEntry) (id : ProjectID) : MicroUSD :=
  ledgerSum ledger .hold (fun entry => entry.project = id) -
    ledgerSum ledger .release (fun entry => entry.project = id)

/-- The ledger line a job's attempt writes. -/
def entryOf (job : Job) (attempt : AttemptID) (kind : LedgerKind) (amount : MicroUSD)
    (time : Time) : LedgerEntry :=
  { project := job.project, job := job.id, attempt := some attempt, kind, amount, time }

@[simp] theorem entryOf_amount (job : Job) (attempt : AttemptID) (kind : LedgerKind)
    (amount : MicroUSD) (time : Time) : (entryOf job attempt kind amount time).amount = amount :=
  rfl

/-- A ledger line, left out when its amount is not positive. -/
def charge (entry : LedgerEntry) : List LedgerEntry :=
  if entry.amount > 0 then [entry] else []

theorem charge_positive {entry : LedgerEntry} (positive : entry.amount > 0) :
    charge entry = [entry] := if_pos positive

theorem charge_nonpositive {entry : LedgerEntry} (nonpositive : ¬ entry.amount > 0) :
    charge entry = [] := if_neg nonpositive

/-- The ledger lines of a closing: the settlement of a cost, when it is positive, and the release
of what is left. -/
def closingLines (job : Job) (attempt : AttemptID) (outstanding cost : MicroUSD) (now : Time) :
    List LedgerEntry :=
  charge (entryOf job attempt .settle (max cost 0) now) ++
    charge (entryOf job attempt .release (outstanding - max cost 0) now)

/-- A job row changes without touching its attempt: it was not finished, it keeps or loses
nothing it holds, and it does not come to wait anew. -/
structure Advance (row next : Job) : Prop where
  unfinished : row.state.terminal = false
  attempt : next.attempt = row.attempt
  holding : next.state.holdsCapacity = row.state.holdsCapacity
  waiting : next.waiting = true → row.waiting = true

/-- A placement of a queued job, with everything its transaction checked. -/
structure Placement (books : Books) where
  job : Job
  jobFound : books.jobs.find job.id = some job
  queued : job.state = .queued
  retries : job.attempt < job.maxAttempts
  project : Project
  projectFound : books.projects.find job.project = some project
  pool : PoolID
  rate : MicroUSD
  affordable : costOf rate job.requirements.gpus job.maxRuntime ≤
    project.budget - committedOf books.ledger job.project
  worker : Worker
  workerFound : books.workers.find worker.id = some worker
  room : worker.gpusReserved + job.requirements.gpus ≤ worker.capability.gpus
  positive : 0 < job.requirements.gpus
  attempt : AttemptID
  attempts : Table Attempt Attempt.id
  reservation : ReservationID
  reservations : Table Reservation Reservation.id
  epoch : Int
  now : Time
  next : Job
  nextAttempt : next.attempt = job.attempt + 1
  nextState : next.state = .reserved
  attemptInserted : books.attempts.insert
    { id := attempt, job := job.id, number := job.attempt + 1, worker := worker.id
      createdAt := now, ackedAt := none, endedAt := none, outcome := none, exitCode := none
      reason := "", stopRequested := none } = some attempts
  reservationInserted : books.reservations.insert
    { id := reservation, job := job.id, attempt := attempt, worker := worker.id, pool := pool
      gpus := job.requirements.gpus, priceRate := rate
      holdAmount := costOf rate job.requirements.gpus job.maxRuntime, epoch := epoch
      createdAt := now, releasedAt := none, releaseReason := none } = some reservations

namespace Placement

variable {books : Books} (placement : Placement books)

def hold : MicroUSD :=
  costOf placement.rate placement.job.requirements.gpus placement.job.maxRuntime

/-- The books after the placement. -/
def result : Books where
  projects := books.projects
  workers := books.workers.modify placement.worker.id
    (Worker.reserve placement.job.requirements.gpus)
  jobs := books.jobs.modify placement.job.id fun row => Job.saved row placement.next
  attempts := placement.attempts
  reservations := placement.reservations
  ledger := books.ledger ++
    charge (entryOf placement.job placement.attempt .hold placement.hold placement.now)

end Placement

/-- The closing of a job's open attempt, with everything its transaction checked. -/
structure Closing (books : Books) where
  job : Job
  jobFound : books.jobs.find job.id = some job
  unfinished : job.state.terminal = false
  reservation : Reservation
  reservationFound : books.reservations.find reservation.id = some reservation
  reservationJob : reservation.job = job.id
  active : reservation.releasedAt = none
  attempt : Attempt
  attemptFound : books.attempts.find reservation.attempt = some attempt
  unclosed : attempt.outcome = none
  outcome : AttemptOutcome
  exit : Option Int
  reason : String
  cost : MicroUSD
  capped : 0 < cost → cost ≤ outstandingOf books.ledger job.id
  worker : Worker
  workerFound : books.workers.find reservation.worker = some worker
  reserved : reservation.gpus ≤ worker.gpusReserved
  now : Time
  next : Job
  nextAttempt : next.attempt = job.attempt
  nextState : next.state.holdsCapacity = false
  nextWaiting : next.waiting = true → job.attempt < job.maxAttempts

namespace Closing

variable {books : Books} (closing : Closing books)

/-- What the closing settles: the capped cost, when it is positive. -/
def settled : MicroUSD := max closing.cost 0

/-- The ledger lines of the closing. -/
def lines : List LedgerEntry :=
  closingLines closing.job closing.attempt.id (outstandingOf books.ledger closing.job.id)
    closing.cost closing.now

/-- The attempt as the closing leaves it. -/
def closed : Attempt :=
  { closing.attempt with
    outcome := some closing.outcome, exitCode := closing.exit, reason := closing.reason
    endedAt := some closing.now }

/-- The books after the closing. -/
def result : Books where
  projects := books.projects
  workers := books.workers.modify closing.reservation.worker
    (Worker.giveBack closing.reservation.gpus)
  jobs := books.jobs.modify closing.job.id fun row => Job.saved row closing.next
  attempts := books.attempts.modify closing.attempt.id (Attempt.ended closing.closed)
  reservations := books.reservations.modify closing.reservation.id
    (Reservation.release closing.now closing.outcome.text)
  ledger := books.ledger ++ closing.lines

end Closing

/-- One move of the books. -/
inductive Move : Books → Books → Prop
  | newProject {books : Books} {project : Project} {projects : Table Project Project.id}
      (inserted : books.projects.insert project = some projects) (nonneg : 0 ≤ project.budget) :
      Move books { books with projects }
  | newWorker {books : Books} {worker : Worker} {workers : Table Worker Worker.id}
      (inserted : books.workers.insert worker = some workers)
      (idle : worker.gpusReserved = 0) (positive : 0 < worker.capability.gpus) :
      Move books { books with workers }
  | workers {books : Books} (which : Worker → Bool) (set : Worker → Worker)
      (same : ∀ row, (set row).id = row.id)
      (kept : ∀ row, (set row).capability = row.capability ∧
        (set row).gpusReserved = row.gpusReserved) :
      Move books { books with workers := books.workers.update which set same }
  | newJob {books : Books} {job : Job} {jobs : Table Job Job.id}
      (inserted : books.jobs.insert job = some jobs) (submitted : job.state = .submitted)
      (first : job.attempt = 0) (atLeastOne : 1 ≤ job.maxAttempts)
      (positive : 0 < job.requirements.gpus)
      (registered : ∃ project, books.projects.find job.project = some project) :
      Move books { books with jobs }
  | job {books : Books} {row next : Job} (found : books.jobs.find next.id = some row)
      (advance : Advance row next) :
      Move books { books with jobs := books.jobs.modify next.id fun row => Job.saved row next }
  | attempt {books : Books} {row : Attempt} (id : AttemptID) (set : Attempt → Attempt)
      (same : ∀ row, (set row).id = row.id) (found : books.attempts.find id = some row)
      (unclosed : row.outcome = none)
      (kept : ∀ row, (set row).job = row.job ∧ (set row).number = row.number ∧
        (set row).worker = row.worker ∧ (set row).outcome = row.outcome) :
      Move books { books with attempts := books.attempts.modify id set same }

/-- Any number of moves. -/
abbrev Moves : Books → Books → Prop := Relation.ReflTransGen Move

/-- What a transaction that places nothing does to the books: some moves, or the closing of one
attempt. -/
inductive Turn (books : Books) : Books → Prop
  | moves {next : Books} (moved : Moves books next) : Turn books next
  | close (closing : Closing books) : Turn books closing.result

/-- What any transaction does to the books: a turn, or one placement. -/
inductive Change (books : Books) : Books → Prop
  | turn {next : Books} (taken : Turn books next) : Change books next
  | place (placement : Placement books) : Change books placement.result

/-- A transaction body moves the books. -/
def MovesBooks {Result : Type} (body : Tx Result) : Prop :=
  Keeps (fun db next : Db => Moves db.toBooks next.toBooks) body

/-- A transaction body takes a turn of the books. -/
def TurnsBooks {Result : Type} (body : Tx Result) : Prop :=
  Keeps (fun db next : Db => Turn db.toBooks next.toBooks) body

/-- A transaction body changes the books. -/
def ChangesBooks {Result : Type} (body : Tx Result) : Prop :=
  Keeps (fun db next : Db => Change db.toBooks next.toBooks) body

theorem MovesBooks.turns {Result : Type} {body : Tx Result} (moves : MovesBooks body) :
    TurnsBooks body :=
  fun db result next finished => .moves (moves db result next finished)

theorem Quiet.moves {Result : Type} {body : Tx Result} (quiet : Quiet body) :
    MovesBooks body := by
  intro db result next finished
  rw [quiet db result next finished]

theorem moves_bind {Result Other : Type} {first : Tx Other} {rest : Other → Tx Result}
    (movesFirst : MovesBooks first) (movesRest : ∀ value, MovesBooks (rest value)) :
    MovesBooks (first >>= rest) :=
  keeps_bind Relation.ReflTransGen.trans movesFirst movesRest

/-! ### State changes -/

theorem transition_spec {job next : Job} {target : JobState} {actor : Actor}
    {reason correlation : String} {time : Time} {record : TransitionRecord}
    (moved : transition job target actor reason correlation time = .ok (next, record)) :
    job.state.canTransition target = true ∧ next.state = target ∧ next.attempt = job.attempt ∧
      next.id = job.id ∧ next.maxAttempts = job.maxAttempts := by
  unfold transition at moved
  by_cases missing : reason = ""
  · rw [if_pos missing] at moved
    cases moved
  by_cases legal : job.state.canTransition target = true
  · rw [if_neg missing, if_neg (not_not.mpr legal)] at moved
    cases moved
    exact ⟨legal, rfl, rfl, rfl, rfl⟩
  · rw [if_neg missing, if_pos legal] at moved
    cases moved

/-- A persisted transition followed a legal edge and wrote the job row, and nothing else of the
books. -/
theorem apply_spec {job result : Job} {target : JobState} {actor : Actor}
    {reason correlation : String} {time : Time} {db next : Db}
    (finished : Service.apply job target actor reason correlation time db = .ok (result, next)) :
    job.state.canTransition target = true ∧ result.state = target ∧
      result.attempt = job.attempt ∧ result.id = job.id ∧ result.maxAttempts = job.maxAttempts ∧
      (∃ row, db.jobs.find job.id = some row ∧ row.version = job.version) ∧
      next.toBooks = { db.toBooks with
        jobs := db.jobs.modify job.id fun row => Job.saved row result } := by
  simp only [Service.apply, bind_ok, fallible_ok] at finished
  obtain ⟨⟨moved, record⟩, _, ⟨legal, rfl⟩, _, middle, saved, _, _, recorded, final⟩ := finished
  cases pure_ok.mp final
  obtain ⟨edge, state, attempt, id, limit⟩ := transition_spec legal
  obtain ⟨row, found, version, wrote⟩ := Tx.saveJob_spec saved
  rw [id] at found
  refine ⟨edge, state, attempt, id, limit, ⟨row, found, version⟩, ?_⟩
  rw [Tx.insertTransition_quiet record _ _ _ recorded, wrote]
  simp only [id]

/-- A transition is not a start: the job's first start stays as it was. -/
theorem apply_started {job result : Job} {target : JobState} {actor : Actor}
    {reason correlation : String} {time : Time} {db next : Db}
    (finished : Service.apply job target actor reason correlation time db = .ok (result, next)) :
    result.startedAt = job.startedAt := by
  simp only [Service.apply, bind_ok, fallible_ok] at finished
  obtain ⟨⟨moved, record⟩, _, ⟨legal, rfl⟩, _, _, _, _, _, _, final⟩ := finished
  cases pure_ok.mp final
  unfold transition at legal
  split at legal
  · cases legal
  split at legal
  · cases legal
  · cases legal
    rfl

theorem apply_leases (job : Job) (target : JobState) (actor : Actor) (reason correlation : String)
    (time : Time) : KeepsLeases (Service.apply job target actor reason correlation time) := by
  refine keepsLeases_bind (keepsLeases_fallible _) fun moved => ?_
  refine keepsLeases_bind (Tx.saveJob_leases _ _) fun _ => ?_
  exact keepsLeases_bind (Tx.insertTransition_leases _) fun _ => keepsLeases_pure _

/-- A transition that neither takes nor gives back capacity, on the row as it is stored. -/
theorem apply_moves {job : Job} {target : JobState} {actor : Actor} {reason correlation : String}
    {time : Time} {db next : Db} {result row : Job}
    (stored : db.jobs.find job.id = some row) (state : row.state = job.state)
    (attempt : row.attempt = job.attempt)
    (holding : target.holdsCapacity = job.state.holdsCapacity)
    (waits : target = .submitted ∨ target = .queued → job.state = .submitted ∨ job.state = .queued)
    (finished : Service.apply job target actor reason correlation time db = .ok (result, next)) :
    Moves db.toBooks next.toBooks := by
  obtain ⟨edge, reached, sameAttempt, id, _, _, wrote⟩ := apply_spec finished
  rw [wrote, ← id]
  rw [← id] at stored
  refine .single (Move.job stored ⟨?_, ?_, ?_, ?_⟩)
  · rw [state]
    exact JobState.canTransition_not_terminal edge
  · rw [sameAttempt, attempt]
  · rw [reached, holding, state]
  · simpa [Job.waiting, reached, state] using waits

/-! ### Closing an attempt -/

/-- A settlement that went through left the projection with that much less. -/
theorem settleCost_spec {job : Job} {attempt : AttemptID} {budget after : JobBudget}
    {cost : MicroUSD} {now : Time} {db next : Db} (isOpen : budget.closed = false)
    (finished : Service.settleCost budget (entryOf job attempt .settle cost now) db =
      .ok (after, next)) :
    after.outstanding = budget.outstanding - max cost 0 ∧
      next.toBooks = { db.toBooks with
        ledger := db.ledger ++ charge (entryOf job attempt .settle (max cost 0) now) } := by
  rw [Service.settleCost, entryOf_amount] at finished
  by_cases positive : cost > 0
  · have larger : max cost 0 = cost := max_eq_left (le_of_lt positive)
    rw [if_pos positive] at finished
    simp only [bind_ok, fallible_ok, pure_ok] at finished
    obtain ⟨_, _, ⟨applied, rfl⟩, _, _, inserted, final⟩ := finished
    cases final
    obtain ⟨_, wrote⟩ := Tx.insertLedger_spec inserted
    have total : after = { budget with settled := budget.settled + cost } := by
      rw [applyLedger, entryOf_amount, if_neg (not_le.mpr positive), if_neg (by simp [isOpen])] at applied
      simp only [entryOf] at applied
      split at applied
      · cases applied
      · cases applied
        rfl
    rw [larger, charge_positive positive]
    refine ⟨?_, wrote⟩
    rw [total]
    simp only [JobBudget.outstanding]
    grind
  · have smaller : max cost 0 = 0 := max_eq_right (not_lt.mp positive)
    rw [if_neg positive] at finished
    cases pure_ok.mp finished
    rw [smaller, charge_nonpositive (lt_irrefl 0), List.append_nil]
    exact ⟨(sub_zero _).symm, rfl⟩

/-- Settling a closed attempt appends its lines to the ledger, and nothing else. -/
theorem settleAttempt_spec {job : Job} {attempt : AttemptID} {budget : JobBudget}
    {cost : MicroUSD} {now : Time} {db next : Db} {result : Unit}
    (isOpen : budget.closed = false)
    (finished : Service.settleAttempt job attempt budget cost now db = .ok (result, next)) :
    next.toBooks = { db.toBooks with
      ledger := db.ledger ++ closingLines job attempt budget.outstanding cost now } := by
  unfold Service.settleAttempt at finished
  obtain ⟨after, middle, settles, releases⟩ := bind_ok.mp finished
  obtain ⟨left, wrote⟩ := settleCost_spec isOpen settles
  have amount : (closeBudget after (entryOf job attempt .settle cost now)).2 =
      entryOf job attempt .release (budget.outstanding - max cost 0) now := by
    simp only [closeBudget, entryOf, left]
  change whenever ((closeBudget after (entryOf job attempt .settle cost now)).2.amount > 0)
    (Tx.insertLedger (closeBudget after (entryOf job attempt .settle cost now)).2) middle =
      .ok (result, next) at releases
  rw [amount] at releases
  rw [closingLines]
  rcases whenever_ok.mp releases with ⟨positive, inserted⟩ | ⟨nonpositive, rfl⟩
  · obtain ⟨_, final⟩ := Tx.insertLedger_spec inserted
    rw [charge_positive positive, ← List.append_assoc, final, wrote]
  · rw [charge_nonpositive nonpositive, List.append_nil, wrote]

theorem settleAttempt_leases (job : Job) (attempt : AttemptID) (budget : JobBudget)
    (cost : MicroUSD) (now : Time) :
    KeepsLeases (Service.settleAttempt job attempt budget cost now) := by
  refine keepsLeases_bind ?_ fun _ => keepsLeases_whenever _ (Tx.insertLedger_leases _)
  unfold Service.settleCost
  split
  · refine keepsLeases_bind (keepsLeases_fallible _) fun _ => ?_
    exact keepsLeases_bind (Tx.insertLedger_leases _) fun _ => keepsLeases_pure _
  · exact keepsLeases_pure _

/-- What closing a job's attempt with an outcome leaves: the job goes where the outcome sends it,
along an edge, and the attempt's lease goes. -/
structure Closed {books : Books} (closing : Closing books) (leases : Table Lease Lease.attempt)
    (job : Job) (outcome : AttemptOutcome) (time : Time) (next : Db) : Prop where
  ofJob : closing.job = job
  withOutcome : closing.outcome = outcome
  wrote : next.toBooks = closing.result
  lease : next.leases = leases.erase fun row => row.attempt = closing.attempt.id
  edge : job.state.canTransition closing.next.state = true
  state : closing.next.state = jobStateForOutcome job outcome time

/-- Closing a job's attempt is a closing of the books. -/
theorem closeAttempt_closing {service : Service} {job result : Job} {outcome : AttemptOutcome}
    {exit : Option Int} {reason correlation : String} {actor : Actor} {now appliedAt : Time}
    {db next : Db} (stored : db.jobs.find job.id = some job)
    (finished : service.closeAttempt job outcome exit reason actor correlation now appliedAt db =
      .ok (result, next)) :
    ∃ closing : Closing db.toBooks, Closed closing db.leases job outcome now next := by
  unfold Service.closeAttempt at finished
  obtain ⟨reservation, _, readReservation, finished⟩ := bind_ok.mp finished
  obtain ⟨⟨reservationFound, reservationJob, active⟩, rfl⟩ :=
    Tx.activeReservation_spec readReservation
  obtain ⟨attempt, _, readAttempt, finished⟩ := bind_ok.mp finished
  obtain ⟨attemptFound, rfl⟩ := Tx.getAttempt_spec readAttempt
  obtain ⟨closed, _, closes, finished⟩ := bind_ok.mp finished
  obtain ⟨closesAttempt, rfl⟩ := fallible_ok.mp closes
  obtain ⟨_, one, writesAttempt, finished⟩ := bind_ok.mp finished
  obtain ⟨row, rowFound, unclosed, wroteAttempt⟩ := Tx.closeAttempt_spec writesAttempt
  obtain ⟨budget, _, readBudget, finished⟩ := bind_ok.mp finished
  obtain ⟨outstanding, rfl⟩ := Tx.jobBudget_spec readBudget
  simp only at finished
  obtain ⟨_, two, settles, finished⟩ := bind_ok.mp finished
  have wroteLedger := settleAttempt_spec rfl settles
  obtain ⟨released, three, releases, finished⟩ := bind_ok.mp finished
  have reservationsKept : two.reservations = db.reservations := by rw [wroteLedger, wroteAttempt]
  obtain ⟨rfl, wroteReservation⟩ :=
    Tx.releaseReservation_spec (reservationsKept ▸ reservationFound) active releases
  obtain ⟨_, four, returns, finished⟩ := bind_ok.mp finished
  rcases whenever_ok.mp returns with ⟨_, returned⟩ | ⟨impossible, _⟩
  swap
  · exact absurd rfl impossible
  obtain ⟨worker, workerFound, reserved, wroteWorker⟩ := Tx.releaseCapacity_spec returned
  obtain ⟨_, five, deletes, finished⟩ := bind_ok.mp finished
  have wroteLease := Tx.deleteLease_quiet attempt.id _ _ _ deletes
  obtain ⟨edge, reached, sameAttempt, sameID, _, _, wroteJob⟩ := apply_spec finished
  have leases : next.leases = db.leases.erase fun row => row.attempt = attempt.id := by
    rw [apply_leases _ _ _ _ _ _ _ _ _ finished, Tx.deleteLease_leases deletes,
      Tx.releaseCapacity_leases _ _ _ _ _ returned,
      Tx.releaseReservation_leases _ _ _ _ _ _ releases,
      settleAttempt_leases _ _ _ _ _ _ _ _ settles, Tx.closeAttempt_leases _ _ _ _ writesAttempt]
  have attemptOpen : attempt.outcome = none ∧ closed = { attempt with
      outcome := some outcome, exitCode := exit, reason := reason, endedAt := some now } := by
    unfold ControlPlane.closeAttempt at closesAttempt
    split at closesAttempt
    · cases closesAttempt
    · next unset =>
      cases closesAttempt
      exact ⟨by simpa using unset, rfl⟩
  obtain ⟨attemptOpen, rfl⟩ := attemptOpen
  have ownID : attempt.id = reservation.attempt := Table.find_key attemptFound
  have workersKept : three.workers = db.workers := by
    rw [wroteReservation, wroteLedger, wroteAttempt]
  have ledgerKept : one.ledger = db.ledger := by rw [wroteAttempt]
  rw [ledgerKept] at outstanding
  have final : next.toBooks =
      { projects := db.projects
        workers := db.workers.modify reservation.worker (Worker.giveBack reservation.gpus)
        jobs := db.jobs.modify job.id fun row => Job.saved row result
        attempts := db.attempts.modify attempt.id (Attempt.ended { attempt with
          outcome := some outcome, exitCode := exit, reason := reason, endedAt := some now })
        reservations := db.reservations.modify reservation.id
          (Reservation.release now outcome.text)
        ledger := db.ledger ++ closingLines job attempt.id (outstandingOf db.ledger job.id)
          (if attempt.ackedAt.isSome then
            min (service.runCost job attempt reservation now) budget.outstanding else 0) now } := by
    rw [wroteJob, wroteLease, wroteWorker, wroteReservation, wroteLedger, wroteAttempt,
      ← outstanding]
    rfl
  rw [workersKept] at workerFound
  refine ⟨{
    job := job, jobFound := stored
    unfinished := JobState.canTransition_not_terminal edge
    reservation := reservation, reservationFound := reservationFound
    reservationJob := reservationJob
    active := by simpa [Reservation.active] using active
    attempt := attempt, attemptFound := attemptFound, unclosed := attemptOpen
    outcome := outcome, exit := exit, reason := reason
    cost := if attempt.ackedAt.isSome then
      min (service.runCost job attempt reservation now) budget.outstanding else 0
    capped := ?_
    worker := worker, workerFound := workerFound, reserved := reserved
    now := now, next := result, nextAttempt := sameAttempt
    nextState := reached ▸ jobStateForOutcome_not_holding job outcome now
    nextWaiting := ?_ }, rfl, rfl, ?_, leases, reached ▸ edge, reached⟩
  · intro positive
    rw [← outstanding]
    split at positive
    · next acked =>
      rw [if_pos acked]
      exact min_le_right _ _
    · exact absurd positive (lt_irrefl 0)
  · intro waits
    rw [Job.waiting, reached] at waits
    refine @jobStateForOutcome_queued job outcome now ?_
    simpa [jobStateForOutcome_ne_submitted] using waits
  · exact final

theorem closeAttempt_spec {service : Service} {job result : Job} {outcome : AttemptOutcome}
    {exit : Option Int} {reason correlation : String} {actor : Actor} {now appliedAt : Time}
    {db next : Db} (stored : db.jobs.find job.id = some job)
    (finished : service.closeAttempt job outcome exit reason actor correlation now appliedAt db =
      .ok (result, next)) :
    ∃ closing : Closing db.toBooks, closing.job = job ∧ closing.outcome = outcome ∧
      next.toBooks = closing.result := by
  obtain ⟨closing, closed⟩ := closeAttempt_closing stored finished
  exact ⟨closing, closed.ofJob, closed.withOutcome, closed.wrote⟩

/-! ### Placing a job -/

/-- Placing a queued job is a placement of the books, at the price the pool has then. -/
theorem place_spec {epoch : Int} {job : Job} {decision : Decision} {actor : Actor}
    {tick : String} {attempt : AttemptID} {reservation : ReservationID} {now appliedAt : Time}
    {db next : Db} {result : Unit} (stored : db.jobs.find job.id = some job)
    (queued : job.state = .queued)
    (finished : Service.place epoch job decision actor tick attempt reservation now appliedAt db =
      .ok (result, next)) :
    ∃ placement : Placement db.toBooks, placement.job = job ∧ placement.epoch = epoch ∧
      placement.attempt = attempt ∧ placement.pool = decision.chosenPool ∧
      (∃ pool, db.pools.find placement.pool = some pool ∧ pool.pricePerGPUHour = placement.rate) ∧
      next.toBooks = placement.result := by
  unfold Service.place at finished
  obtain ⟨_, _, retries, finished⟩ := bind_ok.mp finished
  obtain ⟨left, rfl⟩ := require_ok.mp retries
  obtain ⟨project, _, readProject, finished⟩ := bind_ok.mp finished
  obtain ⟨projectFound, rfl⟩ := Tx.lockProject_spec readProject
  obtain ⟨spend, _, readSpend, finished⟩ := bind_ok.mp finished
  obtain ⟨spent, rfl⟩ := Tx.projectSpend_spec readSpend
  obtain ⟨pool, _, readPool, finished⟩ := bind_ok.mp finished
  obtain ⟨poolFound, rfl⟩ := Tx.getPool_spec readPool
  simp only at finished
  obtain ⟨_, _, fits, finished⟩ := bind_ok.mp finished
  obtain ⟨enough, rfl⟩ := require_ok.mp fits
  obtain ⟨_, one, reserves, finished⟩ := bind_ok.mp finished
  obtain ⟨worker, workerFound, room, wroteWorker⟩ := Tx.reserveCapacity_spec reserves
  obtain ⟨_, two, opens, finished⟩ := bind_ok.mp finished
  obtain ⟨attempts, attemptInserted, wroteAttempt⟩ := Tx.insertAttempt_spec opens
  obtain ⟨_, three, books, finished⟩ := bind_ok.mp finished
  obtain ⟨positive, reservations, reservationInserted, wroteReservation⟩ :=
    Tx.insertReservation_spec books
  obtain ⟨_, four, holds, finished⟩ := bind_ok.mp finished
  have wroteLedger : four.toBooks = { three.toBooks with
      ledger := three.ledger ++ charge (entryOf job attempt .hold
        (costOf pool.pricePerGPUHour job.requirements.gpus job.maxRuntime) now) } := by
    rcases whenever_ok.mp holds with ⟨positive, inserted⟩ | ⟨nonpositive, rfl⟩
    · rw [charge_positive positive]
      exact (Tx.insertLedger_spec inserted).2
    · rw [charge_nonpositive nonpositive, List.append_nil]
  obtain ⟨moved, five, applies, finished⟩ := bind_ok.mp finished
  obtain ⟨_, reached, sameAttempt, _, _, _, wroteJob⟩ := apply_spec applies
  have wroteOutbox := Tx.enqueue_quiet _ _ _ _ _ _ _ finished
  have ownWorker : worker.id = decision.chosenWorker := Table.find_key workerFound
  have ownPool : pool.id = decision.chosenPool := Table.find_key poolFound
  have ownProject : project.id = job.project := Table.find_key projectFound
  have final : next.toBooks =
      { projects := db.projects
        workers := db.workers.modify worker.id (Worker.reserve job.requirements.gpus)
        jobs := db.jobs.modify job.id fun row => Job.saved row moved
        attempts := attempts
        reservations := reservations
        ledger := db.ledger ++ charge (entryOf job attempt .hold
          (costOf pool.pricePerGPUHour job.requirements.gpus job.maxRuntime) now) } := by
    rw [wroteOutbox, wroteJob, wroteLedger, wroteReservation, wroteAttempt, wroteWorker, ownWorker]
  refine ⟨{
    job := job, jobFound := stored, queued := queued
    retries := by simpa [Job.retriesLeft] using left
    project := project, projectFound := projectFound
    pool := pool.id, rate := pool.pricePerGPUHour
    affordable := ?_
    worker := worker, workerFound := ownWorker ▸ workerFound, room := room, positive := positive
    attempt := attempt, attempts := attempts
    reservation := reservation, reservations := reservations, epoch := epoch, now := now
    next := moved, nextAttempt := sameAttempt, nextState := reached
    attemptInserted := ?_, reservationInserted := ?_ }, rfl, rfl, rfl, ownPool,
    ⟨pool, ownPool ▸ poolFound, rfl⟩, final⟩
  · rw [ownProject] at spent
    have within : costOf pool.pricePerGPUHour job.requirements.gpus job.maxRuntime ≤
        project.budget - spend.1 - spend.2 := enough
    rw [committedOf, ← spent]
    linarith
  · rw [wroteWorker, ← ownWorker] at attemptInserted
    exact attemptInserted
  · rw [wroteAttempt, wroteWorker, ← ownWorker] at reservationInserted
    exact reservationInserted

end GpuBroker.ControlPlane
