/-
This file is the capacity invariant: which jobs hold GPUs, through which
attempt and reservation, and what each worker's counter says about them.

The coupling runs over four tables. A reservation is paired with the attempt it
was made for, and the two end together; an unreleased one belongs to a job in a
capacity-holding state, is that job's only one, and its attempt carries the
job's current number. The counter of a worker is the sum over its unreleased
reservations. Every change of the books keeps all of it.
-/
import GpuBroker.ControlPlane.Moves

namespace GpuBroker.ControlPlane

open Library

/-! ### What the two big moves leave -/

namespace Placement

variable {books : Books} (placement : Placement books)

/-- The reservation the placement makes. -/
def made : Reservation where
  id := placement.reservation
  job := placement.job.id
  attempt := placement.attempt
  worker := placement.worker.id
  pool := placement.pool
  gpus := placement.job.requirements.gpus
  priceRate := placement.rate
  holdAmount := placement.hold
  epoch := placement.epoch
  createdAt := placement.now
  releasedAt := none
  releaseReason := none

/-- The attempt the placement opens. -/
def opened : Attempt where
  id := placement.attempt
  job := placement.job.id
  number := placement.job.attempt + 1
  worker := placement.worker.id
  createdAt := placement.now
  ackedAt := none
  endedAt := none
  outcome := none
  exitCode := none
  reason := ""
  stopRequested := none

theorem find_job (id : JobID) : placement.result.jobs.find id =
    if id = placement.job.id then some (Job.saved placement.job placement.next)
    else books.jobs.find id :=
  Table.find_modify_found placement.jobFound (fun row => Job.saved row placement.next)
    (fun _ => rfl) id

theorem find_worker (id : WorkerID) : placement.result.workers.find id =
    if id = placement.worker.id then
      some (placement.worker.reserve placement.job.requirements.gpus)
    else books.workers.find id :=
  Table.find_modify_found placement.workerFound (Worker.reserve placement.job.requirements.gpus)
    (fun _ => rfl) id

theorem find_attempt (id : AttemptID) : placement.result.attempts.find id =
    if id = placement.attempt then some placement.opened else books.attempts.find id :=
  Table.find_insert placement.attemptInserted id

theorem find_reservation (id : ReservationID) : placement.result.reservations.find id =
    if id = placement.reservation then some placement.made else books.reservations.find id :=
  Table.find_insert placement.reservationInserted id

/-- The counter of the placement's worker owes the job's GPUs from now on. -/
theorem reservedOn_result (id : WorkerID) :
    reservedOn placement.result.reservations id =
      reservedOn books.reservations id +
        if placement.worker.id = id then placement.job.requirements.gpus else 0 := by
  refine (Table.total_insert placement.reservationInserted _).trans ?_
  simp [reservedOn, Reservation.active]

theorem fresh_attempt : books.attempts.find placement.attempt = none :=
  (Table.insert_eq_some placement.attemptInserted).1

theorem fresh_reservation : books.reservations.find placement.reservation = none :=
  (Table.insert_eq_some placement.reservationInserted).1

end Placement

namespace Closing

variable {books : Books} (closing : Closing books)

/-- The reservation as the closing leaves it. -/
def releasedRow : Reservation :=
  closing.reservation.release closing.now closing.outcome.text

theorem attempt_id : closing.attempt.id = closing.reservation.attempt :=
  Table.find_key closing.attemptFound

theorem attempt_stored : books.attempts.find closing.attempt.id = some closing.attempt := by
  rw [closing.attempt_id]
  exact closing.attemptFound

theorem find_job (id : JobID) : closing.result.jobs.find id =
    if id = closing.job.id then some (Job.saved closing.job closing.next)
    else books.jobs.find id :=
  Table.find_modify_found closing.jobFound (fun row => Job.saved row closing.next)
    (fun _ => rfl) id

theorem find_worker (id : WorkerID) : closing.result.workers.find id =
    if id = closing.reservation.worker then
      some (closing.worker.giveBack closing.reservation.gpus)
    else books.workers.find id :=
  Table.find_modify_found closing.workerFound (Worker.giveBack closing.reservation.gpus)
    (fun _ => rfl) id

theorem find_attempt (id : AttemptID) : closing.result.attempts.find id =
    if id = closing.attempt.id then some closing.closed else books.attempts.find id :=
  Table.find_modify_found closing.attempt_stored (Attempt.ended closing.closed) (fun _ => rfl) id

theorem find_reservation (id : ReservationID) : closing.result.reservations.find id =
    if id = closing.reservation.id then some closing.releasedRow
    else books.reservations.find id :=
  Table.find_modify_found closing.reservationFound
    (Reservation.release closing.now closing.outcome.text) (fun _ => rfl) id

/-- The counter of the closing's worker no longer owes the reservation's GPUs. -/
theorem reservedOn_result (id : WorkerID) :
    reservedOn closing.result.reservations id =
      reservedOn books.reservations id -
        if closing.reservation.worker = id then closing.reservation.gpus else 0 := by
  refine (Table.total_modify closing.reservationFound
    (Reservation.release closing.now closing.outcome.text) (fun _ => rfl) _).trans ?_
  simp [reservedOn, Reservation.active, Reservation.release, closing.active]

end Closing

/-! ### The invariant -/

/-- A reservation and the rows it refers to: its job asked for that many GPUs, its attempt is of
that job on that worker and is open exactly while the reservation is unreleased. -/
structure Paired (books : Books) (row : Reservation) : Prop where
  positive : 0 < row.gpus
  job : ∃ job, books.jobs.find row.job = some job ∧ job.requirements.gpus = row.gpus
  attempt : ∃ attempt, books.attempts.find row.attempt = some attempt ∧ attempt.job = row.job ∧
    attempt.worker = row.worker ∧ (attempt.outcome = none ↔ row.releasedAt = none)
  worker : ∃ worker, books.workers.find row.worker = some worker

structure Sound (books : Books) : Prop where
  paired : ∀ id row, books.reservations.find id = some row → Paired books row
  /-- The job of an unreleased reservation holds capacity under the attempt's number. -/
  current : ∀ id row, books.reservations.find id = some row → row.releasedAt = none →
    ∀ job attempt, books.jobs.find row.job = some job →
      books.attempts.find row.attempt = some attempt →
        job.state.holdsCapacity = true ∧ attempt.number = job.attempt
  covered : ∀ id attempt, books.attempts.find id = some attempt →
    ∃ reservation row, books.reservations.find reservation = some row ∧ row.attempt = id
  /-- An attempt has one reservation. -/
  single : ∀ one two row other, books.reservations.find one = some row →
    books.reservations.find two = some other → row.attempt = other.attempt → one = two
  /-- A job has at most one unreleased reservation. -/
  exclusive : ∀ one two row other, books.reservations.find one = some row →
    books.reservations.find two = some other → row.releasedAt = none → other.releasedAt = none →
      row.job = other.job → one = two
  holding : ∀ id job, books.jobs.find id = some job → job.state.holdsCapacity = true →
    ∃ reservation row, books.reservations.find reservation = some row ∧ row.releasedAt = none ∧
      row.job = id
  stocked : ∀ id worker, books.workers.find id = some worker →
    worker.gpusReserved = reservedOn books.reservations id ∧
      worker.gpusReserved ≤ worker.capability.gpus
  retryable : ∀ id job, books.jobs.find id = some job → job.waiting = true →
    job.attempt < job.maxAttempts

theorem waiting_not_holding {job : Job} (waits : job.waiting = true) :
    job.state.holdsCapacity = false := by
  unfold Job.waiting at waits
  cases state : job.state <;> simp_all [JobState.holdsCapacity]

theorem queued_waits {job : Job} (queued : job.state = .queued) : job.waiting = true := by
  simp [Job.waiting, queued]

/-- A placement keeps the invariant: the queued job held nothing before, and holds exactly the new
attempt and reservation after. -/
theorem Sound.place {books : Books} (sound : Sound books) (placement : Placement books) :
    Sound placement.result := by
  have idle : placement.job.state.holdsCapacity = false :=
    waiting_not_holding (queued_waits placement.queued)
  have jobFound := placement.jobFound
  have workerFound := placement.workerFound
  have findJob := placement.find_job
  have findWorker := placement.find_worker
  have findAttempt := placement.find_attempt
  have findReservation := placement.find_reservation
  have freshAttempt := placement.fresh_attempt
  have freshReservation := placement.fresh_reservation
  have nextState := placement.nextState
  have nextAttempt := placement.nextAttempt
  have paired := sound.paired
  have current := sound.current
  refine ⟨?paired, ?current, ?covered, ?single, ?exclusive, ?holding, ?stocked, ?retryable⟩
  case paired =>
    intro id row found
    rw [findReservation] at found
    split at found
    · cases found
      refine ⟨placement.positive, ?_, ?_, ?_⟩
      · grind [Placement.made, Job.saved]
      · grind [Placement.made, Placement.opened]
      · grind [Placement.made, Worker.reserve]
    · obtain ⟨positive, hasJob, hasAttempt, hasWorker⟩ := paired id row found
      refine ⟨positive, ?_, ?_, ?_⟩
      · grind [Job.saved]
      · grind
      · grind
  case current =>
    intro id row found unreleased job attempt hasJob hasAttempt
    grind [Placement.made, Placement.opened, Job.saved, JobState.holdsCapacity, Paired]
  case covered =>
    intro id attempt found
    have covered := sound.covered
    grind [Placement.made]
  case single =>
    intro one two row other foundOne foundTwo same
    have single := sound.single
    grind [Placement.made, Paired]
  case exclusive =>
    -- an unreleased reservation of the placed job would make the job hold capacity already
    intro one two row other foundOne foundTwo unreleasedOne unreleasedTwo same
    have exclusive := sound.exclusive
    grind [Placement.made, Paired]
  case holding =>
    intro id job found holds
    have holding := sound.holding
    grind [Placement.made, Job.saved]
  case stocked =>
    intro id worker found
    have stocked := sound.stocked
    have room := placement.room
    have owes := placement.reservedOn_result id
    grind [Worker.reserve]
  case retryable =>
    intro id job found waits
    have retryable := sound.retryable
    grind [Job.saved, Job.waiting]

/-- A closing keeps the invariant: the job's one reservation and its one open attempt end
together, and the job holds nothing afterwards. -/
theorem Sound.close {books : Books} (sound : Sound books) (closing : Closing books) :
    Sound closing.result := by
  have jobFound := closing.jobFound
  have workerFound := closing.workerFound
  have reservationFound := closing.reservationFound
  have reservationJob := closing.reservationJob
  have active := closing.active
  have attemptFound := closing.attemptFound
  have attemptID := closing.attempt_id
  have unclosed := closing.unclosed
  have findJob := closing.find_job
  have findWorker := closing.find_worker
  have findAttempt := closing.find_attempt
  have findReservation := closing.find_reservation
  have nextState := closing.nextState
  have nextAttempt := closing.nextAttempt
  have paired := sound.paired
  have current := sound.current
  have single := sound.single
  have exclusive := sound.exclusive
  refine ⟨?paired, ?current, ?covered, ?single, ?exclusive, ?holding, ?stocked, ?retryable⟩
  case paired =>
    intro id row found
    rw [findReservation] at found
    split at found
    · cases found
      obtain ⟨positive, hasJob, hasAttempt, hasWorker⟩ := paired _ _ reservationFound
      refine ⟨positive, ?_, ?_, ?_⟩
      · grind [Closing.releasedRow, Reservation.release, Job.saved]
      · grind [Closing.releasedRow, Reservation.release, Closing.closed]
      · grind [Closing.releasedRow, Reservation.release]
    · obtain ⟨positive, hasJob, hasAttempt, hasWorker⟩ := paired id row found
      refine ⟨positive, ?_, ?_, ?_⟩
      · grind [Job.saved]
      · grind
      · grind
  case current =>
    -- another unreleased reservation of the job cannot exist, so none is left of it
    intro id row found unreleased job attempt hasJob hasAttempt
    grind [Closing.releasedRow, Reservation.release, Closing.closed, Job.saved]
  case covered =>
    intro id attempt found
    have covered := sound.covered
    grind [Closing.releasedRow, Reservation.release]
  case single =>
    intro one two row other foundOne foundTwo same
    grind [Closing.releasedRow, Reservation.release]
  case exclusive =>
    intro one two row other foundOne foundTwo unreleasedOne unreleasedTwo same
    grind [Closing.releasedRow, Reservation.release]
  case holding =>
    intro id job found holds
    have holding := sound.holding
    grind [Closing.releasedRow, Reservation.release, Job.saved]
  case stocked =>
    intro id worker found
    have stocked := sound.stocked
    have returned := closing.reservedOn_result id
    have positive := (paired _ _ reservationFound).positive
    grind [Worker.giveBack]
  case retryable =>
    intro id job found waits
    have retryable := sound.retryable
    have nextWaiting := closing.nextWaiting
    grind [Job.saved, Job.waiting]

/-! ### The moves of one table -/

theorem Sound.newWorker {books : Books} (sound : Sound books) {worker : Worker}
    {workers : Table Worker Worker.id} (inserted : books.workers.insert worker = some workers)
    (idle : worker.gpusReserved = 0) (positive : 0 < worker.capability.gpus) :
    Sound { books with workers } := by
  have fresh := (Table.insert_eq_some inserted).1
  have findWorker : ∀ id, workers.find id = if id = worker.id then some worker
      else books.workers.find id := Table.find_insert inserted
  -- no reservation names a worker that is not registered
  have unused : reservedOn books.reservations worker.id = 0 := by
    refine Table.total_zero fun id row found => ?_
    obtain ⟨host, hasHost⟩ := (sound.paired id row found).worker
    have other : row.worker ≠ worker.id := fun same => by
      rw [same, fresh] at hasHost
      cases hasHost
    simp [other]
  refine { sound with paired := fun id row found => ?_, stocked := fun id row found => ?_ }
  · obtain ⟨size, job, attempt, host, hasHost⟩ := sound.paired id row found
    refine ⟨size, job, attempt, ?_⟩
    rw [findWorker]
    split
    · exact ⟨worker, rfl⟩
    · exact ⟨host, hasHost⟩
  · change workers.find id = some row at found
    rw [findWorker] at found
    split at found
    · next same =>
      cases found
      rw [same, unused, idle]
      exact ⟨rfl, le_of_lt positive⟩
    · exact sound.stocked id row found

theorem Sound.workers {books : Books} (sound : Sound books) {which : Worker → Bool}
    {set : Worker → Worker} (same : ∀ row, (set row).id = row.id)
    (kept : ∀ row, (set row).capability = row.capability ∧
      (set row).gpusReserved = row.gpusReserved) :
    Sound { books with workers := books.workers.update which set same } := by
  have findWorker : ∀ id, (books.workers.update which set same).find id =
      (books.workers.find id).map fun row => if which row then set row else row :=
    Table.find_update books.workers which set same
  refine { sound with paired := fun id row found => ?_, stocked := fun id row found => ?_ }
  · obtain ⟨size, job, attempt, host, hasHost⟩ := sound.paired id row found
    refine ⟨size, job, attempt, ?_⟩
    rw [findWorker, hasHost]
    exact ⟨_, rfl⟩
  · change (books.workers.update which set same).find id = some row at found
    rw [findWorker] at found
    obtain ⟨old, hasOld, rfl⟩ := Option.map_eq_some_iff.mp found
    have stock := sound.stocked id old hasOld
    split
    · rw [(kept old).1, (kept old).2]
      exact stock
    · exact stock

theorem Sound.newJob {books : Books} (sound : Sound books) {job : Job} {jobs : Table Job Job.id}
    (inserted : books.jobs.insert job = some jobs) (submitted : job.state = .submitted)
    (first : job.attempt = 0) (atLeastOne : 1 ≤ job.maxAttempts) :
    Sound { books with jobs } := by
  have fresh := (Table.insert_eq_some inserted).1
  have findJob : ∀ id, jobs.find id = if id = job.id then some job else books.jobs.find id :=
    Table.find_insert inserted
  refine { sound with
    paired := fun id row found => ?_, current := fun id row found unreleased => ?_
    holding := fun id row found holds => ?_, retryable := fun id row found waits => ?_ }
  · obtain ⟨size, ⟨old, hasOld, gpus⟩, attempt, host⟩ := sound.paired id row found
    refine ⟨size, ⟨old, ?_, gpus⟩, attempt, host⟩
    rw [findJob, if_neg fun same => by rw [same, fresh] at hasOld; cases hasOld]
    exact hasOld
  · obtain ⟨_, ⟨old, hasOld, _⟩, _, _⟩ := sound.paired id row found
    have other : row.job ≠ job.id := fun same => by
      rw [same, fresh] at hasOld
      cases hasOld
    intro owner attempt hasOwner hasAttempt
    change jobs.find row.job = some owner at hasOwner
    rw [findJob, if_neg other] at hasOwner
    exact sound.current id row found unreleased owner attempt hasOwner hasAttempt
  · change jobs.find id = some row at found
    rw [findJob] at found
    split at found
    · cases found
      rw [submitted] at holds
      cases holds
    · exact sound.holding id row found holds
  · change jobs.find id = some row at found
    rw [findJob] at found
    split at found
    · cases found
      rw [first]
      exact lt_of_lt_of_le zero_lt_one atLeastOne
    · exact sound.retryable id row found waits

theorem Sound.job {books : Books} (sound : Sound books) {row next : Job}
    (found : books.jobs.find next.id = some row) (advance : Advance row next) :
    Sound { books with jobs := books.jobs.modify next.id fun row => Job.saved row next } := by
  have findJob : ∀ id, (books.jobs.modify next.id fun row => Job.saved row next).find id =
      if id = next.id then some (Job.saved row next) else books.jobs.find id :=
    Table.find_modify_found found (fun row => Job.saved row next) fun _ => rfl
  have sameAttempt := advance.attempt
  have sameHolding := advance.holding
  have waits := advance.waiting
  refine { sound with
    paired := fun id reservation present => ?_
    current := fun id reservation present unreleased => ?_
    holding := fun id job present holds => ?_, retryable := fun id job present waiting => ?_ }
  · obtain ⟨size, hasJob, attempt, host⟩ := sound.paired id reservation present
    refine ⟨size, ?_, attempt, host⟩
    grind [Job.saved]
  · have current := sound.current id reservation present unreleased
    grind [Job.saved]
  · have holding := sound.holding
    grind [Job.saved]
  · have retryable := sound.retryable
    grind [Job.saved, Job.waiting]

theorem Sound.attempt {books : Books} (sound : Sound books) {row : Attempt} {id : AttemptID}
    {set : Attempt → Attempt} (same : ∀ row, (set row).id = row.id)
    (found : books.attempts.find id = some row)
    (kept : ∀ row, (set row).job = row.job ∧ (set row).number = row.number ∧
      (set row).worker = row.worker ∧ (set row).outcome = row.outcome) :
    Sound { books with attempts := books.attempts.modify id set same } := by
  have findAttempt : ∀ other, (books.attempts.modify id set same).find other =
      if other = id then some (set row) else books.attempts.find other :=
    Table.find_modify_found found set same
  refine { sound with
    paired := fun other reservation present => ?_
    current := fun other reservation present unreleased => ?_
    covered := fun other attempt present => ?_ }
  · obtain ⟨size, job, hasAttempt, host⟩ := sound.paired other reservation present
    refine ⟨size, job, ?_, host⟩
    grind
  · have current := sound.current other reservation present unreleased
    grind
  · have covered := sound.covered
    grind

theorem Sound.move {books next : Books} (sound : Sound books) (moved : Move books next) :
    Sound next := by
  cases moved with
  | newProject inserted nonneg =>
      exact { sound with paired := fun id row found => { sound.paired id row found with } }
  | newWorker inserted idle positive => exact sound.newWorker inserted idle positive
  | workers which set same kept => exact sound.workers same kept
  | newJob inserted submitted first atLeastOne positive registered =>
      exact sound.newJob inserted submitted first atLeastOne
  | job found advance => exact sound.job found advance
  | attempt id set same found unclosed kept => exact sound.attempt same found kept

theorem Sound.initial : Sound Db.initial.toBooks where
  paired id _ found := absurd ((Table.find_empty id).symm.trans found) nofun
  current id _ found := absurd ((Table.find_empty id).symm.trans found) nofun
  covered id _ found := absurd ((Table.find_empty id).symm.trans found) nofun
  single id _ _ _ found := absurd ((Table.find_empty id).symm.trans found) nofun
  exclusive id _ _ _ found := absurd ((Table.find_empty id).symm.trans found) nofun
  holding id _ found := absurd ((Table.find_empty id).symm.trans found) nofun
  stocked id _ found := absurd ((Table.find_empty id).symm.trans found) nofun
  retryable id _ found := absurd ((Table.find_empty id).symm.trans found) nofun

/-! ### What the invariant says of the rows -/

/-- Where the counters equal the sums, recomputing them changes nothing and repairs nothing. -/
theorem Sound.recomputeCapacity {db : Db} (sound : Sound db.toBooks) :
    Tx.recomputeCapacity db = .ok (0, db) := by
  have right : ∀ id worker, db.workers.find id = some worker →
      decide (worker.gpusReserved ≠ reservedOn db.reservations worker.id) = false := by
    intro id worker found
    rw [Table.find_key found, (sound.stocked id worker found).1]
    exact decide_eq_false fun differs => differs rfl
  have idle := Table.update_none db.workers
    (fun worker => decide (worker.gpusReserved ≠ reservedOn db.reservations worker.id))
    (fun row => { row with
      gpusReserved := min (reservedOn db.reservations row.id) row.capability.gpus
      version := row.version + 1 })
    (fun _ => rfl) right
  have none := Table.filter_none right
  show Except.ok (_, _) = _
  rw [none, idle]
  rfl

/-- The unreleased reservations of a job. -/
def activeOf (books : Books) (id : JobID) : List Reservation :=
  books.reservations.rows.filter fun row => row.job = id && row.active

/-- The open attempts of a job. -/
def openOf (books : Books) (id : JobID) : List Attempt :=
  books.attempts.rows.filter fun row => row.job = id && row.open

/-- A job holds capacity exactly when it has one unreleased reservation and one open attempt, the
attempt carries the job's number, and the reservation is the attempt's, on its worker, with the
job's GPUs. -/
theorem Sound.holdsCapacity_iff {books : Books} (sound : Sound books) {id : JobID} {job : Job}
    (found : books.jobs.find id = some job) :
    job.state.holdsCapacity = true ↔
      ∃ reservation attempt, activeOf books id = [reservation] ∧ openOf books id = [attempt] ∧
        attempt.number = job.attempt ∧ reservation.attempt = attempt.id ∧
        reservation.worker = attempt.worker ∧ reservation.gpus = job.requirements.gpus := by
  constructor
  · intro holds
    obtain ⟨rid, reservation, present, unreleased, ofJob⟩ := sound.holding id job found holds
    obtain ⟨_, ⟨owner, hasOwner, gpus⟩, ⟨attempt, hasAttempt, attemptJob, onWorker, together⟩, _⟩ :=
      sound.paired rid reservation present
    rw [ofJob, found] at hasOwner
    cases hasOwner
    have number := (sound.current rid reservation present unreleased job attempt
      (ofJob ▸ found) hasAttempt).2
    refine ⟨reservation, attempt, Table.filter_single present ?_ ?_,
      Table.filter_single hasAttempt ?_ ?_, number, (Table.find_key hasAttempt).symm,
      onWorker.symm, gpus.symm⟩
    · simp [ofJob, Reservation.active, unreleased]
    · intro other each presentOther chosen
      simp only [Reservation.active, Bool.and_eq_true, decide_eq_true_eq,
        Option.isNone_iff_eq_none] at chosen
      exact sound.exclusive other rid each reservation presentOther present chosen.2 unreleased
        (chosen.1.trans ofJob.symm)
    · simp [attemptJob, ofJob, Attempt.open, together.mpr unreleased]
    · intro other each presentOther chosen
      simp only [Attempt.open, Bool.and_eq_true, decide_eq_true_eq,
        Option.isNone_iff_eq_none] at chosen
      -- the open attempt's own reservation is unreleased, hence the job's only one
      obtain ⟨oid, own, presentOwn, ofAttempt⟩ := sound.covered other each presentOther
      obtain ⟨_, _, ⟨again, hasAgain, againJob, _, againTogether⟩, _⟩ :=
        sound.paired oid own presentOwn
      rw [ofAttempt, presentOther] at hasAgain
      cases hasAgain
      have sameReservation := sound.exclusive oid rid own reservation presentOwn present
        (againTogether.mp chosen.2) unreleased (againJob.symm.trans (chosen.1.trans ofJob.symm))
      rw [sameReservation, present] at presentOwn
      cases presentOwn
      exact ofAttempt.symm
  · rintro ⟨reservation, attempt, active, _⟩
    have member : reservation ∈ activeOf books id := active ▸ List.mem_singleton_self reservation
    obtain ⟨present, chosen⟩ := List.mem_filter.mp member
    simp only [Reservation.active, Bool.and_eq_true, decide_eq_true_eq,
      Option.isNone_iff_eq_none] at chosen
    have stored := Table.find_of_mem present
    obtain ⟨_, _, ⟨own, hasOwn, _⟩, _⟩ := sound.paired _ reservation stored
    exact (sound.current _ reservation stored chosen.2 job own (chosen.1 ▸ found) hasOwn).1

end GpuBroker.ControlPlane
