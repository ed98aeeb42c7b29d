/-
This file states what the control plane guarantees over whole runs: its
capacity bookkeeping, its money, and the outcomes of its attempts.

Each guarantee is of the state any sequence of calls leaves, and is read off the
two invariants and the permanence of what is final.
-/
import GpuBroker.ControlPlane.Outcomes

namespace GpuBroker.ControlPlane

open Library Library.Transaction

/-! ### Capacity -/

/-- Whatever the control plane was asked to do, in any order: a job holds capacity exactly when it
has one unreleased reservation and one open attempt that fit together, the counters of the workers
are the sums of their reservations and within their GPUs, a queued job has attempts left, and
recomputing the counters changes nothing. -/
theorem capacity_bookkeeping (service : Service) (calls : List Call) :
    let db := run service calls Database.initial
    (∀ id job, db.jobs.find id = some job →
      (job.state.holdsCapacity = true ↔ ∃ reservation attempt,
        activeOf db.toBooks id = [reservation] ∧ openOf db.toBooks id = [attempt] ∧
          attempt.number = job.attempt ∧ reservation.attempt = attempt.id ∧
          reservation.worker = attempt.worker ∧ reservation.gpus = job.requirements.gpus)) ∧
      (∀ id worker, db.workers.find id = some worker →
        worker.gpusReserved = reservedOn db.reservations id ∧
          worker.gpusReserved ≤ worker.capability.gpus) ∧
      (∀ id job, db.jobs.find id = some job → job.state = .queued →
        job.attempt < job.maxAttempts) ∧
      Tx.recomputeCapacity db.toDb = .ok (0, db.toDb) := by
  have sound := (run_initial service calls).sound
  exact ⟨fun _ _ found => sound.holdsCapacity_iff found, sound.stocked,
    fun id job found queued => sound.retryable id job found (queued_waits queued),
    sound.recomputeCapacity⟩

/-! ### Money -/

/-- A job has no unreleased reservation, or one. -/
theorem Sound.activeOf_cases {books : Books} (sound : Sound books) (id : JobID) :
    activeOf books id = [] ∨ ∃ row, books.reservations.find row.id = some row ∧
      row.releasedAt = none ∧ row.job = id ∧ activeOf books id = [row] := by
  cases rows : activeOf books id with
  | nil => exact Or.inl rfl
  | cons row rest =>
      have member : row ∈ activeOf books id := rows ▸ List.mem_cons_self
      obtain ⟨present, chosen⟩ := List.mem_filter.mp member
      simp only [Reservation.active, Bool.and_eq_true, decide_eq_true_eq,
        Option.isNone_iff_eq_none] at chosen
      have stored := Table.find_of_mem present
      refine Or.inr ⟨row, stored, chosen.2, chosen.1, ?_⟩
      rw [← rows]
      refine Table.filter_single stored ?_ fun other each found active => ?_
      · simp [chosen.1, Reservation.active, chosen.2]
      · simp only [Reservation.active, Bool.and_eq_true, decide_eq_true_eq,
          Option.isNone_iff_eq_none] at active
        exact sound.exclusive other row.id each row found stored active.2 chosen.2
          (active.1.trans chosen.1.symm)

/-- What is outstanding of a job is the hold of its one unreleased reservation, and nothing when
it has none. -/
theorem Balanced.outstanding_cases {books : Books} (balanced : Balanced books) (id : JobID) :
    (activeOf books id = [] ∧ outstandingOf books.ledger id = 0) ∨
      ∃ row, activeOf books id = [row] ∧ outstandingOf books.ledger id = row.holdAmount := by
  obtain ⟨sound, funded⟩ := balanced
  rcases sound.activeOf_cases id with none | ⟨row, found, unreleased, ofJob, single⟩
  · refine Or.inl ⟨none, (funded.perJob id).trans ?_⟩
    refine Table.total_zero fun other row found => if_neg ?_
    rintro ⟨active, ofJob⟩
    have member : row ∈ activeOf books id :=
      List.mem_filter.mpr ⟨Table.find_mem found, by simp [active, ofJob]⟩
    rw [none] at member
    exact absurd member List.not_mem_nil
  · refine Or.inr ⟨row, single, ?_⟩
    rw [← ofJob]
    exact funded.outstanding_held sound found unreleased

theorem Balanced.outstanding_nonneg {books : Books} (balanced : Balanced books) (id : ProjectID) :
    0 ≤ outstandingWhere books.ledger fun entry => entry.project = id := by
  rw [balanced.funded.perProject]
  refine Table.total_nonneg fun other row found => ?_
  split
  · exact balanced.funded.nonneg other row found
  · exact le_refl 0

/-- What is settled and what is outstanding of a project are the holds it has not released. -/
theorem settled_add_outstanding (ledger : List LedgerEntry) (id : ProjectID) :
    ledgerSum ledger .settle (fun entry => entry.project = id) +
      outstandingWhere ledger (fun entry => entry.project = id) = committedOf ledger id := by
  unfold outstandingWhere committedOf
  linarith

/-- A settlement closes the one hold of its attempt, and is at most that hold. -/
theorem Balanced.settlement_within {books : Books} (balanced : Balanced books)
    {entry : LedgerEntry} (member : entry ∈ books.ledger) (settles : entry.kind = .settle) :
    ∃ attempt hold, entry.attempt = some attempt ∧
      (entriesOf books.ledger attempt).filter (fun line => line.kind = .hold) = [hold] ∧
        hold.job = entry.job ∧ entry.amount ≤ hold.amount := by
  obtain ⟨id, row, job, found, hasJob, ofAttempt, ofJob, _⟩ := balanced.funded.owned entry member
  have own : entry ∈ entriesOf books.ledger row.attempt :=
    List.mem_filter.mpr ⟨member, by simp [ofAttempt]⟩
  have account := balanced.funded.accounted id row job found hasJob
  have jobID : job.id = row.job := Table.find_key hasJob
  unfold Accounted at account
  split at account
  · rw [account] at own
    rw [mem_charge own] at settles
    cases settles
  · obtain ⟨settled, time, nonneg, within, lines⟩ := account
    rw [lines] at own
    rcases List.mem_append.mp own with holds | closes
    · rw [mem_charge holds] at settles
      cases settles
    rcases List.mem_append.mp closes with settlement | releases
    swap
    · rw [mem_charge releases] at settles
      cases settles
    have line := mem_charge settlement
    have positive : settled > 0 := by
      by_contra none
      rw [charge_nonpositive (by simpa using none)] at settlement
      exact absurd settlement List.not_mem_nil
    have held : row.holdAmount > 0 := lt_of_lt_of_le positive within
    refine ⟨row.attempt, entryOf job row.attempt .hold row.holdAmount row.createdAt, ofAttempt,
      ?_, jobID.trans ofJob.symm, ?_⟩
    · rw [lines, charge_positive (by simpa using held), charge_positive (by simpa using positive),
        List.filter_append, List.filter_append]
      have releases : (charge (entryOf job row.attempt .release (row.holdAmount - settled)
          time)).filter (fun line => line.kind = .hold) = [] :=
        List.filter_eq_nil_iff.mpr fun other among => by
          rw [mem_charge among]
          exact fun absurdity => nomatch of_decide_eq_true absurdity
      rw [releases]
      rfl
    · rw [line]
      exact within

/-- Over any run: no project commits more than its budget or has less than nothing outstanding,
each job's outstanding amount is the hold of its one unreleased reservation or zero, a settlement
is at most the hold it closes, and the ledger of a finished job is final. -/
theorem money_bookkeeping (service : Service) (calls more : List Call) :
    let db := run service calls Database.initial
    (∀ id project, db.projects.find id = some project →
      ledgerSum db.ledger .settle (fun entry => entry.project = id) +
          outstandingWhere db.ledger (fun entry => entry.project = id) ≤ project.budget ∧
        0 ≤ outstandingWhere db.ledger fun entry => entry.project = id) ∧
      (∀ id, (activeOf db.toBooks id = [] ∧ outstandingOf db.ledger id = 0) ∨
        ∃ row, activeOf db.toBooks id = [row] ∧ outstandingOf db.ledger id = row.holdAmount) ∧
      (∀ entry ∈ db.ledger, entry.kind = .settle → ∃ attempt hold, entry.attempt = some attempt ∧
        (entriesOf db.ledger attempt).filter (fun line => line.kind = .hold) = [hold] ∧
          hold.job = entry.job ∧ entry.amount ≤ hold.amount) ∧
      ∀ id job, db.jobs.find id = some job → job.state.terminal = true →
        linesOf (run service more db).ledger id = linesOf db.ledger id := by
  have balanced := run_initial service calls
  refine ⟨fun id project found => ⟨?_, balanced.outstanding_nonneg id⟩,
    balanced.outstanding_cases, fun _ member => balanced.settlement_within member,
    fun id job found finished => ((run_final service more balanced).jobs id job found finished).2⟩
  rw [settled_add_outstanding]
  exact balanced.funded.budgeted id project found

/-! ### Outcomes -/

/-- A report every check made before the database is read lets through. -/
structure Reportable (principal : Principal) (events : List (WorkerEvent × Service.EventReadings)) :
    Prop where
  worker : principal.kind = .worker
  bounded : events ≠ [] ∧ events.length ≤ 500
  accepted : (events.all fun pair => Service.acceptedEvent pair.1) = true
  outcomes : (events.all fun pair => pair.1.kind ≠ some .exit || pair.1.outcome.isSome) = true

end GpuBroker.ControlPlane
