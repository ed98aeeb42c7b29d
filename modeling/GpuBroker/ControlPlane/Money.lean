/-
This file is the money invariant: what the ledger holds of every job and every
project, and what it says about each attempt.

What is outstanding of a job is the hold of its unreleased reservation, and
what is outstanding of a project is the sum of those of its jobs, so neither is
ever negative; holds that were not released stay within the project's budget.
The ledger of one attempt is its hold while the attempt runs, and the hold, one
settlement and one release that add up to it afterwards.
-/
import GpuBroker.ControlPlane.Capacity

namespace GpuBroker.ControlPlane

open Library

/-! ### Sums over the ledger -/

/-- What is held and neither settled nor released, over the entries a predicate selects. -/
def outstandingWhere (ledger : List LedgerEntry) (which : LedgerEntry → Bool) : MicroUSD :=
  ledgerSum ledger .hold which - ledgerSum ledger .settle which - ledgerSum ledger .release which

/-- What an entry does to the outstanding amount. -/
def LedgerEntry.signed (entry : LedgerEntry) : MicroUSD :=
  match entry.kind with
  | .hold => entry.amount
  | .settle | .release => -entry.amount

theorem ledgerSum_append (one two : List LedgerEntry) (kind : LedgerKind)
    (which : LedgerEntry → Bool) :
    ledgerSum (one ++ two) kind which = ledgerSum one kind which + ledgerSum two kind which := by
  simp [ledgerSum]

theorem ledgerSum_charge {entry : LedgerEntry} (nonneg : 0 ≤ entry.amount) (kind : LedgerKind)
    (which : LedgerEntry → Bool) :
    ledgerSum (charge entry) kind which =
      if which entry = true ∧ entry.kind = kind then entry.amount else 0 := by
  unfold charge
  by_cases positive : entry.amount > 0
  · rw [if_pos positive]
    by_cases chosen : which entry = true ∧ entry.kind = kind
    · simp [ledgerSum, chosen]
    · rw [if_neg chosen]
      have dropped : (which entry && entry.kind == kind) = false := by
        simpa using chosen
      simp [ledgerSum, dropped]
  · have zero : entry.amount = 0 := le_antisymm (not_lt.mp positive) nonneg
    rw [if_neg positive, zero, ite_self]
    rfl

theorem ledgerSum_none {ledger : List LedgerEntry} {kind : LedgerKind}
    {which : LedgerEntry → Bool} (none : ∀ entry ∈ ledger, which entry = false) :
    ledgerSum ledger kind which = 0 := by
  have empty : (ledger.filter fun entry => which entry && entry.kind == kind) = [] :=
    List.filter_eq_nil_iff.mpr fun entry member => by simp [none entry member]
  rw [ledgerSum, empty]
  rfl

theorem outstandingWhere_append (one two : List LedgerEntry) (which : LedgerEntry → Bool) :
    outstandingWhere (one ++ two) which = outstandingWhere one which + outstandingWhere two which := by
  simp only [outstandingWhere, ledgerSum_append]
  grind

theorem outstandingWhere_charge {entry : LedgerEntry} (nonneg : 0 ≤ entry.amount)
    (which : LedgerEntry → Bool) :
    outstandingWhere (charge entry) which = if which entry then entry.signed else 0 := by
  simp only [outstandingWhere, ledgerSum_charge nonneg, LedgerEntry.signed]
  cases entry.kind <;> by_cases chosen : which entry = true <;> simp [chosen]

/-! ### The invariant -/

/-- The entries of an attempt, in order. -/
def entriesOf (ledger : List LedgerEntry) (attempt : AttemptID) : List LedgerEntry :=
  ledger.filter fun entry => entry.attempt = some attempt

/-- What the ledger says of a reservation's attempt: its hold, and, once the reservation is
released, one settlement and one release that add up to the hold. Zero amounts leave no line. -/
def Accounted (job : Job) (row : Reservation) (entries : List LedgerEntry) : Prop :=
  if row.releasedAt = none then
    entries = charge (entryOf job row.attempt .hold row.holdAmount row.createdAt)
  else
    ∃ settled time, 0 ≤ settled ∧ settled ≤ row.holdAmount ∧
      entries = charge (entryOf job row.attempt .hold row.holdAmount row.createdAt) ++
        (charge (entryOf job row.attempt .settle settled time) ++
          charge (entryOf job row.attempt .release (row.holdAmount - settled) time))

/-- The project of a reservation's job. -/
def projectOf (books : Books) (row : Reservation) : Option ProjectID :=
  (books.jobs.find row.job).map Job.project

structure Funded (books : Books) : Prop where
  registered : ∀ id job, books.jobs.find id = some job →
    ∃ project, books.projects.find job.project = some project
  /-- Every entry is of an attempt's reservation, of its job and of the job's project. -/
  owned : ∀ entry ∈ books.ledger, ∃ id row job, books.reservations.find id = some row ∧
    books.jobs.find row.job = some job ∧ entry.attempt = some row.attempt ∧
      entry.job = row.job ∧ entry.project = job.project
  nonneg : ∀ id row, books.reservations.find id = some row → 0 ≤ row.holdAmount
  accounted : ∀ id row job, books.reservations.find id = some row →
    books.jobs.find row.job = some job →
      Accounted job row (entriesOf books.ledger row.attempt)
  perJob : ∀ id, outstandingWhere books.ledger (fun entry => entry.job = id) =
    books.reservations.total fun row => if row.active ∧ row.job = id then row.holdAmount else 0
  perProject : ∀ id, outstandingWhere books.ledger (fun entry => entry.project = id) =
    books.reservations.total fun row =>
      if row.active ∧ projectOf books row = some id then row.holdAmount else 0
  budgeted : ∀ id project, books.projects.find id = some project →
    committedOf books.ledger id ≤ project.budget

theorem entriesOf_append (one two : List LedgerEntry) (attempt : AttemptID) :
    entriesOf (one ++ two) attempt = entriesOf one attempt ++ entriesOf two attempt :=
  List.filter_append _ _

theorem mem_charge {entry line : LedgerEntry} (member : line ∈ charge entry) : line = entry := by
  unfold charge at member
  split at member
  · exact List.mem_singleton.mp member
  · exact absurd member List.not_mem_nil

theorem entriesOf_charge (job : Job) (attempt other : AttemptID) (kind : LedgerKind)
    (amount : MicroUSD) (time : Time) :
    entriesOf (charge (entryOf job attempt kind amount time)) other =
      if attempt = other then charge (entryOf job attempt kind amount time) else [] := by
  by_cases same : attempt = other
  · rw [if_pos same]
    refine List.filter_eq_self.mpr fun line member => ?_
    rw [mem_charge member]
    simp [entryOf, same]
  · rw [if_neg same]
    refine List.filter_eq_nil_iff.mpr fun line member => ?_
    rw [mem_charge member]
    simp [entryOf, same]

/-- What is outstanding of the job of an unreleased reservation is that reservation's hold. -/
theorem Funded.outstanding_held {books : Books} (sound : Sound books) (funded : Funded books)
    {id : ReservationID} {row : Reservation} (found : books.reservations.find id = some row)
    (unreleased : row.releasedAt = none) :
    outstandingOf books.ledger row.job = row.holdAmount := by
  refine (funded.perJob row.job).trans ((Table.total_single found ?_).trans ?_)
  · intro other each present differs
    refine if_neg fun both => differs ?_
    refine sound.exclusive other id each row present found ?_ unreleased both.2
    simpa [Reservation.active] using both.1
  · simp [Reservation.active, unreleased]

/-! ### A placement -/

theorem Placement.projectOf_result {books : Books} (placement : Placement books)
    (row : Reservation) : projectOf placement.result row = projectOf books row := by
  unfold projectOf
  rw [placement.find_job]
  split
  · next same =>
    rw [same, placement.jobFound]
    rfl
  · rfl

theorem Placement.committedOf_result {books : Books} (placement : Placement books)
    (id : ProjectID) :
    committedOf placement.result.ledger id = committedOf books.ledger id +
      if placement.job.project = id then placement.hold else 0 := by
  have nonneg : 0 ≤ placement.hold := costOf_nonneg _ _ _
  simp only [committedOf, result, ledgerSum_append]
  rw [ledgerSum_charge nonneg, ledgerSum_charge nonneg]
  simp only [entryOf]
  grind

theorem Funded.place {books : Books} (sound : Sound books) (funded : Funded books)
    (placement : Placement books) : Funded placement.result := by
  have nonneg : 0 ≤ placement.hold := costOf_nonneg _ _ _
  have findJob := placement.find_job
  have findReservation := placement.find_reservation
  have jobFound := placement.jobFound
  have kept : ∀ id row, books.reservations.find id = some row →
      placement.result.reservations.find id = some row := by
    intro id row found
    rw [findReservation, if_neg fun same => ?_]
    · exact found
    · rw [same, placement.fresh_reservation] at found
      cases found
  have unused : entriesOf books.ledger placement.attempt = [] := by
    refine List.filter_eq_nil_iff.mpr fun entry member => ?_
    obtain ⟨id, row, job, found, _, ofAttempt, _, _⟩ := funded.owned entry member
    obtain ⟨attempt, hasAttempt, _⟩ := (sound.paired id row found).attempt
    intro same
    rw [ofAttempt, decide_eq_true_eq, Option.some.injEq] at same
    rw [same, placement.fresh_attempt] at hasAttempt
    cases hasAttempt
  refine ⟨?registered, ?owned, ?nonneg, ?accounted, ?perJob, ?perProject, ?budgeted⟩
  case registered =>
    intro id job found
    have registered := funded.registered
    rw [findJob] at found
    split at found
    · cases found
      exact registered placement.job.id placement.job jobFound
    · exact registered _ _ found
  case owned =>
    intro entry member
    rcases List.mem_append.mp member with old | new
    · obtain ⟨id, row, job, found, hasJob, ofAttempt, ofJob, ofProject⟩ := funded.owned entry old
      refine ⟨id, row, if row.job = placement.job.id then Job.saved placement.job placement.next
        else job, kept id row found, ?_, ofAttempt, ofJob, ?_⟩
      · rw [findJob]
        split <;> first | rfl | exact hasJob
      · split
        · next same =>
          rw [same, jobFound] at hasJob
          cases hasJob
          exact ofProject
        · exact ofProject
    · rw [mem_charge new]
      exact ⟨placement.reservation, placement.made, Job.saved placement.job placement.next,
        (findReservation _).trans (if_pos rfl), (findJob _).trans (if_pos rfl), rfl, rfl, rfl⟩
  case nonneg =>
    intro id row found
    rw [findReservation] at found
    split at found
    · cases found
      exact nonneg
    · exact funded.nonneg id row found
  case accounted =>
    intro id row job found hasJob
    rw [findReservation] at found
    show Accounted job row (entriesOf (books.ledger ++ charge _) row.attempt)
    rw [entriesOf_append, entriesOf_charge]
    split at found
    · cases found
      have own : placement.result.jobs.find placement.made.job =
          some (Job.saved placement.job placement.next) := (findJob _).trans (if_pos rfl)
      cases own.symm.trans hasJob
      show Accounted _ _ (entriesOf books.ledger placement.attempt ++
        if placement.attempt = placement.attempt then _ else [])
      rw [unused, if_pos rfl]
      rfl
    · have other : placement.attempt ≠ row.attempt := fun same => by
        obtain ⟨attempt, hasAttempt, _⟩ := (sound.paired id row found).attempt
        rw [← same, placement.fresh_attempt] at hasAttempt
        cases hasAttempt
      rw [if_neg other, List.append_nil]
      rw [findJob] at hasJob
      split at hasJob
      · next same =>
        cases hasJob
        exact funded.accounted id row placement.job found (same ▸ jobFound)
      · exact funded.accounted id row job found hasJob
  case perJob =>
    intro id
    show outstandingWhere (books.ledger ++ charge _) _ = placement.reservations.total _
    rw [outstandingWhere_append, outstandingWhere_charge nonneg, funded.perJob,
      Table.total_insert placement.reservationInserted]
    by_cases same : placement.job.id = id <;>
      simp [same, entryOf, Reservation.active, LedgerEntry.signed, Placement.hold]
  case perProject =>
    intro id
    simp only [placement.projectOf_result]
    show outstandingWhere (books.ledger ++ charge _) _ = placement.reservations.total _
    rw [outstandingWhere_append, outstandingWhere_charge nonneg, funded.perProject,
      Table.total_insert placement.reservationInserted]
    by_cases same : placement.job.project = id <;>
      simp [same, entryOf, Reservation.active, LedgerEntry.signed, Placement.hold, projectOf,
        jobFound]
  case budgeted =>
    intro id project found
    rw [placement.committedOf_result]
    have budgeted := funded.budgeted id project found
    split
    · next same =>
      have affordable := placement.affordable
      have ours := placement.projectFound
      rw [same] at ours affordable
      cases ours.symm.trans found
      show _ + placement.hold ≤ _
      unfold Placement.hold
      linarith
    · linarith

/-! ### A closing -/

/-- The books' outstanding amount of the closing's job is the hold it closes. -/
theorem Closing.outstanding {books : Books} (sound : Sound books) (funded : Funded books)
    (closing : Closing books) :
    outstandingOf books.ledger closing.job.id = closing.reservation.holdAmount := by
  rw [← closing.reservationJob]
  exact funded.outstanding_held sound closing.reservationFound closing.active

/-- A closing settles at most the hold it closes. -/
theorem Closing.settled_bounds {books : Books} (sound : Sound books) (funded : Funded books)
    (closing : Closing books) :
    0 ≤ closing.settled ∧ closing.settled ≤ closing.reservation.holdAmount := by
  have nonneg := funded.nonneg _ _ closing.reservationFound
  have capped := closing.capped
  rw [closing.outstanding sound funded] at capped
  unfold Closing.settled
  exact ⟨le_max_right _ _, max_le (by by_contra above; grind) nonneg⟩

theorem Closing.projectOf_result {books : Books} (closing : Closing books) (row : Reservation) :
    projectOf closing.result row = projectOf books row := by
  unfold projectOf
  rw [closing.find_job]
  split
  · next same =>
    rw [same, closing.jobFound]
    rfl
  · rfl

/-- The closing's lines, with the outstanding amount read as the hold. -/
theorem Closing.lines_eq {books : Books} (sound : Sound books) (funded : Funded books)
    (closing : Closing books) : closing.lines =
      charge (entryOf closing.job closing.attempt.id .settle closing.settled closing.now) ++
        charge (entryOf closing.job closing.attempt.id .release
          (closing.reservation.holdAmount - closing.settled) closing.now) := by
  rw [Closing.lines, closing.outstanding sound funded]
  rfl

/-- The closing takes the whole hold out of what is outstanding. -/
theorem Closing.outstandingWhere_lines {books : Books} (sound : Sound books)
    (funded : Funded books) (closing : Closing books) (which : LedgerEntry → Bool)
    (chosen : Bool) (uniform : ∀ kind amount, which
      (entryOf closing.job closing.attempt.id kind amount closing.now) = chosen) :
    outstandingWhere closing.lines which =
      if chosen then -closing.reservation.holdAmount else 0 := by
  obtain ⟨nonneg, within⟩ := closing.settled_bounds sound funded
  rw [closing.lines_eq sound funded, outstandingWhere_append,
    outstandingWhere_charge (by simpa using nonneg),
    outstandingWhere_charge (by simpa using sub_nonneg.mpr within), uniform, uniform]
  cases chosen
  · simp
  · simp only [LedgerEntry.signed, entryOf, if_true]
    grind

theorem Funded.close {books : Books} (sound : Sound books) (funded : Funded books)
    (closing : Closing books) : Funded closing.result := by
  obtain ⟨nonneg, within⟩ := closing.settled_bounds sound funded
  have findJob := closing.find_job
  have findReservation := closing.find_reservation
  have jobFound := closing.jobFound
  have lines := closing.lines_eq sound funded
  have attemptID := closing.attempt_id
  -- a reservation of the books after is one of the books before, up to its release
  have before : ∀ id row, closing.result.reservations.find id = some row →
      ∃ old, books.reservations.find id = some old ∧ old.job = row.job ∧
        old.attempt = row.attempt ∧ old.holdAmount = row.holdAmount := by
    intro id row found
    rw [findReservation] at found
    split at found
    · next same =>
      cases found
      exact ⟨closing.reservation, same ▸ closing.reservationFound, rfl, rfl, rfl⟩
    · exact ⟨row, found, rfl, rfl, rfl⟩
  -- its job is the old job, up to the columns a transition saves
  have jobBefore : ∀ id job, closing.result.jobs.find id = some job →
      ∃ old, books.jobs.find id = some old ∧ old.id = job.id ∧ old.project = job.project := by
    intro id job found
    rw [findJob] at found
    split at found
    · next same =>
      cases found
      exact ⟨closing.job, same ▸ jobFound, rfl, rfl⟩
    · exact ⟨job, found, rfl, rfl⟩
  refine ⟨?registered, ?owned, ?nonneg, ?accounted, ?perJob, ?perProject, ?budgeted⟩
  case registered =>
    intro id job found
    obtain ⟨old, hasOld, _, project⟩ := jobBefore id job found
    rw [← project]
    exact funded.registered id old hasOld
  case owned =>
    intro entry member
    rcases List.mem_append.mp member with old | new
    · obtain ⟨id, row, job, found, hasJob, ofAttempt, ofJob, ofProject⟩ := funded.owned entry old
      have findReservation := findReservation id
      have findJob := findJob row.job
      by_cases sameRow : id = closing.reservation.id
      · rw [sameRow, closing.reservationFound] at found
        cases found
        refine ⟨id, closing.releasedRow, Job.saved closing.job closing.next,
          findReservation.trans (if_pos sameRow), findJob.trans (if_pos closing.reservationJob),
          ofAttempt, ofJob, ?_⟩
        rw [closing.reservationJob, jobFound] at hasJob
        cases hasJob
        exact ofProject
      · by_cases sameJob : row.job = closing.job.id
        · rw [sameJob, jobFound] at hasJob
          cases hasJob
          exact ⟨id, row, Job.saved closing.job closing.next,
            findReservation.trans ((if_neg sameRow).trans found),
            findJob.trans (if_pos sameJob), ofAttempt, ofJob, ofProject⟩
        · exact ⟨id, row, job, findReservation.trans ((if_neg sameRow).trans found),
            findJob.trans ((if_neg sameJob).trans hasJob), ofAttempt, ofJob, ofProject⟩
    · have line : entry.attempt = some closing.reservation.attempt ∧
          entry.job = closing.reservation.job ∧ entry.project = closing.job.project := by
        rw [lines] at new
        rw [closing.reservationJob, ← attemptID]
        rcases List.mem_append.mp new with settles | releases
        · rw [mem_charge settles]
          exact ⟨rfl, rfl, rfl⟩
        · rw [mem_charge releases]
          exact ⟨rfl, rfl, rfl⟩
      exact ⟨closing.reservation.id, closing.releasedRow, Job.saved closing.job closing.next,
        (findReservation _).trans (if_pos rfl), (findJob _).trans (if_pos closing.reservationJob),
        line.1, line.2.1, line.2.2⟩
  case nonneg =>
    intro id row found
    obtain ⟨old, hasOld, _, _, amount⟩ := before id row found
    rw [← amount]
    exact funded.nonneg id old hasOld
  case accounted =>
    intro id row job found hasJob
    obtain ⟨oldJob, hasOldJob, jobID, jobProject⟩ := jobBefore row.job job hasJob
    -- the lines of an attempt name its job only by id and project
    have sameLines : ∀ kind amount time, entryOf job row.attempt kind amount time =
        entryOf oldJob row.attempt kind amount time := by
      intro kind amount time
      simp only [entryOf, jobID, jobProject]
    rw [findReservation] at found
    show Accounted job row (entriesOf (books.ledger ++ closing.lines) row.attempt)
    rw [lines, entriesOf_append, entriesOf_append, entriesOf_charge, entriesOf_charge]
    split at found
    · cases found
      change books.jobs.find closing.reservation.job = some oldJob at hasOldJob
      have own := funded.accounted _ _ _ closing.reservationFound hasOldJob
      rw [Accounted, if_pos closing.active] at own
      rw [closing.reservationJob, jobFound] at hasOldJob
      cases hasOldJob
      have same : closing.attempt.id = closing.releasedRow.attempt := attemptID
      rw [if_pos same, if_pos same, Accounted,
        if_neg (fun open_ : closing.releasedRow.releasedAt = none => by cases open_)]
      refine ⟨closing.settled, closing.now, nonneg, within, ?_⟩
      simp only [sameLines, same]
      exact congrArg (· ++ _) own
    · next differs =>
      have other : closing.attempt.id ≠ row.attempt := fun same =>
        differs (sound.single id closing.reservation.id row closing.reservation found
          closing.reservationFound (same.symm.trans attemptID))
      have own := funded.accounted id row oldJob found hasOldJob
      rw [if_neg other, if_neg other, List.append_nil, List.append_nil]
      simpa only [Accounted, sameLines] using own
  case perJob =>
    intro id
    show outstandingWhere (books.ledger ++ closing.lines) _ = _
    rw [outstandingWhere_append, funded.perJob, closing.outstandingWhere_lines sound funded _
      (decide (closing.job.id = id)) fun _ _ => rfl]
    refine Eq.symm ((Table.total_modify closing.reservationFound
      (Reservation.release closing.now closing.outcome.text) (fun _ => rfl) _).trans ?_)
    by_cases same : closing.job.id = id <;>
      simp [same, closing.reservationJob, Reservation.active, Reservation.release, closing.active,
        sub_eq_add_neg]
  case perProject =>
    intro id
    simp only [closing.projectOf_result]
    show outstandingWhere (books.ledger ++ closing.lines) _ = _
    rw [outstandingWhere_append, funded.perProject, closing.outstandingWhere_lines sound funded _
      (decide (closing.job.project = id)) fun _ _ => rfl]
    refine Eq.symm ((Table.total_modify closing.reservationFound
      (Reservation.release closing.now closing.outcome.text) (fun _ => rfl) _).trans ?_)
    by_cases same : closing.job.project = id <;>
      simp [same, closing.reservationJob, Reservation.active, Reservation.release, closing.active,
        projectOf, jobFound, sub_eq_add_neg]
  case budgeted =>
    intro id project found
    have budgeted := funded.budgeted id project found
    have shrinks : committedOf (books.ledger ++ closing.lines) id ≤ committedOf books.ledger id := by
      rw [lines]
      simp only [committedOf, ledgerSum_append]
      rw [ledgerSum_charge (by simpa using nonneg),
        ledgerSum_charge (by simpa using sub_nonneg.mpr within),
        ledgerSum_charge (by simpa using nonneg),
        ledgerSum_charge (by simpa using sub_nonneg.mpr within)]
      simp only [entryOf]
      grind
    exact le_trans shrinks budgeted

/-! ### The moves of one table -/

theorem Funded.newProject {books : Books} (funded : Funded books) {project : Project}
    {projects : Table Project Project.id}
    (inserted : books.projects.insert project = some projects) (nonneg : 0 ≤ project.budget) :
    Funded { books with projects } := by
  have fresh := (Table.insert_eq_some inserted).1
  have findProject : ∀ id, projects.find id = if id = project.id then some project
      else books.projects.find id := Table.find_insert inserted
  refine { funded with registered := fun id job found => ?_, budgeted := fun id other found => ?_ }
  · obtain ⟨old, hasOld⟩ := funded.registered id job found
    refine ⟨old, (findProject _).trans ((if_neg fun same => ?_).trans hasOld)⟩
    rw [same, fresh] at hasOld
    cases hasOld
  · change projects.find id = some other at found
    rw [findProject] at found
    split at found
    · next same =>
      cases found
      -- no entry names a project that is not registered
      have unused : ∀ entry ∈ books.ledger, decide (entry.project = id) = false := by
        intro entry member
        obtain ⟨_, _, job, _, hasJob, _, _, ofProject⟩ := funded.owned entry member
        obtain ⟨old, hasOld⟩ := funded.registered _ job hasJob
        refine decide_eq_false fun named => ?_
        rw [← ofProject, named, same, fresh] at hasOld
        cases hasOld
      show committedOf books.ledger id ≤ _
      rw [committedOf, ledgerSum_none unused, ledgerSum_none unused]
      simpa using nonneg
    · exact funded.budgeted id other found

theorem Funded.newJob {books : Books} (sound : Sound books) (funded : Funded books) {job : Job}
    {jobs : Table Job Job.id} (inserted : books.jobs.insert job = some jobs)
    (registered : ∃ project, books.projects.find job.project = some project) :
    Funded { books with jobs } := by
  have fresh := (Table.insert_eq_some inserted).1
  have findJob : ∀ id, jobs.find id = if id = job.id then some job else books.jobs.find id :=
    Table.find_insert inserted
  have kept : ∀ id row, books.reservations.find id = some row →
      jobs.find row.job = books.jobs.find row.job := by
    intro id row found
    obtain ⟨old, hasOld, _⟩ := (sound.paired id row found).job
    rw [findJob, if_neg fun same => ?_]
    rw [same, fresh] at hasOld
    cases hasOld
  refine { funded with
    registered := fun id other found => ?_, owned := fun entry member => ?_
    accounted := fun id row other found hasJob => ?_, perProject := fun id => ?_ }
  · change jobs.find id = some other at found
    rw [findJob] at found
    split at found
    · cases found
      exact registered
    · exact funded.registered id other found
  · obtain ⟨id, row, owner, found, hasOwner, rest⟩ := funded.owned entry member
    exact ⟨id, row, owner, found, (kept id row found).trans hasOwner, rest⟩
  · exact funded.accounted id row other found ((kept id row found).symm.trans hasJob)
  · refine (funded.perProject id).trans (Table.total_congr fun other row found => ?_)
    have same : projectOf { books with jobs } row = projectOf books row :=
      congrArg (Option.map Job.project) (kept other row found)
    rw [same]

theorem Funded.job {books : Books} (funded : Funded books) {row next : Job}
    (present : books.jobs.find next.id = some row) :
    Funded { books with jobs := books.jobs.modify next.id fun row => Job.saved row next } := by
  have findJob : ∀ id, (books.jobs.modify next.id fun row => Job.saved row next).find id =
      if id = next.id then some (Job.saved row next) else books.jobs.find id :=
    Table.find_modify_found present (fun row => Job.saved row next) fun _ => rfl
  have before : ∀ id job, (books.jobs.modify next.id fun row => Job.saved row next).find id =
      some job → ∃ old, books.jobs.find id = some old ∧ old.id = job.id ∧
        old.project = job.project := by
    intro id job found
    rw [findJob] at found
    split at found
    · next same =>
      cases found
      exact ⟨row, same ▸ present, rfl, rfl⟩
    · exact ⟨job, found, rfl, rfl⟩
  have after : ∀ id old, books.jobs.find id = some old → ∃ job,
      (books.jobs.modify next.id fun row => Job.saved row next).find id = some job ∧
        old.project = job.project := by
    intro id old found
    rw [findJob]
    split
    · next same =>
      rw [same, present] at found
      cases found
      exact ⟨_, rfl, rfl⟩
    · exact ⟨old, found, rfl⟩
  refine { funded with
    registered := fun id job found => ?_, owned := fun entry member => ?_
    accounted := fun id reservation job found hasJob => ?_, perProject := fun id => ?_ }
  · obtain ⟨old, hasOld, _, project⟩ := before id job found
    rw [← project]
    exact funded.registered id old hasOld
  · obtain ⟨id, reservation, old, found, hasOld, ofAttempt, ofJob, ofProject⟩ :=
      funded.owned entry member
    obtain ⟨job, hasJob, project⟩ := after _ old hasOld
    exact ⟨id, reservation, job, found, hasJob, ofAttempt, ofJob, ofProject.trans project⟩
  · obtain ⟨old, hasOld, sameID, sameProject⟩ := before _ job hasJob
    have sameLines : ∀ kind amount time, entryOf job reservation.attempt kind amount time =
        entryOf old reservation.attempt kind amount time := by
      intro kind amount time
      simp only [entryOf, sameID, sameProject]
    have own := funded.accounted id reservation old found hasOld
    simpa only [Accounted, sameLines] using own
  · refine (funded.perProject id).trans (Table.total_congr fun other reservation found => ?_)
    have same : projectOf { books with
        jobs := books.jobs.modify next.id fun row => Job.saved row next } reservation =
          projectOf books reservation := by
      unfold projectOf
      show Option.map _ ((books.jobs.modify next.id _).find _) = _
      rw [findJob]
      split
      · next same =>
        rw [same, present]
        rfl
      · rfl
    rw [same]

/-- The two invariants together. -/
structure Balanced (books : Books) : Prop where
  sound : Sound books
  funded : Funded books

theorem Balanced.move {books next : Books} (balanced : Balanced books) (moved : Move books next) :
    Balanced next := by
  refine ⟨balanced.sound.move moved, ?_⟩
  obtain ⟨sound, funded⟩ := balanced
  cases moved with
  | newProject inserted nonneg => exact funded.newProject inserted nonneg
  | newWorker inserted idle positive => exact { funded with }
  | workers which set same kept => exact { funded with }
  | newJob inserted submitted first atLeastOne positive registered =>
      exact funded.newJob sound inserted registered
  | job found advance => exact funded.job found
  | attempt id set same found unclosed kept => exact { funded with }

theorem Balanced.moves {books next : Books} (balanced : Balanced books)
    (moved : Moves books next) : Balanced next := by
  induction moved with
  | refl => exact balanced
  | tail _ last inductionHypothesis => exact inductionHypothesis.move last

theorem Balanced.turn {books next : Books} (balanced : Balanced books) (taken : Turn books next) :
    Balanced next := by
  cases taken with
  | moves moved => exact balanced.moves moved
  | close closing => exact ⟨balanced.sound.close closing, balanced.funded.close balanced.sound closing⟩

theorem Balanced.change {books next : Books} (balanced : Balanced books)
    (changed : Change books next) : Balanced next := by
  cases changed with
  | turn taken => exact balanced.turn taken
  | place placement =>
      exact ⟨balanced.sound.place placement, balanced.funded.place balanced.sound placement⟩

theorem Balanced.initial : Balanced Db.initial.toBooks where
  sound := Sound.initial
  funded :=
    { registered := fun id _ found => absurd ((Table.find_empty id).symm.trans found) nofun
      owned := fun _ member => absurd member List.not_mem_nil
      nonneg := fun id _ found => absurd ((Table.find_empty id).symm.trans found) nofun
      accounted := fun id _ _ found => absurd ((Table.find_empty id).symm.trans found) nofun
      perJob := fun _ => rfl
      perProject := fun _ => rfl
      budgeted := fun id _ found => absurd ((Table.find_empty id).symm.trans found) nofun }

end GpuBroker.ControlPlane
