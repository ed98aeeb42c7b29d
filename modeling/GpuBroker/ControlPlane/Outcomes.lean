/-
This file proves that outcomes are final and that everything a closing does is
done once.

What no later transaction takes back: the row of a closed attempt, the row of a
released reservation, the row of a finished job, and the ledger lines of both.
A transaction either leaves every outcome as it is, or it closes exactly one
attempt, and that same transaction releases the attempt's reservation, returns
its GPUs and writes its settlement and release.
-/
import GpuBroker.ControlPlane.Runs

namespace GpuBroker.ControlPlane

open Library Library.Transaction

/-! ### What is never taken back -/

/-- The entries of a job, in order. -/
def linesOf (ledger : List LedgerEntry) (id : JobID) : List LedgerEntry :=
  ledger.filter fun entry => entry.job = id

/-- The final rows and lines of the books stay. -/
structure Final (books next : Books) : Prop where
  attempts : ∀ id row, books.attempts.find id = some row → row.outcome ≠ none →
    next.attempts.find id = some row
  reservations : ∀ id row, books.reservations.find id = some row → row.releasedAt ≠ none →
    next.reservations.find id = some row
  jobs : ∀ id job, books.jobs.find id = some job → job.state.terminal = true →
    next.jobs.find id = some job ∧ linesOf next.ledger id = linesOf books.ledger id

theorem Final.refl (books : Books) : Final books books :=
  ⟨fun _ _ found _ => found, fun _ _ found _ => found, fun _ _ found _ => ⟨found, rfl⟩⟩

theorem Final.trans {one two three : Books} (first : Final one two) (second : Final two three) :
    Final one three where
  attempts id row found closed := second.attempts id row (first.attempts id row found closed) closed
  reservations id row found released :=
    second.reservations id row (first.reservations id row found released) released
  jobs id job found finished := by
    obtain ⟨kept, lines⟩ := first.jobs id job found finished
    obtain ⟨keptAgain, linesAgain⟩ := second.jobs id job kept finished
    exact ⟨keptAgain, linesAgain.trans lines⟩

theorem linesOf_append (one two : List LedgerEntry) (id : JobID) :
    linesOf (one ++ two) id = linesOf one id ++ linesOf two id :=
  List.filter_append _ _

/-- Lines of another job are not the job's. -/
theorem linesOf_charge_other {job : Job} {attempt : AttemptID} {kind : LedgerKind}
    {amount : MicroUSD} {time : Time} {id : JobID} (other : job.id ≠ id) :
    linesOf (charge (entryOf job attempt kind amount time)) id = [] :=
  List.filter_eq_nil_iff.mpr fun line member => by
    rw [mem_charge member]
    exact fun same => other (of_decide_eq_true same)

/-- Rewriting an unfinished job's row leaves the finished jobs' rows. -/
theorem jobs_kept {books : Books} {target id : JobID} {row job : Job}
    (found : books.jobs.find target = some row) (unfinished : row.state.terminal = false)
    (present : books.jobs.find id = some job) (finished : job.state.terminal = true) (next : Job) :
    id ≠ target ∧
      (books.jobs.modify target fun row => Job.saved row next).find id = some job := by
  have other : id ≠ target := fun equal => by
    rw [equal, found] at present
    cases present
    rw [unfinished] at finished
    cases finished
  refine ⟨other, ?_⟩
  rw [Table.find_modify_found found (fun row => Job.saved row next) fun _ => rfl, if_neg other]
  exact present

theorem Final.move {books next : Books} (moved : Move books next) : Final books next := by
  have refl := Final.refl books
  cases moved with
  | newProject inserted nonneg => exact { refl with }
  | newWorker inserted idle positive => exact { refl with }
  | workers which set same kept => exact { refl with }
  | newJob inserted submitted first atLeastOne positive registered =>
      refine { refl with jobs := fun id job found finished => ⟨?_, rfl⟩ }
      refine (Table.find_insert inserted id).trans ((if_neg fun same => ?_).trans found)
      rw [same, (Table.insert_eq_some inserted).1] at found
      cases found
  | job found advance =>
      refine { refl with jobs := fun id job present finished => ⟨?_, rfl⟩ }
      exact (jobs_kept found advance.unfinished present finished _).2
  | attempt target set same found unclosed kept =>
      refine { refl with attempts := fun id row present closed => ?_ }
      refine (Table.find_modify_found found set same id).trans ((if_neg fun equal => ?_).trans present)
      rw [equal, found] at present
      cases present
      exact closed unclosed

theorem Final.moves {books next : Books} (moved : Moves books next) : Final books next := by
  induction moved with
  | refl => exact Final.refl books
  | tail _ last inductionHypothesis => exact inductionHypothesis.trans (Final.move last)

theorem Final.close {books : Books} (closing : Closing books) : Final books closing.result := by
  refine ⟨fun id row found closed => ?_, fun id row found released => ?_,
    fun id job found finished => ?_⟩
  · rw [closing.find_attempt, if_neg fun same => ?_]
    · exact found
    · rw [same, closing.attempt_stored] at found
      cases found
      exact closed closing.unclosed
  · rw [closing.find_reservation, if_neg fun same => ?_]
    · exact found
    · rw [same, closing.reservationFound] at found
      cases found
      exact released closing.active
  · obtain ⟨other, kept⟩ := jobs_kept closing.jobFound closing.unfinished found finished
      closing.next
    refine ⟨kept, ?_⟩
    show linesOf (books.ledger ++ closingLines _ _ _ _ _) id = _
    rw [closingLines, linesOf_append, linesOf_append, linesOf_charge_other other.symm,
      linesOf_charge_other other.symm, List.append_nil, List.append_nil]

theorem Final.place {books : Books} (placement : Placement books) :
    Final books placement.result := by
  refine ⟨fun id row found closed => ?_, fun id row found released => ?_,
    fun id job found finished => ?_⟩
  · rw [placement.find_attempt, if_neg fun same => ?_]
    · exact found
    · rw [same, placement.fresh_attempt] at found
      cases found
  · rw [placement.find_reservation, if_neg fun same => ?_]
    · exact found
    · rw [same, placement.fresh_reservation] at found
      cases found
  · have unfinished : placement.job.state.terminal = false := by
      rw [placement.queued]
      rfl
    obtain ⟨other, kept⟩ := jobs_kept placement.jobFound unfinished found finished placement.next
    refine ⟨kept, ?_⟩
    show linesOf (books.ledger ++ charge _) id = _
    rw [linesOf_append, linesOf_charge_other other.symm, List.append_nil]

theorem Final.turn {books next : Books} (taken : Turn books next) : Final books next := by
  cases taken with
  | moves moved => exact Final.moves moved
  | close closing => exact Final.close closing

theorem Final.change {books next : Books} (changed : Change books next) : Final books next := by
  cases changed with
  | turn taken => exact Final.turn taken
  | place placement => exact Final.place placement

/-- Whatever a run goes on to do, what was final stays. -/
theorem run_final (service : Service) (calls : List Call) {db : Database}
    (balanced : Balanced db.toBooks) : Final db.toBooks (run service calls db).toBooks :=
  run_keeps Final.refl Final.trans (fun _ changed => Final.change changed) service calls balanced

/-! ### What one transaction does about outcomes -/

/-- The outcome of an attempt, absent while it is open or not there. -/
def outcomeOf (books : Books) (id : AttemptID) : Option AttemptOutcome :=
  (books.attempts.find id).bind Attempt.outcome

theorem outcomeOf_written {books : Books} {id : AttemptID} (closed : outcomeOf books id ≠ none) :
    ∃ row, books.attempts.find id = some row ∧ row.outcome ≠ none := by
  unfold outcomeOf at closed
  cases found : books.attempts.find id with
  | none =>
      rw [found] at closed
      exact absurd rfl closed
  | some row =>
      rw [found] at closed
      exact ⟨row, rfl, closed⟩

/-- An outcome that was written stays. -/
theorem Final.outcomes {books next : Books} (final : Final books next) {id : AttemptID}
    (closed : outcomeOf books id ≠ none) : outcomeOf next id = outcomeOf books id := by
  obtain ⟨row, found, written⟩ := outcomeOf_written closed
  unfold outcomeOf
  rw [final.attempts id row found written, found]

/-- A transaction that closes nothing: every outcome and every reservation stays, the ledger gains
holds only, and no worker's counter falls. -/
structure Steady (books next : Books) : Prop where
  outcomes : ∀ id, outcomeOf next id = outcomeOf books id
  reservations : ∀ id row, books.reservations.find id = some row →
    next.reservations.find id = some row
  ledger : ∃ holds, next.ledger = books.ledger ++ holds ∧ ∀ entry ∈ holds, entry.kind = .hold
  counters : ∀ id worker, books.workers.find id = some worker →
    ∃ later, next.workers.find id = some later ∧ worker.gpusReserved ≤ later.gpusReserved

/-- A transaction that closes the attempt of one reservation, and does everything that goes with
it: the outcome, the release of the reservation, the return of its GPUs to its worker, and the
settlement and release that add up to its hold. No other row of the three tables changes. -/
structure Closes (books next : Books) (row : Reservation) : Prop where
  held : books.reservations.find row.id = some row
  unreleased : row.releasedAt = none
  unclosed : ∃ attempt, books.attempts.find row.attempt = some attempt ∧ attempt.outcome = none
  outcomes : ∃ outcome, ∀ id, outcomeOf next id =
    if id = row.attempt then some outcome else outcomeOf books id
  reservations : ∃ time reason, ∀ id, next.reservations.find id =
    if id = row.id then some (row.release time reason) else books.reservations.find id
  workers : ∃ worker, books.workers.find row.worker = some worker ∧ ∀ id, next.workers.find id =
    if id = row.worker then some (worker.giveBack row.gpus) else books.workers.find id
  ledger : ∃ job settled time, books.jobs.find row.job = some job ∧ 0 ≤ settled ∧
    settled ≤ row.holdAmount ∧ next.ledger = books.ledger ++
      (charge (entryOf job row.attempt .settle settled time) ++
        charge (entryOf job row.attempt .release (row.holdAmount - settled) time))

theorem Steady.refl (books : Books) : Steady books books where
  outcomes _ := rfl
  reservations _ _ found := found
  ledger := ⟨[], (List.append_nil _).symm, fun _ member => absurd member List.not_mem_nil⟩
  counters _ worker found := ⟨worker, found, le_refl _⟩

theorem Steady.trans {one two three : Books} (first : Steady one two) (second : Steady two three) :
    Steady one three where
  outcomes id := (second.outcomes id).trans (first.outcomes id)
  reservations id row found := second.reservations id row (first.reservations id row found)
  ledger := by
    obtain ⟨holds, appended, kinds⟩ := first.ledger
    obtain ⟨more, appendedMore, kindsMore⟩ := second.ledger
    refine ⟨holds ++ more, by rw [appendedMore, appended, List.append_assoc], fun entry member => ?_⟩
    exact (List.mem_append.mp member).elim (kinds entry) (kindsMore entry)
  counters id worker found := by
    obtain ⟨later, foundLater, grew⟩ := first.counters id worker found
    obtain ⟨last, foundLast, grewAgain⟩ := second.counters id later foundLater
    exact ⟨last, foundLast, le_trans grew grewAgain⟩

theorem Steady.move {books next : Books} (moved : Move books next) :
    Steady books next := by
  have refl := Steady.refl books
  cases moved with
  | newProject inserted nonneg => exact { refl with }
  | newWorker inserted idle positive =>
      refine { refl with counters := fun id worker found => ⟨worker, ?_, le_refl _⟩ }
      refine (Table.find_insert inserted id).trans ((if_neg fun same => ?_).trans found)
      rw [same, (Table.insert_eq_some inserted).1] at found
      cases found
  | workers which set same kept =>
      refine { refl with counters := fun id worker found => ?_ }
      refine ⟨if which worker then set worker else worker, ?_, ?_⟩
      · rw [Table.find_update, found]
        rfl
      · split
        · exact le_of_eq (kept worker).2.symm
        · exact le_refl _
  | newJob inserted submitted first atLeastOne positive registered => exact { refl with }
  | job found advance => exact { refl with }
  | attempt target set same found unclosed kept =>
      refine { refl with outcomes := fun id => ?_ }
      unfold outcomeOf
      rw [Table.find_modify_found found set same]
      split
      · next equal =>
        rw [equal, found]
        exact (kept _).2.2.2
      · rfl

theorem Steady.moves {books next : Books} (moved : Moves books next) : Steady books next := by
  induction moved with
  | refl => exact Steady.refl books
  | tail _ last inductionHypothesis => exact inductionHypothesis.trans (Steady.move last)

theorem Steady.place {books : Books} (placement : Placement books) :
    Steady books placement.result := by
  refine ⟨fun id => ?_, fun id row found => ?_, ⟨_, rfl, fun entry member => ?_⟩,
    fun id worker found => ?_⟩
  · unfold outcomeOf
    rw [placement.find_attempt]
    split
    · next equal =>
      rw [equal, placement.fresh_attempt]
      rfl
    · rfl
  · rw [placement.find_reservation, if_neg fun same => ?_]
    · exact found
    · rw [same, placement.fresh_reservation] at found
      cases found
  · rw [mem_charge member]
    rfl
  · rw [placement.find_worker]
    split
    · next equal =>
      rw [equal, placement.workerFound] at found
      cases found
      exact ⟨_, rfl, le_add_of_nonneg_right (le_of_lt placement.positive)⟩
    · exact ⟨worker, found, le_refl _⟩

theorem Closing.closes {books : Books} (balanced : Balanced books) (closing : Closing books) :
    Closes books closing.result closing.reservation := by
  obtain ⟨nonneg, within⟩ := closing.settled_bounds balanced.sound balanced.funded
  have ownID := closing.attempt_id
  refine
    { held := closing.reservationFound
      unreleased := closing.active
      unclosed := ⟨closing.attempt, closing.attemptFound, closing.unclosed⟩
      outcomes := ⟨closing.outcome, fun id => ?_⟩
      reservations := ⟨closing.now, closing.outcome.text, closing.find_reservation⟩
      workers := ⟨closing.worker, closing.workerFound, closing.find_worker⟩
      ledger := ⟨closing.job, closing.settled, closing.now, ?_, nonneg, within, ?_⟩ }
  · unfold outcomeOf
    rw [closing.find_attempt, ownID]
    split
    · rfl
    · rfl
  · rw [closing.reservationJob]
    exact closing.jobFound
  · show books.ledger ++ closing.lines = _
    rw [closing.lines_eq balanced.sound balanced.funded, ownID]

end GpuBroker.ControlPlane
