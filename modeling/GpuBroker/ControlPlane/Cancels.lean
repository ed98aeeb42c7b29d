/-
This file shows that a cancellation is final.

Once a cancel of an unfinished job has returned, the job is cancelled or on its
way there, and no edge of the table leads back: a success or a failure may
still be reported, a lost or preempted attempt is not retried, and a job that
is not queued is not placed, so it gets no attempt and no reservation any more.
-/
import GpuBroker.ControlPlane.Deeds
import GpuBroker.ControlPlane.JobCap

namespace GpuBroker.ControlPlane

open Library Library.Transaction

/-! ### The rows of a job -/

/-- The rows of a job only grow where a queued job is placed. -/
structure Barren (books next : Books) (id : JobID) : Prop where
  attempts : ∀ attempt row, next.attempts.find attempt = some row → row.job = id →
    ∃ old, books.attempts.find attempt = some old ∧ old.job = id
  reservations : ∀ reservation row, next.reservations.find reservation = some row → row.job = id →
    ∃ old, books.reservations.find reservation = some old ∧ old.job = id

theorem Barren.refl (books : Books) (id : JobID) : Barren books books id :=
  ⟨fun _ row found ofJob => ⟨row, found, ofJob⟩, fun _ row found ofJob => ⟨row, found, ofJob⟩⟩

theorem Barren.trans {one two three : Books} {id : JobID} (first : Barren one two id)
    (second : Barren two three id) : Barren one three id := by
  constructor
  · intro attempt row found ofJob
    obtain ⟨old, hasOld, same⟩ := second.attempts attempt row found ofJob
    exact first.attempts attempt old hasOld same
  · intro reservation row found ofJob
    obtain ⟨old, hasOld, same⟩ := second.reservations reservation row found ofJob
    exact first.reservations reservation old hasOld same

theorem Barren.move {books next : Books} (moved : Move books next) (id : JobID) :
    Barren books next id := by
  have refl := Barren.refl books id
  cases moved with
  | newProject inserted nonneg => exact { refl with }
  | newWorker inserted idle positive => exact { refl with }
  | workers which set same kept => exact { refl with }
  | newJob inserted submitted first atLeastOne positive registered => exact { refl with }
  | job found advance => exact { refl with }
  | @attempt row target set same stored unclosed kept =>
      refine { refl with attempts := fun attempt row found ofJob => ?_ }
      change Table.find _ attempt = some row at found
      rw [Table.find_modify_found stored set same] at found
      split at found
      · next own =>
        cases found
        exact ⟨_, own ▸ stored, (kept _).1 ▸ ofJob⟩
      · exact ⟨row, found, ofJob⟩

theorem Barren.close {books : Books} (closing : Closing books) (id : JobID) :
    Barren books closing.result id := by
  constructor
  · intro attempt row found ofJob
    rw [closing.find_attempt] at found
    split at found
    · next own =>
      cases found
      exact ⟨closing.attempt, own ▸ closing.attempt_stored, ofJob⟩
    · exact ⟨row, found, ofJob⟩
  · intro reservation row found ofJob
    rw [closing.find_reservation] at found
    split at found
    · next own =>
      cases found
      exact ⟨closing.reservation, own ▸ closing.reservationFound, ofJob⟩
    · exact ⟨row, found, ofJob⟩

/-- A change that does not place a job leaves it without new attempts and reservations; one that
does finds it queued. -/
theorem Barren.change {books next : Books} (changed : Change books next) {id : JobID} {job : Job}
    (found : books.jobs.find id = some job) (unqueued : job.state ≠ .queued) :
    Barren books next id := by
  cases changed with
  | turn taken =>
      cases taken with
      | moves moved =>
          induction moved with
          | refl => exact Barren.refl books id
          | tail before last inductionHypothesis => exact inductionHypothesis.trans (.move last id)
      | close closing => exact .close closing id
  | place placement =>
      have other : id ≠ placement.job.id := fun own => by
        rw [own, placement.jobFound] at found
        cases found
        exact unqueued placement.queued
      constructor
      · intro attempt row after ofJob
        rw [placement.find_attempt] at after
        split at after
        · cases after
          exact absurd ofJob.symm other
        · exact ⟨row, after, ofJob⟩
      · intro reservation row after ofJob
        rw [placement.find_reservation] at after
        split at after
        · cases after
          exact absurd ofJob.symm other
        · exact ⟨row, after, ofJob⟩

/-! ### After a cancellation -/

/-- The job is cancelled, is being cancelled, or ended before the cancellation reached it. -/
def JobState.withdrawn (state : JobState) : Bool :=
  [cancelRequested, cancelled, succeeded, failed].contains state

theorem JobState.withdrawn_kept {state later : JobState} (withdrawn : state.withdrawn = true)
    (edge : later = state ∨ state.canTransition later = true) : later.withdrawn = true := by
  rcases edge with rfl | edge
  · exact withdrawn
  · revert withdrawn edge
    cases state <;> cases later <;> decide

theorem JobState.withdrawn_not_queued {state : JobState} (withdrawn : state.withdrawn = true) :
    state ≠ .queued := by
  rintro rfl
  cases withdrawn

/-- A withdrawn job stays withdrawn and gets no attempt and no reservation. -/
theorem run_withdrawn (service : Service) (calls : List Call) {db : Database}
    (balanced : Balanced db.toBooks) {id : JobID} {job : Job} (found : db.jobs.find id = some job)
    (withdrawn : job.state.withdrawn = true) :
    (∃ later, (run service calls db).jobs.find id = some later ∧
      later.state.withdrawn = true) ∧ Barren db.toBooks (run service calls db).toBooks id := by
  induction calls generalizing db job with
  | nil => exact ⟨⟨job, found, withdrawn⟩, Barren.refl _ _⟩
  | cons call rest inductionHypothesis =>
      have changed := call.perform_changes service balanced
      obtain ⟨later, hasLater, _, _, edge⟩ := (call.deed service balanced).job found
      obtain ⟨final, barren⟩ := inductionHypothesis (balanced.change changed) hasLater
        (JobState.withdrawn_kept withdrawn edge)
      have unqueued := JobState.withdrawn_not_queued withdrawn
      exact ⟨final, (Barren.change changed found unqueued).trans barren⟩

/-- A cancel that returned for an unfinished job left it withdrawn. -/
theorem cancel_withdraws {service : Service} {principal : Principal} {id : JobID}
    {correlation : String} {now appliedAt : Time} {db next : Db} {result job : Job}
    (found : db.jobs.find id = some job) (unfinished : job.state.terminal = false)
    (finished : service.cancel principal id correlation now appliedAt db = .ok (result, next)) :
    ∃ later, next.jobs.find id = some later ∧ later.state.withdrawn = true := by
  unfold Service.cancel at finished
  obtain ⟨_, _, isUser, finished⟩ := bind_ok.mp finished
  obtain ⟨_, rfl⟩ := require_ok.mp isUser
  obtain ⟨_, _, owned, finished⟩ := bind_ok.mp finished
  cases Tx.getJob_reads _ _ _ _ _ owned
  obtain ⟨locked, _, locks, finished⟩ := bind_ok.mp finished
  obtain ⟨hasLocked, rfl⟩ := Tx.lockJob_spec locks
  obtain rfl : job = locked := Option.some.inj (found.symm.trans hasLocked)
  have key : job.id = id := Table.find_key found
  have applied : ∀ {target : JobState} {reason : String},
      Service.apply job target principal.actor reason correlation appliedAt db =
        .ok (result, next) → target.withdrawn = true →
      ∃ later, next.jobs.find id = some later ∧ later.state.withdrawn = true := by
    intro target reason applies withdrawn
    obtain ⟨_, reached, _, _, _, _, _⟩ := apply_spec applies
    obtain ⟨jobs, _⟩ := apply_sets applies (key ▸ found)
    have after := jobs.find_self
    rw [show (Job.saved job result).id = id from key] at after
    exact ⟨_, after, show result.state.withdrawn = true from reached ▸ withdrawn⟩
  cases state : job.state <;> simp only [state] at finished
  case submitted | queued => exact applied finished rfl
  case reserved =>
    obtain ⟨closing, closed⟩ := closeAttempt_closing (key ▸ found) finished
    have ofJob : closing.job.id = id := by rw [closed.ofJob, key]
    refine ⟨Job.saved closing.job closing.next, ?_, ?_⟩
    · rw [closed.wrote, closing.find_job, if_pos ofJob.symm]
    · show closing.next.state.withdrawn = true
      rw [closed.state]
      rfl
  case dispatched | running => exact applied finished rfl
  case cancelRequested =>
    cases pure_ok.mp finished
    exact ⟨_, found, by rw [state]; rfl⟩
  all_goals
    rw [state] at unfinished
    cases unfinished

/-- After a cancel that returned for an unfinished job, in every run that follows, the job is in
one of the four withdrawn states, and every attempt and reservation of it was there when the
cancel returned. -/
theorem cancellation_final (service : Service) (calls more : List Call) {principal : Principal}
    {id : JobID} {correlation : String} {now appliedAt : Time} {result job : Job} {next : Db}
    (found : (run service calls .initial).jobs.find id = some job)
    (unfinished : job.state.terminal = false)
    (returned : service.cancel principal id correlation now appliedAt
      (run service calls .initial).toDb = .ok (result, next)) :
    let cancelled :=
      run service (calls ++ [.request (.cancel principal id correlation now appliedAt)]) .initial
    let final := run service more cancelled
    cancelled.toDb = next ∧
      (∃ later, final.jobs.find id = some later ∧
        later.state ∈ [.cancelRequested, .cancelled, .succeeded, .failed]) ∧
      (∀ attempt row, final.attempts.find attempt = some row → row.job = id →
        ∃ old, cancelled.attempts.find attempt = some old ∧ old.job = id) ∧
      ∀ reservation row, final.reservations.find reservation = some row → row.job = id →
        ∃ old, cancelled.reservations.find reservation = some old ∧ old.job = id := by
  intro cancelled final
  have balanced : Balanced cancelled.toBooks := run_initial service _
  have performed : cancelled.toDb = next := by
    have performed : (Call.request (.cancel principal id correlation now appliedAt)).perform
        service (run service calls .initial) = { run service calls .initial with toDb := next } :=
      perform_request (ignore_of_ok returned)
    show (run service (calls ++ [_]) .initial).toDb = next
    rw [run_append]
    exact congrArg Database.toDb performed
  obtain ⟨later, hasLater, withdrawn⟩ := cancel_withdraws found unfinished returned
  rw [← performed] at hasLater
  obtain ⟨⟨last, hasLast, state⟩, barren⟩ :=
    run_withdrawn service more balanced hasLater withdrawn
  exact ⟨performed, ⟨last, hasLast, List.contains_iff_mem.mp state⟩, barren.attempts,
    barren.reservations⟩

/-- The user whose job it is. -/
def retriedMember : Principal where
  kind := .user
  user := "user"
  tenant := "tenant"
  role := .member
  worker := ""
  pool := ""

/-- Cancelled while its second attempt is reserved, the job stays cancelled when the leader tries to
place it once more. -/
theorem cancellation_final_retried :
    ∃ later, (run plainService
        [.applyDecision 1 "tack" placeOnWorker "third" "three" hour hour]
        (run plainService (retriedRun 0 ++
          [.request (.cancel retriedMember "job" "request" hour hour)]) .initial)).jobs.find "job" =
            some later ∧
      later.state ∈ [.cancelRequested, .cancelled, .succeeded, .failed] := by
  have reserved : ((run plainService (retriedRun 0) .initial).jobs.find "job").any
      (fun job => job.state.terminal = false) = true := by
    decide +kernel
  have accepted : (plainService.cancel retriedMember "job" "request" hour hour
      (run plainService (retriedRun 0) .initial).toDb).isOk = true := by
    decide +kernel
  obtain ⟨job, found, unfinished⟩ := (Option.any_eq_true _ _).mp reserved
  obtain ⟨⟨result, next⟩, returned⟩ := exists_ok accepted
  exact (cancellation_final plainService (retriedRun 0) _ found (of_decide_eq_true unfinished)
    returned).2.1

end GpuBroker.ControlPlane
