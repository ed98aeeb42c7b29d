/-
This file is what the methods of the store that change a job's row hand back,
against the row they leave: the caller goes on with what it is handed, and does
not read the row again.

Each method builds what it returns from the copy it was given, and lists the
columns it writes apart from that. A move forgets the origin of the job, and a
checkpoint does not say when the row was written; the others return what they
wrote wherever the copy was good.
-/
import GpuBroker.Broker.Runs

namespace GpuBroker.Broker

open Library

variable {γ α : Type}

/-! ### The methods -/

/-- A method of the store that changes a job's row and returns the job. -/
inductive Mutator where
  | transition (target : JobState) (change : Change)
  | recordAttempt
  | recordPreemption
  | recordCheckpoint (step : Int) (key : String)
  | pinTier (tier reason : String)
  | requestCancel (actor : String)

/-- The call of a method. -/
def Mutator.call (mutator : Mutator) (copy : Job) : Op γ Job :=
  match mutator with
  | transition target change => Broker.transition copy target change
  | recordAttempt => Broker.recordAttempt copy
  | recordPreemption => Broker.recordPreemption copy
  | recordCheckpoint step key => Broker.recordCheckpoint copy step key
  | pinTier tier reason => Broker.pinTier copy tier reason
  | requestCancel actor => Broker.requestCancel copy actor

/-- What a method hands back when it writes at a moment. -/
def Mutator.returned (mutator : Mutator) (copy : Job) (now : Time) : Job :=
  match mutator with
  | transition target change => copy.movedTo target change now
  | recordAttempt => { copy with attempts := copy.attempts + 1, updatedAt := now }
  | recordPreemption => { copy with preemptions := copy.preemptions + 1, updatedAt := now }
  | recordCheckpoint step key =>
      { copy with checkpointStep := some step, checkpointKey := some key, checkpointAt := some now }
  | pinTier tier _ => { copy with pinnedTier := some tier, updatedAt := now }
  | requestCancel actor => { copy with cancelRequested := some actor, updatedAt := now }

/-- What a method makes of the row. -/
def Mutator.written (mutator : Mutator) (copy row : Job) (now : Time) : Job :=
  match mutator with
  | transition target change => (copy.movedTo target change now).writtenOver row
  | recordAttempt => Touch.attempt.onRow now row
  | recordPreemption => Touch.preemption.onRow now row
  | recordCheckpoint step key => (Touch.checkpoint step key).onRow now row
  | pinTier tier reason => (Touch.pinTier tier reason).onRow now row
  | requestCancel actor => (Touch.cancelRequest actor).onRow now row

/-- A job without the columns a method names. -/
def Mutator.unnamed (mutator : Mutator) (job : Job) : Job :=
  match mutator with
  | transition _ _ =>
      { job with
        state := .queued
        updatedAt := 0
        backend := none
        backendHandle := none
        startedAt := none
        finishedAt := none
        exitCode := none }
  | recordAttempt => { job with attempts := 0, updatedAt := 0 }
  | recordPreemption => { job with preemptions := 0, updatedAt := 0 }
  | recordCheckpoint _ _ =>
      { job with checkpointStep := none, checkpointKey := none, checkpointAt := none, updatedAt := 0 }
  | pinTier _ _ => { job with pinnedTier := none, updatedAt := 0 }
  | requestCancel _ => { job with cancelRequested := none, updatedAt := 0 }

/-- The columns that what a method hands back takes over from the copy; a count is taken over and
raised. -/
def Mutator.takenOver (mutator : Mutator) (job : Job) : Job :=
  match mutator with
  | transition _ _ => { mutator.unnamed job with origin := "" }
  | recordAttempt | recordPreemption => { job with updatedAt := 0 }
  | _ => mutator.unnamed job

/-- Nothing is lost on the way back: a job that is moved is of the origin every record falls back to, and
a checkpoint is recorded in the moment the copy was last updated. -/
def Mutator.Lossless (mutator : Mutator) (copy row : Job) (now : Time) : Prop :=
  match mutator with
  | transition _ _ => row.origin = "real"
  | recordCheckpoint _ _ => copy.updatedAt = now
  | _ => True

/-! ### What is written and what is returned -/

theorem Mutator.unnamed_written (mutator : Mutator) (copy row : Job) (now : Time) :
    mutator.unnamed (mutator.written copy row now) = mutator.unnamed row := by
  cases mutator <;> rfl

theorem Mutator.returned_eq_written_iff (mutator : Mutator) (copy row : Job) (now : Time) :
    mutator.returned copy now = mutator.written copy row now ↔
      mutator.takenOver copy = mutator.takenOver row ∧ mutator.Lossless copy row now := by
  cases mutator <;>
    simp only [returned, written, takenOver, unnamed, Lossless, Job.movedTo, Job.writtenOver, Touch.onRow,
      Job.mk.injEq] <;> grind

/-- A row that was changed, and no other. -/
structure Changed (world next : World γ) (id : JobId) (after : Job) : Prop where
  row : next.db.jobs.find id = some after
  others : ∀ other, other ≠ id → next.db.jobs.find other = world.db.jobs.find other

theorem changed_touch {columns : Touch} {now : Time} {id : JobId} {row : Job} {world next : World γ}
    (stored : world.db.jobs.find id = some row)
    (applied : (Write.touch id columns now).apply world = .ok next) :
    Changed world next id (columns.onRow now row) := by
  obtain ⟨db, written, rfl⟩ := Write.apply_eq applied
  rw [Db.touchJob_eq written]
  exact ⟨(Table.find_modify_found stored _ (columns.onRow_id now) _).trans (if_pos rfl), fun other differs =>
    (Table.find_modify_found stored _ (columns.onRow_id now) _).trans (if_neg differs)⟩

theorem changed_move {copy row : Job} {target : JobState} {change : Change} {now : Time}
    {outstanding : Option Cents} {world next : World γ} (stored : world.db.jobs.find copy.jobId = some row)
    (applied : (Write.move copy target change now outstanding).apply world = .ok next) :
    Changed world next copy.jobId ((copy.movedTo target change now).writtenOver row) := by
  obtain ⟨db, written, rfl⟩ := Write.apply_eq applied
  obtain ⟨_, _, _, rfl⟩ := Db.moveJob_eq written
  exact ⟨(Table.find_modify_found stored _ (Job.writtenOver_id _) _).trans (if_pos rfl), fun other differs =>
    (Table.find_modify_found stored _ (Job.writtenOver_id _) _).trans (if_neg differs)⟩

/-- A method that is one touch of the row. -/
theorem called_touch (columns : Touch) (value : Time → α) {id : JobId} {row : Job} {result : α}
    {world next : World γ} (stored : world.db.jobs.find id = some row)
    (ran : (now >>= fun now => executing (.touch id columns now) (value now)).whole world =
      (.ok result, next)) :
    result = value (world.clock world.asked) ∧
      Changed world next id (columns.onRow (world.clock world.asked) row) := by
  rw [whole_now] at ran
  obtain ⟨same, applied⟩ := committed_of_whole ran
  have here : world.ticked.db.jobs.find id = some row := stored
  exact ⟨same, (changed_touch here applied).row, (changed_touch here applied).others⟩

/-- What a call that returns has returned and written. -/
theorem Mutator.called (mutator : Mutator) {copy row result : Job} {world next : World γ}
    (stored : world.db.jobs.find copy.jobId = some row)
    (ran : (mutator.call copy).whole world = (.ok result, next)) :
    result = mutator.returned copy (world.clock world.asked) ∧
      Changed world next copy.jobId (mutator.written copy row (world.clock world.asked)) := by
  cases mutator with
  | transition target change =>
      have here : world.ticked.db.jobs.find copy.jobId = some row := stored
      unfold call Broker.transition at ran
      simp only at ran
      split at ran
      · rw [whole_now] at ran
        split at ran
        · obtain ⟨same, applied⟩ := committed_of_whole ran
          exact ⟨same, (changed_move here applied).row, (changed_move here applied).others⟩
        · obtain ⟨same, applied⟩ := committed_of_whole ran
          exact ⟨same, (changed_move here applied).row, (changed_move here applied).others⟩
      · cases ran
  | recordAttempt => exact called_touch .attempt (recordAttempt.returned copy) stored ran
  | recordPreemption => exact called_touch .preemption (recordPreemption.returned copy) stored ran
  | recordCheckpoint step key =>
      exact called_touch (.checkpoint step key) ((recordCheckpoint step key).returned copy) stored ran
  | pinTier tier reason =>
      exact called_touch (.pinTier tier reason) ((pinTier tier reason).returned copy) stored ran
  | requestCancel actor =>
      exact called_touch (.cancelRequest actor) ((requestCancel actor).returned copy) stored ran

/-- What a method returns is the row it leaves exactly when the copy it was given agrees with the row in
the columns that are taken over, and nothing is lost on the way back. The columns it does not name, and
every other row, are as they were. -/
theorem mutator_returns_row_iff (mutator : Mutator) {copy row result : Job} {world next : World γ}
    (stored : world.db.jobs.find copy.jobId = some row)
    (ran : (mutator.call copy).whole world = (.ok result, next)) :
    (next.db.jobs.find copy.jobId = some result ↔
        mutator.takenOver copy = mutator.takenOver row ∧
          mutator.Lossless copy row (world.clock world.asked)) ∧
      (∃ after, next.db.jobs.find copy.jobId = some after ∧ mutator.unnamed after = mutator.unnamed row) ∧
      ∀ other, other ≠ copy.jobId → next.db.jobs.find other = world.db.jobs.find other := by
  obtain ⟨rfl, changed⟩ := mutator.called stored ran
  refine ⟨?_, ⟨_, changed.row, mutator.unnamed_written copy row _⟩, changed.others⟩
  rw [changed.row, Option.some.injEq, eq_comm]
  exact mutator.returned_eq_written_iff copy row _

/-! ### A pilot job -/

/-- The club when Ann has asked for a job of the pilot. -/
def World.pilot : World Rack :=
  Rack.running.after
    [(.upsertUser "ann" none none none none, 40),
      (.submit ⟨"job", "ann", "train", "t4", 4, none, none, "pilot"⟩, 40)]
    (World.club .club)

/-- A call on the job as it is stored returns another job than is stored afterwards. -/
def Mutator.Misreports (mutator : Mutator) (world : World γ) (id : JobId) : Prop :=
  ∃ job ∈ world.db.jobs.find id, ∃ result, ((mutator.call job).whole world).1 = .ok result ∧
    ((mutator.call job).whole world).2.db.jobs.find id ≠ some result

/-- A job of the pilot that is cancelled comes back as a real one, and a checkpoint comes back as of the
last update. -/
theorem pilot_misreported :
    (Mutator.transition .cancelled { reason := .cancelledBy "ann" }).Misreports World.pilot "job" ∧
      (Mutator.recordCheckpoint 100 "runs/job/100").Misreports World.pilot "job" := by
  have found : ∃ job ∈ World.pilot.db.jobs.find "job",
      (∃ result ∈ ((Mutator.transition .cancelled { reason := .cancelledBy "ann" }).call job |>.whole
          World.pilot).1.toOption,
        (((Mutator.transition .cancelled { reason := .cancelledBy "ann" }).call job).whole
          World.pilot).2.db.jobs.find "job" ≠ some result) ∧
      ∃ result ∈ (((Mutator.recordCheckpoint 100 "runs/job/100").call job).whole World.pilot).1.toOption,
        (((Mutator.recordCheckpoint 100 "runs/job/100").call job).whole
          World.pilot).2.db.jobs.find "job" ≠ some result := by
    decide +kernel
  obtain ⟨job, stored, ⟨cancelled, first, one⟩, saved, second, two⟩ := found
  exact ⟨⟨job, stored, cancelled, ok_of_toOption first, one⟩, job, stored, saved, ok_of_toOption second, two⟩

/-- An attempt on the same job comes back as it is stored. -/
theorem pilot_attempt_reported :
    ∃ job ∈ World.pilot.db.jobs.find "job", ∃ result next,
      ((Mutator.recordAttempt.call job).whole World.pilot) = (.ok result, next) ∧
        next.db.jobs.find job.jobId = some result := by
  have found : ∃ job ∈ World.pilot.db.jobs.find "job",
      ∃ result ∈ (((Mutator.recordAttempt.call job).whole World.pilot).1).toOption, True := by
    decide +kernel
  obtain ⟨job, stored, result, ended, -⟩ := found
  have ran : (Mutator.recordAttempt.call job).whole World.pilot =
      (.ok result, ((Mutator.recordAttempt.call job).whole World.pilot).2) :=
    Prod.ext (ok_of_toOption ended) rfl
  have named : job.jobId = "job" := Table.find_key stored
  have mine : World.pilot.db.jobs.find job.jobId = some job := named ▸ stored
  exact ⟨job, stored, result, _, ran, (mutator_returns_row_iff .recordAttempt mine ran).1.mpr ⟨rfl, trivial⟩⟩

end GpuBroker.Broker
