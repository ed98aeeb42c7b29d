/-
This file is what the rows of jobs and attempts say over a run of the control
plane.

A job goes from one state to another along legal edges only, and its number does
not go back. Each attempt is opened under the next number of its job, so the
number tells it from the others of the job, and what its row says of its worker,
its acknowledgement and its end stays.
-/
import GpuBroker.ControlPlane.Leases

namespace GpuBroker.ControlPlane

open Library

/-! ### Jobs -/

/-- One state leads to another along legal edges. -/
def JobState.LeadsTo : JobState → JobState → Prop :=
  Relation.ReflTransGen fun source target => source.canTransition target = true

/-- Nothing leads away from a terminal state. -/
theorem JobState.LeadsTo.terminal {source target : JobState} (leads : source.LeadsTo target)
    (finished : source.terminal = true) : target = source := by
  induction leads with
  | refl => rfl
  | tail _ edge inductionHypothesis =>
      have idle := JobState.canTransition_not_terminal edge
      rw [inductionHypothesis, finished] at idle
      cases idle

/-- What the row of a job keeps: the columns no save writes, a number that does not go back, and a state its
state leads to. -/
structure Onward (job later : Job) : Prop where
  columns : ∃ moved, later = Job.saved job moved
  number : job.attempt ≤ later.attempt
  state : job.state.LeadsTo later.state

theorem Onward.refl (job : Job) : Onward job job := ⟨⟨job, rfl⟩, le_refl _, .refl⟩

theorem Onward.trans {one two three : Job} (first : Onward one two) (second : Onward two three) :
    Onward one three := by
  obtain ⟨⟨middle, rfl⟩, number, state⟩ := first
  obtain ⟨⟨moved, rfl⟩, also, onward⟩ := second
  exact ⟨⟨moved, rfl⟩, number.trans also, state.trans onward⟩

theorem Deed.onward {service : Service} {call : Call} {db next : Live}
    (deed : Deed service db next call) {id : JobID} {job : Job} (found : db.jobs.find id = some job) :
    ∃ later, next.jobs.find id = some later ∧ Onward job later := by
  obtain ⟨later, hasLater, columns, number, same | edge⟩ := deed.job found
  · exact ⟨later, hasLater, columns, number, same ▸ .refl⟩
  · exact ⟨later, hasLater, columns, number, .single edge⟩

theorem run_onward (service : Service) (calls : List Call) {db : Database}
    (balanced : Balanced db.toBooks) {id : JobID} {job : Job} (found : db.jobs.find id = some job) :
    ∃ later, (run service calls db).jobs.find id = some later ∧ Onward job later := by
  induction calls generalizing db job with
  | nil => exact ⟨job, found, .refl job⟩
  | cons call rest inductionHypothesis =>
      obtain ⟨middle, hasMiddle, first⟩ := (call.deed service balanced).onward found
      obtain ⟨later, hasLater, second⟩ :=
        inductionHypothesis (balanced.change (call.perform_changes service balanced)) hasMiddle
      exact ⟨later, hasLater, first.trans second⟩

/-! ### Attempts -/

/-- An attempt that was not there before is opened under the next number of its job, and no other is opened
beside it. -/
theorem Deed.opens {service : Service} {call : Call} {db next : Live}
    (deed : Deed service db next call) {id : AttemptID} {row : Attempt}
    (absent : db.attempts.find id = none) (found : next.attempts.find id = some row) :
    ∃ job, db.jobs.find row.job = some job ∧ row.number = job.attempt + 1 ∧
      ∀ other, other ≠ id → next.attempts.find other = db.attempts.find other := by
  have kept : next.attempts = db.attempts → False := by
    intro same
    rw [same, absent] at found
    cases found
  have written : ∀ {old moved : Attempt}, db.attempts.Sets next.attempts moved →
      db.attempts.find old.id = some old → moved.id = old.id → False := by
    intro old moved sets stored key
    rcases sets.found found with ⟨_, own⟩ | ⟨_, before⟩
    · rw [own, key, stored] at absent
      cases absent
    · rw [before] at absent
      cases absent
  cases deed with
  | aside same => exact (kept (congrArg Live.attempts same)).elim
  | placed stored queued number state fresh ofJob numbered unacked unclosed unasked jobs attempts
      leases =>
      rcases attempts.found found with ⟨rfl, own⟩ | ⟨_, before⟩
      · exact ⟨_, ofJob ▸ stored, numbered, fun other differs => attempts.find_other (own ▸ differs)⟩
      · rw [before] at absent
        cases absent
  | started _ _ _ _ _ _ attemptFound _ _ _ _ _ _ attempts _ => exact (written attempts attemptFound rfl).elim
  | noticed _ _ attemptFound _ _ _ _ attempts _ => exact (written attempts attemptFound rfl).elim
  | ordered _ attemptFound _ _ _ _ attempts _ => exact (written attempts attemptFound rfl).elim
  | closed _ _ _ _ attemptFound _ _ _ _ _ attempts _ => exact (written attempts attemptFound rfl).elim
  | submitted _ _ _ attempts _ => exact (kept attempts).elim
  | moved _ _ _ _ _ _ attempts _ => exact (kept attempts).elim
  | claimed _ _ _ _ _ _ _ _ _ _ _ attempts _ => exact (kept attempts).elim
  | renewed _ attempts _ => exact (kept attempts).elim
  | dropped _ _ _ attempts _ => exact (kept attempts).elim

/-- No two attempts of a job have one number. -/
def Distinct (db : Live) : Prop :=
  ∀ one other first second, db.attempts.find one = some first → db.attempts.find other = some second →
    first.job = second.job → first.number = second.number → one = other

/-- What a call opens is told from what was there by its number. -/
theorem Deed.apart {service : Service} {call : Call} {db next : Live} (numbered : Numbered db)
    (deed : Deed service db next call) {one other : AttemptID} {first second : Attempt}
    (absent : db.attempts.find one = none) (hasFirst : next.attempts.find one = some first)
    (hasSecond : next.attempts.find other = some second) (sameJob : first.job = second.job)
    (sameNumber : first.number = second.number) : one = other := by
  obtain ⟨job, found, next_number, others⟩ := deed.opens absent hasFirst
  by_contra differs
  rw [others other (Ne.symm differs)] at hasSecond
  obtain ⟨also, hasAlso, within⟩ := numbered other second hasSecond
  rw [← sameJob, found] at hasAlso
  cases hasAlso
  omega

theorem Distinct.deed {service : Service} {call : Call} {db next : Live} (distinct : Distinct db)
    (numbered : Numbered db) (deed : Deed service db next call) : Distinct next := by
  intro one other first second hasFirst hasSecond sameJob sameNumber
  cases beforeOne : db.attempts.find one with
  | none => exact deed.apart numbered beforeOne hasFirst hasSecond sameJob sameNumber
  | some old =>
      cases beforeOther : db.attempts.find other with
      | none =>
          exact (deed.apart numbered beforeOther hasSecond hasFirst sameJob.symm sameNumber.symm).symm
      | some also =>
          obtain ⟨_, hasOld, lastingOne⟩ := deed.attempt beforeOne
          obtain ⟨_, hasAlso, lastingOther⟩ := deed.attempt beforeOther
          cases hasFirst.symm.trans hasOld
          cases hasSecond.symm.trans hasAlso
          refine distinct one other old also beforeOne beforeOther ?_ ?_
          · exact lastingOne.job.symm.trans (sameJob.trans lastingOther.job)
          · exact lastingOne.number.symm.trans (sameNumber.trans lastingOther.number)

theorem run_numbered (service : Service) (calls : List Call) {db : Database}
    (balanced : Balanced db.toBooks) (numbered : Numbered db.live) (distinct : Distinct db.live) :
    Numbered (run service calls db).live ∧ Distinct (run service calls db).live := by
  induction calls generalizing db with
  | nil => exact ⟨numbered, distinct⟩
  | cons call rest inductionHypothesis =>
      have deed := call.deed service balanced
      exact inductionHypothesis (balanced.change (call.perform_changes service balanced))
        (numbered.deed deed) (distinct.deed numbered deed)

/-! ### Runs -/

/-- In every run, whatever is called in whatever order: each attempt is of a job that is there, under a number
of its own up to the job's; and whatever follows, every job keeps the columns it was submitted with and goes on
along legal edges, a finished one not at all, and every attempt keeps its job, number and worker, and its
acknowledgement and outcome once it has them. -/
theorem rows_go_forward (service : Service) (calls more : List Call) :
    let before := run service calls .initial
    let after := run service (calls ++ more) .initial
    Numbered before.live ∧ Distinct before.live ∧
      (∀ id job, before.jobs.find id = some job → ∃ later, after.jobs.find id = some later ∧
        Onward job later ∧ (job.state.terminal = true → later.state = job.state)) ∧
      ∀ id row, before.attempts.find id = some row →
        ∃ later, after.attempts.find id = some later ∧ Lasting row later := by
  intro before after
  have balanced : Balanced before.toBooks := run_balanced service calls Balanced.initial
  have split : after = run service more before := run_append service calls more .initial
  have numbers := run_numbered service calls Balanced.initial (Sure.initial service).numbered
    (fun one _ _ _ found => absurd ((Table.find_empty one).symm.trans found) (by simp))
  refine ⟨numbers.1, numbers.2, fun id job found => ?_, fun id row found => ?_⟩
  · obtain ⟨later, hasLater, onward⟩ := run_onward service more balanced found
    exact ⟨later, split ▸ hasLater, onward, onward.state.terminal⟩
  · rw [split]
    exact run_attempt service more balanced found

end GpuBroker.ControlPlane
