/-
This file is what one transaction does to one record: it inserts it, moves it,
touches it, stamps it with a settlement, or leaves it alone.
-/
import GpuBroker.Broker.Runs

namespace GpuBroker.Broker

open Library

variable {γ : Type} {world next : World γ}

/-- The record a transaction inserts. -/
def Write.inserts : Write → Option Job
  | .create job _ => some job
  | .refuse job _ => some job
  | _ => none

/-- The state a transaction moves a job to. -/
def Write.moved (id : JobId) : Write → Option JobState
  | .move current target _ _ _ => if current.jobId = id then some target else none
  | _ => none

/-- The job whose row or log a transaction touches. -/
def Write.touched : Write → Option JobId
  | .touch job _ _ => some job
  | _ => none

/-- How the record a transaction leaves of a job came about. -/
inductive RowStep (write : Write) (world : World γ) (id : JobId) (later : Job) : Prop where
  | inserted (fresh : world.db.jobs.find id = none) (new : write.inserts = some later)
  | moved (current : Job) (target : JobState) (change : Change) (now : Time)
      (outstanding : Option Cents) (row : Job)
      (move : write = .move current target change now outstanding) (mine : current.jobId = id)
      (found : world.db.jobs.find id = some row) (state : row.state = current.state)
      (after : later = (current.movedTo target change now).writtenOver row)
  | touched (columns : Touch) (now : Time) (row : Job) (touch : write = .touch id columns now)
      (found : world.db.jobs.find id = some row) (after : later = columns.onRow now row)
  | stamped (job : Job) (amount : Cents) (accrued now : Time) (row : Job)
      (settle : write = .settle job amount accrued now) (mine : job.jobId = id)
      (found : world.db.jobs.find id = some row) (after : later = row.stamped now)
  | kept (found : world.db.jobs.find id = some later) (unmoved : write.moved id = none)
      (untouched : write.touched ≠ some id)

theorem rowStep_inserted {write : Write} {job later : Job} {id : JobId} {db : Db} {reason : Reason}
    {hold : List LedgerEntry} (inserted : world.db.insertJob job reason hold = .ok db)
    (inserts : write.inserts = some job) (unmoved : write.moved id = none)
    (untouched : write.touched ≠ some id) (hasLater : db.jobs.find id = some later) : RowStep write world id later := by
  obtain ⟨jobs, grown, rfl⟩ := Db.insertJob_eq inserted
  have hasLater : jobs.find id = some later := hasLater
  rw [Table.find_insert grown] at hasLater
  split at hasLater
  · next same =>
    cases hasLater
    exact .inserted (same ▸ (Table.insert_eq_some grown).1) inserts
  · exact .kept hasLater unmoved untouched

/-- The cases of a transaction, for one record. -/
theorem Write.rowStep {write : Write} {id : JobId} {later : Job}
    (applied : write.apply world = .ok next) (hasLater : next.db.jobs.find id = some later) :
    RowStep write world id later := by
  obtain ⟨db, written, rfl⟩ := Write.apply_eq applied
  have hasLater : db.jobs.find id = some later := hasLater
  cases write with
  | create job read => exact rowStep_inserted written rfl rfl (fun same => by cases same) hasLater
  | refuse job refusal => exact rowStep_inserted written rfl rfl (fun same => by cases same) hasLater
  | move current target change now outstanding =>
      obtain ⟨row, found, state, rfl⟩ := Db.moveJob_eq written
      have modified : (world.db.jobs.modify current.jobId
          (current.movedTo target change now).writtenOver (Job.writtenOver_id _)).find id =
            some later := hasLater
      rw [Table.find_modify] at modified
      split at modified
      · next same =>
        subst same
        rw [found] at modified
        exact .moved current target change now outstanding row rfl rfl found state
          (Option.some.inj modified).symm
      · next differs => exact .kept modified (if_neg (Ne.symm differs)) fun same => by cases same
  | settle job amount accrued now =>
      cases written
      have modified : (world.db.jobs.modify job.jobId (Job.stamped now) (Job.stamped_id now)).find
          id = some later := hasLater
      rw [Table.find_modify] at modified
      split at modified
      · next same =>
        obtain ⟨row, found, after⟩ := Option.map_eq_some_iff.mp modified
        exact .stamped job amount accrued now row rfl same.symm found after.symm
      · exact .kept modified rfl fun same => by cases same
  | touch job columns now =>
      rw [Db.touchJob_eq written] at hasLater
      have modified : (world.db.jobs.modify job (columns.onRow now) (columns.onRow_id now)).find id =
          some later := hasLater
      rw [Table.find_modify] at modified
      split at modified
      · next same =>
        subst same
        obtain ⟨row, found, after⟩ := Option.map_eq_some_iff.mp modified
        exact .touched columns now row rfl found after.symm
      · next differs => exact .kept modified rfl fun same => differs (Option.some.inj same).symm
  | abandon =>
      cases written
      exact .kept hasLater rfl fun same => by cases same
  | insertUser | updateUser | suspend | restore | sampled | notify | applyPrices =>
      rw [(Write.aside written trivial).1] at hasLater
      exact .kept hasLater rfl fun same => by cases same

/-- A move that is rolled back would have recorded a machine. -/
theorem move_rolledBack {current row : Job} {target : JobState} {change : Change} {now : Time}
    {outstanding : Option Cents} {error : BrokerError}
    (found : world.db.jobs.find current.jobId = some row) (state : row.state = current.state)
    (failed : (Write.move current target change now outstanding).apply world = .error error) :
    (current.movedTo target change now).backendHandle.isSome = true := by
  unfold Write.apply at failed
  simp only [Write.onDb, Db.moveJob, found, state, ne_eq, not_true_eq_false, if_false] at failed
  by_cases taken : world.db.handleTaken (current.movedTo target change now) = true
  · have held := taken
    unfold Db.handleTaken at held
    simp only [Bool.and_eq_true] at held
    exact held.1.2
  · rw [if_neg taken] at failed
    cases failed

/-! ### The machine on a record -/

/-- No two records name one machine. -/
def Db.Unshared (db : Db) : Prop :=
  ∀ one other first second, db.jobs.find one = some first → db.jobs.find other = some second →
    first.backend.isSome = true → first.backendHandle.isSome = true → second.backend = first.backend →
      second.backendHandle = first.backendHandle → one = other

/-- A touch leaves the machine on a record alone. -/
theorem Touch.onRow_machine (columns : Touch) (now : Time) (row : Job) :
    (columns.onRow now row).backend = row.backend ∧
      (columns.onRow now row).backendHandle = row.backendHandle := by
  cases columns <;> exact ⟨rfl, rfl⟩

/-- A record that names a machine named it before, or was just moved. -/
theorem Write.placed {write : Write} {id : JobId} {later : Job} (sound : Sound world write)
    (applied : write.apply world = .ok next) (hasLater : next.db.jobs.find id = some later)
    (placed : later.backendHandle.isSome = true) :
    (write.moved id = none ∧ ∃ row, world.db.jobs.find id = some row ∧ row.backend = later.backend ∧
      row.backendHandle = later.backendHandle) ∨
    ∃ current target change now outstanding row, write = .move current target change now outstanding ∧
      current.jobId = id ∧ world.db.jobs.find id = some row ∧
        later = (current.movedTo target change now).writtenOver row := by
  cases Write.rowStep applied hasLater with
  | inserted fresh new =>
      have bare : later.backendHandle = none := by
        cases write with
        | create job read =>
            cases new
            exact sound.unplaced
        | refuse job refusal =>
            cases new
            exact sound.2.2.1
        | insertUser | updateUser | suspend | restore | move | settle | touch | sampled | notify | abandon
        | applyPrices => cases new
      rw [bare] at placed
      cases placed
  | moved current target change now outstanding row move mine found _ after =>
      exact Or.inr ⟨current, target, change, now, outstanding, row, move, mine, found, after⟩
  | touched columns now row touch found after =>
      subst touch
      obtain ⟨backend, handle⟩ := columns.onRow_machine now row
      exact Or.inl ⟨rfl, row, found, by rw [after, backend], by rw [after, handle]⟩
  | stamped job amount accrued now row settle mine found after =>
      subst settle
      exact Or.inl ⟨rfl, row, found, by rw [after]; rfl, by rw [after]; rfl⟩
  | kept found unmoved _ => exact Or.inl ⟨unmoved, later, found, rfl, rfl⟩

/-- A move that is committed names no machine that another record names. -/
theorem Db.moveJob_untaken {db next : Db} {current updated : Job} {reason : Reason}
    {lines : List LedgerEntry} (moved : db.moveJob current updated reason lines = .ok next) :
    db.handleTaken updated = false := by
  unfold Db.moveJob at moved
  simp only at moved
  split at moved
  · cases moved
  · split at moved
    · cases moved
    · split at moved
      · cases moved
      · next untaken => exact Bool.eq_false_iff.mpr untaken

/-- No other record names the machine of one that may be moved. -/
theorem handleTaken_alone {db : Db} {updated other : Job} {id : JobId} (untaken : db.handleTaken updated = false)
    (found : db.jobs.find id = some other) (sited : updated.backend.isSome = true)
    (placed : updated.backendHandle.isSome = true) (backend : other.backend = updated.backend)
    (handle : other.backendHandle = updated.backendHandle) : id = updated.jobId := by
  by_contra differs
  have taken : db.handleTaken updated = true := by
    unfold Db.handleTaken
    rw [sited, placed, Bool.true_and, Bool.true_and, List.any_eq_true]
    have apart : other.jobId ≠ updated.jobId := fun same => differs ((Table.find_key found).symm.trans same)
    exact ⟨other, Table.find_mem found, by simp [apart, backend, handle]⟩
  rw [taken] at untaken
  cases untaken

/-- A transaction keeps machines to one record each. -/
theorem Db.Unshared.apply {write : Write} (unshared : world.db.Unshared) (sound : Sound world write)
    (applied : write.apply world = .ok next) : next.db.Unshared := by
  intro one other first second hasFirst hasSecond sited placed backend handle
  have untaken : ∀ {current target change now outstanding},
      write = .move current target change now outstanding →
        world.db.handleTaken (current.movedTo target change now) = false := by
    rintro current target change now outstanding rfl
    obtain ⟨db, written, _⟩ := Write.apply_eq applied
    exact Db.moveJob_untaken written
  rcases Write.placed sound applied hasFirst placed with ⟨unmoved, row, found, itsBackend, itsHandle⟩ |
      ⟨current, target, change, now, outstanding, row, move, mine, found, rfl⟩
  · rcases Write.placed sound applied hasSecond (handle ▸ placed) with
        ⟨_, also, foundAlso, alsoBackend, alsoHandle⟩ |
        ⟨current, target, change, now, outstanding, also, move, mine, foundAlso, rfl⟩
    · exact unshared one other row also found foundAlso (itsBackend ▸ sited) (itsHandle ▸ placed)
        (alsoBackend.trans (backend.trans itsBackend.symm)) (alsoHandle.trans (handle.trans itsHandle.symm))
    · have backend : (current.movedTo target change now).backend = first.backend := backend
      have handle : (current.movedTo target change now).backendHandle = first.backendHandle := handle
      have alone : one = (current.movedTo target change now).jobId :=
        handleTaken_alone (untaken move) found (by rw [backend]; exact sited) (by rw [handle]; exact placed)
          (itsBackend.trans backend.symm) (itsHandle.trans handle.symm)
      exact alone.trans mine
  · rcases Write.placed sound applied hasSecond (handle ▸ placed) with
        ⟨_, also, foundAlso, alsoBackend, alsoHandle⟩ |
        ⟨current', target', change', now', outstanding', also, again, mine', foundAlso, rfl⟩
    · have alone : other = (current.movedTo target change now).jobId :=
        handleTaken_alone (untaken move) foundAlso sited placed (alsoBackend.trans backend)
          (alsoHandle.trans handle)
      exact mine.symm.trans alone.symm
    · cases move.symm.trans again
      exact mine.symm.trans mine'

/-! ### The history of a job -/

/-- The rows of a job's history. -/
def Db.historyOf (db : Db) (id : JobId) : List Transition := db.transitions.filter fun row => row.jobId = id

/-- The row a transaction adds to a job's history. -/
def Write.history (id : JobId) : Write → Option Transition
  | .create job _ =>
      if job.jobId = id then some ⟨job.jobId, none, job.state, job.submittedAt, .submitted⟩ else none
  | .refuse job refusal =>
      if job.jobId = id then some ⟨job.jobId, none, job.state, job.submittedAt, .refused refusal⟩
      else none
  | .move current target change now _ =>
      if current.jobId = id then some ⟨current.jobId, some current.state, target, now, change.reason⟩
      else none
  | _ => none

theorem historyOf_concat {db next : Db} {row : Transition} (id : JobId)
    (grown : next.transitions = db.transitions ++ [row]) :
    next.historyOf id = db.historyOf id ++ (if row.jobId = id then some row else none).toList := by
  unfold Db.historyOf
  rw [grown, List.filter_append, List.filter_singleton]
  by_cases same : row.jobId = id
  · rw [if_pos same, decide_eq_true same]
    rfl
  · rw [if_neg same, decide_eq_false same]
    rfl

/-- A transaction adds its row to the history of its job. -/
theorem historyOf_apply {write : Write} (applied : write.apply world = .ok next) (id : JobId) :
    next.db.historyOf id = world.db.historyOf id ++ (write.history id).toList := by
  obtain ⟨db, written, rfl⟩ := Write.apply_eq applied
  have same : db.transitions = world.db.transitions →
      db.historyOf id = world.db.historyOf id ++ (none : Option Transition).toList := fun same => by
    rw [Option.toList_none, List.append_nil, Db.historyOf, same, Db.historyOf]
  cases write with
  | create job read =>
      obtain ⟨jobs, _, rfl⟩ := Db.insertJob_eq written
      exact (historyOf_concat id rfl).trans rfl
  | refuse job refusal =>
      obtain ⟨jobs, _, rfl⟩ := Db.insertJob_eq written
      exact (historyOf_concat id rfl).trans rfl
  | move current target change now outstanding =>
      obtain ⟨row, _, _, rfl⟩ := Db.moveJob_eq written
      exact (historyOf_concat id rfl).trans rfl
  | touch job columns now =>
      rw [Db.touchJob_eq written] at same ⊢
      exact same rfl
  | settle | abandon =>
      cases written
      exact same rfl
  | insertUser | updateUser | suspend | restore | sampled | notify | applyPrices =>
      exact same (Write.aside written trivial).2.2.1

/-- A transaction that adds to the history of a job that is there moves it. -/
theorem history_moves {write : Write} {id : JobId} {row : Job} {line : Transition}
    (found : world.db.jobs.find id = some row) (applied : write.apply world = .ok next)
    (noted : write.history id = some line) :
    ∃ current target change now outstanding, write = .move current target change now outstanding ∧
      current.jobId = id ∧ line = ⟨current.jobId, some current.state, target, now, change.reason⟩ := by
  obtain ⟨db, written, rfl⟩ := Write.apply_eq applied
  cases write with
  | create job read =>
      obtain ⟨same, _⟩ := Option.ite_none_right_eq_some.mp noted
      obtain ⟨jobs, grown, _⟩ := Db.insertJob_eq written
      rw [← same, (Table.insert_eq_some grown).1] at found
      cases found
  | refuse job refusal =>
      obtain ⟨same, _⟩ := Option.ite_none_right_eq_some.mp noted
      obtain ⟨jobs, grown, _⟩ := Db.insertJob_eq written
      rw [← same, (Table.insert_eq_some grown).1] at found
      cases found
  | move current target change now outstanding =>
      obtain ⟨mine, same⟩ := Option.ite_none_right_eq_some.mp noted
      exact ⟨current, target, change, now, outstanding, rfl, mine, (Option.some.inj same).symm⟩
  | insertUser | updateUser | suspend | restore | settle | touch | sampled | notify | abandon
  | applyPrices => cases noted

/-- A transaction that does not move a job that is there adds nothing to its history. -/
theorem history_unmoved {write : Write} {id : JobId} {row : Job}
    (found : world.db.jobs.find id = some row) (applied : write.apply world = .ok next)
    (unmoved : write.moved id = none) : write.history id = none := by
  cases noted : write.history id with
  | none => rfl
  | some line =>
      obtain ⟨current, target, change, now, outstanding, rfl, mine, _⟩ :=
        history_moves found applied noted
      cases (if_pos mine).symm.trans unmoved

theorem history_inserted {write : Write} {later : Job} (new : write.inserts = some later) :
    ∃ line, write.history later.jobId = some line ∧ line.toState = later.state := by
  cases write with
  | create | refuse =>
      cases new
      exact ⟨_, if_pos rfl, rfl⟩
  | insertUser | updateUser | suspend | restore | move | settle | touch | sampled | notify | abandon
  | applyPrices => cases new

/-- A transaction leaves no history to a job that is not there. -/
theorem history_missing {write : Write} {id : JobId}
    (applied : write.apply world = .ok next) (missing : next.db.jobs.find id = none) :
    write.history id = none := by
  obtain ⟨db, written, rfl⟩ := Write.apply_eq applied
  have missing : db.jobs.find id = none := missing
  cases write with
  | create job read =>
      obtain ⟨jobs, grown, rfl⟩ := Db.insertJob_eq written
      have missing : jobs.find id = none := missing
      rw [Table.find_insert grown] at missing
      exact if_neg fun same => by rw [if_pos same.symm] at missing; cases missing
  | refuse job refusal =>
      obtain ⟨jobs, grown, rfl⟩ := Db.insertJob_eq written
      have missing : jobs.find id = none := missing
      rw [Table.find_insert grown] at missing
      exact if_neg fun same => by rw [if_pos same.symm] at missing; cases missing
  | move current target change now outstanding =>
      obtain ⟨row, found, _, rfl⟩ := Db.moveJob_eq written
      refine if_neg fun same => ?_
      have missing : (world.db.jobs.modify current.jobId
          (current.movedTo target change now).writtenOver (Job.writtenOver_id _)).find id = none := missing
      rw [Table.find_modify, if_pos same.symm, ← same, found] at missing
      cases missing
  | insertUser | updateUser | suspend | restore | settle | touch | sampled | notify | abandon
  | applyPrices => rfl

end GpuBroker.Broker
