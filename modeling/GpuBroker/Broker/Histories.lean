/-
This file is what a job's record and its history say of each other, wherever a
run of the broker is stopped.

The history of a job is a path of legal transitions that ends at the state its
record is in, and what else the record carries (its machine, the moments it
started and finished) is what that path says. A transaction moves the record
and adds to the history together, so each keeps to the other; what the record
of a job has once said of its start and its end stays.
-/
import GpuBroker.Broker.Crashes

namespace GpuBroker.Broker

open Library

variable {γ : Type}

/-! ### Paths of legal transitions -/

/-- A state a history goes on to from its last one, or begins at. -/
def JobState.follows : Option JobState → JobState → Bool
  | none, target => target == .queued || target == .refused
  | some current, target => current.canTransition target

/-- Where the rows of a history lead from a state, if each goes on from where the one before it has
led. -/
def leads : Option JobState → List Transition → Option JobState
  | state, [] => state
  | state, row :: rest =>
      if row.fromState = state ∧ JobState.follows state row.toState = true then
        leads (some row.toState) rest
      else none

theorem leads_concat {state : Option JobState} {rows : List Transition} {row : Transition}
    {current : JobState} (path : leads state rows = some current) (goesOn : row.fromState = some current)
    (legal : current.canTransition row.toState = true) : leads state (rows ++ [row]) = some row.toState := by
  induction rows generalizing state with
  | nil =>
      have same : state = some current := path
      rw [List.nil_append, leads, same, if_pos ⟨goesOn, legal⟩, leads]
  | cons first rest inductionHypothesis =>
      rw [leads] at path
      split at path
      · next goes =>
        rw [List.cons_append, leads, if_pos goes]
        exact inductionHypothesis path
      · cases path

/-! ### Records and their histories -/

/-- A record beside the rows of its history. -/
structure Traced (rows : List Transition) (job : Job) : Prop where
  path : leads none rows = some job.state
  dated : ∀ row ∈ rows.head?, row.writtenAt = job.submittedAt
  begun : ∀ row ∈ rows, row.toState.active = true → job.startedAt.isSome = true
  ended : job.state.terminal = true → job.finishedAt.isSome = true

theorem Traced.same {rows : List Transition} {job later : Job} (traced : Traced rows job)
    (state : later.state = job.state) (submitted : later.submittedAt = job.submittedAt)
    (started : later.startedAt = job.startedAt) (finished : later.finishedAt = job.finishedAt) :
    Traced rows later := by
  obtain ⟨path, dated, begun, ended⟩ := traced
  rw [← state] at path ended
  rw [← submitted] at dated
  rw [← started] at begun
  rw [← finished] at ended
  exact ⟨path, dated, begun, ended⟩

/-- The start that a move leaves on a record is the one that is there. -/
theorem Job.movedTo_started {current : Job} (target : JobState) (change : Change) (now : Time)
    (started : current.startedAt.isSome = true) :
    (current.movedTo target change now).startedAt = current.startedAt := by
  refine if_neg fun first => ?_
  rw [Bool.and_eq_true, Option.isNone_iff_eq_none] at first
  rw [first.2] at started
  cases started

/-- A move and its row of the history keep a record beside its history. -/
theorem Traced.moved {world : World γ} {rows : List Transition} {current row : Job} {target : JobState}
    {change : Change} {now : Time} {outstanding : Option Cents} (traced : Traced rows row)
    (essence : row.essence = current.essence) (moving : Moving world current target change now outstanding) :
    Traced (rows ++ [⟨current.jobId, some current.state, target, now, change.reason⟩])
      ((current.movedTo target change now).writtenOver row) := by
  have state : row.state = current.state := essence_eq essence Job.state fun _ => rfl
  have started : row.startedAt = current.startedAt := essence_eq essence Job.startedAt fun _ => rfl
  refine ⟨leads_concat (state ▸ traced.path) rfl moving.legal, fun line first => ?_,
    fun line member active => ?_, fun ends => ?_⟩
  · cases rows with
    | nil => cases traced.path
    | cons head rest => exact traced.dated line first
  · show (current.movedTo target change now).startedAt.isSome = true
    rcases List.mem_append.mp member with earlier | last
    · have begun : current.startedAt.isSome = true := started ▸ traced.begun line earlier active
      rw [Job.movedTo_started target change now begun]
      exact begun
    · rw [List.mem_singleton.mp last] at active
      exact Job.movedTo_begun current target change now active
  · show (if target.terminal then some now else current.finishedAt).isSome = true
    rw [if_pos (show target.terminal = true from ends)]
    rfl

/-- A record as it is inserted is beside the first row of its history. -/
theorem traced_inserted {world : World γ} {write : Write} {job : Job} (sound : Sound world write)
    (new : write.inserts = some job) : Traced (write.history job.jobId).toList job := by
  cases write with
  | create other read =>
      cases new
      have fresh : Fresh world job read := sound
      have path : leads none [⟨job.jobId, none, job.state, job.submittedAt, .submitted⟩] =
          some job.state := if_pos ⟨rfl, by rw [fresh.queued]; rfl⟩
      simp only [Write.history, if_true, Option.toList_some]
      refine ⟨path, fun line first => ?_, fun line member active => ?_, fun ends => ?_⟩
      · cases first
        rfl
      · rw [List.mem_singleton.mp member] at active
        have waits : job.state.active = true := active
        rw [fresh.queued] at waits
        cases waits
      · rw [fresh.queued] at ends
        cases ends
  | refuse other refusal =>
      cases new
      obtain ⟨_, refused, _, _, _, finished⟩ := sound
      have path : leads none [⟨job.jobId, none, job.state, job.submittedAt, .refused refusal⟩] =
          some job.state := if_pos ⟨rfl, by rw [refused]; rfl⟩
      simp only [Write.history, if_true, Option.toList_some]
      refine ⟨path, fun line first => ?_, fun line member active => ?_, fun _ => finished⟩
      · cases first
        rfl
      · rw [List.mem_singleton.mp member] at active
        have waits : job.state.active = true := active
        rw [refused] at waits
        cases waits
  | insertUser | updateUser | suspend | restore | move | settle | touch | sampled | notify | abandon
  | applyPrices => cases new

/-! ### What a record keeps -/

/-- What the record of a job has said stays said: when it started, and how it ended. -/
structure Lasting (row later : Job) : Prop where
  begun : row.state.active = true → later.startedAt.isSome = true
  started : ∀ moment ∈ row.startedAt, later.startedAt = some moment
  ended : row.state.terminal = true → later.state = row.state

theorem Lasting.trans {row middle later : Job} (first : Lasting row middle) (second : Lasting middle later) :
    Lasting row later where
  begun active := by
    obtain ⟨moment, started⟩ := Option.isSome_iff_exists.mp (first.begun active)
    rw [second.started moment started]
    rfl
  started moment started := second.started moment (first.started moment started)
  ended ends := by
    have same := first.ended ends
    rw [← same] at ends
    exact (second.ended ends).trans same

theorem Lasting.same {ledger : List LedgerEntry} {row later : Job} (booked : JobBooked ledger row)
    (state : later.state = row.state) (started : later.startedAt = row.startedAt) : Lasting row later where
  begun active := by
    rw [started]
    exact booked.begun active
  started moment begun := started.trans begun
  ended _ := state

theorem Lasting.moved {world : World γ} {ledger : List LedgerEntry} {current row : Job} {target : JobState}
    {change : Change} {now : Time} {outstanding : Option Cents} (booked : JobBooked ledger row)
    (essence : row.essence = current.essence) (moving : Moving world current target change now outstanding) :
    Lasting row ((current.movedTo target change now).writtenOver row) := by
  have state : row.state = current.state := essence_eq essence Job.state fun _ => rfl
  have started : row.startedAt = current.startedAt := essence_eq essence Job.startedAt fun _ => rfl
  have stays : row.startedAt.isSome = true →
      (current.movedTo target change now).startedAt = row.startedAt := fun begun => by
    rw [started] at begun ⊢
    exact Job.movedTo_started target change now begun
  refine ⟨fun active => ?_, fun moment begun => ?_, fun ends => ?_⟩
  · have begun := booked.begun active
    exact (congrArg Option.isSome (stays begun)).trans begun
  · exact (stays (Option.isSome_of_mem begun)).trans begun
  · rw [state, (JobState.canTransition_spec moving.legal).1] at ends
    cases ends

/-- Every job that one world has is in the other, and what its record has said stays. -/
def Lasts (before after : World γ) : Prop :=
  ∀ id row, before.db.jobs.find id = some row →
    ∃ later, after.db.jobs.find id = some later ∧ Lasting row later

theorem Lasts.refl {world : World γ} (booked : Booked world) : Lasts world world :=
  fun id row found => ⟨row, found, Lasting.same (booked.jobs id row found) rfl rfl⟩

theorem Lasts.trans {one two three : World γ} (first : Lasts one two) (second : Lasts two three) :
    Lasts one three := by
  intro id row found
  obtain ⟨middle, hasMiddle, earlier⟩ := first id row found
  obtain ⟨later, hasLater, after⟩ := second id middle hasMiddle
  exact ⟨later, hasLater, earlier.trans after⟩

/-! ### One transaction -/

theorem Touch.onRow_moments (columns : Touch) (now : Time) (row : Job) :
    (columns.onRow now row).submittedAt = row.submittedAt ∧
      (columns.onRow now row).startedAt = row.startedAt ∧
      (columns.onRow now row).finishedAt = row.finishedAt := by
  cases columns <;> exact ⟨rfl, rfl, rfl⟩

/-- A transaction leaves what a record has said. -/
theorem Lasts.write {outside : Outside γ} {world next : World γ} {write : Write} (booked : Booked world)
    (sound : Sound world write) (exactly : Exact outside world write) (applied : write.apply world = .ok next) :
    Lasts world next := by
  intro id row found
  obtain ⟨later, hasLater, _⟩ := (Write.persists applied).jobs id row found
  refine ⟨later, hasLater, ?_⟩
  have bookedRow := booked.jobs id row found
  cases Write.rowStep applied hasLater with
  | inserted fresh new =>
      rw [found] at fresh
      cases fresh
  | moved current target change now outstanding other move mine hasOther state after =>
      subst move mine after
      obtain ⟨again, hasRow, essence⟩ := exactly.1
      cases found.symm.trans hasRow
      cases found.symm.trans hasOther
      exact Lasting.moved bookedRow essence sound
  | touched columns now other touch hasOther after =>
      cases found.symm.trans hasOther
      rw [after]
      exact Lasting.same bookedRow (columns.onRow_placed now row).1 (columns.onRow_moments now row).2.1
  | stamped job amount accrued now other settle mine hasOther after =>
      cases found.symm.trans hasOther
      rw [after]
      exact Lasting.same bookedRow rfl rfl
  | kept hasOther _ _ =>
      cases found.symm.trans hasOther
      exact Lasting.same bookedRow rfl rfl

/-- Every record is beside its history, and a job that is not there has none. -/
structure Tracked (world : World γ) : Prop where
  traced : ∀ id job, world.db.jobs.find id = some job → Traced (world.db.historyOf id) job
  absent : ∀ id, world.db.jobs.find id = none → world.db.historyOf id = []

theorem Tracked.quiet {world next : World γ} (tracked : Tracked world) (same : next.db = world.db) :
    Tracked next := by
  obtain ⟨traced, absent⟩ := tracked
  rw [← same] at traced absent
  exact ⟨traced, absent⟩

/-- A transaction keeps every record beside its history. -/
theorem Tracked.write {outside : Outside γ} {world next : World γ} {write : Write} (tracked : Tracked world)
    (sound : Sound world write) (exactly : Exact outside world write) (applied : write.apply world = .ok next) :
    Tracked next := by
  have untouched : ∀ {id}, write.history id = none → next.db.historyOf id = world.db.historyOf id :=
    fun none => by rw [historyOf_apply applied, none, Option.toList_none, List.append_nil]
  refine ⟨fun id later hasLater => ?_, fun id missing => ?_⟩
  · cases Write.rowStep applied hasLater with
    | inserted fresh new =>
        rw [historyOf_apply applied, tracked.absent id fresh, List.nil_append, ← Table.find_key hasLater]
        exact traced_inserted sound new
    | moved current target change now outstanding row move mine found state after =>
        subst move mine after
        obtain ⟨again, hasRow, essence⟩ := exactly.1
        cases found.symm.trans hasRow
        have noted : (Write.move current target change now outstanding).history current.jobId =
            some ⟨current.jobId, some current.state, target, now, change.reason⟩ := if_pos rfl
        rw [historyOf_apply applied, noted]
        exact (tracked.traced _ row found).moved essence sound
    | touched columns now row touch found after =>
        subst touch after
        rw [untouched rfl]
        obtain ⟨submitted, started, finished⟩ := columns.onRow_moments now row
        exact (tracked.traced id row found).same (columns.onRow_placed now row).1 submitted started finished
    | stamped job amount accrued now row settle mine found after =>
        subst settle after
        rw [untouched rfl]
        exact (tracked.traced id row found).same rfl rfl rfl rfl
    | kept found unmoved _ =>
        rw [untouched (history_unmoved found applied unmoved)]
        exact tracked.traced id later found
  · have before : world.db.jobs.find id = none := by
      by_contra present
      obtain ⟨row, found⟩ := Option.ne_none_iff_exists'.mp present
      obtain ⟨later, hasLater, _⟩ := (Write.persists applied).jobs id row found
      rw [missing] at hasLater
      cases hasLater
    rw [untouched (history_missing applied missing)]
    exact tracked.absent id before

/-! ### Runs -/

/-- A run leaves every active job's machine on record. -/
theorem manned_run {desk : Desk γ} (handled : desk.site.Handled) (config : BrokerConfig) (cloud : γ)
    (clock : Nat → Time) (entries : List (Operation × Nat)) :
    Manned (desk.after entries (World.new config cloud clock)) := by
  refine (Desk.keeps (runs_handled handled) (Booked.new config cloud clock)
    (desk.allows_anything entries _) ?_ ?_ ?_).2
  · exact fun _ _ found => by cases found
  · intro before after _ quiet _ manned
    unfold Manned
    rw [quiet.db]
    exact manned
  · intro write before after _ _ sound named exactly applied manned
    exact manned.committed sound named exactly applied

/-- What is kept along a run: records beside their histories, and of every state so far, what its
records have said. -/
structure Chronicled (past : List (Write × World γ)) (world : World γ) : Prop where
  tracked : Tracked world
  lasts : ∀ step ∈ past, Lasts step.2 world

theorem chronicled_run (desk : Desk γ) (config : BrokerConfig) (cloud : γ) (clock : Nat → Time)
    (entries : List (Operation × Nat)) :
    let world := World.new config cloud clock
    Chronicled (desk.record entries world) (desk.after entries world) := by
  intro world
  refine Desk.history (runs_unknown desk.site) (Booked.new config cloud clock)
    (desk.allows_anything entries world) ?_ ?_ ?_ ?_
  · have tracked : Tracked world := ⟨fun _ _ => nofun, fun _ _ => rfl⟩
    exact ⟨tracked, fun _ none => by cases none⟩
  · intro past before after quiet _ held
    refine ⟨held.tracked.quiet quiet.db, fun step member id row found => ?_⟩
    rw [quiet.db]
    exact held.lasts step member id row found
  · intro past write before error booked _ _ _ held
    refine ⟨held.tracked, fun step member => ?_⟩
    rcases List.mem_append.mp member with earlier | last
    · exact held.lasts step earlier
    · rw [List.mem_singleton.mp last]
      exact Lasts.refl booked
  · intro past write before next booked _ sound exactly applied held
    have kept : Lasts before next := Lasts.write booked sound exactly applied
    refine ⟨held.tracked.write sound exactly applied, fun step member => ?_⟩
    rcases List.mem_append.mp member with earlier | last
    · exact (held.lasts step earlier).trans kept
    · rw [List.mem_singleton.mp last]
      exact kept

/-- A job's record says what its history says: it names a machine while it is active, has a moment of
its end once it has ended and one of its start once it was ever active, and is where a path of legal
transitions from the queue, or from a refusal, has led. -/
structure Consistent (db : Db) (job : Job) : Prop where
  handle : job.backendHandle.isSome = job.state.active
  finished : job.finishedAt.isSome = job.state.terminal
  started : ∀ row ∈ db.historyOf job.jobId, row.toState.active = true → job.startedAt.isSome = true
  path : leads none (db.historyOf job.jobId) = some job.state

theorem Traced.consistent {ledger : List LedgerEntry} {db : Db} {job : Job} (booked : JobBooked ledger job)
    (manned : job.state.active = true → job.backendHandle.isSome = true)
    (traced : Traced (db.historyOf job.jobId) job) : Consistent db job where
  handle := by
    cases active : job.state.active with
    | true => exact manned active
    | false => rw [booked.freed active]; rfl
  finished := by
    cases ends : job.state.terminal with
    | true => exact traced.ended ends
    | false => rw [booked.unfinished ends]; rfl
  started := traced.begun
  path := traced.path

/-- Wherever a run is stopped, every job's record says what its history says, and what the record of a
job has said of its start and its end before any transaction of the run stays said. -/
theorem records_consistent (desk : Desk γ) (handled : desk.site.Handled) (config : BrokerConfig)
    (cloud : γ) (clock : Nat → Time) (entries : List (Operation × Nat)) :
    let world := World.new config cloud clock
    let after := desk.after entries world
    (∀ id job, after.db.jobs.find id = some job → Consistent after.db job) ∧
      ∀ step ∈ desk.record entries world, Lasts step.2 after := by
  intro world after
  have chronicled : Chronicled (desk.record entries world) after :=
    chronicled_run desk config cloud clock entries
  refine ⟨fun id job found => ?_, chronicled.lasts⟩
  have booked : JobBooked after.db.ledger job :=
    (desk.booked entries (Booked.new config cloud clock)).jobs id job found
  have manned := manned_run handled config cloud clock entries id job found
  have traced := chronicled.tracked.traced id job found
  rw [← Table.find_key found] at traced
  exact traced.consistent booked manned

/-- The club's job: its first machine is taken away, it is launched again, and stopped at its ceiling. -/
theorem records_consistent_stopped :
    let desk := Rack.interrupted
    let entries := Operation.opening ++ Operation.ticks 12
    let after := desk.after entries (World.club .club)
    (∃ job ∈ after.db.jobs.find "job", Consistent after.db job ∧ job.state = .failed ∧
      (after.db.historyOf job.jobId).map Transition.toState =
        [.queued, .allocating, .preempted, .queued, .allocating, .running, .failed]) ∧
      ∀ step ∈ desk.record entries (World.club .club), Lasts step.2 after := by
  have run := records_consistent Rack.interrupted (Rack.handled _ _) .club ⟨0, 0⟩
    (fun reading => reading * twelveMinutes) (Operation.opening ++ Operation.ticks 12)
  have row : ∃ job ∈ (Rack.interrupted.after (Operation.opening ++ Operation.ticks 12)
      (World.club .club)).db.jobs.find "job", job.state = .failed ∧
        ((Rack.interrupted.after (Operation.opening ++ Operation.ticks 12)
          (World.club .club)).db.historyOf job.jobId).map Transition.toState =
            [.queued, .allocating, .preempted, .queued, .allocating, .running, .failed] := by
    decide +kernel
  obtain ⟨job, found, failed, path⟩ := row
  exact ⟨⟨job, found, run.1 "job" job found, failed, path⟩, run.2⟩

end GpuBroker.Broker
