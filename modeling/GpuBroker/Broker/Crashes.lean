/-
This file is what a crash leaves behind: which jobs a later pass goes on with
when an operation is stopped between two of its transactions.

A preempted job is moved twice, to `PREEMPTED` and then back to the queue, and
no pass looks at a job between the two. So what is left behind can be gone on
with exactly when no operation was stopped in that gap; a machine on the record
of a job that is active is there in every case.
-/
import GpuBroker.Broker.Rows

namespace GpuBroker.Broker

open Library

variable {γ : Type}

/-! ### Transactions of a run -/

/-- The state the last move of a job in a list of transactions has moved it to. -/
def lastMove (id : JobId) : List Write → Option JobState
  | [] => none
  | write :: rest => (lastMove id rest).or (write.moved id)

theorem lastMove_concat (id : JobId) (past : List Write) (write : Write) :
    lastMove id (past ++ [write]) = (write.moved id).or (lastMove id past) := by
  induction past with
  | nil => exact Option.none_or.trans Option.or_none.symm
  | cons first past inductionHypothesis =>
      rw [List.cons_append, lastMove, inductionHypothesis, Option.or_assoc, lastMove]

theorem lastMove_eq_none {id : JobId} {writes : List Write} :
    lastMove id writes = none ↔ ∀ write ∈ writes, write.moved id = none := by
  induction writes with
  | nil => simp [lastMove]
  | cons write rest inductionHypothesis =>
      rw [lastMove, Option.or_eq_none_iff, inductionHypothesis, List.forall_mem_cons, and_comm]

/-- The job a transaction moves to `PREEMPTED`. -/
def Write.preempts : Write → Option JobId
  | .move current .preempted _ _ _ => some current.jobId
  | _ => none

theorem Write.preempts_iff {write : Write} {id : JobId} :
    id ∈ write.preempts ↔ write.moved id = some .preempted := by
  cases write with
  | move current target change now outstanding =>
      by_cases lost : target = .preempted
      · subst lost
        show some current.jobId = some id ↔ (if current.jobId = id then some JobState.preempted else none) = _
        split <;> simp_all
      · have idle : (Write.move current target change now outstanding).preempts = none := by
          cases target <;> first | rfl | exact absurd rfl lost
        rw [idle]
        show none = some id ↔ (if current.jobId = id then some target else none) = _
        split <;> simp_all
  | insertUser | updateUser | suspend | restore | create | refuse | settle | touch | sampled | notify
  | abandon | applyPrices => exact iff_of_false nofun nofun

/-- Every move to `PREEMPTED` is followed by another move of the job. -/
def Requeued : List Write → Prop
  | [] => True
  | write :: rest => (∀ id ∈ write.preempts, ∃ later ∈ rest, (later.moved id).isSome = true) ∧ Requeued rest

instance decidableRequeued : ∀ writes : List Write, Decidable (Requeued writes)
  | [] => isTrue trivial
  | _ :: rest =>
      have : Decidable (Requeued rest) := decidableRequeued rest
      inferInstanceAs (Decidable (_ ∧ _))

theorem requeued_iff {writes : List Write} :
    Requeued writes ↔ ∀ id, lastMove id writes ≠ some .preempted := by
  induction writes with
  | nil => exact iff_of_true trivial fun _ => nofun
  | cons write rest inductionHypothesis =>
      rw [Requeued, inductionHypothesis]
      constructor
      · rintro ⟨followed, settled⟩ id last
        rw [lastMove, Option.or_eq_some_iff] at last
        rcases last with later | ⟨none, mine⟩
        · exact settled id later
        · obtain ⟨later, member, moved⟩ := followed id (Write.preempts_iff.mpr mine)
          rw [lastMove_eq_none.mp none later member] at moved
          cases moved
      · intro settled
        refine ⟨fun id mine => ?_, fun id last => settled id ?_⟩
        · by_contra unfollowed
          push Not at unfollowed
          refine settled id ?_
          have none : lastMove id rest = none := lastMove_eq_none.mpr fun later member =>
            Option.not_isSome_iff_eq_none.mp (unfollowed later member)
          rw [lastMove, none, Write.preempts_iff.mp mine]
          rfl
        · rw [lastMove, last]
          rfl

/-! ### What is left behind -/

/-- A later pass goes on with the job: it is waiting in the queue, or active on a machine. -/
def Job.Pursued (job : Job) : Prop :=
  job.state = .queued ∨ (job.state.active = true ∧ job.backendHandle.isSome = true)

/-- Every job that has not ended is one a later pass goes on with. -/
def Pursuable (world : World γ) : Prop :=
  ∀ id job, world.db.jobs.find id = some job → job.state.terminal = false → job.Pursued

/-- Every active job has its machine on record. -/
def Manned (world : World γ) : Prop :=
  ∀ id job, world.db.jobs.find id = some job → job.state.active = true →
    job.backendHandle.isSome = true

/-- A job that has not ended and is not preempted is gone on with. -/
theorem pursuable_iff {world : World γ} (manned : Manned world) :
    Pursuable world ↔ ∀ id job, world.db.jobs.find id = some job → job.state ≠ .preempted := by
  constructor
  · intro pursuable id job found lost
    rcases pursuable id job found (by rw [lost]; rfl) with queued | ⟨active, _⟩
    · rw [lost] at queued
      cases queued
    · rw [lost] at active
      cases active
  · intro none id job found live
    have held := manned id job found
    have kept := none id job found
    unfold Job.Pursued
    revert live held kept
    cases job.state <;> simp [JobState.terminal, JobState.active]

/-- Handles that a launch hands out are not empty. -/
def Outside.handled (γ : Type) : Outside γ := { Outside.unknown with handles := fun handle => handle ≠ "" }

theorem runs_handled {site : Site γ} (handled : site.Handled) :
    (solitary (Outside.handled γ)).Runs site where
  ends := fun _ _ => ⟨fun _ _ _ => ⟨trivial, trivial⟩, fun _ _ _ _ _ => trivial⟩
  starts := fun backend member => ⟨fun _ _ => trivial, fun _ _ _ _ => trivial, fun _ _ _ _ => trivial,
    fun job cloud allocation answer => ⟨trivial, trivial, handled backend member job cloud allocation answer⟩⟩
  watches := fun _ _ => ⟨fun _ _ _ => trivial, fun _ _ => trivial, fun _ _ _ _ => trivial,
    fun _ _ _ => trivial, fun _ _ _ _ _ => trivial, fun _ _ => trivial⟩
  latest := fun _ _ _ _ => trivial

/-- The machine a move leaves on an active job's record. -/
theorem manned_moved {world : World γ} {current row : Job} {target : JobState} {change : Change}
    {now : Time} {outstanding : Option Cents}
    (moving : Moving world current target change now outstanding)
    (named : ∀ handle ∈ change.backendHandle, handle ≠ "") (inStep : InStep world current)
    (found : world.db.jobs.find current.jobId = some row)
    (held : row.state.active = true → row.backendHandle.isSome = true)
    (active : target.active = true) : (current.movedTo target change now).backendHandle.isSome = true := by
  have kept : change.clearHandle = false := by
    rw [moving.clears]
    revert active
    cases target <;> decide
  show (if change.clearHandle then none else
    (truthy change.backendHandle).or current.backendHandle).isSome = true
  rw [kept, if_neg Bool.false_ne_true, Option.isSome_or, Bool.or_eq_true]
  rcases JobState.canTransition_active moving.legal active with before | ⟨queued, rfl⟩
  · obtain ⟨again, hasRow, same⟩ := inStep
    rw [found] at hasRow
    cases hasRow
    rw [essence_eq same Job.state fun _ => rfl, essence_eq same Job.backendHandle fun _ => rfl] at held
    exact Or.inr (held before)
  · have places := moving.places
    rw [queued] at places
    obtain ⟨handle, placed⟩ := Option.isSome_iff_exists.mp places
    refine Or.inl ?_
    rw [placed, truthy_some (named handle placed)]
    rfl

theorem Touch.onRow_placed (columns : Touch) (now : Time) (row : Job) :
    (columns.onRow now row).state = row.state ∧
      (columns.onRow now row).backendHandle = row.backendHandle := by
  cases columns <;> exact ⟨rfl, rfl⟩

/-- What is kept along an operation: machines of active jobs are on record, and a job is preempted
exactly when the operation's last move of it was to `PREEMPTED`. -/
structure Left (past : List Write) (world : World γ) : Prop where
  manned : Manned world
  preempted : ∀ id job, world.db.jobs.find id = some job →
    (job.state = .preempted ↔ lastMove id past = some .preempted)
  moved : ∀ id, (lastMove id past).isSome = true → (world.db.jobs.find id).isSome = true

theorem Left.quiet {past : List Write} {world next : World γ} (held : Left past world)
    (same : next.db = world.db) : Left past next := by
  obtain ⟨manned, preempted, moved⟩ := held
  refine ⟨?_, ?_, ?_⟩
  · unfold Manned
    rw [same]
    exact manned
  · rw [same]
    exact preempted
  · rw [same]
    exact moved

/-- A move that is rolled back is of a job that is not preempted, and not to `PREEMPTED`. -/
theorem Left.rolledBack {past : List Write} {world : World γ} {write : Write} {error : BrokerError}
    (held : Left past world) (sound : Sound world write)
    (exactly : Exact (Outside.handled γ) world write) (failed : write.apply world = .error error) :
    Left (past ++ [write]) world := by
  have stands : ∀ id target, write.moved id = some target → target ≠ .preempted ∧
      ∃ job, world.db.jobs.find id = some job ∧ job.state ≠ .preempted := by
    intro id target moves
    cases write with
    | move current asked change now outstanding =>
        obtain ⟨mine, same⟩ := Option.ite_none_right_eq_some.mp moves
        rw [Option.some.inj same] at sound exactly failed
        subst mine
        obtain ⟨row, found, essence⟩ := exactly.1
        have state : row.state = current.state := essence_eq essence Job.state fun _ => rfl
        have recorded := move_rolledBack found state failed
        have moving : Moving world current target change now outstanding := sound
        have freed := moving.freed
        refine ⟨?_, row, found, ?_⟩
        · rintro rfl
          rw [freed rfl] at recorded
          cases recorded
        · intro lost
          have places := moving.places
          have waiting : current.state = .preempted := state.symm.trans lost
          rw [waiting] at places
          have unplaced : change.backendHandle = none := by
            rw [← Option.not_isSome_iff_eq_none, places]
            exact Bool.false_ne_true
          have unheld : current.backendHandle = none := moving.known.freed (by rw [waiting]; rfl)
          have nothing : (current.movedTo target change now).backendHandle = none := by
            show (if change.clearHandle then none else
              (truthy change.backendHandle).or current.backendHandle) = none
            rw [unplaced, unheld]
            split <;> rfl
          rw [nothing] at recorded
          cases recorded
    | insertUser | updateUser | suspend | restore | create | refuse | settle | touch | sampled
    | notify | abandon | applyPrices => cases moves
  refine ⟨held.manned, fun id job found => ?_, fun id => ?_⟩
  · rw [lastMove_concat]
    cases moves : write.moved id with
    | none => exact held.preempted id job found
    | some target =>
        obtain ⟨apart, row, hasRow, state⟩ := stands id target moves
        rw [found] at hasRow
        cases hasRow
        exact iff_of_false state fun same => apart (Option.some.inj same)
  · rw [lastMove_concat]
    cases moves : write.moved id with
    | none => exact held.moved id
    | some target =>
        obtain ⟨_, row, hasRow, _⟩ := stands id target moves
        rw [hasRow]
        exact fun _ => rfl

/-- A transaction leaves the machines of active jobs on record. -/
theorem Manned.committed {world next : World γ} {write : Write} (manned : Manned world)
    (sound : Sound world write) (named : Named (Outside.handled γ) write)
    (exactly : Exact (Outside.handled γ) world write) (applied : write.apply world = .ok next) :
    Manned next := by
  intro id later hasLater active
  cases Write.rowStep applied hasLater with
  | inserted fresh new =>
      cases write with
      | create job read =>
          cases new
          have queued : later.state = .queued := Fresh.queued sound
          rw [queued] at active
          cases active
      | refuse job refusal =>
          cases new
          rw [sound.2.1] at active
          cases active
      | insertUser | updateUser | suspend | restore | move | settle | touch | sampled | notify
      | abandon | applyPrices => cases new
  | moved current target change now outstanding row move mine found state after =>
      subst move mine after
      exact manned_moved sound named exactly.1 found (manned _ row found) active
  | touched columns now row touch found after =>
      obtain ⟨state, handle⟩ := columns.onRow_placed now row
      rw [after, handle]
      rw [after, state] at active
      exact manned id row found active
  | stamped job amount accrued now row settle mine found after =>
      rw [after] at active ⊢
      exact manned id row found active
  | kept found _ _ => exact manned id later found active

/-- A transaction that is committed keeps the record of what was moved. -/
theorem Left.committed {past : List Write} {world next : World γ} {write : Write}
    (held : Left past world) (sound : Sound world write) (named : Named (Outside.handled γ) write)
    (exactly : Exact (Outside.handled γ) world write) (applied : write.apply world = .ok next) :
    Left (past ++ [write]) next := by
  have unmoved : ∀ {id job}, write.moved id = none → world.db.jobs.find id = some job →
      (job.state = .preempted ↔ lastMove id (past ++ [write]) = some .preempted) := by
    intro id job idle found
    rw [lastMove_concat, idle]
    exact held.preempted id job found
  refine ⟨held.manned.committed sound named exactly applied, fun id later hasLater => ?_,
    fun id some => ?_⟩
  · cases Write.rowStep applied hasLater with
    | inserted fresh new =>
        have unseen : lastMove id past = none := by
          by_contra seen
          have there := held.moved id (Option.isSome_iff_ne_none.mpr seen)
          rw [fresh] at there
          cases there
        rw [lastMove_concat, unseen, Option.or_none]
        cases write with
        | create job read =>
            cases new
            have queued : later.state = .queued := Fresh.queued sound
            rw [queued]
            exact iff_of_false nofun nofun
        | refuse job refusal =>
            cases new
            rw [sound.2.1]
            exact iff_of_false nofun nofun
        | insertUser | updateUser | suspend | restore | move | settle | touch | sampled | notify
        | abandon | applyPrices => cases new
    | moved current target change now outstanding row move mine found state after =>
        subst move mine after
        have moves : (Write.move current target change now outstanding).moved current.jobId =
            some target := if_pos rfl
        rw [lastMove_concat, moves]
        exact (Option.some_inj (a := target)).symm
    | touched columns now row touch found after =>
        subst touch
        rw [after, (columns.onRow_placed now row).1]
        exact unmoved rfl found
    | stamped job amount accrued now row settle mine found after =>
        subst settle
        rw [after]
        show row.state = .preempted ↔ _
        exact unmoved rfl found
    | kept found idle _ => exact unmoved idle found
  · have there : (world.db.jobs.find id).isSome = true := by
      rw [lastMove_concat] at some
      cases moves : write.moved id with
      | none =>
          rw [moves] at some
          exact held.moved id some
      | some target =>
          cases write with
          | move current asked change now outstanding =>
              obtain ⟨mine, _⟩ := Option.ite_none_right_eq_some.mp moves
              obtain ⟨row, found, _⟩ := exactly.1
              rw [← mine, found]
              rfl
          | insertUser | updateUser | suspend | restore | create | refuse | settle | touch | sampled
          | notify | abandon | applyPrices => cases moves
    obtain ⟨row, found⟩ := Option.isSome_iff_exists.mp there
    obtain ⟨later, hasLater, _⟩ := (Write.persists applied).jobs id row found
    rw [hasLater]
    rfl

/-- An operation stopped anywhere keeps the record of what it has moved. -/
theorem left_operation {desk : Desk γ} {operation : Operation} {length : Nat} {world : World γ}
    (handled : desk.site.Handled) (booked : Booked world) (start : Left [] world) :
    Left (Program.labels length (operation.program desk.site desk.text) world)
      (desk.after [(operation, length)] world) := by
  have safe : (solitary (Outside.handled γ)).Safe (operation.program desk.site desk.text)
      (fun _ _ => True) world :=
    safe_operation operation (runs_handled handled) (fun _ => trivial) (fun _ _ => trivial)
      (sole_alone trivial) booked
  have keeps : Program.Keeps (solitary (Outside.handled γ)).contract
      fun past world => Left (past.map Prod.fst) world := by
    refine ⟨fun past before after _ quiet held => held.quiet quiet.1.db,
      fun past write before after _ _ guarantee held => ?_⟩
    obtain ⟨owes, _, left⟩ := guarantee
    rw [List.map_append]
    cases applied : write.apply before with
    | error error =>
        rw [left, Write.leaves_error applied]
        exact held.rolledBack owes.sound (owes.exactly trivial) applied
    | ok next =>
        rw [left, Write.leaves_ok applied]
        exact held.committed owes.sound owes.named (owes.exactly trivial) applied
  have none : Left (([] : List (Write × World γ)).map Prod.fst) world := start
  exact safe.history keeps booked (Program.allowed_always (fun _ _ => trivial) _ _ _) none

/-! ### Runs -/

theorem Left.start {world : World γ} (manned : Manned world)
    (settled : ∀ id job, world.db.jobs.find id = some job → job.state ≠ .preempted) :
    Left [] world :=
  ⟨manned, fun id job found => iff_of_false (settled id job found) nofun, fun _ => nofun⟩

/-- An operation that starts where every job is gone on with leaves every job so exactly when it is
not stopped between a move to `PREEMPTED` and the next. -/
theorem pursuable_operation {desk : Desk γ} {operation : Operation} {length : Nat} {world : World γ}
    (handled : desk.site.Handled) (booked : Booked world) (manned : Manned world)
    (pursuable : Pursuable world) :
    Manned (desk.after [(operation, length)] world) ∧
      (Pursuable (desk.after [(operation, length)] world) ↔
        Requeued (Program.labels length (operation.program desk.site desk.text) world)) := by
  have left : Left (Program.labels length (operation.program desk.site desk.text) world)
      (desk.after [(operation, length)] world) :=
    left_operation handled booked (Left.start manned ((pursuable_iff manned).mp pursuable))
  refine ⟨left.manned, ?_⟩
  rw [pursuable_iff left.manned, requeued_iff]
  constructor
  · intro settled id last
    obtain ⟨job, found⟩ := Option.isSome_iff_exists.mp (left.moved id (by rw [last]; rfl))
    exact settled id job found ((left.preempted id job found).mpr last)
  · exact fun settled id job found lost => settled id ((left.preempted id job found).mp lost)

/-- No operation of a run is stopped between a move to `PREEMPTED` and the next of that job. -/
def Desk.Requeues (desk : Desk γ) : List (Operation × Nat) → World γ → Prop
  | [], _ => True
  | (operation, length) :: rest, world =>
      Requeued (Program.labels length (operation.program desk.site desk.text) world) ∧
        desk.Requeues rest (desk.after [(operation, length)] world)

instance Desk.decidableRequeues (desk : Desk γ) :
    ∀ (entries : List (Operation × Nat)) (world : World γ), Decidable (desk.Requeues entries world)
  | [], _ => isTrue trivial
  | (operation, length) :: rest, world =>
      have : Decidable (desk.Requeues rest (desk.after [(operation, length)] world)) :=
        desk.decidableRequeues rest _
      inferInstanceAs (Decidable (_ ∧ _))

theorem pursuable_run {desk : Desk γ} {entries : List (Operation × Nat)} {world : World γ}
    (handled : desk.site.Handled) (booked : Booked world) (manned : Manned world)
    (pursuable : Pursuable world) :
    (∀ kept, kept <+: entries → Pursuable (desk.after kept world)) ↔ desk.Requeues entries world := by
  induction entries generalizing world with
  | nil =>
      refine iff_of_true (fun kept none => ?_) trivial
      rw [List.prefix_nil.mp none]
      exact pursuable
  | cons entry rest inductionHypothesis =>
      have step : Manned (desk.after [entry] world) ∧ (Pursuable (desk.after [entry] world) ↔
          Requeued (Program.labels entry.2 (entry.1.program desk.site desk.text) world)) :=
        pursuable_operation handled booked manned pursuable
      obtain ⟨mannedNext, first⟩ := step
      have later := fun pursuableNext => inductionHypothesis (desk.booked [entry] booked) mannedNext
        pursuableNext
      constructor
      · intro each
        have next : Pursuable (desk.after [entry] world) :=
          each [entry] (List.cons_prefix_cons.mpr ⟨rfl, List.nil_prefix⟩)
        refine ⟨first.mp next, (later next).mp fun kept whole => ?_⟩
        exact each (entry :: kept) (List.cons_prefix_cons.mpr ⟨rfl, whole⟩)
      · rintro ⟨requeued, requeues⟩ kept whole
        rcases List.prefix_cons_iff.mp whole with rfl | ⟨more, rfl, rest⟩
        · exact pursuable
        · exact (later (first.mpr requeued)).mpr requeues more rest

/-- Wherever a run is stopped, every job it leaves that has not ended is waiting in the queue or
active with its machine on record, exactly when none of its operations was stopped between the
transaction that moves a job to `PREEMPTED` and the next that moves it. -/
theorem left_behind_pursuable (desk : Desk γ) (handled : desk.site.Handled) (config : BrokerConfig)
    (cloud : γ) (clock : Nat → Time) (entries : List (Operation × Nat)) :
    let world := World.new config cloud clock
    (∀ kept, kept <+: entries → Pursuable (desk.after kept world)) ↔ desk.Requeues entries world :=
  pursuable_run handled (Booked.new config cloud clock) (fun _ _ => nofun) fun _ _ => nofun

instance (world : World γ) : Decidable (Pursuable world) :=
  decidable_of_iff (∀ job ∈ world.db.jobs.rows, job.state.terminal = false →
      job.state = .queued ∨ (job.state.active = true ∧ job.backendHandle.isSome = true)) <| by
    constructor
    · exact fun each id job found => each job (Table.find_mem found)
    · exact fun each job member => each job.jobId job (Table.find_of_mem member)

/-- The club, its first machine taken away at the first look. -/
def Rack.interrupted : Desk Rack :=
  Rack.desk (fun poll => if poll = 0 then .interrupted else .running) fun _ => []

/-- A pass that is not stopped requeues the job it has preempted. -/
theorem left_behind_pursuable_requeued :
    Pursuable (Rack.interrupted.after (Operation.opening ++ Operation.ticks 2) (World.club .club)) :=
  (left_behind_pursuable Rack.interrupted (Rack.handled _ _) .club ⟨0, 0⟩
    (fun reading => reading * twelveMinutes) (Operation.opening ++ Operation.ticks 2)).mpr
    (by decide +kernel) _ List.prefix_rfl

/-- A pass stopped right after it moved the job to `PREEMPTED` leaves it there, its hold
outstanding, and later passes leave it alone. -/
theorem left_behind_preempted :
    let stopped := Operation.opening ++ Operation.ticks 1 ++ [(.tick, 20)]
    let left := fun entries => Rack.interrupted.after entries (World.club .club)
    let jobs := fun entries => (left entries).db.jobs.rows.map fun job =>
      (job.state, job.backendHandle, (left entries).db.jobHolding job.jobId .usd)
    ¬ Pursuable (left stopped) ∧ jobs stopped = [(.preempted, none, 340)] ∧
      jobs (stopped ++ Operation.ticks 3) = [(.preempted, none, 340)] := by
  decide +kernel

end GpuBroker.Broker
