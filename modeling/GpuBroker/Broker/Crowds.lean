/-
This file is any number of processes at work on one database, each running
operations one after another, their accesses in any order.

Whatever a process has read may be out of date when it writes. But a transaction
that moves a job asks for the state the job was read in, and a job is moved along
a legal edge or not at all. So the history of every job stays a path of legal
transitions that leads to its state, and what is written is never taken back.
-/
import GpuBroker.Broker.Accesses
import GpuBroker.Broker.Ceilings
import GpuBroker.Broker.Histories

namespace GpuBroker.Broker

open Library

variable {γ ι : Type}

/-! ### One process among others -/

/-- What an access leaves of the database: all of it, or what a legal transaction makes of it. -/
def Lawful (label : Option Write) (before after : World γ) : Prop :=
  match label with
  | none => after.db = before.db
  | some write => write.legal ∧ after = write.leaves before

theorem lawful_rest (world : World γ) : Lawful none world world := rfl

theorem lawful_read (world : World γ) : Lawful none world world.ticked := rfl

theorem lawful_called (world : World γ) (cloud : γ) (_ : True) : Lawful none world (world.called cloud) := rfl

theorem lawful_write (write : Write) (world : World γ) (_ : write.ordinary) (legal : write.legal) :
    Lawful (some write) world (write.leaves world) :=
  ⟨legal, rfl⟩

/-- Others may do anything. -/
def Anything (_ _ : World γ) : Prop := True

theorem Anything.refl (world : World γ) : Anything world world := trivial

theorem Anything.trans {one two three : World γ} (_ : Anything one two) (_ : Anything two three) :
    Anything one three :=
  trivial

/-- The manner of a process that relies on nothing. -/
def crowd (γ : Type) : Manner γ where
  others := Anything
  refl := Anything.refl
  trans := @Anything.trans γ
  owes := Lawful
  calls := fun _ _ => True
  rests := lawful_rest
  reads := lawful_read
  serves := lawful_called
  writes := lawful_write

theorem serves_crowd (backend : Backend γ) : (crowd γ).Serves backend :=
  ⟨fun _ _ => trivial, fun _ _ => trivial, fun _ _ _ => trivial, fun _ _ => trivial, fun _ _ _ => trivial⟩

theorem runs_crowd (site : Site γ) : (crowd γ).Runs site :=
  ⟨fun backend _ => serves_crowd backend, fun _ _ _ _ => trivial⟩

theorem calm_move {job : Job} {target : JobState} {change : Change} :
    (crowd γ).Calm (transition job target change : Op γ Job) :=
  calm_moving fun legal _ _ _ => ⟨legal, rfl⟩

theorem calm_launching {report : TickReport} {job : Job} {placement : Placement γ} :
    (crowd γ).Calm (launch report job placement) := by
  refine calm_external (fun _ => trivial) fun answer => ?_
  cases answer with
  | error detail => exact calm_bind (calm_appendLog _ _) fun _ => calm_pure _
  | ok allocation =>
      exact calm_bind (calm_recordAttempt _) fun counted => calm_bind calm_move fun moved =>
        calm_bind (calm_appendLog _ _) fun _ => calm_bind (calm_appendLog _ _) fun _ => calm_pure _

theorem calm_looking {job : Job} {now : Time} {backend : Backend γ} {handle : String} {site : Site γ}
    {outcome : Outcome} : (crowd γ).Calm (observe site job now backend handle outcome) := by
  have serves := serves_crowd backend
  unfold observe
  refine calm_externally (fun _ => trivial) fun observation => ?_
  refine calm_bind (calm_drainLogs serves) fun drained => calm_bind (calm_sample serves) fun _ => ?_
  split
  · exact calm_startCommand (fun _ => trivial) serves
  · extract_lets target
    split
    · exact calm_preempt (runs_crowd site) serves
    · split
      · exact calm_finish serves fun legal _ _ _ _ _ _ => ⟨legal, rfl⟩
      · next unended =>
        refine calm_settings fun config => calm_orRaise fun gpu => ?_
        split
        · exact calm_stopAtCeiling serves
        · refine calm_follow fun completed => unended ?_
          rw [completed]
          rfl

theorem calm_advance {site : Site γ} {job : Job} {now : Time} : (crowd γ).Calm (advance site job now) := by
  unfold advance
  split
  · refine calm_bind (calm_settleAccrued job now) fun settled => ?_
    split
    · exact calm_stopRequested (serves_crowd _)
    · exact calm_looking
  · exact calm_pure _

theorem calm_tick {site : Site γ} : (crowd γ).Calm (tick site) :=
  calm_now fun moment => calm_query fun jobs =>
    calm_bind (calm_foldlM (fun report job => calm_bind calm_advance fun outcome => calm_pure _) jobs _)
      fun report => calm_dispatch (runs_crowd site) fun _ _ _ _ => calm_launching

theorem calm_any {site : Site γ} {text : Refusal → String} (operation : Operation) :
    (crowd γ).Calm (operation.program site text) := by
  by_cases pass : operation = .tick
  · subst pass
    exact calm_bind calm_tick fun _ => calm_pure ()
  · exact calm_operation (runs_crowd site) operation pass

/-! ### What a legal transaction leaves -/

/-- Every job's history is a path of legal transitions to the state of its record, and a job without a
record has none. -/
structure Storied (db : Db) : Prop where
  path : ∀ id job, db.jobs.find id = some job → leads none (db.historyOf id) = some job.state
  absent : ∀ id, db.jobs.find id = none → db.historyOf id = []

/-- Nothing of one database is taken back in the other: the ledger and the histories only grow, every job stays,
on its terms, and a job that has ended stays as it ended. -/
structure Grown (before after : Db) : Prop where
  ledger : before.ledger <+: after.ledger
  histories : ∀ id, before.historyOf id <+: after.historyOf id
  jobs : ∀ id row, before.jobs.find id = some row →
    ∃ later, after.jobs.find id = some later ∧ later.terms = row.terms ∧
      (row.state.terminal = true → later.state = row.state ∧ after.historyOf id = before.historyOf id)

theorem Grown.refl (db : Db) : Grown db db :=
  ⟨List.prefix_refl _, fun _ => List.prefix_refl _, fun _ row found => ⟨row, found, rfl, fun _ => ⟨rfl, rfl⟩⟩⟩

theorem Grown.trans {one two three : Db} (first : Grown one two) (second : Grown two three) : Grown one three := by
  refine ⟨first.ledger.trans second.ledger, fun id => (first.histories id).trans (second.histories id),
    fun id row found => ?_⟩
  obtain ⟨middle, hasMiddle, terms, ends⟩ := first.jobs id row found
  obtain ⟨later, hasLater, also, stays⟩ := second.jobs id middle hasMiddle
  refine ⟨later, hasLater, also.trans terms, fun terminal => ?_⟩
  obtain ⟨state, history⟩ := ends terminal
  obtain ⟨still, same⟩ := stays (state ▸ terminal)
  exact ⟨still.trans state, same.trans history⟩

/-- The history of a job that is inserted leads to the state it is inserted in. -/
theorem leads_inserted {write : Write} {job : Job} (legal : write.legal) (new : write.inserts = some job) :
    leads none (write.history job.jobId).toList = some job.state := by
  cases write with
  | create other read =>
      cases new
      have queued : job.state = .queued := legal
      simp only [Write.history, if_true, Option.toList_some]
      exact if_pos ⟨rfl, by rw [queued]; rfl⟩
  | refuse other refusal =>
      cases new
      have refused : job.state = .refused := legal
      simp only [Write.history, if_true, Option.toList_some]
      exact if_pos ⟨rfl, by rw [refused]; rfl⟩
  | insertUser | updateUser | suspend | restore | move | settle | touch | sampled | notify | abandon
  | applyPrices => cases new

/-- A legal transaction that is committed adds to every history a step on its way. -/
theorem Storied.write {world next : World γ} {write : Write} (storied : Storied world.db) (legal : write.legal)
    (applied : write.apply world = .ok next) : Storied next.db := by
  have untouched : ∀ {id}, write.history id = none → next.db.historyOf id = world.db.historyOf id :=
    fun none => by rw [historyOf_apply applied, none, Option.toList_none, List.append_nil]
  refine ⟨fun id later hasLater => ?_, fun id missing => ?_⟩
  · cases Write.rowStep applied hasLater with
    | inserted fresh new =>
        rw [historyOf_apply applied, storied.absent id fresh, List.nil_append, ← Table.find_key hasLater]
        exact leads_inserted legal new
    | moved current target change now outstanding row move mine found state after =>
        subst move mine after
        have noted : (Write.move current target change now outstanding).history current.jobId =
            some ⟨current.jobId, some current.state, target, now, change.reason⟩ := if_pos rfl
        rw [historyOf_apply applied, noted]
        have path := storied.path _ row found
        rw [state] at path
        exact leads_concat path rfl legal
    | touched columns now row touch found after =>
        subst touch after
        rw [untouched rfl, (columns.onRow_placed now row).1]
        exact storied.path id row found
    | stamped job amount accrued now row settle mine found after =>
        subst settle after
        rw [untouched rfl]
        exact storied.path id row found
    | kept found unmoved _ =>
        rw [untouched (history_unmoved found applied unmoved)]
        exact storied.path id later found
  · have before : world.db.jobs.find id = none := by
      by_contra present
      obtain ⟨row, found⟩ := Option.ne_none_iff_exists'.mp present
      obtain ⟨later, hasLater, _⟩ := (Write.persists applied).jobs id row found
      rw [missing] at hasLater
      cases hasLater
    rw [untouched (history_missing applied missing)]
    exact storied.absent id before

/-- A legal transaction does not move a job that has ended. -/
theorem unmoved_ended {world next : World γ} {write : Write} {id : JobId} {row : Job} (legal : write.legal)
    (applied : write.apply world = .ok next) (found : world.db.jobs.find id = some row)
    (terminal : row.state.terminal = true) : write.history id = none := by
  cases noted : write.history id with
  | none => rfl
  | some line =>
      obtain ⟨current, target, change, now, outstanding, rfl, mine, _⟩ := history_moves found applied noted
      obtain ⟨db, written, _⟩ := Write.apply_eq applied
      obtain ⟨also, foundAlso, state, _⟩ := Db.moveJob_eq written
      have asked : world.db.jobs.find current.jobId = some row := mine ▸ found
      cases asked.symm.trans foundAlso
      rw [state, (JobState.canTransition_spec legal).1] at terminal
      cases terminal

/-- A legal transaction that is committed takes nothing back. -/
theorem Grown.write {world next : World γ} {write : Write} (legal : write.legal)
    (applied : write.apply world = .ok next) : Grown world.db next.db := by
  refine ⟨⟨_, (Write.ledger_eq applied).symm⟩, fun id => ⟨_, (historyOf_apply applied id).symm⟩,
    fun id row found => ?_⟩
  obtain ⟨later, hasLater, terms⟩ := (Write.persists applied).jobs id row found
  refine ⟨later, hasLater, terms, fun terminal => ?_⟩
  have unmoved := unmoved_ended legal applied found terminal
  refine ⟨?_, by rw [historyOf_apply applied, unmoved, Option.toList_none, List.append_nil]⟩
  cases Write.rowStep applied hasLater with
  | inserted fresh new =>
      rw [found] at fresh
      cases fresh
  | moved current target change now outstanding other move mine hasOther state after =>
      subst move mine
      cases (if_pos rfl).symm.trans unmoved
  | touched columns now other touch hasOther after =>
      cases found.symm.trans hasOther
      rw [after, (columns.onRow_placed now row).1]
  | stamped job amount accrued now other settle mine hasOther after =>
      cases found.symm.trans hasOther
      rw [after]
      rfl
  | kept hasOther _ _ =>
      cases found.symm.trans hasOther
      rfl

/-! ### Any number of processes -/

/-- A process at work: operations one after another, whatever any of them raises. -/
def Desk.working (desk : Desk γ) : List Operation → Op γ Unit
  | [] => pure ()
  | operation :: rest => (operation.program desk.site desk.text).attempt >>= fun _ => desk.working rest

theorem calm_working (desk : Desk γ) (operations : List Operation) : (crowd γ).Calm (desk.working operations) := by
  induction operations with
  | nil => exact calm_pure ()
  | cons operation rest inductionHypothesis =>
      exact fun world => (calm_any operation world).attempt.bind fun _ current _ _ => inductionHypothesis current

/-- What an access of a process that relies on nothing leaves. -/
theorem lawful_step {world next : World γ} (storied : Storied world.db) (moved : (crowd γ).contract.Moved world next) :
    Storied next.db ∧ Grown world.db next.db := by
  obtain ⟨label, _, _, lawful⟩ := moved
  have still : next.db = world.db → Storied next.db ∧ Grown world.db next.db := by
    intro same
    rw [same]
    exact ⟨storied, Grown.refl _⟩
  cases label with
  | none => exact still lawful
  | some write =>
      obtain ⟨legal, left⟩ := lawful
      cases applied : write.apply world with
      | error error => exact still (by rw [left, Write.leaves_error applied])
      | ok after =>
          rw [left, Write.leaves_ok applied]
          exact ⟨storied.write legal applied, Grown.write legal applied⟩

/-- Turns of processes that rely on nothing leave every history on its way. -/
theorem lawful_turns [DecidableEq ι] {programs : ι → Op γ Unit} (turns : List ι) {world : World γ}
    (safe : ∀ one, (programs one).Safe (crowd γ).contract (fun _ _ => True) world) (storied : Storied world.db) :
    let last := Program.interleave turns programs world
    (∀ one, (last.1 one).Safe (crowd γ).contract (fun _ _ => True) last.2) ∧ Storied last.2.db ∧
      Grown world.db last.2.db := by
  have compatible : Program.Compatible (fun _ : ι => (crowd γ).contract) fun _ => True :=
    ⟨fun _ => rfl, fun _ _ => trivial⟩
  obtain ⟨goesOn, _, path⟩ := Program.Safe.interleave compatible safe trivial
    (Program.turnsAllowed_always (fun _ _ _ => trivial) turns programs world)
  refine ⟨goesOn, ?_⟩
  clear goesOn
  generalize (Program.interleave turns programs world).2 = last at path
  induction path with
  | refl => exact ⟨storied, Grown.refl _⟩
  | tail _ moved inductionHypothesis =>
      obtain ⟨_, step⟩ := moved
      obtain ⟨held, grown⟩ := inductionHypothesis
      obtain ⟨holds, more⟩ := lawful_step held step
      exact ⟨holds, grown.trans more⟩

/-- Any number of processes work on one database, each on operations of its own, and their accesses come in any
order. At every moment the history of every job is a path of legal transitions that leads to the state of its
record, and what is written by then is never taken back: the ledger and the histories only grow, and a job that
has ended stays as it ended. -/
theorem histories_interleaved [DecidableEq ι] (desks : ι → Desk γ) (operations : ι → List Operation)
    (config : BrokerConfig) (cloud : γ) (clock : Nat → Time) (turns more : List ι) :
    let left := fun turns => (Program.interleave turns (fun one => (desks one).working (operations one))
      (World.new config cloud clock)).2.db
    Storied (left turns) ∧ Grown (left turns) (left (turns ++ more)) := by
  intro left
  have new : Storied (World.new config cloud clock).db :=
    ⟨fun _ _ found => (by cases found), fun _ _ => rfl⟩
  obtain ⟨goesOn, storied, _⟩ := lawful_turns turns
    (fun one => calm_working (desks one) (operations one) (World.new config cloud clock)) new
  refine ⟨storied, ?_⟩
  have later := (lawful_turns more goesOn storied).2.2
  rw [← Program.interleave_append] at later
  exact later

end GpuBroker.Broker
