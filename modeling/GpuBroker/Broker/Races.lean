/-
This file is a pass of the scheduler next to cancellations from other
processes, on one database.

What a settlement charges and what a last move releases are both computed from
reads made before the transaction that writes them. As long as what was read
still stands when the transaction commits, every interleaving keeps the books; a
schedule in which it does not leaves a job's holding below zero.
-/
import GpuBroker.Broker.Ceilings

namespace GpuBroker.Broker

open Library

variable {γ ι : Type}

/-! ### Steps that keep the books -/

/-- One access of some process: a quiet one, a transaction that was rolled back, or one whose reads
still stand. -/
def Steps (world next : World γ) : Prop :=
  Booked world ∧ (Quiet world next ∨ next = world ∨
    ∃ write : Write, Sound world write ∧ Unmoved world write ∧ write.apply world = .ok next)

theorem steps_moved {setting : Setting γ} {world next : World γ}
    (moved : setting.contract.Moved world next) : Steps world next := by
  obtain ⟨label, _, booked, guarantee⟩ := moved
  refine ⟨booked, ?_⟩
  cases label with
  | none => exact Or.inl guarantee.1
  | some write =>
      obtain ⟨owes, unmoved, left⟩ := guarantee
      refine Or.inr ?_
      cases applied : write.apply world with
      | error error => exact Or.inl (left.trans (Write.leaves_error applied))
      | ok after =>
          rw [left, Write.leaves_ok applied]
          exact Or.inr ⟨write, owes.sound, unmoved, applied⟩

/-- The SETTLE rows of a job. -/
def settleRows (ledger : List LedgerEntry) (job : JobId) : List LedgerEntry :=
  ledger.filter fun row => row.kind = .settle ∧ row.jobId = some job

/-- A job that has ended. -/
def Ended (world : World γ) (id : JobId) : Prop :=
  ∃ job, world.db.jobs.find id = some job ∧ job.state.terminal = true

theorem release_not_settle {config : BrokerConfig} {job : Job} {holding : Cents} {now : Time}
    {line : LedgerEntry}
    (member : line ∈ ledgerWrites config job (releaseRemainingHold job.currency holding []) now) :
    line.kind ≠ .settle := by
  rw [ledgerWrites_release] at member
  split at member
  · rw [List.mem_singleton.mp member]
    exact nofun
  · cases member

/-- A transaction settles nothing for a job that has ended. -/
theorem unsettled_ended {world : World γ} {write : Write} {id : JobId} (sound : Sound world write)
    (unmoved : Unmoved world write) (ended : Ended world id) :
    ∀ line ∈ write.lines world.config, line.kind = .settle → line.jobId ≠ some id := by
  intro line member settles
  cases write with
  | create job read =>
      simp only [Write.lines, admissionHold] at member
      split at member
      · rw [List.mem_singleton.mp member] at settles
        cases settles
      · cases member
  | move current target change now outstanding =>
      have lines := sound.lines_eq world.config
      rw [lines] at member
      cases outstanding with
      | none => cases member
      | some holding => exact absurd settles (release_not_settle member)
  | settle job amount accrued now =>
      rintro named
      obtain ⟨row, found, state⟩ := unmoved
      obtain ⟨other, hasOther, terminal⟩ := ended
      have same : line.jobId = some job.jobId := by
        simp only [Write.lines, settlement, List.mem_cons, List.not_mem_nil, or_false] at member
        rcases member with rfl | rfl <;> rfl
      rw [same, Option.some.injEq] at named
      rw [← named, found] at hasOther
      cases hasOther
      rw [state, JobState.active_holdsBudget sound.active] at terminal
      cases terminal
  | abandon handle job user currency amount now =>
      rw [List.mem_singleton.mp member] at settles
      cases settles
  | insertUser | updateUser | suspend | restore | refuse | touch | sampled | notify | applyPrices =>
      cases member

/-- A job that has ended stays so. -/
theorem Ended.write {world next : World γ} {write : Write} {id : JobId} (ended : Ended world id)
    (sound : Sound world write) (applied : write.apply world = .ok next) : Ended next id := by
  obtain ⟨job, found, terminal⟩ := ended
  obtain ⟨db, written, rfl⟩ := Write.apply_eq applied
  have inserted : ∀ {new : Job} {reason hold}, world.db.insertJob new reason hold = .ok db →
      db.jobs.find id = some job := by
    intro new reason hold inserted
    obtain ⟨jobs, grown, rfl⟩ := Db.insertJob_eq inserted
    show jobs.find id = some job
    rw [Table.find_insert grown, if_neg ?_, found]
    rintro rfl
    rw [(Table.insert_eq_some grown).1] at found
    cases found
  cases write with
  | create => exact ⟨job, inserted written, terminal⟩
  | refuse => exact ⟨job, inserted written, terminal⟩
  | move current target change now outstanding =>
      obtain ⟨row, hasRow, state, rfl⟩ := Db.moveJob_eq written
      refine ⟨job, ?_, terminal⟩
      show (world.db.jobs.modify current.jobId (current.movedTo target change now).writtenOver
        (Job.writtenOver_id _)).find id = some job
      rw [Table.find_modify, if_neg ?_, found]
      rintro rfl
      rw [found] at hasRow
      cases hasRow
      have live := (JobState.canTransition_spec sound.legal).1
      rw [← state, terminal] at live
      cases live
  | settle other amount accrued now =>
      cases written
      refine ⟨if id = other.jobId then job.stamped now else job, ?_, by split <;> exact terminal⟩
      show (world.db.jobs.modify other.jobId (Job.stamped now) (Job.stamped_id now)).find id = _
      rw [Table.find_modify, found]
      split <;> rfl
  | touch other columns now =>
      rw [Db.touchJob_eq written]
      refine ⟨if id = other then columns.onRow now job else job, ?_, ?_⟩
      · show (world.db.jobs.modify other (columns.onRow now) (columns.onRow_id now)).find id = _
        rw [Table.find_modify, found]
        split <;> rfl
      · split
        · cases columns <;> exact terminal
        · exact terminal
  | abandon =>
      cases written
      exact ⟨job, found, terminal⟩
  | insertUser | updateUser | suspend | restore | sampled | notify | applyPrices =>
      exact ⟨job, (congrArg (·.find id) (Write.aside written trivial).1).trans found, terminal⟩

/-- Nothing is settled for a job that has ended, however the processes take turns. -/
theorem settleRows_ended {world next : World γ} {id : JobId}
    (path : Relation.ReflTransGen Steps world next) (ended : Ended world id) :
    settleRows next.db.ledger id = settleRows world.db.ledger id ∧ Ended next id := by
  induction path with
  | refl => exact ⟨rfl, ended⟩
  | tail _ step held =>
      obtain ⟨same, concluded⟩ := held
      rcases step.2 with quiet | still | ⟨write, sound, unmoved, applied⟩
      · refine ⟨by rw [quiet.db, same], ?_⟩
        unfold Ended
        rw [quiet.db]
        exact concluded
      · rw [still]
        exact ⟨same, concluded⟩
      · refine ⟨?_, concluded.write sound applied⟩
        have none : settleRows (write.lines _) id = [] :=
          List.filter_eq_nil_iff.mpr fun line member both =>
            unsettled_ended sound unmoved concluded line member (of_decide_eq_true both).1
              (of_decide_eq_true both).2
        rw [Write.ledger_eq applied, settleRows, List.filter_append]
        exact (congrArg _ none).trans ((List.append_nil _).trans same)

/-! ### A tick beside cancellations -/

/-- What a cancellation is asked with. -/
structure Cancellation where
  pre : String
  actor : Option UserId
  admin : Bool

/-- A pass of the scheduler, and cancellations in other processes. -/
def tickAndCancels (desk : Desk γ) (cancellations : ι → Cancellation) :
    Option ι → Program (World γ) Write BrokerError Unit
  | none => Operation.tick.program desk.site desk.text
  | some one =>
      let asked := cancellations one
      (Operation.cancel asked.pre asked.actor asked.admin).program desk.site desk.text

/-- The setting of the pass: nobody else charges jobs. -/
def ticking (γ : Type) : Setting γ where
  outside := .unknown
  alone := False
  calm := False
  others := fun world next =>
    Persists world next ∧ ∀ id, next.db.jobSpend id = world.db.jobSpend id
  makes := fun _ _ => True
  issues := fun _ => True
  allows := fun write world => Unmoved world write
  raises := fun _ => True
  refl := fun world => ⟨Persists.refl world, fun _ => rfl⟩
  trans := fun first second =>
    ⟨first.1.trans second.1, fun id => (second.2 id).trans (first.2 id)⟩
  persists := And.left
  still := False.elim
  rests := trivial
  lasts := fun _ _ => trivial
  unspent := False.elim
  unmoved := fun allowed _ _ _ => allowed
  fails := fun _ _ _ _ _ _ => trivial

/-- The setting of a cancellation: it only moves jobs, and jobs stay where others put them. -/
def cancelling (γ : Type) : Setting γ where
  outside := .unknown
  alone := False
  calm := False
  others := Persists
  makes := fun write _ => ∃ current target change now outstanding,
    write = .move current target change now outstanding
  issues := fun _ => True
  allows := fun write world => Unmoved world write
  raises := fun _ => True
  refl := Persists.refl
  trans := Persists.trans
  persists := id
  still := False.elim
  rests := trivial
  lasts := fun made _ => made
  unspent := False.elim
  unmoved := fun allowed _ _ _ => allowed
  fails := fun _ _ _ _ _ _ => trivial

theorem guarantee_persists {setting : Setting γ} {label : Option Write} {world next : World γ}
    (guarantee : setting.contract.guarantee label world next) : Persists world next := by
  cases label with
  | none => exact guarantee.1.persists
  | some write =>
      obtain ⟨_, _, left⟩ := guarantee
      cases applied : write.apply world with
      | error error =>
          rw [left, Write.leaves_error applied]
          exact Persists.refl world
      | ok after =>
          rw [left, Write.leaves_ok applied]
          exact Write.persists applied

/-- A cancellation charges nothing. -/
theorem cancelling_spend {label : Option Write} {world next : World γ}
    (guarantee : (cancelling γ).contract.guarantee label world next) (id : JobId) :
    next.db.jobSpend id = world.db.jobSpend id := by
  cases label with
  | none => rw [guarantee.1.db]
  | some write =>
      obtain ⟨owes, _, left⟩ := guarantee
      cases applied : write.apply world with
      | error error => rw [left, Write.leaves_error applied]
      | ok after =>
          obtain ⟨current, target, change, now, outstanding, rfl⟩ := owes.makes
          have ledger := Write.ledger_eq applied
          have moving : Moving world current target change now outstanding := owes.sound
          rw [moving.lines_eq] at ledger
          rw [left, Write.leaves_ok applied, jobSpend_eq, ledger, sumWhere_append, jobSpend_eq]
          cases outstanding with
          | none => exact add_zero _
          | some holding => rw [spent_release, add_zero]

/-- The contracts of a pass and of the cancellations beside it. -/
def besideTick : Option ι → Contract (World γ) Write BrokerError
  | none => (ticking γ).contract
  | some _ => (cancelling γ).contract

theorem besideTick_compatible :
    Program.Compatible (besideTick : Option ι → Contract (World γ) Write BrokerError) Booked where
  invariant := fun one => by cases one <;> rfl
  apart := by
    intro one other label before after differs guarantee
    have persists : Persists before after := by
      cases one <;> exact guarantee_persists guarantee
    cases other with
    | some other => exact persists
    | none =>
        cases one with
        | none => exact absurd rfl differs
        | some one => exact ⟨persists, cancelling_spend guarantee⟩

theorem runs_shared (site : Site γ) : (ticking γ).Runs site where
  ends := fun _ _ => ⟨fun _ _ _ => ⟨trivial, trivial⟩, fun _ _ _ _ _ => trivial⟩
  starts := fun _ _ => ⟨fun _ _ => trivial, fun _ _ _ _ => trivial, fun _ _ _ _ => trivial,
    fun _ _ _ _ => ⟨trivial, trivial, trivial⟩⟩
  watches := fun _ _ => ⟨fun _ _ _ => trivial, fun _ _ => trivial, fun _ _ _ _ => trivial,
    fun _ _ _ => trivial, fun _ _ _ _ _ => trivial, fun _ _ => trivial⟩
  latest := fun _ _ _ _ => trivial

theorem safe_tickAndCancels (desk : Desk γ) (cancellations : ι → Cancellation) {world : World γ}
    (booked : Booked world) (one : Option ι) :
    (tickAndCancels desk cancellations one).Safe (besideTick one) (fun _ _ => True) world := by
  cases one with
  | none =>
      have sole : (ticking γ).Sole := fun moved => moved.2
      have safe : (ticking γ).Safe (Operation.tick.program desk.site desk.text) _ world :=
        safe_operation .tick (runs_shared desk.site) (fun _ => trivial) (fun _ _ => trivial) sole booked
      exact safe
  | some one =>
      have ends : ∀ backend ∈ desk.site.backends, (cancelling γ).Ends backend := fun _ _ =>
        ⟨fun _ _ _ => ⟨trivial, trivial⟩, fun _ _ _ _ _ => trivial⟩
      let asked := cancellations one
      have safe : (cancelling γ).Safe (cancel desk.site asked.pre asked.actor asked.admin) _ world :=
        safe_cancel (fun _ => trivial) ends fun job change now outstanding _ _ _ _ _ _ =>
          ⟨job, .cancelled, change, now, outstanding, rfl⟩
      exact Program.Safe.bind safe fun _ _ _ _ _ _ _ => trivial

theorem steps_beside {world next : World γ}
    (path : Relation.ReflTransGen (fun before after => ∃ one : Option ι,
      (besideTick one).Moved before after) world next) :
    Relation.ReflTransGen Steps world next := by
  refine Relation.ReflTransGen.mono (fun before after step => ?_) _ _ path
  obtain ⟨one, moved⟩ := step
  cases one <;> exact steps_moved moved

/-- Every interleaving of a pass with cancellations in which no transaction is overtaken — the job
it settles is still in the state that was read, the hold it releases is still the one that was read
— keeps every job's money in order, and settles nothing for a job that has ended. -/
theorem tick_beside_cancels [DecidableEq ι] (desk : Desk γ) (cancellations : ι → Cancellation)
    (config : BrokerConfig) (cloud : γ) (clock : Nat → Time) (entries : List (Operation × Nat))
    (turns : List (Option ι))
    (current : Program.TurnsAllowed (fun _ write world => Unmoved world write) turns
      (tickAndCancels desk cancellations) (desk.after entries (World.new config cloud clock))) :
    let world := desk.after entries (World.new config cloud clock)
    let left := fun turns => (Program.interleave turns (tickAndCancels desk cancellations) world).2
    MoneyInOrder (left turns).db ∧
      ∀ first second id, turns = first ++ second → Ended (left first) id →
        settleRows (left turns).db.ledger id = settleRows (left first).db.ledger id := by
  intro world left
  have booked : Booked world := desk.booked entries (Booked.new config cloud clock)
  have permits : ∀ {turns : List (Option ι)} {programs : Option ι → Program (World γ) Write BrokerError Unit}
      {world : World γ}, Program.TurnsAllowed (fun _ write world => Unmoved world write) turns programs
        world → Program.TurnsAllowed (fun one => (besideTick one).allowed) turns programs world :=
    Program.turnsAllowed_mono fun one _ _ allowed => by cases one <;> exact allowed
  have safe := safe_tickAndCancels desk cancellations booked
  have whole := Program.Safe.interleave besideTick_compatible safe booked (permits current)
  refine ⟨whole.2.1.money, fun first second id split ended => ?_⟩
  subst split
  obtain ⟨before, after⟩ := Program.turnsAllowed_append current
  have early := Program.Safe.interleave besideTick_compatible safe booked (permits before)
  have late := Program.Safe.interleave besideTick_compatible early.1 early.2.1 (permits after)
  have joined : left (first ++ second) = (Program.interleave second
      (Program.interleave first (tickAndCancels desk cancellations) world).1 (left first)).2 := by
    show (Program.interleave (first ++ second) _ world).2 = _
    rw [Program.interleave_append]
  rw [joined]
  exact (settleRows_ended (steps_beside late.2.2) ended).1

instance (world : World γ) : ∀ write : Write, Decidable (Unmoved world write)
  | .settle job _ _ _ =>
      decidable_of_iff (∃ row ∈ world.db.jobs.find job.jobId, row.state = job.state) Iff.rfl
  | .move current _ _ _ (some holding) =>
      decidable_of_iff (∀ row ∈ world.db.jobs.find current.jobId, row.state = current.state →
        holding = world.db.jobHolding current.jobId current.currency) Iff.rfl
  | .move _ _ _ _ none => isTrue trivial
  | .insertUser _ | .updateUser _ | .suspend _ _ _ _ | .restore _ | .create _ _ | .refuse _ _
  | .touch _ _ _ | .sampled _ _ | .notify _ | .abandon _ _ _ _ _ _ | .applyPrices _ => isTrue trivial

/-- Ann cancels her own job. -/
def Cancellation.byAnn (_ : Unit) : Cancellation := ⟨"job", some "ann", false⟩

/-- The pass charges the job, and the cancellation releases what is left. -/
theorem tick_beside_cancels_in_turn :
    let world := Rack.running.after (Operation.opening ++ Operation.ticks 1) (World.club .club)
    let turns := List.replicate 6 none ++ List.replicate 5 (some ())
    MoneyInOrder (Program.interleave turns (tickAndCancels Rack.running Cancellation.byAnn) world).2.db :=
  (tick_beside_cancels Rack.running Cancellation.byAnn .club ⟨0, 0⟩
    (fun reading => reading * twelveMinutes) (Operation.opening ++ Operation.ticks 1)
    (List.replicate 6 none ++ List.replicate 5 (some ())) (by decide +kernel)).1

/-- A charge between the cancellation's reading of the hold and its commit is released once more:
the job then holds minus eighty cents. And a charge computed before the cancellation commits is
written after it. -/
theorem tick_beside_cancel_overtaken :
    let world := Rack.running.after (Operation.opening ++ Operation.ticks 1) (World.club .club)
    let left := fun turns =>
      (Program.interleave turns (tickAndCancels Rack.running Cancellation.byAnn) world).2.db
    let released := left (List.replicate 4 (some ()) ++ List.replicate 6 none ++ [some ()])
    let charged := left (List.replicate 5 none ++ List.replicate 5 (some ()) ++ [none])
    released.jobHolding "job" .usd = -80 ∧
      ((charged.transitions.map Transition.toState).getLast? = some .cancelled ∧
        (charged.ledger.map LedgerEntry.kind) = [.reserve, .release, .settle, .release]) := by
  decide +kernel

end GpuBroker.Broker
