/-
This file is the methods of the store under the contract: what a program must
hold to call one, and what it holds afterwards.

A program works on copies of records. A copy is good when its job is there on
its terms and, for a process that is alone, when it is the row as it stands. A
method keeps every copy but the one it replaces.
-/
import GpuBroker.Broker.Conduct

namespace GpuBroker.Broker

open Library

variable {γ α β : Type} {setting : Setting γ} {world next : World γ}

/-! ### Copies of records -/

/-- A copy of a record that may be worked on. -/
def Setting.Copy (setting : Setting γ) (job : Job) (world : World γ) : Prop :=
  Known world job ∧ (setting.alone → InStep world job)

/-- Every copy is as good as before, except those of one job. -/
def Setting.Keeps (setting : Setting γ) (except : Option JobId) (world next : World γ) : Prop :=
  Persists world next ∧ ∀ other, except ≠ some other.jobId → setting.Copy other world →
    setting.Copy other next

theorem keeps_refl (except : Option JobId) : setting.Keeps except world world :=
  ⟨Persists.refl world, fun _ _ copy => copy⟩

theorem Setting.Keeps.trans {except : Option JobId} {one two three : World γ}
    (first : setting.Keeps except one two) (second : setting.Keeps except two three) :
    setting.Keeps except one three :=
  ⟨first.1.trans second.1, fun other differs copy =>
    second.2 other differs (first.2 other differs copy)⟩

theorem Setting.Keeps.weaken {except : Option JobId} (keeps : setting.Keeps none world next) :
    setting.Keeps except world next :=
  ⟨keeps.1, fun other _ copy => keeps.2 other (by simp) copy⟩

theorem Setting.Keeps.copy {job : Job} (keeps : setting.Keeps none world next)
    (copy : setting.Copy job world) : setting.Copy job next :=
  keeps.2 job (by simp) copy

/-- A copy stays good whatever the others do. -/
theorem keeps_others (moved : setting.others world next) : setting.Keeps none world next := by
  refine ⟨setting.persists moved, fun other _ copy => ⟨(setting.persists moved).known copy.1, ?_⟩⟩
  intro alone
  rw [setting.still alone moved]
  exact copy.2 alone

theorem keeps_quiet (quiet : Quiet world next) : setting.Keeps none world next := by
  refine ⟨quiet.persists, fun other _ copy => ⟨quiet.persists.known copy.1, fun alone => ?_⟩⟩
  unfold InStep
  rw [quiet.db]
  exact copy.2 alone

/-- The job whose record a transaction replaces. -/
def Write.replaces : Write → Option JobId
  | .create job _ => some job.jobId
  | .refuse job _ => some job.jobId
  | .move current _ _ _ _ => some current.jobId
  | .touch _ (.note _) _ => none
  | .touch job _ _ => some job
  | _ => none

theorem Write.replaces_touch (job : JobId) (columns : Touch) (now : Time) :
    (Write.touch job columns now).replaces = some job ∨
      (Write.touch job columns now).replaces = none ∧ ∀ row, columns.onRow now row = row := by
  cases columns with
  | note kept => exact Or.inr ⟨rfl, fun _ => rfl⟩
  | _ => exact Or.inl rfl

/-- A transaction keeps the record of every job it does not replace. -/
theorem inStep_apply {write : Write} {job : Job} (applied : write.apply world = .ok next)
    (differs : write.replaces ≠ some job.jobId) (inStep : InStep world job) : InStep next job := by
  obtain ⟨row, found, same⟩ := inStep
  obtain ⟨db, written, rfl⟩ := Write.apply_eq applied
  cases write with
  | create other read =>
      obtain ⟨jobs, grown, rfl⟩ := Db.insertJob_eq written
      refine ⟨row, ?_, same⟩
      show jobs.find job.jobId = some row
      rw [Table.find_insert grown, if_neg fun equal => differs (congrArg some equal.symm), found]
  | refuse other refusal =>
      obtain ⟨jobs, grown, rfl⟩ := Db.insertJob_eq written
      refine ⟨row, ?_, same⟩
      show jobs.find job.jobId = some row
      rw [Table.find_insert grown, if_neg fun equal => differs (congrArg some equal.symm), found]
  | move current target change now outstanding =>
      obtain ⟨_, _, _, rfl⟩ := Db.moveJob_eq written
      refine ⟨row, ?_, same⟩
      show (world.db.jobs.modify current.jobId (current.movedTo target change now).writtenOver
        (Job.writtenOver_id _)).find job.jobId = some row
      rw [Table.find_modify, if_neg fun equal => differs (congrArg some equal.symm), found]
  | settle other amount accrued now =>
      cases written
      refine ⟨if job.jobId = other.jobId then Job.stamped now row else row, ?_, ?_⟩
      · show (world.db.jobs.modify other.jobId (Job.stamped now) (Job.stamped_id now)).find
          job.jobId = _
        rw [Table.find_modify, found]
        split <;> rfl
      · split <;> exact same
  | touch other columns now =>
      rw [Db.touchJob_eq written]
      refine ⟨row, ?_, same⟩
      show (world.db.jobs.modify other (columns.onRow now) (columns.onRow_id now)).find job.jobId = _
      rw [Table.find_modify, found]
      split
      · next equal =>
        rcases Write.replaces_touch other columns now with mine | idle
        · exact absurd (mine.trans (congrArg some equal.symm)) differs
        · exact congrArg some (idle.2 row)
      · rfl
  | abandon =>
      cases written
      exact ⟨row, found, same⟩
  | insertUser | updateUser | suspend | restore | sampled | notify | applyPrices =>
      refine ⟨row, ?_, same⟩
      show db.jobs.find job.jobId = some row
      rw [(Write.aside written trivial).1]
      exact found

theorem keeps_apply {write : Write} (applied : write.apply world = .ok next) :
    setting.Keeps write.replaces world next :=
  ⟨Write.persists applied, fun _ differs copy =>
    ⟨(Write.persists applied).known copy.1, fun alone => inStep_apply applied differs (copy.2 alone)⟩⟩

/-- A row of the table is a good copy of itself. -/
theorem copy_of_find {job : Job} (booked : Booked world)
    (found : world.db.jobs.find job.jobId = some job) : setting.Copy job world :=
  ⟨⟨⟨job, found, rfl⟩, (booked.jobs _ job found).unfinished, (booked.jobs _ job found).freed,
    (booked.jobs _ job found).usual⟩, fun _ => ⟨job, found, rfl⟩⟩

/-! ### Looking and noting -/

/-- A step that changes no table of this process: one of the others, a reading of the clock, or a
call that only looks. -/
def Setting.Quietly (setting : Setting γ) (world next : World γ) : Prop :=
  setting.others world next ∨ Quiet world next ∧ setting.outside.calls .other world.cloud next.cloud

/-- What a read-only part of a program leaves. -/
def Looked (setting : Setting γ) : World γ → World γ → Prop :=
  Relation.ReflTransGen setting.Quietly

theorem Looked.trans {one two three : World γ} (first : Looked setting one two)
    (second : Looked setting two three) : Looked setting one three :=
  Relation.ReflTransGen.trans first second

theorem looked_others (moved : setting.others world next) : Looked setting world next :=
  .single (Or.inl moved)

theorem looked_ticked : Looked setting world world.ticked :=
  .single (Or.inr ⟨world.ticked_quiet, setting.outside.idle _⟩)

theorem looked_called {cloud : γ} (call : setting.outside.calls .other world.cloud cloud) :
    Looked setting world (world.called cloud) :=
  .single (Or.inr ⟨world.called_quiet cloud, call⟩)

theorem Looked.keeps (looked : Looked setting world next) : setting.Keeps none world next := by
  induction looked with
  | refl => exact keeps_refl none
  | tail _ step kept =>
      rcases step with moved | quiet
      · exact kept.trans (keeps_others moved)
      · exact kept.trans (keeps_quiet quiet.1)

/-- What a program may write, it may write after looking. -/
theorem Looked.makes {write : Write} (looked : Looked setting world next)
    (makes : setting.makes write world) : setting.makes write next := by
  induction looked with
  | refl => exact makes
  | tail _ step made => exact setting.lasts made step

/-- A process that is alone changes nothing by looking. -/
theorem Looked.quiet (looked : Looked setting world next) (alone : setting.alone) :
    Quiet world next := by
  induction looked with
  | refl => exact Quiet.refl world
  | tail _ step quiet =>
      rcases step with moved | more
      · rw [setting.still alone moved]
        exact quiet
      · exact quiet.trans more.1

/-- A transaction beside the money and the state of the jobs. -/
def Write.beside : Write → Prop
  | .touch _ _ _ | .sampled _ _ | .notify _ => True
  | _ => False

theorem unspent_beside {write : Write} (beside : write.beside) : Unspent world write := by
  cases write with
  | touch | sampled | notify => trivial
  | insertUser | updateUser | suspend | restore | create | refuse | move | settle | abandon
  | applyPrices => exact beside.elim

/-- A step that looks, or notes something about one job. -/
def Setting.Aside (setting : Setting γ) (job : Option JobId) (world next : World γ) : Prop :=
  setting.Quietly world next ∨ ∃ write : Write, write.beside ∧
    (write.replaces = none ∨ write.replaces = job) ∧ write.apply world = .ok next

/-- What a part of a program leaves that notes something about one job. -/
def Noted (setting : Setting γ) (job : Option JobId) : World γ → World γ → Prop :=
  Relation.ReflTransGen (setting.Aside job)

theorem Noted.trans {job : Option JobId} {one two three : World γ} (first : Noted setting job one two)
    (second : Noted setting job two three) : Noted setting job one three :=
  Relation.ReflTransGen.trans first second

theorem Looked.noted {job : Option JobId} (looked : Looked setting world next) :
    Noted setting job world next :=
  Relation.ReflTransGen.mono (fun _ _ step => Or.inl step) _ _ looked

theorem noted_others {job : Option JobId} (moved : setting.others world next) :
    Noted setting job world next :=
  (looked_others moved).noted

theorem noted_write {job : Option JobId} {write : Write} (beside : write.beside)
    (mine : write.replaces = none ∨ write.replaces = job)
    (applied : write.apply world = .ok next) : Noted setting job world next :=
  .single (Or.inr ⟨write, beside, mine, applied⟩)

theorem Noted.weaken {job : Option JobId} (noted : Noted setting none world next) :
    Noted setting job world next := by
  refine Relation.ReflTransGen.mono (fun _ _ step => ?_) _ _ noted
  rcases step with quiet | ⟨write, beside, mine, applied⟩
  · exact Or.inl quiet
  · exact Or.inr ⟨write, beside, Or.inl (mine.elim id id), applied⟩

theorem Noted.keeps {job : Option JobId} (noted : Noted setting job world next) :
    setting.Keeps job world next := by
  induction noted with
  | refl => exact keeps_refl job
  | tail _ step kept =>
      rcases step with quiet | ⟨write, _, mine, applied⟩
      · exact kept.trans (Looked.keeps (.single quiet)).weaken
      · have keeps : setting.Keeps write.replaces _ _ := keeps_apply applied
        rcases mine with none | same
        · rw [none] at keeps
          exact kept.trans keeps.weaken
        · rw [same] at keeps
          exact kept.trans keeps

/-- Nothing that room in the pool depends on has changed. -/
structure Steady (world next : World γ) : Prop where
  ledger : next.db.ledger = world.db.ledger
  config : next.config = world.config
  clock : next.clock = world.clock
  asked : world.asked ≤ next.asked
  holds : ∀ currency, next.db.activeHolds currency = world.db.activeHolds currency

theorem Steady.refl (world : World γ) : Steady world world := ⟨rfl, rfl, rfl, le_rfl, fun _ => rfl⟩

theorem Steady.trans {one two three : World γ} (first : Steady one two) (second : Steady two three) :
    Steady one three :=
  ⟨second.ledger.trans first.ledger, second.config.trans first.config,
    second.clock.trans first.clock, first.asked.trans second.asked, fun currency =>
      (second.holds currency).trans (first.holds currency)⟩

theorem Quiet.steady (quiet : Quiet world next) : Steady world next :=
  ⟨by rw [quiet.db], quiet.config, quiet.clock, quiet.asked, fun _ => by rw [quiet.db]⟩

theorem activeHolds_eq {db other : Db} (jobs : other.jobs = db.jobs) (ledger : other.ledger = db.ledger)
    (currency : Currency) : other.activeHolds currency = db.activeHolds currency := by
  have holding : ∀ id, other.jobHolding id currency = db.jobHolding id currency := fun id => by
    rw [Db.jobHolding, ledger, Db.jobHolding]
  unfold Db.activeHolds
  rw [jobs]
  simp only [holding]

theorem steady_beside {write : Write} (beside : write.beside)
    (applied : write.apply world = .ok next) : Steady world next := by
  obtain ⟨db, written, rfl⟩ := Write.apply_eq applied
  cases write with
  | touch job columns now =>
      rw [Db.touchJob_eq written]
      refine ⟨rfl, rfl, rfl, le_rfl, fun currency => ?_⟩
      exact Table.total_update_same world.db.jobs _ (columns.onRow now) (columns.onRow_id now) _
        fun row => by cases columns <;> rfl
  | sampled | notify =>
      obtain ⟨jobs, ledger, _⟩ := Write.aside written trivial
      exact ⟨ledger, rfl, rfl, le_rfl, activeHolds_eq jobs ledger⟩
  | insertUser | updateUser | suspend | restore | create | refuse | move | settle | abandon
  | applyPrices => exact beside.elim

/-- A process that is alone finds the pool as it left it, whatever it notes. -/
theorem Noted.steady {job : Option JobId} (noted : Noted setting job world next)
    (alone : setting.alone) : Steady world next := by
  induction noted with
  | refl => exact Steady.refl world
  | tail _ step kept =>
      rcases step with quiet | ⟨write, beside, _, applied⟩
      · exact kept.trans (Looked.quiet (.single quiet) alone).steady
      · exact kept.trans (steady_beside beside applied)

theorem Steady.shown (steady : Steady world next) {moment : Time} (shown : world.Shown moment) :
    next.Shown moment := by
  obtain ⟨reading, before, same⟩ := shown
  exact ⟨reading, lt_of_lt_of_le before steady.asked, by rw [steady.clock]; exact same⟩

theorem poolSpent_ledger {db other : Db} (same : other.ledger = db.ledger) (currency : Currency)
    (period : Period) : other.poolSpent currency period = db.poolSpent currency period := by
  rw [Db.poolSpent, same, Db.poolSpent]

theorem Room.steady {currency : Currency} {amount : Decimal} (room : Room world currency amount)
    (steady : Steady world next) : Room next currency amount := by
  obtain ⟨reading, before, stamped, fits⟩ := room
  refine ⟨reading, lt_of_lt_of_le before steady.asked, ?_, ?_⟩
  · rw [steady.ledger, steady.clock]
    exact stamped
  · rw [poolSpent_ledger steady.ledger, steady.holds, steady.clock, steady.config]
    exact fits

theorem Reached.steady {job : Job} (reached : Reached world job) (steady : Steady world next) :
    Reached next job := by
  obtain ⟨gpu, found, moment, shown, high⟩ := reached
  exact ⟨gpu, steady.config ▸ found, moment, steady.shown shown, steady.config ▸ high⟩

/-! ### Moving a job -/

/-- What the caller of a move holds: room in the pool for a job it starts, and a cost that has
reached the reservation for one it stops at its ceiling. -/
structure Licence (setting : Setting γ) (world : World γ) (job : Job) (target : JobState)
    (reason : Reason) : Prop where
  room : setting.alone → job.state = .queued → target = .allocating →
    Room world job.currency (money job.reserved)
  ceiling : setting.alone → ∀ reserved elapsed, reason = .ceiling reserved elapsed →
    job.state.active = true ∧ Reached world job

/-- A move that neither starts a queued job nor stops one at its ceiling needs no licence. -/
theorem Licence.free {job : Job} {target : JobState} {reason : Reason}
    (start : job.state ≠ .queued ∨ target ≠ .allocating)
    (stop : ∀ reserved elapsed, reason ≠ .ceiling reserved elapsed) :
    Licence setting world job target reason :=
  ⟨fun _ queued allocating => start.elim (absurd queued) (absurd allocating),
    fun _ reserved elapsed same => absurd same (stop reserved elapsed)⟩

theorem Licence.steady {job : Job} {target : JobState} {reason : Reason}
    (licence : Licence setting world job target reason) (steady : setting.alone → Steady world next) :
    Licence setting next job target reason :=
  ⟨fun alone queued allocating => (licence.room alone queued allocating).steady (steady alone),
    fun alone reserved elapsed same =>
      ⟨(licence.ceiling alone reserved elapsed same).1,
        (licence.ceiling alone reserved elapsed same).2.steady (steady alone)⟩⟩

/-- The move is along a legal edge, or may be refused. -/
def Setting.Permits (setting : Setting γ) (job : Job) (target : JobState) : Prop :=
  job.state.canTransition target = true ∨
    setting.raises (.illegalTransition job.jobId job.state target)

/-- What the broker asks for when it moves a job. -/
structure Asks (setting : Setting γ) (world : World γ) (job : Job) (target : JobState)
    (change : Change) : Prop where
  permits : setting.Permits job target
  makes : ∀ now outstanding, setting.makes (.move job target change now outstanding) world
  usual : target ≠ .checkpointing
  plain : change.ledger = []
  clears : change.clearHandle = (target.terminal || target == .preempted)
  places : change.backendHandle.isSome = (job.state == .queued && target == .allocating)
  sited : change.backend.isSome = change.backendHandle.isSome
  named : ∀ handle ∈ change.backendHandle, setting.outside.handles handle

/-- The record a move leaves is a good copy. -/
theorem copy_moved {current : Job} {target : JobState} {change : Change} {now : Time}
    {outstanding : Option Cents} (copy : setting.Copy current world)
    (moving : Moving world current target change now outstanding)
    (applied : (Write.move current target change now outstanding).apply world = .ok next) :
    setting.Copy (current.movedTo target change now) next := by
  have persists := Write.persists applied
  obtain ⟨db, written, rfl⟩ := Write.apply_eq applied
  obtain ⟨row, found, _, rfl⟩ := Db.moveJob_eq written
  have known := persists.known copy.1
  have live := (JobState.canTransition_spec moving.legal).1
  refine ⟨⟨known.row, fun still => ?_, moving.freed, moving.usual⟩, fun alone => ?_⟩
  · have unfinished : target.terminal = false := still
    show (if target.terminal then some now else current.finishedAt) = none
    rw [unfinished, if_neg Bool.false_ne_true]
    exact known.unfinished live
  · obtain ⟨again, hasRow, same⟩ := copy.2 alone
    rw [found] at hasRow
    cases hasRow
    refine ⟨(current.movedTo target change now).writtenOver row, ?_, ?_⟩
    · show (world.db.jobs.modify current.jobId (current.movedTo target change now).writtenOver
        (Job.writtenOver_id _)).find current.jobId = _
      rw [Table.find_modify_found found, if_pos rfl]
    · have moved : ∀ job : Job, ((current.movedTo target change now).writtenOver job).essence =
          { job.essence with
            state := target
            backend := (current.movedTo target change now).backend
            backendHandle := (current.movedTo target change now).backendHandle
            startedAt := (current.movedTo target change now).startedAt
            finishedAt := (current.movedTo target change now).finishedAt
            exitCode := (current.movedTo target change now).exitCode } := fun _ => rfl
      rw [moved row, same, ← moved current]
      rfl

/-- The transaction of a move that was committed: what the process saw before and after it. -/
structure Committed (setting : Setting γ) (current : Job) (target : JobState) (change : Change)
    (moment : Time) (world next : World γ) : Prop where
  commit : ∃ before after outstanding, Looked setting world before ∧ Booked before ∧
    Moving before current target change moment outstanding ∧
    (Write.move current target change moment outstanding).apply before = .ok after ∧
      setting.others after next

/-- What a move leaves: a good copy in the target state, and every other copy as good as before. -/
structure Moved (setting : Setting γ) (current : Job) (target : JobState) (change : Change)
    (world : World γ) (updated : Job) (next : World γ) : Prop where
  record : ∃ moment, updated = current.movedTo target change moment ∧
    Committed setting current target change moment world next
  copy : setting.Copy updated next
  keeps : setting.Keeps (some current.jobId) world next

theorem Moved.state {current updated : Job} {target : JobState} {change : Change}
    (moved : Moved setting current target change world updated next) : updated.state = target := by
  obtain ⟨moment, same, _⟩ := moved.record
  rw [same]
  rfl

theorem Moved.id {current updated : Job} {target : JobState} {change : Change}
    (moved : Moved setting current target change world updated next) :
    updated.jobId = current.jobId := by
  obtain ⟨moment, same, _⟩ := moved.record
  rw [same]
  rfl

/-- A move, licensed and made on a good copy, leaves a good copy in the target state. -/
theorem safe_transition {current : Job} {target : JobState} {change : Change}
    (asks : Asks setting world current target change) (copy : setting.Copy current world)
    (licence : Licence setting world current target change.reason) :
    setting.Safe (transition current target change)
      (fun updated next => Moved setting current target change world updated next) world := by
  unfold transition
  split
  case isFalse illegal =>
    exact Program.Safe.fail (asks.permits.resolve_left illegal)
  case isTrue legal =>
    refine safe_now fun asked others booked => ?_
    have looked : Looked setting world asked.ticked := (looked_others others).trans looked_ticked
    -- what the transaction is computed from, at the state it commits in
    have facts : ∀ now outstanding, setting.others asked.ticked now → Booked now →
        outstanding.isSome = target.terminal →
        (setting.alone → ∀ holding ∈ outstanding,
          holding = now.db.jobHolding current.jobId current.currency) →
        (setting.calm → Unspent now
          (.move current target change (asked.clock asked.asked) outstanding)) →
        setting.Owes now
          (.move current target change (asked.clock asked.asked) outstanding) := by
      intro now outstanding later _ release read unspent
      have whole := looked.trans (looked_others later)
      have copyHere := whole.keeps.copy copy
      have licenceHere := licence.steady fun alone => (whole.quiet alone).steady
      refine ⟨whole.makes (asks.makes _ _), ⟨copyHere.1, legal, asks.usual,
        (setting.persists later).shown asked.ticked_shown, asks.plain, release, asks.clears,
        asks.places, asks.sited⟩, asks.named, fun alone => ⟨copyHere.2 alone, ?_, read alone,
        licenceHere.room alone, licenceHere.ceiling alone⟩, unspent⟩
      rw [setting.still alone later]
      exact asked.ticked_last.symm
    have leaves : ∀ now next final outstanding, setting.others asked.ticked now → Booked now →
        setting.Owes now (.move current target change (asked.clock asked.asked) outstanding) →
        (Write.move current target change (asked.clock asked.asked) outstanding).apply now = .ok next →
        setting.others next final →
        Moved setting current target change world
          (current.movedTo target change (asked.clock asked.asked)) final := by
      intro now next final outstanding later kept owes applied rest
      have whole := looked.trans (looked_others later)
      refine ⟨⟨_, rfl, ⟨now, next, outstanding, whole, kept, owes.sound, applied, rest⟩⟩, ?_, ?_⟩
      · exact (keeps_others rest).copy (copy_moved (whole.keeps.copy copy) owes.sound applied)
      · exact whole.keeps.weaken.trans ((keeps_apply applied).trans (keeps_others rest).weaken)
    split
    case isTrue terminal =>
      refine safe_query fun read others booked => ?_
      let holding := read.db.jobHolding current.jobId current.currency
      have owes : ∀ now, setting.others read now → Booked now → setting.Owes now
          (.move current target change (asked.clock asked.asked) (some holding)) := by
        intro now later kept
        refine facts now (some holding) (setting.trans others later) kept terminal.symm
          (fun alone held member => ?_) fun calm row found state => ?_
        · cases member
          rw [setting.still alone later]
        · have known := ((looked.trans (looked_others others)).keeps.copy copy).1
          obtain ⟨before, present, _⟩ := known.row
          have live := (JobState.canTransition_spec legal).1
          refine (setting.unspent calm later current.jobId row ?_ found (state ▸ live) _).symm
          rw [present]
          exact nofun
      refine safe_executing owes ?_
      intro now next final later kept _ applied _ rest _
      exact leaves now next final _ (setting.trans others later) kept (owes now later kept) applied rest
    case isFalse live =>
      have release : (none : Option Cents).isSome = target.terminal :=
        (Bool.eq_false_iff.mpr live).symm
      have owes : ∀ now, setting.others asked.ticked now → Booked now → setting.Owes now
          (.move current target change (asked.clock asked.asked) none) :=
        fun now later kept => facts now none later kept release (by simp) fun _ => trivial
      refine safe_executing owes ?_
      intro now next final later kept _ applied _ rest _
      exact leaves now next final _ later kept (owes now later kept) applied rest

/-! ### Touching a job -/

/-- What a touch leaves: the record it returns is a good copy. -/
structure Touched (setting : Setting γ) (job : Job) (world : World γ) (touched : Job)
    (next : World γ) : Prop where
  id : touched.jobId = job.jobId
  terms : touched.terms = job.terms
  state : touched.state = job.state
  handle : touched.backendHandle = job.backendHandle
  copy : setting.Copy touched next
  noted : Noted setting (some job.jobId) world next

/-- The record a touch returns, when it is the row the touch leaves. -/
theorem copy_touched {job value : Job} {columns : Touch} {now : Time} (copy : setting.Copy job world)
    (applied : (Write.touch job.jobId columns now).apply world = .ok next)
    (same : ∀ row : Job, row.essence = job.essence →
      (columns.onRow now row).essence = value.essence)
    (id : value.jobId = job.jobId) (terms : value.terms = job.terms) (state : value.state = job.state)
    (finished : value.finishedAt = job.finishedAt)
    (handle : value.backendHandle = job.backendHandle) : setting.Copy value next := by
  have known := (Write.persists applied).known copy.1
  refine ⟨⟨?_, ?_, ?_, state ▸ known.usual⟩, fun alone => ?_⟩
  · rw [id, terms]
    exact known.row
  · rw [state, finished]
    exact known.unfinished
  · rw [state, handle]
    exact known.freed
  · obtain ⟨row, found, essence⟩ := copy.2 alone
    obtain ⟨db, written, rfl⟩ := Write.apply_eq applied
    rw [Db.touchJob_eq written, InStep, id]
    refine ⟨columns.onRow now row, ?_, same row essence⟩
    show (world.db.jobs.modify job.jobId (columns.onRow now) (columns.onRow_id now)).find
      job.jobId = _
    rw [Table.find_modify_found found, if_pos rfl]

/-- A touch returns a good copy when it changes neither the money nor the state of the job. -/
theorem safe_touch {job : Job} {columns : Touch} {value : Time → Job}
    (copy : setting.Copy job world) (makes : ∀ now, setting.makes (.touch job.jobId columns now) world)
    (ours : columns.Ours)
    (same : ∀ now, ∀ row : Job, row.essence = job.essence →
      (columns.onRow now row).essence = (value now).essence)
    (id : ∀ now, (value now).jobId = job.jobId) (terms : ∀ now, (value now).terms = job.terms)
    (state : ∀ now, (value now).state = job.state)
    (finished : ∀ now, (value now).finishedAt = job.finishedAt)
    (handle : ∀ now, (value now).backendHandle = job.backendHandle) :
    setting.Safe (now >>= fun now => executing (.touch job.jobId columns now) (value now))
      (Touched setting job world) world := by
  refine safe_now fun asked others _ => safe_executing (fun current later _ => ?_) ?_
  · have whole : Looked setting world current :=
      ((looked_others others).trans looked_ticked).trans (looked_others later)
    obtain ⟨row, found, _⟩ := (whole.keeps.copy copy).1.row
    refine ⟨whole.makes (makes _), ⟨⟨row, found⟩, Or.inl ours⟩, trivial, fun _ => ?_, fun _ => trivial⟩
    cases columns with
    | output after polled kept => exact ours.elim
    | _ => trivial
  · intro before after final later _ _ applied _ rest _
    have whole : Looked setting world before :=
      ((looked_others others).trans looked_ticked).trans (looked_others later)
    have mine : (Write.touch job.jobId columns (asked.clock asked.asked)).replaces = none ∨
        (Write.touch job.jobId columns (asked.clock asked.asked)).replaces = some job.jobId := by
      cases columns with
      | note kept => exact Or.inl rfl
      | _ => exact Or.inr rfl
    have beside : (Write.touch job.jobId columns (asked.clock asked.asked)).beside := trivial
    refine ⟨id _, terms _, state _, handle _, ?_, ?_⟩
    · exact (keeps_others rest).copy (copy_touched (whole.keeps.copy copy) applied (same _) (id _)
        (terms _) (state _) (finished _) (handle _))
    · exact (whole.noted.trans (noted_write beside mine applied)).trans (noted_others rest)

/-- A column set on two records of one essence leaves one essence. -/
theorem essence_update {row job : Job} (same : row.essence = job.essence) (set plain : Job → Job)
    (each : ∀ job, (set job).essence = plain job.essence) : (set row).essence = (set job).essence := by
  rw [each, same, ← each]

theorem safe_recordAttempt {job : Job} (copy : setting.Copy job world)
    (makes : ∀ now, setting.makes (.touch job.jobId .attempt now) world) :
    setting.Safe (recordAttempt job) (Touched setting job world) world :=
  safe_touch copy makes trivial
    (fun now _ same => essence_update same (Touch.attempt.onRow now)
      (fun job => { job with attempts := job.attempts + 1 }) fun _ => rfl)
    (fun _ => rfl) (fun _ => rfl) (fun _ => rfl) (fun _ => rfl) fun _ => rfl

theorem safe_recordPreemption {job : Job} (copy : setting.Copy job world)
    (makes : ∀ now, setting.makes (.touch job.jobId .preemption now) world) :
    setting.Safe (recordPreemption job) (Touched setting job world) world :=
  safe_touch copy makes trivial
    (fun now _ same => essence_update same (Touch.preemption.onRow now)
      (fun job => { job with preemptions := job.preemptions + 1 }) fun _ => rfl)
    (fun _ => rfl) (fun _ => rfl) (fun _ => rfl) (fun _ => rfl) fun _ => rfl

theorem safe_recordCheckpoint {job : Job} {step : Int} {key : String}
    (copy : setting.Copy job world)
    (makes : ∀ now, setting.makes (.touch job.jobId (.checkpoint step key) now) world) :
    setting.Safe (recordCheckpoint job step key) (Touched setting job world) world :=
  safe_touch copy makes trivial
    (fun now _ same => essence_update same ((Touch.checkpoint step key).onRow now)
      (fun job => { job with
        checkpointStep := some step, checkpointKey := some key, checkpointAt := some now })
      fun _ => rfl)
    (fun _ => rfl) (fun _ => rfl) (fun _ => rfl) (fun _ => rfl) fun _ => rfl

theorem safe_pinTier {job : Job} {tier reason : String} (copy : setting.Copy job world)
    (makes : ∀ now, setting.makes (.touch job.jobId (.pinTier tier reason) now) world) :
    setting.Safe (pinTier job tier reason) (Touched setting job world) world :=
  safe_touch copy makes trivial
    (fun now _ same => essence_update same ((Touch.pinTier tier reason).onRow now)
      (fun job => { job with pinnedTier := some tier }) fun _ => rfl)
    (fun _ => rfl) (fun _ => rfl) (fun _ => rfl) (fun _ => rfl) fun _ => rfl

theorem safe_requestCancel {job : Job} {actor : String} (copy : setting.Copy job world)
    (makes : ∀ now, setting.makes (.touch job.jobId (.cancelRequest actor) now) world) :
    setting.Safe (requestCancel job actor) (Touched setting job world) world :=
  safe_touch copy makes trivial
    (fun now _ same => essence_update same ((Touch.cancelRequest actor).onRow now)
      (fun job => { job with cancelRequested := some actor }) fun _ => rfl)
    (fun _ => rfl) (fun _ => rfl) (fun _ => rfl) (fun _ => rfl) fun _ => rfl

end GpuBroker.Broker
