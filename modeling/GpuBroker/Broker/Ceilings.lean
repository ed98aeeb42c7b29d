/-
This file is what a job and the pool may owe, over every run of a broker that is
alone: the hold of a job and its settlements against its reservation, and what
the pool has committed against its budget.

The first is the bookkeeping invariant read off. For the second, a month's
commitment is bounded from the last reading of the clock on: money only moves
from the holds of running jobs to the spend of the month it is settled in, a new
hold is taken against a headroom read since the last entry was written, and the
spend of a month that has not begun is nothing.
-/
import GpuBroker.Broker.Runs

namespace GpuBroker.Broker

open Library

variable {γ : Type}

/-! ### The money of a job -/

/-- What is outstanding of a job's reservation, and what was settled of it. A refused submission
took no hold, whatever it asked for. -/
structure JobMoney (db : Db) (job : Job) : Prop where
  held : job.state.holdsBudget = true →
    db.jobHolding job.jobId job.currency = job.reserved - settled db.ledger job.jobId ∧
      0 ≤ db.jobHolding job.jobId job.currency ∧
      db.jobHolding job.jobId job.currency ≤ job.reserved
  released : job.state.terminal = true → db.jobHolding job.jobId job.currency = 0
  ceiling : job.state ≠ .refused → settled db.ledger job.jobId ≤ job.reserved
  refused : job.state = .refused → settled db.ledger job.jobId = 0

/-- Every job's money is in order. -/
def MoneyInOrder (db : Db) : Prop := ∀ id job, db.jobs.find id = some job → JobMoney db job

theorem Booked.money {world : World γ} (booked : Booked world) : MoneyInOrder world.db := by
  intro id job found
  have mine := booked.jobs id job found
  refine ⟨fun holds => ?_, fun terminal => ?_, mine.within, mine.refused⟩
  · rw [JobState.holdsBudget_eq, Bool.not_eq_true'] at holds
    have live : job.state ≠ .refused := by
      intro refused
      rw [refused] at holds
      cases holds
    have nonneg := booked.settled_nonneg job.jobId
    have within := mine.within live
    rw [jobHolding_eq, mine.held holds]
    exact ⟨rfl, sub_nonneg.mpr within, sub_le_self _ nonneg⟩
  · rw [jobHolding_eq]
    exact mine.closed terminal

/-- In every run, whatever the clock shows and however prices change, a job holds exactly what is
left of its reservation until it ends, nothing afterwards, and is never charged more than it. -/
theorem job_money_bookkeeping (desk : Desk γ) (config : BrokerConfig) (cloud : γ)
    (clock : Nat → Time) (entries : List (Operation × Nat)) :
    MoneyInOrder (desk.after entries (World.new config cloud clock)).db :=
  (desk.booked entries (Booked.new config cloud clock)).money

/-! ### What a transaction adds to the ledger -/

/-- The rows a transaction adds to the ledger. -/
def Write.lines (config : BrokerConfig) : Write → List LedgerEntry
  | create job _ => admissionHold config job
  | move current _ change now outstanding =>
      ledgerWrites config current (change.writes current.currency outstanding) now
  | settle job amount _ now => settlement config job amount now
  | abandon handle job user currency amount now =>
      [insertLedger config job user currency .abandoned (money amount) now (some handle)]
  | _ => []

theorem Write.ledger_eq {write : Write} {world next : World γ}
    (applied : write.apply world = .ok next) :
    next.db.ledger = world.db.ledger ++ write.lines world.config := by
  obtain ⟨db, written, rfl⟩ := Write.apply_eq applied
  cases write with
  | create job read =>
      obtain ⟨_, _, rfl⟩ := Db.insertJob_eq written
      rfl
  | refuse job refusal =>
      obtain ⟨_, _, rfl⟩ := Db.insertJob_eq written
      rfl
  | move current target change now outstanding =>
      obtain ⟨_, _, _, rfl⟩ := Db.moveJob_eq written
      rfl
  | settle | abandon =>
      cases written
      rfl
  | touch job columns now =>
      rw [Db.touchJob_eq written]
      exact (List.append_nil _).symm
  | insertUser | updateUser | suspend | restore | sampled | notify | applyPrices =>
      exact ((Write.aside written trivial).2.1).trans (List.append_nil _).symm

/-- The rows of a currency and a month. -/
def ofMonth (currency : Currency) (period : Period) (row : LedgerEntry) : Bool :=
  row.currency = currency ∧ row.period = period

theorem poolSpent_eq (db : Db) (currency : Currency) (period : Period) :
    db.poolSpent currency period =
      sumWhere LedgerEntry.spentPart (ofMonth currency period) db.ledger := by
  rw [Db.poolSpent, aggregate_eq]
  rfl

theorem Booked.spentPart_nonneg {world : World γ} (booked : Booked world) (currency : Currency)
    (period : Period) : 0 ≤ world.db.poolSpent currency period := by
  rw [poolSpent_eq]
  refine List.sum_nonneg fun part member => ?_
  obtain ⟨row, selected, rfl⟩ := List.mem_map.mp member
  have positive := booked.positive row (List.mem_filter.mp selected).1
  unfold LedgerEntry.spentPart
  cases row.kind <;> first | exact le_rfl | exact positive.le

theorem spent_release (config : BrokerConfig) (job : Job) (holding : Cents) (now : Time)
    (which : LedgerEntry → Bool) :
    sumWhere LedgerEntry.spentPart which
        (ledgerWrites config job (releaseRemainingHold job.currency holding []) now) = 0 := by
  rw [ledgerWrites_release]
  split <;> simp [insertLedger, LedgerEntry.spentPart]

theorem spent_settlement (config : BrokerConfig) (job : Job) (amount : Cents) (now : Time)
    (currency : Currency) (period : Period) :
    sumWhere LedgerEntry.spentPart (ofMonth currency period) (settlement config job amount now) =
      if job.currency = currency ∧ config.calendar.period now = period then amount else 0 := by
  simp [settlement, insertLedger, ofMonth, LedgerEntry.spentPart]

theorem spent_hold (config : BrokerConfig) (job : Job) (which : LedgerEntry → Bool) :
    sumWhere LedgerEntry.spentPart which (admissionHold config job) = 0 := by
  unfold admissionHold
  split <;> simp [insertLedger, LedgerEntry.spentPart]

/-- A move writes the release of what it read when it is the last, and nothing otherwise. -/
theorem Moving.lines_eq {world : World γ} {current : Job} {target : JobState} {change : Change}
    {now : Time} {outstanding : Option Cents} (config : BrokerConfig)
    (moving : Moving world current target change now outstanding) :
    (Write.move current target change now outstanding).lines config =
      match outstanding with
      | none => []
      | some holding => ledgerWrites config current (releaseRemainingHold current.currency holding []) now := by
  show ledgerWrites config current (change.writes current.currency outstanding) now = _
  unfold Change.writes
  rw [moving.plain]
  cases outstanding <;> rfl

/-! ### The holds of running jobs -/

/-- What a job adds to the holds of running jobs. -/
def Db.share (db : Db) (currency : Currency) (job : Job) : Cents :=
  if job.state.active ∧ job.currency = currency then db.jobHolding job.jobId currency else 0

theorem activeHolds_total (db : Db) (currency : Currency) :
    db.activeHolds currency = db.jobs.total (db.share currency) := rfl

theorem jobHolding_other {db other : Db} {lines : List LedgerEntry} {id : JobId}
    (ledger : other.ledger = db.ledger ++ lines) (named : ∀ line ∈ lines, line.jobId ≠ some id)
    (currency : Currency) : other.jobHolding id currency = db.jobHolding id currency := by
  have unnamed : sumWhere LedgerEntry.heldPart (ofJobIn id currency) lines = 0 :=
    sumWhere_none fun row member => decide_eq_false fun both => named row member both.1
  rw [jobHolding_eq, jobHolding_eq, ledger, sumWhere_append, unnamed, add_zero]

/-- Rewriting one job, with rows that name it, moves the holds of running jobs by its own share. -/
theorem activeHolds_rewrite {db other : Db} {id : JobId} {row : Job} {lines : List LedgerEntry}
    {set : Job → Job} {same : ∀ row, (set row).jobId = row.jobId}
    (found : db.jobs.find id = some row) (jobs : other.jobs = db.jobs.modify id set same)
    (ledger : other.ledger = db.ledger ++ lines) (named : ∀ line ∈ lines, line.jobId = some id)
    (currency : Currency) :
    other.activeHolds currency =
      db.activeHolds currency - db.share currency row + other.share currency (set row) := by
  rw [activeHolds_total, activeHolds_total, jobs]
  refine Table.total_rewrite found set same fun one each present differs => ?_
  have key : each.jobId ≠ id := fun equal => differs ((Table.find_key present).symm.trans equal)
  unfold Db.share
  rw [jobHolding_other ledger fun line member own => key ?_]
  rw [named line member] at own
  exact (Option.some.inj own).symm

theorem Booked.share_nonneg {world : World γ} (booked : Booked world) {id : JobId} {job : Job}
    (found : world.db.jobs.find id = some job) (currency : Currency) :
    0 ≤ world.db.share currency job := by
  unfold Db.share
  split
  · next running =>
    have held := (booked.money id job found).held
    rw [JobState.holdsBudget_eq, JobState.active_holdsBudget running.1] at held
    rw [← running.2]
    exact (held rfl).2.1
  · exact le_rfl

/-! ### The pool -/

/-- From the last reading of the clock on, what the pool has committed is within its budget, or is
nothing where the budget is negative. -/
def Within (world : World γ) : Prop :=
  ∀ currency period,
    (∀ reading < world.asked, world.config.calendar.period (world.clock reading) ≤ period) →
    money (world.db.poolSpent currency period + world.db.activeHolds currency) ≤
      max 0 (world.config.poolBudget currency)

/-- What the pool has committed does not grow, in any month that may still come. -/
def Shrinks (world next : World γ) : Prop :=
  ∀ currency period,
    (∀ reading < world.asked, world.config.calendar.period (world.clock reading) ≤ period) →
    next.db.poolSpent currency period + next.db.activeHolds currency ≤
      world.db.poolSpent currency period + world.db.activeHolds currency

theorem Persists.poolBudget {world next : World γ} (persists : Persists world next)
    (currency : Currency) : next.config.poolBudget currency = world.config.poolBudget currency := by
  show next.config.unpriced.poolBudget currency = world.config.unpriced.poolBudget currency
  rw [persists.settings]

theorem Persists.months {world next : World γ} {period : Period} (persists : Persists world next)
    (ahead : ∀ reading < next.asked, next.config.calendar.period (next.clock reading) ≤ period) :
    ∀ reading < world.asked, world.config.calendar.period (world.clock reading) ≤ period := by
  intro reading before
  have later := ahead reading (lt_of_lt_of_le before persists.asked)
  rwa [persists.calendar, persists.clock] at later

theorem Within.shrinks {world next : World γ} (within : Within world) (persists : Persists world next)
    (shrinks : Shrinks world next) : Within next := by
  intro currency period ahead
  have months := persists.months ahead
  rw [persists.poolBudget]
  exact (money_le_money.mpr (shrinks currency period months)).trans (within currency period months)

theorem shrinks_same {world next : World γ}
    (spent : ∀ currency period, next.db.poolSpent currency period = world.db.poolSpent currency period)
    (holds : ∀ currency, next.db.activeHolds currency ≤ world.db.activeHolds currency) :
    Shrinks world next :=
  fun currency period _ => add_le_add (spent currency period).le (holds currency)

/-- A settlement moves money from a running job's hold to the spend of the month it is written in. -/
theorem shrinks_settle {world next : World γ} {job : Job} {amount : Cents} {accrued now : Time}
    (sound : Settling world job amount now) (unmoved : Unmoved world (.settle job amount accrued now))
    (applied : (Write.settle job amount accrued now).apply world = .ok next) : Shrinks world next := by
  have ledger := Write.ledger_eq applied
  obtain ⟨row, found, state⟩ := unmoved
  obtain ⟨again, hasRow, terms⟩ := sound.known.row
  rw [found] at hasRow
  cases hasRow
  have id := Table.find_key found
  have owed : row.currency = job.currency := congrArg Terms.currency terms
  have active : row.state.active = true := state ▸ sound.active
  have jobs : next.db.jobs = world.db.jobs.modify job.jobId (Job.stamped now) (Job.stamped_id now) := by
    obtain ⟨db, written, rfl⟩ := Write.apply_eq applied
    cases written
    rfl
  intro currency period _
  have spent : next.db.poolSpent currency period = world.db.poolSpent currency period +
      if job.currency = currency ∧ world.config.calendar.period now = period then amount else 0 := by
    rw [poolSpent_eq, ledger, sumWhere_append, poolSpent_eq]
    exact congrArg _ (spent_settlement world.config job amount now currency period)
  have own : next.db.share currency (row.stamped now) = world.db.share currency row -
      if job.currency = currency then amount else 0 := by
    show (if row.state.active ∧ row.currency = currency then next.db.jobHolding row.jobId currency
      else 0) = (if row.state.active ∧ row.currency = currency then
        world.db.jobHolding row.jobId currency else 0) - _
    rw [active, owed, jobHolding_eq, ledger, sumWhere_append, jobHolding_eq]
    show (if _ then _ + sumWhere LedgerEntry.heldPart (ofJobIn row.jobId currency)
      (settlement world.config job amount now) else 0) = _
    rw [holding_settlement]
    by_cases same : job.currency = currency <;> simp [same, id]
    ring
  have holds := activeHolds_rewrite found jobs ledger (fun line member => ?_) currency
  · rw [spent, holds, own]
    have positive := sound.positive
    by_cases same : job.currency = currency <;> simp only [same, true_and, if_true, if_false, false_and]
    · split <;> linarith
    · linarith
  · simp only [Write.lines, settlement, List.mem_cons, List.not_mem_nil, or_false] at member
    rcases member with rfl | rfl <;> rfl

/-- A move that does not start a queued job adds nothing to the holds of running jobs. -/
theorem shrinks_move {world next : World γ} {current : Job} {target : JobState} {change : Change}
    {now : Time} {outstanding : Option Cents} (booked : Booked world)
    (moving : Moving world current target change now outstanding)
    (running : target.active = true → current.state.active = true)
    (applied : (Write.move current target change now outstanding).apply world = .ok next) :
    Shrinks world next := by
  have ledger := Write.ledger_eq applied
  rw [moving.lines_eq] at ledger
  obtain ⟨row, found, state, jobs⟩ : ∃ row, world.db.jobs.find current.jobId = some row ∧
      row.state = current.state ∧ next.db.jobs = world.db.jobs.modify current.jobId
        (current.movedTo target change now).writtenOver (Job.writtenOver_id _) := by
    obtain ⟨db, written, rfl⟩ := Write.apply_eq applied
    obtain ⟨row, found, state, rfl⟩ := Db.moveJob_eq written
    exact ⟨row, found, state, rfl⟩
  refine shrinks_same (fun currency period => ?_) fun currency => ?_
  · rw [poolSpent_eq, ledger, sumWhere_append, poolSpent_eq]
    cases outstanding with
    | none => exact add_zero _
    | some holding => rw [spent_release, add_zero]
  · rw [activeHolds_rewrite found jobs ledger (fun line member => ?_) currency]
    · have nonneg := booked.share_nonneg found currency
      cases active : target.active with
      | false =>
          have gone : next.db.share currency
              ((current.movedTo target change now).writtenOver row) = 0 :=
            if_neg fun both => Bool.false_ne_true (active.symm.trans both.1)
          rw [gone]
          linarith
      | true =>
          have unread : outstanding = none := by
            have release := moving.release
            rw [JobState.active_holdsBudget active] at release
            rwa [← Option.not_isSome_iff_eq_none, Bool.not_eq_true]
          subst unread
          have same : next.db.share currency ((current.movedTo target change now).writtenOver row) =
              world.db.share currency row := by
            show (if target.active ∧ row.currency = currency then
              next.db.jobHolding row.jobId currency else 0) = (if row.state.active ∧
                row.currency = currency then world.db.jobHolding row.jobId currency else 0)
            rw [active, state, running active, jobHolding_other ledger (by simp)]
          rw [same]
          linarith
    · cases outstanding with
      | none => cases member
      | some holding =>
          simp only [ledgerWrites_release] at member
          split at member
          · rw [List.mem_singleton.mp member]
            rfl
          · cases member

/-- A job that is inserted without capacity adds nothing to the holds of running jobs. -/
theorem activeHolds_insert {db other : Db} {job : Job} {lines : List LedgerEntry}
    (inserted : db.jobs.insert job = some other.jobs) (ledger : other.ledger = db.ledger ++ lines)
    (named : ∀ line ∈ lines, line.jobId = some job.jobId) (idle : job.state.active = false)
    (currency : Currency) : other.activeHolds currency = db.activeHolds currency := by
  have own : other.share currency job = 0 :=
    if_neg fun both => Bool.false_ne_true (idle.symm.trans both.1)
  rw [activeHolds_total, Table.total_insert inserted, own, add_zero, activeHolds_total]
  refine Table.total_congr fun id each present => ?_
  unfold Db.share
  rw [jobHolding_other ledger fun line member equal => ?_]
  rw [named line member, Option.some.injEq, Table.find_key present] at equal
  rw [← equal, (Table.insert_eq_some inserted).1] at present
  cases present

theorem shrinks_create {world next : World γ} {job : Job} {read : Admission}
    (fresh : Fresh world job read) (applied : (Write.create job read).apply world = .ok next) :
    Shrinks world next := by
  have ledger := Write.ledger_eq applied
  obtain ⟨db, written, rfl⟩ := Write.apply_eq applied
  obtain ⟨jobs, grown, rfl⟩ := Db.insertJob_eq written
  refine shrinks_same (fun currency period => ?_) fun currency => ?_
  · rw [poolSpent_eq, ledger, sumWhere_append, poolSpent_eq]
    exact (congrArg _ (spent_hold world.config job _)).trans (add_zero _)
  · refine (activeHolds_insert grown ledger (fun line member => ?_) ?_ currency).le
    · simp only [Write.lines, admissionHold] at member
      split at member
      · rw [List.mem_singleton.mp member]
        rfl
      · cases member
    · rw [fresh.queued]
      rfl

theorem shrinks_refuse {world next : World γ} {job : Job} {refusal : Refusal}
    (refused : job.state = .refused) (applied : (Write.refuse job refusal).apply world = .ok next) :
    Shrinks world next := by
  have ledger := Write.ledger_eq applied
  obtain ⟨db, written, rfl⟩ := Write.apply_eq applied
  obtain ⟨jobs, grown, rfl⟩ := Db.insertJob_eq written
  refine shrinks_same (fun currency period => ?_) fun currency => ?_
  · rw [poolSpent_ledger (ledger.trans (List.append_nil _))]
  · refine (activeHolds_insert grown ledger (by simp [Write.lines]) ?_ currency).le
    rw [refused]
    rfl

theorem shrinks_steady {world next : World γ} (steady : Steady world next) : Shrinks world next :=
  shrinks_same (fun currency period => poolSpent_ledger steady.ledger currency period)
    fun currency => (steady.holds currency).le

/-- A queued job is started within the room that was read, whatever month it is by then. -/
theorem Within.start {world next : World γ} {current : Job} {change : Change} {now : Time}
    {outstanding : Option Cents} (within : Within world) (booked : Booked world)
    (monotone : ∀ one other, one ≤ other → world.clock one ≤ world.clock other)
    (moving : Moving world current .allocating change now outstanding)
    (queued : current.state = .queued)
    (room : Room world current.currency (money current.reserved))
    (applied : (Write.move current .allocating change now outstanding).apply world = .ok next) :
    Within next := by
  have persists := Write.persists applied
  have ledger := Write.ledger_eq applied
  have unread : outstanding = none := by
    have release := moving.release
    rwa [← Option.not_isSome_iff_eq_none, Bool.not_eq_true]
  subst unread
  rw [moving.lines_eq] at ledger
  replace ledger : next.db.ledger = world.db.ledger := ledger.trans (List.append_nil _)
  obtain ⟨row, found, state, jobs⟩ : ∃ row, world.db.jobs.find current.jobId = some row ∧
      row.state = current.state ∧ next.db.jobs = world.db.jobs.modify current.jobId
        (current.movedTo .allocating change now).writtenOver (Job.writtenOver_id _) := by
    obtain ⟨db, written, rfl⟩ := Write.apply_eq applied
    obtain ⟨row, found, state, rfl⟩ := Db.moveJob_eq written
    exact ⟨row, found, state, rfl⟩
  obtain ⟨again, hasRow, terms⟩ := moving.known.row
  rw [found] at hasRow
  cases hasRow
  intro currency period ahead
  have months := persists.months ahead
  have grown := activeHolds_started booked found terms (state.trans queued) ledger jobs currency
  rw [poolSpent_ledger ledger, persists.poolBudget]
  by_cases mine : currency = current.currency
  · rw [if_pos mine] at grown
    obtain ⟨reading, before, stamped, fits⟩ := room
    rw [← mine, ← money_add] at fits
    -- the month the headroom was read in, or one in which nothing has been written yet
    have below : world.db.poolSpent currency period ≤
        world.db.poolSpent currency (world.config.calendar.period (world.clock reading)) := by
      rcases eq_or_lt_of_le (months reading before) with same | later
      · rw [same]
      · refine le_trans (le_of_eq ?_) (booked.spentPart_nonneg currency _)
        rw [poolSpent_eq]
        refine sumWhere_none fun line member => decide_eq_false fun both => ?_
        obtain ⟨earlier, sooner, written⟩ := stamped line member
        have old := world.config.calendar.period_mono (monotone earlier reading sooner.le)
        rw [← written, ← (booked.rows line member).period, both.2] at old
        exact absurd old (not_le.mpr later)
    refine le_trans (money_le_money.mpr ?_) (fits.trans (le_max_right _ _))
    linarith
  · rw [if_neg mine, add_zero] at grown
    exact (money_le_money.mpr (add_le_add_right grown _)).trans (within currency period months)

/-- A transaction of a process that is alone, other than a charge for abandoned capacity, keeps the
pool within its budget. -/
theorem Within.write {outside : Outside γ} {world next : World γ} {write : Write}
    (within : Within world) (booked : Booked world)
    (monotone : ∀ one other, one ≤ other → world.clock one ≤ world.clock other)
    (sound : Sound world write) (exactly : Exact outside world write)
    (unabandoned : ∀ line ∈ write.lines world.config, line.kind ≠ .abandoned)
    (applied : write.apply world = .ok next) : Within next := by
  have persists := Write.persists applied
  have unmoved := exactly.unmoved
  cases write with
  | create job read => exact within.shrinks persists (shrinks_create sound applied)
  | refuse job refusal => exact within.shrinks persists (shrinks_refuse sound.2.1 applied)
  | settle job amount accrued now =>
      exact within.shrinks persists (shrinks_settle sound unmoved applied)
  | move current target change now outstanding =>
      by_cases starts : current.state = .queued ∧ target = .allocating
      · obtain ⟨queued, rfl⟩ := starts
        exact within.start booked monotone sound queued (exactly.2.2.2.1 queued rfl) applied
      · refine within.shrinks persists (shrinks_move booked sound (fun active => ?_) applied)
        exact (JobState.canTransition_active sound.legal active).resolve_right starts
  | abandon handle job user currency amount now =>
      exact absurd rfl (unabandoned _ (List.mem_singleton_self _))
  | touch | sampled | notify =>
      refine within.shrinks persists (shrinks_steady (steady_beside ?_ applied))
      exact trivial
  | insertUser | updateUser | suspend | restore | applyPrices =>
      refine within.shrinks persists (shrinks_same (fun currency period => ?_) fun currency => ?_)
      all_goals
        obtain ⟨db, written, rfl⟩ := Write.apply_eq applied
        obtain ⟨jobs, ledger, _⟩ := Write.aside written trivial
      · exact poolSpent_ledger ledger currency period
      · exact (activeHolds_eq jobs ledger currency).le

/-- No capacity was charged as abandoned. -/
def Unabandoned (ledger : List LedgerEntry) : Prop := ∀ line ∈ ledger, line.kind ≠ .abandoned

instance (ledger : List LedgerEntry) : Decidable (Unabandoned ledger) :=
  inferInstanceAs (Decidable (∀ line ∈ ledger, line.kind ≠ .abandoned))

/-- What a run keeps of its configuration and its clock, and of the pool. -/
structure Funded (config : BrokerConfig) (clock : Nat → Time) (world : World γ) : Prop where
  clock : world.clock = clock
  settings : world.config.unpriced = config.unpriced
  within : Unabandoned world.db.ledger → Within world

theorem Funded.budget {config : BrokerConfig} {clock : Nat → Time} {world : World γ}
    (funded : Funded config clock world) (currency : Currency) :
    world.config.poolBudget currency = config.poolBudget currency := by
  show world.config.unpriced.poolBudget currency = config.unpriced.poolBudget currency
  rw [funded.settings]

theorem Funded.new (config : BrokerConfig) (cloud : γ) (clock : Nat → Time) :
    Funded config clock (World.new config cloud clock) := by
  refine ⟨rfl, rfl, fun _ currency period _ => ?_⟩
  have nothing : (World.new config cloud clock).db.poolSpent currency period +
      (World.new config cloud clock).db.activeHolds currency = 0 := rfl
  rw [nothing, money_zero]
  exact le_max_left _ _

/-- A run with a clock that never goes back keeps the pool funded. -/
theorem Desk.funded (desk : Desk γ) (config : BrokerConfig) (cloud : γ) (clock : Nat → Time)
    (monotone : ∀ one other, one ≤ other → clock one ≤ clock other)
    (entries : List (Operation × Nat)) :
    Funded config clock (desk.after entries (World.new config cloud clock)) := by
  refine (Desk.keeps (runs_unknown desk.site) (Booked.new config cloud clock)
    (desk.allows_anything _ _) (Funded.new config cloud clock) ?_ ?_).2
  · intro before after _ quiet _ held
    refine ⟨quiet.clock.trans held.clock, quiet.config ▸ held.settings, fun unabandoned => ?_⟩
    rw [quiet.db] at unabandoned
    exact (held.within unabandoned).shrinks quiet.persists (shrinks_steady quiet.steady)
  · intro write before after booked _ sound _ exactly applied held
    have persists := Write.persists applied
    have ledger := Write.ledger_eq applied
    refine ⟨persists.clock.trans held.clock, persists.settings.trans held.settings,
      fun unabandoned => ?_⟩
    rw [ledger] at unabandoned
    refine (held.within fun line member => unabandoned line (List.mem_append_left _ member)).write
      booked ?_ sound exactly (fun line member => unabandoned line (List.mem_append_right _ member))
      applied
    rw [held.clock]
    exact monotone

/-- In every run with a clock that never goes back and no charge for abandoned capacity, what
`pool_committed` then answers is within the pool's budget, or nothing where that is negative. -/
theorem pool_within_budget (desk : Desk γ) (config : BrokerConfig) (cloud : γ) (clock : Nat → Time)
    (monotone : ∀ one other, one ≤ other → clock one ≤ clock other)
    (entries : List (Operation × Nat))
    (unabandoned : Unabandoned (desk.after entries (World.new config cloud clock)).db.ledger)
    (currency : Currency) (length : Nat) (committed : Cents)
    (answered : ((poolCommitted currency).run length
      (desk.after entries (World.new config cloud clock))).1.answer = some committed) :
    money committed ≤ max 0 (config.poolBudget currency) := by
  have funded := desk.funded config cloud clock monotone entries
  have booked := desk.booked entries (Booked.new config cloud clock)
  generalize desk.after entries (World.new config cloud clock) = world at *
  have safe : (solitary Outside.unknown).Safe (poolCommitted currency) _ world := safe_poolCommitted
  have answer := (safe.result booked (Program.allowed_always (fun _ _ => trivial) _ _ _) answered).2
    trivial
  rw [answer.2, ← funded.budget]
  refine funded.within unabandoned currency _ fun reading before => ?_
  refine world.config.calendar.period_mono ?_
  rw [funded.clock]
  exact monotone _ _ before.le

/-- The club's clock never goes back. -/
theorem twelveMinutes_monotone (one other : Nat) (before : one ≤ other) :
    (one : Time) * twelveMinutes ≤ other * twelveMinutes :=
  mul_le_mul_of_nonneg_right (by exact_mod_cast before) (by decide)

/-- Ann's running job commits its reservation of four dollars. -/
theorem pool_within_budget_running :
    money 400 ≤ max 0 (BrokerConfig.club.poolBudget .usd) :=
  pool_within_budget (Rack.desk (fun _ => .running) fun _ => []) .club ⟨0, 0⟩
    (fun reading => reading * twelveMinutes) twelveMinutes_monotone
    (Operation.opening ++ Operation.ticks 1) (by decide +kernel) .usd 20 400 (by decide +kernel)

/-- A pool whose budget is set below zero is over it before anything is committed. -/
theorem pool_over_negative_budget :
    let config := { BrokerConfig.club with poolBudgetUsd := -1 }
    let world := (Rack.desk (fun _ => .running) fun _ => []).after Operation.opening (World.club config)
    Unabandoned world.db.ledger ∧ ((poolCommitted .usd).run 20 world).1.answer = some 0 ∧
      ¬ money 0 ≤ config.poolBudget .usd := by
  refine ⟨by decide +kernel, by decide +kernel, ?_⟩
  rw [money_zero]
  decide

end GpuBroker.Broker
