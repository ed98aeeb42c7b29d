/-
This file is the bookkeeping of the Python broker: what the rows of a job's
ledger come to, and the invariant that ties them to its record.

A transaction keeps the invariant when it is sound, that is computed from what
cannot change behind its back, and unmoved, that is the two things which can
change have not: the state of the job it settles, and the hold it releases. Both
are said of the transaction and the state before it.
-/
import GpuBroker.Broker.Store

namespace GpuBroker.Broker

open Library

/-! ### Sums over the ledger -/

/-- What a row adds to what is held. -/
def LedgerEntry.heldPart (row : LedgerEntry) : Cents :=
  match row.kind with
  | .reserve => row.amount
  | .release => -row.amount
  | _ => 0

/-- What a row adds to what is spent. -/
def LedgerEntry.spentPart (row : LedgerEntry) : Cents :=
  match row.kind with
  | .reserve | .release => 0
  | _ => row.amount

/-- What a row adds to what is settled. -/
def LedgerEntry.settledPart (row : LedgerEntry) : Cents :=
  match row.kind with
  | .settle => row.amount
  | _ => 0

/-- A quantity summed over the rows a predicate selects. -/
def sumWhere (part : LedgerEntry → Cents) (which : LedgerEntry → Bool)
    (ledger : List LedgerEntry) : Cents :=
  ((ledger.filter which).map part).sum

/-- The rows of a job. -/
def ofJob (job : JobId) (row : LedgerEntry) : Bool := row.jobId = some job

/-- The rows of a job in one currency. -/
def ofJobIn (job : JobId) (currency : Currency) (row : LedgerEntry) : Bool :=
  row.jobId = some job ∧ row.currency = currency

/-- The sum of a job's SETTLE rows. -/
def settled (ledger : List LedgerEntry) (job : JobId) : Cents :=
  sumWhere LedgerEntry.settledPart (ofJob job) ledger

/-- What one line of the ledger adds to what is held and to what is spent. -/
def tallied (sums : Cents × Cents) (row : LedgerEntry) : Cents × Cents :=
  match row.kind with
  | .reserve => (sums.1 + row.amount, sums.2)
  | .release => (sums.1 - row.amount, sums.2)
  | _ => (sums.1, sums.2 + row.amount)

theorem aggregate_eq (rows : List LedgerEntry) :
    aggregate rows = ((rows.map LedgerEntry.heldPart).sum, (rows.map LedgerEntry.spentPart).sum) := by
  have ahead : ∀ (rows : List LedgerEntry) (held spent : Cents),
      rows.foldl tallied (held, spent) =
      (held + (rows.map LedgerEntry.heldPart).sum, spent + (rows.map LedgerEntry.spentPart).sum) := by
    intro rows
    induction rows with
    | nil => intro held spent; simp
    | cons row rows inductionHypothesis =>
        intro held spent
        rw [List.foldl_cons, List.map_cons, List.map_cons, List.sum_cons, List.sum_cons]
        cases kind : row.kind <;>
          simp only [tallied, kind, inductionHypothesis, LedgerEntry.heldPart, LedgerEntry.spentPart,
            Prod.mk.injEq] <;> constructor <;> ring
  have whole := ahead rows 0 0
  rw [zero_add, zero_add] at whole
  exact whole

theorem jobHolding_eq (db : Db) (job : JobId) (currency : Currency) :
    db.jobHolding job currency = sumWhere LedgerEntry.heldPart (ofJobIn job currency) db.ledger := by
  rw [Db.jobHolding, aggregate_eq]
  rfl

theorem jobSpend_eq (db : Db) (job : JobId) :
    db.jobSpend job = sumWhere LedgerEntry.spentPart (ofJob job) db.ledger := by
  rw [Db.jobSpend, aggregate_eq]
  rfl

@[simp] theorem sumWhere_append (part : LedgerEntry → Cents) (which : LedgerEntry → Bool)
    (first second : List LedgerEntry) :
    sumWhere part which (first ++ second) =
      sumWhere part which first + sumWhere part which second := by
  simp [sumWhere]

@[simp] theorem sumWhere_nil (part : LedgerEntry → Cents) (which : LedgerEntry → Bool) :
    sumWhere part which [] = 0 := rfl

@[simp] theorem sumWhere_cons (part : LedgerEntry → Cents) (which : LedgerEntry → Bool)
    (row : LedgerEntry) (rows : List LedgerEntry) :
    sumWhere part which (row :: rows) =
      (if which row then part row else 0) + sumWhere part which rows := by
  by_cases chosen : which row <;> simp [sumWhere, chosen]

/-- A sum over rows none of which is selected is zero. -/
theorem sumWhere_none {part : LedgerEntry → Cents} {which : LedgerEntry → Bool}
    {ledger : List LedgerEntry} (none : ∀ row ∈ ledger, which row = false) :
    sumWhere part which ledger = 0 := by
  rw [sumWhere, List.filter_eq_nil_iff.mpr fun row member => by simp [none row member]]
  rfl

/-- A sum of one quantity is at most the sum of another that is nowhere smaller. -/
theorem sumWhere_le {part other : LedgerEntry → Cents} {which : LedgerEntry → Bool}
    {ledger : List LedgerEntry} (below : ∀ row ∈ ledger, part row ≤ other row) :
    sumWhere part which ledger ≤ sumWhere other which ledger := by
  induction ledger with
  | nil => exact le_rfl
  | cons row rows inductionHypothesis =>
      rw [sumWhere_cons, sumWhere_cons]
      refine add_le_add ?_ (inductionHypothesis fun row member =>
        below row (List.mem_cons_of_mem _ member))
      split
      · exact below row List.mem_cons_self
      · exact le_rfl

/-- What is settled is part of what is spent. -/
theorem settled_le_spend {db : Db} (positive : ∀ row ∈ db.ledger, 0 < row.amount) (job : JobId) :
    settled db.ledger job ≤ db.jobSpend job := by
  rw [jobSpend_eq]
  refine sumWhere_le fun row member => ?_
  have above := positive row member
  unfold LedgerEntry.settledPart LedgerEntry.spentPart
  cases row.kind <;> simp only <;> linarith

/-! ### The rows a transaction writes -/

theorem holding_hold (config : BrokerConfig) (job : Job) (nonneg : 0 ≤ job.reserved) (id : JobId)
    (currency : Currency) :
    sumWhere LedgerEntry.heldPart (ofJobIn id currency) (admissionHold config job) =
      if job.jobId = id ∧ job.currency = currency then job.reserved else 0 := by
  unfold admissionHold
  split
  · simp [insertLedger, ofJobIn, LedgerEntry.heldPart]
  · next unreserved =>
    have none : job.reserved = 0 := le_antisymm (not_lt.mp unreserved) nonneg
    simp [none]

theorem settled_hold (config : BrokerConfig) (job : Job) (id : JobId) :
    sumWhere LedgerEntry.settledPart (ofJob id) (admissionHold config job) = 0 := by
  unfold admissionHold
  split <;> simp [insertLedger, LedgerEntry.settledPart]

theorem holding_settlement (config : BrokerConfig) (job : Job) (amount : Cents) (now : Time)
    (id : JobId) (currency : Currency) :
    sumWhere LedgerEntry.heldPart (ofJobIn id currency) (settlement config job amount now) =
      if job.jobId = id ∧ job.currency = currency then -amount else 0 := by
  simp [settlement, insertLedger, ofJobIn, LedgerEntry.heldPart]

theorem settled_settlement (config : BrokerConfig) (job : Job) (amount : Cents) (now : Time)
    (id : JobId) :
    sumWhere LedgerEntry.settledPart (ofJob id) (settlement config job amount now) =
      if job.jobId = id then amount else 0 := by
  simp [settlement, insertLedger, ofJob, LedgerEntry.settledPart]

/-- The rows of the release of a hold. -/
theorem ledgerWrites_release (config : BrokerConfig) (job : Job) (holding : Cents) (now : Time) :
    ledgerWrites config job (releaseRemainingHold job.currency holding []) now =
      if 0 < holding then
        [insertLedger config (some job.jobId) (some job.userId) job.currency .release
          (money holding) now none]
      else [] := by
  have unfolded : releaseRemainingHold job.currency holding [] =
      if holding ≤ 0 then []
      else [{ kind := .release, amount := money holding, currency := job.currency }] := by
    simp only [releaseRemainingHold, afterWrites, List.foldl_nil, quantize_money,
      ← money_zero, money_le_money]
  rw [unfolded]
  by_cases positive : 0 < holding
  · rw [if_pos positive, if_neg (not_le.mpr positive)]
    rfl
  · rw [if_neg positive, if_pos (not_lt.mp positive)]
    rfl

theorem holding_release (config : BrokerConfig) (job : Job) {holding : Cents} (nonneg : 0 ≤ holding)
    (now : Time) (id : JobId) (currency : Currency) :
    sumWhere LedgerEntry.heldPart (ofJobIn id currency)
        (ledgerWrites config job (releaseRemainingHold job.currency holding []) now) =
      if job.jobId = id ∧ job.currency = currency then -holding else 0 := by
  rw [ledgerWrites_release]
  split
  · simp [insertLedger, ofJobIn, LedgerEntry.heldPart]
  · next empty =>
    have none : holding = 0 := le_antisymm (not_lt.mp empty) nonneg
    simp [none]

theorem settled_release (config : BrokerConfig) (job : Job) (holding : Cents) (now : Time)
    (id : JobId) :
    sumWhere LedgerEntry.settledPart (ofJob id)
        (ledgerWrites config job (releaseRemainingHold job.currency holding []) now) = 0 := by
  rw [ledgerWrites_release]
  split <;> simp [insertLedger, LedgerEntry.settledPart]

/-! ### What a transaction is computed from -/

/-- What a job's record never changes. -/
structure Terms where
  userId : UserId
  gpuType : String
  currency : Currency
  reserved : Cents
  submittedAt : Time
  deriving DecidableEq

def Job.terms (job : Job) : Terms :=
  ⟨job.userId, job.gpuType, job.currency, job.reserved, job.submittedAt⟩

section Worlds

variable {γ : Type}

/-- A moment the clock has shown. -/
def World.Shown (world : World γ) (moment : Time) : Prop :=
  ∃ reading < world.asked, moment = world.clock reading

/-- A record a program holds of a job that is in the table. -/
structure Known (world : World γ) (job : Job) : Prop where
  row : ∃ row, world.db.jobs.find job.jobId = some row ∧ row.terms = job.terms
  unfinished : job.state.terminal = false → job.finishedAt = none
  freed : job.state.active = false → job.backendHandle = none
  usual : job.state ≠ .checkpointing

/-- A move as the broker makes it: along a legal edge, without writes of the caller's own, with the
release of the hold it read when it is the last, naming capacity when it takes some and clearing it
when it gives it up. -/
structure Moving (world : World γ) (current : Job) (target : JobState) (change : Change) (now : Time)
    (outstanding : Option Cents) : Prop where
  known : Known world current
  legal : current.state.canTransition target = true
  usual : target ≠ .checkpointing
  shown : world.Shown now
  plain : change.ledger = []
  release : outstanding.isSome = target.terminal
  clears : change.clearHandle = (target.terminal || target == .preempted)
  places : change.backendHandle.isSome = (current.state == .queued && target == .allocating)
  sited : change.backend.isSome = change.backendHandle.isSome

/-- A settlement as `_accrue` and `settle` make it: of an active job, and within what its
reservation leaves. -/
structure Settling (world : World γ) (job : Job) (amount : Cents) (now : Time) : Prop where
  known : Known world job
  active : job.state.active = true
  positive : 0 < amount
  within : amount ≤ job.reserved - world.db.jobSpend job.jobId
  shown : world.Shown now

/-- The kind of capacity of a name is configured. -/
def Typed (config : BrokerConfig) (name : String) : Prop := ∃ gpu, config.gpu name = .ok gpu

/-- The row of a job as `create_job` makes it, admitted on what was read. -/
structure Fresh (world : World γ) (job : Job) (read : Admission) : Prop where
  typed : Typed world.config job.gpuType
  queued : job.state = .queued
  nonneg : 0 ≤ job.reserved
  unstarted : job.startedAt = none
  unfinished : job.finishedAt = none
  unplaced : job.backendHandle = none
  unread : job.logsFetched = 0
  shown : world.Shown job.submittedAt
  waiting : read.queued < world.config.maxQueuedJobsPerUser
  affordable : ∃ asked : Decimal, 0 < asked ∧ job.reserved = quantize asked ∧
    asked ≤ read.balance.available

/-- A touch whose lines, if it adds any, are the broker's own. -/
def Touch.Ours : Touch → Prop
  | output _ _ _ => False
  | note kept => ∀ line ∈ kept, line.1 = "broker"
  | _ => True

/-- What is true of a transaction however other processes interfere. -/
def Sound (world : World γ) : Write → Prop
  | .create job read => Fresh world job read
  | .refuse job _ =>
      Typed world.config job.gpuType ∧ job.state = .refused ∧ job.backendHandle = none ∧
        job.logsFetched = 0 ∧ job.startedAt = none ∧ job.finishedAt.isSome = true
  | .move current target change now outstanding =>
      Moving world current target change now outstanding
  | .settle job amount _ now => Settling world job amount now
  | .touch job columns _ => (∃ row, world.db.jobs.find job = some row) ∧
      (columns.Ours ∨ ∃ after polled kept, columns = .output after polled kept)
  | .sampled job _ => ∃ row, world.db.jobs.find job = some row
  | .notify notification => ∀ job ∈ notification.jobId, ∃ row, world.db.jobs.find job = some row
  | .abandon _ job _ _ amount now =>
      0 < amount ∧ world.Shown now ∧ ∀ id ∈ job, (world.db.jobs.find id).isSome
  | _ => True

/-- The hold a last move releases is the one that was read, unless the job is not in the state that
was read either, in which case the move is rolled back. -/
def Unspent (world : World γ) : Write → Prop
  | .move current _ _ _ (some holding) =>
      ∀ row, world.db.jobs.find current.jobId = some row → row.state = current.state →
        holding = world.db.jobHolding current.jobId current.currency
  | _ => True

/-- What the transaction was computed from is still so: the state of a job that is settled, the
hold of one that is released. -/
def Unmoved (world : World γ) : Write → Prop
  | .settle job _ _ _ => ∃ row, world.db.jobs.find job.jobId = some row ∧ row.state = job.state
  | write => Unspent world write

/-! ### The invariant -/

/-- The money and the capacity of one job: what it holds is what its reservation has left, until it
is terminal and holds nothing; and it names capacity only while it is active. -/
structure JobBooked (ledger : List LedgerEntry) (job : Job) : Prop where
  held : job.state.terminal = false →
    sumWhere LedgerEntry.heldPart (ofJobIn job.jobId job.currency) ledger =
      job.reserved - settled ledger job.jobId
  closed : job.state.terminal = true →
    sumWhere LedgerEntry.heldPart (ofJobIn job.jobId job.currency) ledger = 0
  within : job.state ≠ .refused → settled ledger job.jobId ≤ job.reserved
  refused : job.state = .refused → settled ledger job.jobId = 0
  unfinished : job.state.terminal = false → job.finishedAt = none
  freed : job.state.active = false → job.backendHandle = none
  begun : job.state.active = true → job.startedAt.isSome = true
  usual : job.state ≠ .checkpointing

/-- A row of the ledger: positive, stamped with a reading of the clock and its period, and, when it
names a job, with the job's own member and currency unless it is of abandoned capacity. -/
structure RowBooked (world : World γ) (row : LedgerEntry) : Prop where
  positive : 0 < row.amount
  shown : world.Shown row.writtenAt
  period : row.period = world.config.calendar.period row.writtenAt
  owned : ∀ id, row.jobId = some id → ∃ job, world.db.jobs.find id = some job ∧
    (row.kind ≠ .abandoned → row.userId = some job.userId ∧ row.currency = job.currency)

/-- The books are in order. -/
structure Booked (world : World γ) : Prop where
  rows : ∀ row ∈ world.db.ledger, RowBooked world row
  jobs : ∀ id job, world.db.jobs.find id = some job → JobBooked world.db.ledger job
  typed : ∀ id job, world.db.jobs.find id = some job → Typed world.config job.gpuType

theorem Booked.positive {world : World γ} (booked : Booked world) :
    ∀ row ∈ world.db.ledger, 0 < row.amount :=
  fun row member => (booked.rows row member).positive

/-- A job that is not there has no rows. -/
theorem Booked.absent {world : World γ} (booked : Booked world) {id : JobId}
    (absent : world.db.jobs.find id = none) :
    ∀ row ∈ world.db.ledger, row.jobId ≠ some id := by
  intro row member named
  obtain ⟨job, found, _⟩ := (booked.rows row member).owned id named
  rw [absent] at found
  cases found

/-- The configuration without its prices. -/
def BrokerConfig.unpriced (config : BrokerConfig) : BrokerConfig :=
  { config with gpuTypes := config.gpuTypes.map fun gpu => { gpu with hourlyPrice := 0 } }

/-- A kind is configured when its name is, whatever the price. -/
theorem typed_iff (config : BrokerConfig) (name : String) :
    Typed config name ↔ name ∈ config.unpriced.gpuTypes.map GpuType.name := by
  have names : config.unpriced.gpuTypes.map GpuType.name = config.gpuTypes.map GpuType.name := by
    show (config.gpuTypes.map _).map GpuType.name = _
    rw [List.map_map]
    rfl
  rw [names, List.mem_map, Typed]
  unfold BrokerConfig.gpu
  constructor
  · rintro ⟨gpu, found⟩
    split at found
    · next other hit =>
      exact ⟨other, List.mem_of_find?_eq_some hit, by simpa using List.find?_some hit⟩
    · cases found
  · rintro ⟨gpu, member, named⟩
    split
    · next other _ => exact ⟨other, rfl⟩
    · next missing => exact absurd named (by simpa using List.find?_eq_none.mp missing gpu member)

/-- The jobs of a table persist, on the same terms, while the clock runs on; only prices change in
the configuration. -/
structure Persists (world next : World γ) : Prop where
  jobs : ∀ id job, world.db.jobs.find id = some job →
    ∃ later, next.db.jobs.find id = some later ∧ later.terms = job.terms
  settings : next.config.unpriced = world.config.unpriced
  clock : next.clock = world.clock
  asked : world.asked ≤ next.asked

theorem Persists.refl (world : World γ) : Persists world world :=
  ⟨fun _ job found => ⟨job, found, rfl⟩, rfl, rfl, le_rfl⟩

theorem Persists.trans {one two three : World γ} (first : Persists one two)
    (second : Persists two three) : Persists one three := by
  refine ⟨fun id job found => ?_, second.settings.trans first.settings,
    second.clock.trans first.clock, first.asked.trans second.asked⟩
  obtain ⟨middle, hasMiddle, same⟩ := first.jobs id job found
  obtain ⟨later, hasLater, again⟩ := second.jobs id middle hasMiddle
  exact ⟨later, hasLater, again.trans same⟩

theorem Persists.calendar {world next : World γ} (persists : Persists world next) :
    next.config.calendar = world.config.calendar := by
  show next.config.unpriced.calendar = world.config.unpriced.calendar
  rw [persists.settings]

theorem Persists.shown {world next : World γ} (persists : Persists world next) {moment : Time}
    (shown : world.Shown moment) : next.Shown moment := by
  obtain ⟨reading, before, same⟩ := shown
  exact ⟨reading, lt_of_lt_of_le before persists.asked, by rw [persists.clock]; exact same⟩

theorem Persists.known {world next : World γ} (persists : Persists world next) {job : Job}
    (known : Known world job) : Known next job := by
  obtain ⟨row, found, same⟩ := known.row
  obtain ⟨later, hasLater, again⟩ := persists.jobs _ row found
  exact ⟨⟨later, hasLater, again.trans same⟩, known.unfinished, known.freed, known.usual⟩

theorem Persists.typed {world next : World γ} (persists : Persists world next) {name : String}
    (typed : Typed world.config name) : Typed next.config name := by
  rw [typed_iff, persists.settings]
  exact (typed_iff _ _).mp typed

/-- The kind of capacity of a job that is in the table is configured. -/
theorem Known.typed {world : World γ} {job : Job} (known : Known world job)
    (booked : Booked world) : Typed world.config job.gpuType := by
  obtain ⟨row, found, same⟩ := known.row
  have kind : row.gpuType = job.gpuType := congrArg Terms.gpuType same
  exact kind ▸ booked.typed _ row found

/-- A row stays in order while jobs persist. -/
theorem RowBooked.persists {world next : World γ} {row : LedgerEntry} (booked : RowBooked world row)
    (persists : Persists world next) : RowBooked next row where
  positive := booked.positive
  shown := persists.shown booked.shown
  period := by rw [persists.calendar]; exact booked.period
  owned := by
    intro id named
    obtain ⟨job, found, own⟩ := booked.owned id named
    obtain ⟨later, hasLater, same⟩ := persists.jobs id job found
    refine ⟨later, hasLater, fun other => ?_⟩
    obtain ⟨user, currency⟩ := own other
    rw [user, currency]
    exact ⟨congrArg some (congrArg Terms.userId same).symm, (congrArg Terms.currency same).symm⟩

/-! ### Transactions keep the books in order -/

/-- Rows that neither hold nor settle anything for a job leave its money alone. -/
theorem JobBooked.idle {ledger lines : List LedgerEntry} {job : Job} (booked : JobBooked ledger job)
    (unheld : sumWhere LedgerEntry.heldPart (ofJobIn job.jobId job.currency) lines = 0)
    (unsettled : sumWhere LedgerEntry.settledPart (ofJob job.jobId) lines = 0) :
    JobBooked (ledger ++ lines) job := by
  have sameHeld : sumWhere LedgerEntry.heldPart (ofJobIn job.jobId job.currency) (ledger ++ lines) =
      sumWhere LedgerEntry.heldPart (ofJobIn job.jobId job.currency) ledger := by
    rw [sumWhere_append, unheld, add_zero]
  have sameSettled : settled (ledger ++ lines) job.jobId = settled ledger job.jobId := by
    rw [settled, sumWhere_append, unsettled, add_zero, settled]
  constructor
  · rw [sameHeld, sameSettled]
    exact booked.held
  · rw [sameHeld]
    exact booked.closed
  · rw [sameSettled]
    exact booked.within
  · rw [sameSettled]
    exact booked.refused
  · exact booked.unfinished
  · exact booked.freed
  · exact booked.begun
  · exact booked.usual

theorem JobBooked.other {ledger lines : List LedgerEntry} {job : Job} (booked : JobBooked ledger job)
    (others : ∀ row ∈ lines, row.jobId ≠ some job.jobId) : JobBooked (ledger ++ lines) job :=
  booked.idle
    (sumWhere_none fun row member => decide_eq_false fun both => others row member both.1)
    (sumWhere_none fun row member => decide_eq_false (others row member))

/-- A job stays typed while its kind of capacity stays what it was. -/
theorem Booked.retyped {world next : World γ} {id : JobId} {row job : Job} (booked : Booked world)
    (persists : Persists world next) (found : world.db.jobs.find id = some row)
    (same : job.gpuType = row.gpuType) : Typed next.config job.gpuType :=
  same ▸ persists.typed (booked.typed id row found)

/-- Books in order stay so when the ledger grows by rows in order and every job's money is. -/
theorem Booked.grow {world next : World γ} (lines : List LedgerEntry) (booked : Booked world)
    (persists : Persists world next) (ledger : next.db.ledger = world.db.ledger ++ lines)
    (fresh : ∀ row ∈ lines, RowBooked next row)
    (jobs : ∀ id job, next.db.jobs.find id = some job →
      JobBooked (world.db.ledger ++ lines) job ∧ Typed next.config job.gpuType) : Booked next := by
  refine ⟨fun row member => ?_, fun id job found => ledger ▸ (jobs id job found).1,
    fun id job found => (jobs id job found).2⟩
  rw [ledger] at member
  rcases List.mem_append.mp member with old | new
  · exact (booked.rows row old).persists persists
  · exact fresh row new

theorem Write.apply_eq {write : Write} {world next : World γ}
    (applied : write.apply world = .ok next) :
    ∃ db, write.onDb world.config world.db = .ok db ∧
      next = { world with db, config := write.onConfig world.config } := by
  unfold Write.apply at applied
  split at applied
  · next db written =>
    cases applied
    exact ⟨db, written, rfl⟩
  · cases applied

theorem Write.onConfig_unpriced (write : Write) (config : BrokerConfig) :
    (write.onConfig config).unpriced = config.unpriced := by
  cases write with
  | applyPrices book =>
      simp only [Write.onConfig, BrokerConfig.applyPrices, BrokerConfig.unpriced, List.map_map]
      rfl
  | _ => rfl

/-- What an insertion of a job leaves. -/
theorem Db.insertJob_eq {db next : Db} {job : Job} {reason : Reason} {hold : List LedgerEntry}
    (inserted : db.insertJob job reason hold = .ok next) :
    ∃ jobs, db.jobs.insert job = some jobs ∧
      next =
        { db with
          jobs
          transitions := db.transitions ++ [⟨job.jobId, none, job.state, job.submittedAt, reason⟩]
          ledger := db.ledger ++ hold } := by
  unfold Db.insertJob at inserted
  split at inserted
  · cases inserted
  · next jobs grown =>
    cases inserted
    exact ⟨jobs, grown, rfl⟩

/-- What a move leaves: the guard held of the row it moves. -/
theorem Db.moveJob_eq {db next : Db} {current updated : Job} {reason : Reason}
    {lines : List LedgerEntry} (moved : db.moveJob current updated reason lines = .ok next) :
    ∃ row, db.jobs.find current.jobId = some row ∧ row.state = current.state ∧
      next =
        { db with
          jobs := db.jobs.modify current.jobId updated.writtenOver updated.writtenOver_id
          transitions := db.transitions ++
            [⟨current.jobId, some current.state, updated.state, updated.updatedAt, reason⟩]
          ledger := db.ledger ++ lines } := by
  unfold Db.moveJob at moved
  simp only at moved
  split at moved
  · cases moved
  · next row found =>
    split at moved
    · cases moved
    · next same =>
      split at moved
      · cases moved
      · cases moved
        exact ⟨row, found, not_not.mp same, rfl⟩

/-- What a touch leaves. -/
theorem Db.touchJob_eq {db next : Db} {job : JobId} {columns : Touch} {now : Time}
    (touched : db.touchJob job columns now = .ok next) :
    next =
      { db with
        jobs := db.jobs.modify job (columns.onRow now) (columns.onRow_id now)
        logs := db.logs ++ columns.lines.map fun line => ⟨job, now, line.1, line.2⟩ } := by
  unfold Db.touchJob at touched
  simp only at touched
  split at touched
  · cases touched
  · cases touched
    rfl

/-- A transaction on the users, the samples or the notifications leaves jobs and ledger alone. -/
theorem Write.aside {write : Write} {config : BrokerConfig} {db next : Db}
    (written : write.onDb config db = .ok next)
    (aside : match write with
      | .insertUser _ | .updateUser _ | .suspend _ _ _ _ | .restore _ | .sampled _ _ | .notify _
      | .applyPrices _ => True
      | _ => False) :
    next.jobs = db.jobs ∧ next.ledger = db.ledger ∧ next.transitions = db.transitions ∧
      next.logs = db.logs := by
  cases write with
  | insertUser user =>
      simp only [Write.onDb] at written
      split at written
      · cases written
      · cases written
        exact ⟨rfl, rfl, rfl, rfl⟩
  | sampled job samples =>
      simp only [Write.onDb] at written
      split at written
      · cases written
        exact ⟨rfl, rfl, rfl, rfl⟩
      · cases written
  | notify notification =>
      simp only [Write.onDb] at written
      split at written
      · cases written
        exact ⟨rfl, rfl, rfl, rfl⟩
      · cases written
  | updateUser | suspend | restore | applyPrices =>
      cases written
      exact ⟨rfl, rfl, rfl, rfl⟩
  | create | refuse | move | settle | touch | abandon => exact aside.elim

/-- A transaction leaves every job there, on the same terms. -/
theorem Write.persists {write : Write} {world next : World γ}
    (applied : write.apply world = .ok next) : Persists world next := by
  obtain ⟨db, written, rfl⟩ := Write.apply_eq applied
  have kept : (∀ id job, world.db.jobs.find id = some job →
      ∃ later, db.jobs.find id = some later ∧ later.terms = job.terms) →
      Persists world { world with db, config := write.onConfig world.config } := fun jobs =>
    ⟨jobs, write.onConfig_unpriced world.config, rfl, le_rfl⟩
  have inserted : ∀ {job : Job} {reason hold}, world.db.insertJob job reason hold = .ok db →
      ∀ id row, world.db.jobs.find id = some row →
        ∃ later, db.jobs.find id = some later ∧ later.terms = row.terms := by
    intro job reason hold inserted id row found
    obtain ⟨jobs, grown, rfl⟩ := Db.insertJob_eq inserted
    refine ⟨row, ?_, rfl⟩
    show jobs.find id = some row
    have other : id ≠ job.jobId := by
      rintro rfl
      rw [(Table.insert_eq_some grown).1] at found
      cases found
    rw [Table.find_insert grown, if_neg other, found]
  have modified : ∀ (target : JobId) (set : Job → Job) (same : ∀ row, (set row).jobId = row.jobId),
      (∀ row, (set row).terms = row.terms) → ∀ id row, world.db.jobs.find id = some row →
        ∃ later, (world.db.jobs.modify target set same).find id = some later ∧
          later.terms = row.terms := by
    intro target set same terms id row found
    rw [Table.find_modify, found]
    split
    · exact ⟨set row, rfl, terms row⟩
    · exact ⟨row, rfl, rfl⟩
  refine kept fun id row found => ?_
  cases write with
  | create job read => exact inserted written id row found
  | refuse job refusal => exact inserted written id row found
  | move current target change now outstanding =>
      obtain ⟨_, _, _, rfl⟩ := Db.moveJob_eq written
      exact modified _ (current.movedTo target change now).writtenOver
        (Job.writtenOver_id _) (fun _ => rfl) id row found
  | settle job amount accrued now =>
      cases written
      exact modified _ (Job.stamped now) (Job.stamped_id now) (fun _ => rfl) id row found
  | touch job columns now =>
      rw [Db.touchJob_eq written]
      exact modified _ (columns.onRow now) (columns.onRow_id now)
        (fun row => by cases columns <;> rfl) id row found
  | abandon =>
      cases written
      exact ⟨row, found, rfl⟩
  | insertUser | updateUser | suspend | restore | sampled | notify | applyPrices =>
      rw [(Write.aside written trivial).1]
      exact ⟨row, found, rfl⟩

/-- A job that shares the money and the capacity of another is booked as it is. -/
theorem JobBooked.shared {ledger : List LedgerEntry} {job other : Job}
    (booked : JobBooked ledger job) (id : other.jobId = job.jobId) (terms : other.terms = job.terms)
    (state : other.state = job.state) (started : other.startedAt = job.startedAt)
    (finished : other.finishedAt = job.finishedAt)
    (handle : other.backendHandle = job.backendHandle) : JobBooked ledger other := by
  have currency : other.currency = job.currency := congrArg Terms.currency terms
  have reserved : other.reserved = job.reserved := congrArg Terms.reserved terms
  constructor
  · rw [state, id, currency, reserved]
    exact booked.held
  · rw [state, id, currency]
    exact booked.closed
  · rw [state, id, reserved]
    exact booked.within
  · rw [state, id]
    exact booked.refused
  · rw [state, finished]
    exact booked.unfinished
  · rw [state, handle]
    exact booked.freed
  · rw [state, started]
    exact booked.begun
  · rw [state]
    exact booked.usual

/-- A transaction that writes no rows and keeps every job's money keeps the books. -/
theorem Booked.still {world next : World γ} (booked : Booked world) (persists : Persists world next)
    (ledger : next.db.ledger = world.db.ledger)
    (jobs : ∀ id job, next.db.jobs.find id = some job →
      JobBooked world.db.ledger job ∧ Typed next.config job.gpuType) : Booked next := by
  refine booked.grow [] persists (by rw [ledger, List.append_nil]) (by simp) ?_
  rw [List.append_nil]
  exact jobs

/-- A new job is booked by the hold it takes. -/
theorem Booked.insert {world next : World γ} (booked : Booked world)
    {job : Job} {reason : Reason} {hold : List LedgerEntry} {db : Db}
    (inserted : world.db.insertJob job reason hold = .ok db) (same : next.db = db)
    (persists : Persists world next)
    (fresh : ∀ row ∈ hold, RowBooked next row ∧ row.jobId = some job.jobId)
    (typed : Typed world.config job.gpuType)
    (mine : (∀ row ∈ world.db.ledger, row.jobId ≠ some job.jobId) →
      JobBooked (world.db.ledger ++ hold) job) : Booked next := by
  obtain ⟨jobs, grown, rfl⟩ := Db.insertJob_eq inserted
  refine booked.grow _ persists (by rw [same]) (fun row member => (fresh row member).1) ?_
  intro id row found
  rw [same] at found
  change jobs.find id = some row at found
  rw [Table.find_insert grown] at found
  split at found
  · cases found
    exact ⟨mine (booked.absent (Table.insert_eq_some grown).1), persists.typed typed⟩
  · next other =>
    refine ⟨(booked.jobs id row found).other fun line member named => other ?_,
      booked.retyped persists found rfl⟩
    rw [(fresh line member).2] at named
    exact (Table.find_key found).symm.trans (Option.some.inj named).symm

/-- A job without rows is booked by its admission hold. -/
theorem JobBooked.created {ledger : List LedgerEntry} (config : BrokerConfig) {job : Job}
    (absent : ∀ row ∈ ledger, row.jobId ≠ some job.jobId) (queued : job.state = .queued)
    (nonneg : 0 ≤ job.reserved) (unfinished : job.finishedAt = none)
    (unplaced : job.backendHandle = none) :
    JobBooked (ledger ++ admissionHold config job) job := by
  have unheld : sumWhere LedgerEntry.heldPart (ofJobIn job.jobId job.currency) ledger = 0 :=
    sumWhere_none fun row member => decide_eq_false fun both => absent row member both.1
  have unsettled : settled (ledger ++ admissionHold config job) job.jobId = 0 := by
    rw [settled, sumWhere_append, settled_hold, add_zero]
    exact sumWhere_none fun row member => decide_eq_false (absent row member)
  constructor
  · intro _
    rw [sumWhere_append, unheld, holding_hold config job nonneg, unsettled]
    simp
  · rw [queued]
    exact fun terminal => nomatch terminal
  · exact fun _ => unsettled.trans_le nonneg
  · exact fun _ => unsettled
  · exact fun _ => unfinished
  · exact fun _ => unplaced
  · rw [queued]
    exact fun active => nomatch active
  · rw [queued]
    decide

/-- A refused job, which has no rows, is booked. -/
theorem JobBooked.refusal {ledger : List LedgerEntry} {job : Job}
    (absent : ∀ row ∈ ledger, row.jobId ≠ some job.jobId) (refused : job.state = .refused)
    (unplaced : job.backendHandle = none) : JobBooked ledger job := by
  have unheld : sumWhere LedgerEntry.heldPart (ofJobIn job.jobId job.currency) ledger = 0 :=
    sumWhere_none fun row member => decide_eq_false fun both => absent row member both.1
  have unsettled : settled ledger job.jobId = 0 :=
    sumWhere_none fun row member => decide_eq_false (absent row member)
  constructor
  · rw [refused]
    exact fun live => nomatch live
  · exact fun _ => unheld
  · exact fun admitted => absurd refused admitted
  · exact fun _ => unsettled
  · rw [refused]
    exact fun live => nomatch live
  · exact fun _ => unplaced
  · rw [refused]
    exact fun active => nomatch active
  · rw [refused]
    decide

/-- A settlement within what is left moves as much from the hold to the spend. -/
theorem JobBooked.settle {ledger : List LedgerEntry} (config : BrokerConfig) {row job : Job}
    {amount : Cents} (now : Time) (booked : JobBooked ledger row) (id : row.jobId = job.jobId)
    (currency : row.currency = job.currency) (active : row.state.active = true)
    (within : settled ledger row.jobId + amount ≤ row.reserved) :
    JobBooked (ledger ++ settlement config job amount now) row := by
  have sum : settled (ledger ++ settlement config job amount now) row.jobId =
      settled ledger row.jobId + amount := by
    rw [settled, sumWhere_append, settled_settlement, if_pos id.symm, settled]
  have live := JobState.active_holdsBudget active
  constructor
  · intro _
    rw [sumWhere_append, holding_settlement, if_pos ⟨id.symm, currency.symm⟩, booked.held live, sum]
    ring
  · rw [live]
    exact fun terminal => nomatch terminal
  · exact fun _ => sum.trans_le within
  · intro refused
    rw [refused] at active
    cases active
  · exact booked.unfinished
  · exact booked.freed
  · exact booked.begun
  · exact booked.usual

/-- The record a move writes names capacity only while it is active. -/
theorem Moving.freed {world : World γ} {current : Job} {target : JobState} {change : Change}
    {now : Time} {outstanding : Option Cents}
    (moving : Moving world current target change now outstanding) (idle : target.active = false) :
    (current.movedTo target change now).backendHandle = none := by
  show (if change.clearHandle then none
    else (truthy change.backendHandle).or current.backendHandle) = none
  rw [moving.clears]
  cases target with
  | queued =>
      -- back in line from `PREEMPTED`, where the record names no capacity any more
      have from_ : current.state.active = false := by
        have legal := moving.legal
        revert legal
        cases current.state <;> decide
      have none : change.backendHandle = none := by
        have places := moving.places
        rw [← Option.not_isSome_iff_eq_none, places]
        simp
      rw [none, moving.known.freed from_]
      rfl
  | checkpointing => exact absurd rfl moving.usual
  | allocating | running | resuming => cases idle
  | completed | failed | cancelled | refused | preempted | reclaimed => rfl

theorem Job.movedTo_begun (current : Job) (target : JobState) (change : Change) (now : Time)
    (active : target.active = true) :
    (current.movedTo target change now).startedAt.isSome = true := by
  show (if target.active && current.startedAt.isNone then some now
    else current.startedAt).isSome = true
  rw [active]
  cases started : current.startedAt <;> rfl

/-- A move between states that hold budget leaves a job's money alone. -/
theorem JobBooked.move {world : World γ} {current row : Job} {target : JobState} {change : Change}
    {now : Time} {outstanding : Option Cents} {ledger : List LedgerEntry}
    (booked : JobBooked ledger row)
    (moving : Moving world current target change now outstanding) (before : row.state.terminal = false)
    (after : target.terminal = false) (finished : current.finishedAt = none) :
    JobBooked ledger ((current.movedTo target change now).writtenOver row) := by
  have admitted : row.state ≠ .refused := by
    intro refused
    rw [refused] at before
    cases before
  constructor
  · exact fun _ => booked.held before
  · exact fun terminal => absurd (after.symm.trans terminal) (by decide)
  · exact fun _ => booked.within admitted
  · intro refused
    exact absurd ((congrArg JobState.terminal refused).symm.trans after) (by decide)
  · intro _
    show (if target.terminal then some now else current.finishedAt) = none
    rw [after, finished]
    rfl
  · exact moving.freed
  · exact Job.movedTo_begun current target change now
  · exact moving.usual

/-- The last move of a job releases all it holds. -/
theorem JobBooked.close {world : World γ} {current row : Job} {target : JobState} {change : Change}
    {now : Time} {outstanding : Option Cents} {ledger : List LedgerEntry} (config : BrokerConfig)
    (booked : JobBooked ledger row)
    (moving : Moving world current target change now outstanding) (id : row.jobId = current.jobId)
    (currency : row.currency = current.currency) (before : row.state.terminal = false)
    (terminal : target.terminal = true) {holding : Cents}
    (read : holding = sumWhere LedgerEntry.heldPart (ofJobIn current.jobId current.currency) ledger) :
    JobBooked
      (ledger ++ ledgerWrites config current (releaseRemainingHold current.currency holding []) now)
      ((current.movedTo target change now).writtenOver row) := by
  have live : row.state ≠ .refused := by
    intro refused
    rw [refused] at before
    cases before
  have held := booked.held before
  have within := booked.within live
  rw [id, currency] at held
  rw [id] at within
  have nonneg : 0 ≤ holding := by
    rw [read, held]
    exact sub_nonneg.mpr within
  have sum : settled (ledger ++
      ledgerWrites config current (releaseRemainingHold current.currency holding []) now) row.jobId =
        settled ledger row.jobId := by
    rw [settled, sumWhere_append, settled_release, add_zero, settled]
  constructor
  · exact fun still => absurd (terminal.symm.trans still) (by decide)
  · intro _
    show sumWhere LedgerEntry.heldPart (ofJobIn row.jobId row.currency) _ = 0
    rw [sumWhere_append, holding_release config current nonneg, if_pos ⟨id.symm, currency.symm⟩, id,
      currency, ← read]
    ring
  · intro _
    show settled _ row.jobId ≤ row.reserved
    rw [sum, id]
    exact within
  · exact fun refused => absurd refused (JobState.canTransition_spec moving.legal).2
  · exact fun still => absurd (terminal.symm.trans still) (by decide)
  · exact moving.freed
  · exact Job.movedTo_begun current target change now
  · exact moving.usual

/-- A row a transaction writes for a job of the table is in order. -/
theorem RowBooked.ofJob {next : World γ} {config : BrokerConfig} {job : Job} {kind : LedgerKind}
    {amount : Cents} {now : Time} (calendar : next.config.calendar = config.calendar)
    (known : ∃ row, next.db.jobs.find job.jobId = some row ∧ row.terms = job.terms)
    (positive : 0 < amount) (shown : next.Shown now) :
    RowBooked next (insertLedger config (some job.jobId) (some job.userId) job.currency kind
      (money amount) now none) where
  positive := by
    show 0 < quantize (money amount)
    rw [quantize_money]
    exact positive
  shown := shown
  period := by
    rw [calendar]
    rfl
  owned := by
    intro id named
    cases named
    obtain ⟨row, found, same⟩ := known
    exact ⟨row, found, fun _ =>
      ⟨congrArg some (congrArg Terms.userId same).symm, (congrArg Terms.currency same).symm⟩⟩

/-- Rewriting one job's row, with rows of the ledger that name it, keeps the books when that job is
booked afterwards. -/
theorem Booked.rewrite {world next : World γ} {id : JobId} {row : Job}
    {lines : List LedgerEntry} (set : Job → Job) (same : ∀ row, (set row).jobId = row.jobId)
    (kind : ∀ row, (set row).gpuType = row.gpuType) (booked : Booked world) (persists : Persists world next) (found : world.db.jobs.find id = some row)
    (jobs : next.db.jobs = world.db.jobs.modify id set same)
    (ledger : next.db.ledger = world.db.ledger ++ lines)
    (fresh : ∀ line ∈ lines, RowBooked next line ∧ line.jobId = some id)
    (mine : JobBooked (world.db.ledger ++ lines) (set row)) : Booked next := by
  refine booked.grow _ persists ledger (fun line member => (fresh line member).1) ?_
  intro other each stored
  rw [jobs, Table.find_modify_found found] at stored
  split at stored
  · cases stored
    exact ⟨mine, booked.retyped persists found (kind row)⟩
  · next differs =>
    refine ⟨(booked.jobs other each stored).other fun line member named => differs ?_,
      booked.retyped persists stored rfl⟩
    rw [(fresh line member).2] at named
    exact (Table.find_key stored).symm.trans (Option.some.inj named).symm

theorem Booked.create {world next : World γ} {job : Job} {read : Admission} (booked : Booked world)
    (fresh : Fresh world job read) (applied : (Write.create job read).apply world = .ok next) :
    Booked next := by
  have persists := Write.persists applied
  obtain ⟨db, written, rfl⟩ := Write.apply_eq applied
  obtain ⟨jobs, grown, same⟩ := Db.insertJob_eq written
  refine booked.insert written rfl persists (fun row member => ?_) fresh.typed fun absent =>
    JobBooked.created world.config absent fresh.queued fresh.nonneg fresh.unfinished fresh.unplaced
  unfold admissionHold at member
  split at member
  · next positive =>
    rw [List.mem_singleton.mp member]
    refine ⟨RowBooked.ofJob rfl ⟨job, ?_, rfl⟩ positive (persists.shown fresh.shown), rfl⟩
    rw [same]
    show jobs.find job.jobId = some job
    rw [Table.find_insert grown, if_pos rfl]
  · cases member

theorem Booked.settle {world next : World γ} {job : Job} {amount : Cents} {accrued now : Time}
    (booked : Booked world) (sound : Settling world job amount now)
    (unmoved : Unmoved world (.settle job amount accrued now))
    (applied : (Write.settle job amount accrued now).apply world = .ok next) : Booked next := by
  have persists := Write.persists applied
  obtain ⟨db, written, rfl⟩ := Write.apply_eq applied
  cases written
  obtain ⟨row, found, same⟩ := sound.known.row
  obtain ⟨again, hasRow, state⟩ := unmoved
  rw [found] at hasRow
  cases hasRow
  have id := Table.find_key found
  have reserved : row.reserved = job.reserved := congrArg Terms.reserved same
  have spent := settled_le_spend booked.positive job.jobId
  have left := sound.within
  refine booked.rewrite (Job.stamped now) (Job.stamped_id now) (fun _ => rfl) persists found rfl rfl
    (fun line member => ?_) ?_
  · have known := (persists.known sound.known).row
    have shown := persists.shown sound.shown
    rcases List.mem_cons.mp member with rfl | second
    · exact ⟨RowBooked.ofJob rfl known sound.positive shown, rfl⟩
    · rw [List.mem_singleton.mp second]
      exact ⟨RowBooked.ofJob rfl known sound.positive shown, rfl⟩
  · refine JobBooked.shared (JobBooked.settle world.config now (booked.jobs _ row found) id
      (congrArg Terms.currency same) (state ▸ sound.active) ?_) rfl rfl rfl rfl rfl rfl
    rw [id, reserved]
    linarith

theorem Booked.move {world next : World γ} {current : Job} {target : JobState} {change : Change}
    {now : Time} {outstanding : Option Cents} (booked : Booked world)
    (sound : Moving world current target change now outstanding)
    (unmoved : Unmoved world (.move current target change now outstanding))
    (applied : (Write.move current target change now outstanding).apply world = .ok next) :
    Booked next := by
  have persists := Write.persists applied
  obtain ⟨db, written, rfl⟩ := Write.apply_eq applied
  obtain ⟨row, found, state, rfl⟩ := Db.moveJob_eq written
  obtain ⟨again, hasRow, same⟩ := sound.known.row
  rw [found] at hasRow
  cases hasRow
  have id := Table.find_key found
  obtain ⟨live, admitted⟩ := JobState.canTransition_spec sound.legal
  have rowLive : row.state.terminal = false := state ▸ live
  have mine := booked.jobs _ row found
  have release := sound.release
  cases outstanding with
  | some holding =>
      have terminal : target.terminal = true := release.symm
      have unspent : Unspent world (.move current target change now (some holding)) := unmoved
      have read : holding =
          sumWhere LedgerEntry.heldPart (ofJobIn current.jobId current.currency) world.db.ledger :=
        (unspent row found state).trans
          (jobHolding_eq world.db current.jobId current.currency)
      have writes : change.writes current.currency (some holding) =
          releaseRemainingHold current.currency holding [] := by
        rw [Change.writes, sound.plain, List.nil_append]
      refine booked.rewrite (current.movedTo target change now).writtenOver (Job.writtenOver_id _)
        (fun _ => rfl) persists found rfl rfl (fun line member => ?_) ?_
      · rw [writes, ledgerWrites_release] at member
        split at member
        · next positive =>
          rw [List.mem_singleton.mp member]
          exact ⟨RowBooked.ofJob rfl (persists.known sound.known).row positive
            (persists.shown sound.shown), rfl⟩
        · cases member
      · rw [writes]
        exact mine.close world.config sound id (congrArg Terms.currency same) rowLive terminal read
  | none =>
      have after : target.terminal = false := release.symm
      have writes : change.writes current.currency none = [] := sound.plain
      refine booked.rewrite (current.movedTo target change now).writtenOver (Job.writtenOver_id _)
        (fun _ => rfl) persists found rfl rfl ?_ ?_
      · rw [writes]
        exact fun line member => nomatch member
      · rw [writes, show ledgerWrites world.config current [] now = [] from rfl, List.append_nil]
        exact mine.move sound rowLive after (sound.known.unfinished live)

theorem Booked.abandon {world next : World γ} {handle : String} {job : Option JobId}
    {user : Option UserId} {currency : Currency} {amount : Cents} {now : Time}
    (booked : Booked world) (sound : Sound world (.abandon handle job user currency amount now))
    (applied : (Write.abandon handle job user currency amount now).apply world = .ok next) :
    Booked next := by
  have persists := Write.persists applied
  obtain ⟨db, written, rfl⟩ := Write.apply_eq applied
  cases written
  obtain ⟨positive, shown, known⟩ := sound
  refine booked.grow _ persists rfl (fun line member => ?_) fun id each stored => ?_
  · rw [List.mem_singleton.mp member]
    refine ⟨?_, persists.shown shown, rfl, fun id named => ?_⟩
    · show 0 < quantize (money amount)
      rw [quantize_money]
      exact positive
    · obtain ⟨row, found⟩ := Option.isSome_iff_exists.mp (known id named)
      exact ⟨row, found, fun other => absurd rfl other⟩
  · -- abandoned capacity is neither held nor settled
    exact ⟨(booked.jobs id each stored).idle (by simp [insertLedger, LedgerEntry.heldPart])
      (by simp [insertLedger, LedgerEntry.settledPart]), booked.retyped persists stored rfl⟩

/-- A sound and unmoved transaction keeps the books in order. -/
theorem Booked.write {world next : World γ} {write : Write} (booked : Booked world)
    (sound : Sound world write) (unmoved : Unmoved world write)
    (applied : write.apply world = .ok next) : Booked next := by
  have persists := Write.persists applied
  cases write with
  | create job read => exact booked.create sound applied
  | settle job amount accrued now => exact booked.settle sound unmoved applied
  | move current target change now outstanding => exact booked.move sound unmoved applied
  | abandon handle job user currency amount now => exact booked.abandon sound applied
  | refuse job refusal =>
      obtain ⟨db, written, rfl⟩ := Write.apply_eq applied
      exact booked.insert written rfl persists (by simp) sound.1 fun absent => by
        rw [List.append_nil]
        exact JobBooked.refusal absent sound.2.1 sound.2.2.1
  | touch job columns now =>
      obtain ⟨db, written, rfl⟩ := Write.apply_eq applied
      have same := Db.touchJob_eq written
      refine booked.still persists (by rw [same]) fun id each stored => ?_
      rw [same] at stored
      replace stored := (Table.find_modify _ _ _ (columns.onRow_id now) _).symm.trans stored
      split at stored
      · obtain ⟨row, found, rfl⟩ := Option.map_eq_some_iff.mp stored
        have kind : (columns.onRow now row).gpuType = row.gpuType := by cases columns <;> rfl
        refine ⟨?_, booked.retyped persists found kind⟩
        cases columns <;> exact (booked.jobs id row found).shared rfl rfl rfl rfl rfl rfl
      · exact ⟨booked.jobs id each stored, booked.retyped persists stored rfl⟩
  | insertUser | updateUser | suspend | restore | sampled | notify | applyPrices =>
      obtain ⟨db, written, rfl⟩ := Write.apply_eq applied
      obtain ⟨jobs, ledger, _⟩ := Write.aside written trivial
      refine booked.still persists ledger fun id each stored => ?_
      have before : world.db.jobs.find id = some each := jobs ▸ stored
      exact ⟨booked.jobs id each before, booked.retyped persists before rfl⟩

/-- Books in order stay so while the clock runs and capacity changes. -/
theorem Booked.quiet {world next : World γ} (booked : Booked world) (same : next.db = world.db)
    (persists : Persists world next) : Booked next := by
  refine booked.still persists (congrArg Db.ledger same) fun id job found => ?_
  rw [same] at found
  exact ⟨booked.jobs id job found, booked.retyped persists found rfl⟩

end Worlds

end GpuBroker.Broker
