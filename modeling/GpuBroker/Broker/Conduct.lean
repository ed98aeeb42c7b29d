/-
This file is the contract the programs of the broker are run under, and the
rules for one access of each kind.

A setting says who else works on the database, what is assumed of the capacity
behind the backends, and which errors may be raised. Alone, a process finds
every record as it last read it; next to others it may count on less, and a
transaction computed from a record that has moved is the condition under which
the contract says nothing. What each transaction is computed from is part of the
contract either way: `Sound` of it always, `Exact` when the process is alone.
-/
import GpuBroker.Broker.Books
import GpuBroker.Broker.Operations

namespace GpuBroker.Broker

open Library

variable {γ : Type}

/-! ### What holds of a transaction of a process that is alone -/

/-- A record without the columns a caller's copy does not keep up: when the row was last written,
and where the job came from. -/
def Job.essence (job : Job) : Job := { job with updatedAt := 0, origin := "" }

/-- The record is the job's row as it stands. -/
def InStep (world : World γ) (job : Job) : Prop :=
  ∃ row, world.db.jobs.find job.jobId = some row ∧ row.essence = job.essence

/-- Records of one essence agree in every other column. -/
theorem essence_eq {β : Type} {row job : Job} (same : row.essence = job.essence) (column : Job → β)
    (blind : ∀ job, column job.essence = column job) : column row = column job := by
  rw [← blind row, same, blind]

/-- What the outstanding holds of active jobs come to. -/
def Db.activeHolds (db : Db) (currency : Currency) : Cents :=
  db.jobs.total fun job =>
    if job.state.active ∧ job.currency = currency then db.jobHolding job.jobId currency else 0

/-- The pool has so much room for a currency, at a reading of the clock after which nothing was
written to the ledger. -/
def Room (world : World γ) (currency : Currency) (amount : Decimal) : Prop :=
  ∃ reading < world.asked,
    (∀ row ∈ world.db.ledger, ∃ earlier < reading, row.writtenAt = world.clock earlier) ∧
    money (world.db.poolSpent currency (world.config.calendar.period (world.clock reading)) +
      world.db.activeHolds currency) + amount ≤ world.config.poolBudget currency

/-- What admission had read is what there is, in the month of a moment. -/
def ReadAt (world : World γ) (job : Job) (read : Admission) (moment : Time) : Prop :=
  ∃ user, world.db.users.find job.userId = some user ∧
    read.queued = world.db.queuedCount job.userId ∧
    read.balance =
      let account := world.db.accountOf job.userId job.currency
        (world.config.calendar.period moment)
      { budget := user.budget job.currency, held := account.1, spent := account.2 }

/-- The amount accrued by a moment: the price of the time run, rounded and capped by the
reservation, less what was already charged. -/
def Accrual (world : World γ) (job : Job) (moment : Time) (amount : Cents) : Prop :=
  ∃ gpu, world.config.gpu job.gpuType = .ok gpu ∧
    amount = max 0
      (min (quantize (gpu.hourlyPrice * job.elapsedHours world.config.calendar moment)) job.reserved -
        world.db.jobSpend job.jobId)

/-- The rounded price of the time run has reached the reservation. -/
def Reached (world : World γ) (job : Job) : Prop :=
  ∃ gpu, world.config.gpu job.gpuType = .ok gpu ∧ ∃ moment, world.Shown moment ∧
    atCeiling world.config gpu job moment = true

/-- The kinds of calls a backend answers. -/
inductive Call where
  | launched (backend handle : String)
  | terminated (backend handle : String)
  | other
  deriving DecidableEq

/-- What is assumed of the capacity behind the backends: what a call may change, which lines an
allocation answers from an index on, and which handles a launch hands out. -/
structure Outside (γ : Type) where
  calls : Call → γ → γ → Prop
  fetched : γ → String → String → Nat → List Line → Prop
  handles : String → Prop
  idle : ∀ cloud, calls .other cloud cloud

/-- The lines stored for a job are what its log has room for of what its allocation answered. -/
def Drained (outside : Outside γ) (world : World γ) (job : JobId) (after : Nat)
    (polled kept : List Line) : Prop :=
  polled ≠ [] ∧ kept = withinLogBudget world.config (world.db.logCount job) polled ∧
    ∃ current handle, current.jobId = job ∧ InStep world current ∧ current.state.active = true ∧
      current.logsFetched = after ∧ current.backendHandle = some handle ∧
        outside.fetched world.cloud (current.backend.getD "") handle after polled

/-- What is true of a transaction when nobody else works on the database. -/
def Exact (outside : Outside γ) (world : World γ) : Write → Prop
  | .create job read => job.submittedAt = world.last ∧
      ∃ reading < world.asked, ReadAt world job read (world.clock reading)
  | .move current target change now outstanding =>
      InStep world current ∧ now = world.last ∧
        (∀ holding ∈ outstanding, holding = world.db.jobHolding current.jobId current.currency) ∧
        (current.state = .queued → target = .allocating →
          Room world current.currency (money current.reserved)) ∧
        (∀ reserved elapsed, change.reason = .ceiling reserved elapsed →
          current.state.active = true ∧ Reached world current)
  | .settle job amount accrued now =>
      InStep world job ∧ now = world.last ∧ world.Shown accrued ∧ Accrual world job accrued amount
  | .touch job (.output after polled kept) _ => Drained outside world job after polled kept
  | _ => True

theorem Exact.unmoved {outside : Outside γ} {world : World γ} {write : Write}
    (exactly : Exact outside world write) : Unmoved world write := by
  cases write with
  | settle job amount accrued now =>
      obtain ⟨⟨row, found, same⟩, _⟩ := exactly
      exact ⟨row, found, essence_eq same Job.state fun _ => rfl⟩
  | move current target change now outstanding =>
      cases outstanding with
      | none => trivial
      | some holding => exact fun _ _ _ => exactly.2.2.1 holding rfl
  | _ => trivial

/-! ### The contract -/

/-- What a reading of the clock or a call of a backend changes. -/
structure Quiet (world next : World γ) : Prop where
  db : next.db = world.db
  config : next.config = world.config
  clock : next.clock = world.clock
  asked : world.asked ≤ next.asked

theorem Quiet.refl (world : World γ) : Quiet world world := ⟨rfl, rfl, rfl, le_rfl⟩

theorem Quiet.trans {one two three : World γ} (first : Quiet one two) (second : Quiet two three) :
    Quiet one three :=
  ⟨second.db.trans first.db, second.config.trans first.config, second.clock.trans first.clock,
    first.asked.trans second.asked⟩

theorem Quiet.persists {world next : World γ} (quiet : Quiet world next) : Persists world next := by
  refine ⟨fun id job found => ⟨job, ?_, rfl⟩, by rw [quiet.config], quiet.clock, quiet.asked⟩
  rw [quiet.db]
  exact found

/-- What a transaction leaves: its effect, or nothing when it is rolled back. -/
def Write.leaves (write : Write) (world : World γ) : World γ :=
  match write.apply world with
  | .ok next => next
  | .error _ => world

theorem Write.leaves_ok {write : Write} {world next : World γ}
    (applied : write.apply world = .ok next) : write.leaves world = next := by
  rw [Write.leaves, applied]

theorem Write.leaves_error {write : Write} {world : World γ} {error : BrokerError}
    (applied : write.apply world = .error error) : write.leaves world = world := by
  rw [Write.leaves, applied]

theorem apply_cloud {world next : World γ} {write : Write} (applied : write.apply world = .ok next) :
    next.cloud = world.cloud := by
  obtain ⟨db, _, rfl⟩ := Write.apply_eq applied
  rfl

/-- A move names only handles a launch handed out. -/
def Named (outside : Outside γ) : Write → Prop
  | .move _ _ change _ _ => ∀ handle ∈ change.backendHandle, outside.handles handle
  | _ => True

/-- Who else works on the database, what is assumed of the backends, and which transactions, calls
and errors the programs in question make. In a calm setting nobody else changes what a job that goes
on holds. -/
structure Setting (γ : Type) where
  outside : Outside γ
  alone : Prop
  calm : Prop
  others : World γ → World γ → Prop
  makes : Write → World γ → Prop
  issues : Call → Prop
  allows : Write → World γ → Prop
  raises : BrokerError → Prop
  refl : ∀ world, others world world
  trans : ∀ {one two three}, others one two → others two three → others one three
  persists : ∀ {world next}, others world next → Persists world next
  still : ∀ {world next}, alone → others world next → next = world
  rests : issues .other
  lasts : ∀ {write world next}, makes write world →
    others world next ∨ Quiet world next ∧ outside.calls .other world.cloud next.cloud →
    makes write next
  unspent : ∀ {world next}, calm → others world next → ∀ id row, world.db.jobs.find id ≠ none →
    next.db.jobs.find id = some row → row.state.terminal = false →
      ∀ currency, next.db.jobHolding id currency = world.db.jobHolding id currency
  unmoved : ∀ {write world}, allows write world → makes write world →
    (alone → Exact outside world write) → (calm → Unspent world write) → Unmoved world write
  fails : ∀ {write world error}, Booked world → allows write world → makes write world →
    Sound world write → (alone → Exact outside world write) → write.apply world = .error error →
    raises error

/-- What a program owes for each of its transactions. -/
structure Setting.Owes (setting : Setting γ) (world : World γ) (write : Write) : Prop where
  makes : setting.makes write world
  sound : Sound world write
  named : Named setting.outside write
  exactly : setting.alone → Exact setting.outside world write
  unspent : setting.calm → Unspent world write

theorem Setting.Owes.unmoved {setting : Setting γ} {world : World γ} {write : Write}
    (owes : setting.Owes world write) (allowed : setting.allows write world) :
    Unmoved world write :=
  setting.unmoved allowed owes.makes owes.exactly owes.unspent

/-- The contract of a setting. -/
def Setting.contract (setting : Setting γ) : Contract (World γ) Write BrokerError where
  rely := setting.others
  guarantee := fun label world next =>
    match label with
    | none => Quiet world next ∧
        ∃ call, setting.issues call ∧ setting.outside.calls call world.cloud next.cloud
    | some write => setting.Owes world write ∧ Unmoved world write ∧ next = write.leaves world
  invariant := Booked
  allowed := setting.allows
  raises := setting.raises
  refl := setting.refl
  trans := setting.trans

/-- A program is safe in a setting. -/
abbrev Setting.Safe {α : Type} (setting : Setting γ) (program : Op γ α)
    (post : α → World γ → Prop) (world : World γ) : Prop :=
  program.Safe setting.contract post world

/-! ### What is assumed of a site -/

/-- What is assumed of the calls that stop a machine. -/
structure Setting.Ends (setting : Setting γ) (backend : Backend γ) : Prop where
  terminate : ∀ handle reason cloud, setting.issues (.terminated backend.name handle) ∧
    setting.outside.calls (.terminated backend.name handle) cloud
      (backend.terminate handle reason cloud).2
  stuck : ∀ handle reason cloud detail, (backend.terminate handle reason cloud).1 = .error detail →
    setting.raises (.backend detail)

/-- What is assumed of the calls that start machines. -/
structure Setting.Starts (setting : Setting γ) (backend : Backend γ) : Prop where
  freeSlots : ∀ gpuType cloud,
    setting.outside.calls .other cloud (backend.freeSlots gpuType cloud).2
  full : ∀ gpuType cloud detail, (backend.freeSlots gpuType cloud).1 = .error detail →
    setting.raises (.backend detail)
  refused : ∀ job cloud detail, (backend.launch job cloud).1 = .error detail →
    setting.outside.calls .other cloud (backend.launch job cloud).2
  launched : ∀ job cloud allocation, (backend.launch job cloud).1 = .ok allocation →
    setting.issues (.launched backend.name allocation.handle) ∧
      setting.outside.calls (.launched backend.name allocation.handle) cloud
        (backend.launch job cloud).2 ∧
      setting.outside.handles allocation.handle

/-- What is assumed of the calls that look at a machine that is up. -/
structure Setting.Watches (setting : Setting γ) (backend : Backend γ) : Prop where
  start : ∀ handle job cloud, setting.outside.calls .other cloud (backend.start handle job cloud).2
  poll : ∀ handle cloud, setting.outside.calls .other cloud (backend.poll handle cloud).2
  blind : ∀ handle cloud detail, (backend.poll handle cloud).1 = .error detail →
    setting.raises (.backend detail)
  fetchLogs : ∀ handle after cloud,
    setting.outside.calls .other cloud (backend.fetchLogs handle after cloud).2
  answers : ∀ handle after cloud lines, (backend.fetchLogs handle after cloud).1 = .ok lines →
    setting.outside.fetched (backend.fetchLogs handle after cloud).2 backend.name handle after lines
  sampled : ∀ handle cloud,
    setting.outside.calls .other cloud (backend.sampleUtilization handle cloud).2

/-- Looking up the kind of capacity of a job raises nothing. -/
theorem Typed.raises {setting : Setting γ} {config : BrokerConfig} {name : String}
    (typed : Typed config name) :
    ∀ error, config.gpu name = .error error → setting.raises error := by
  intro error missing
  obtain ⟨gpu, found⟩ := typed
  rw [found] at missing
  cases missing

/-- What is assumed of a site. -/
structure Setting.Runs (setting : Setting γ) (site : Site γ) : Prop where
  ends : ∀ backend ∈ site.backends, setting.Ends backend
  starts : ∀ backend ∈ site.backends, setting.Starts backend
  watches : ∀ backend ∈ site.backends, setting.Watches backend
  latest : ∀ latest ∈ site.latest, ∀ job cloud,
    setting.outside.calls .other cloud (latest job cloud).2

/-- The backend a site finds by a name is one of its own, of that name. -/
theorem Site.backend_mem {site : Site γ} {name : String} {backend : Backend γ}
    (found : site.backend name = some backend) :
    backend ∈ site.backends ∧ backend.name = name :=
  ⟨List.mem_of_find?_eq_some found, by simpa using List.find?_some found⟩

/-! ### Rules for one access -/

variable {α β : Type} {setting : Setting γ} {post : β → World γ → Prop} {world : World γ}

/-- The world after a reading of the clock. -/
def World.ticked (world : World γ) : World γ := { world with asked := world.asked + 1 }

theorem World.ticked_quiet (world : World γ) : Quiet world world.ticked :=
  ⟨rfl, rfl, rfl, Nat.le_succ _⟩

theorem World.ticked_last (world : World γ) : world.ticked.last = world.clock world.asked := rfl

theorem World.ticked_shown (world : World γ) : world.ticked.Shown (world.clock world.asked) :=
  ⟨world.asked, Nat.lt_succ_self _, rfl⟩

/-- The world after a call of a backend. -/
def World.called (world : World γ) (cloud : γ) : World γ := { world with cloud }

theorem World.called_quiet (world : World γ) (cloud : γ) : Quiet world (world.called cloud) :=
  ⟨rfl, rfl, rfl, le_rfl⟩

theorem safe_now {rest : Time → Op γ β}
    (resume : ∀ current, setting.others world current → Booked current →
      setting.Safe (rest (current.clock current.asked)) post current.ticked) :
    setting.Safe (now >>= rest) post world := by
  intro current moved booked _
  exact ⟨booked.quiet rfl current.ticked_quiet.persists,
    ⟨current.ticked_quiet, .other, setting.rests, setting.outside.idle _⟩,
    resume current moved booked⟩

theorem safe_read {view : World γ → α} {rest : α → Op γ β}
    (resume : ∀ current, setting.others world current → Booked current →
      setting.Safe (rest (view current)) post current) :
    setting.Safe (Program.read view >>= rest) post world := by
  intro current moved booked _
  exact ⟨booked, ⟨Quiet.refl current, .other, setting.rests, setting.outside.idle _⟩,
    resume current moved booked⟩

theorem safe_query {view : Db → α} {rest : α → Op γ β}
    (resume : ∀ current, setting.others world current → Booked current →
      setting.Safe (rest (view current.db)) post current) :
    setting.Safe (query view >>= rest) post world :=
  safe_read resume

theorem safe_settings {rest : BrokerConfig → Op γ β}
    (resume : ∀ current, setting.others world current → Booked current →
      setting.Safe (rest current.config) post current) :
    setting.Safe (settings >>= rest) post world :=
  safe_read resume

/-- The rule of a call of a backend. -/
theorem safe_external {call : γ → α × γ} {rest : α → Op γ β}
    (serves : ∀ cloud, ∃ kind, setting.issues kind ∧
      setting.outside.calls kind cloud (call cloud).2)
    (resume : ∀ current, setting.others world current → Booked current →
      setting.Safe (rest (call current.cloud).1) post (current.called (call current.cloud).2)) :
    setting.Safe (external call >>= rest) post world := by
  intro current moved booked _
  exact ⟨booked.quiet rfl (current.called_quiet _).persists,
    ⟨current.called_quiet _, serves current.cloud⟩, resume current moved booked⟩

theorem safe_orRaise {value : Except BrokerError α} {rest : α → Op γ β}
    (raises : ∀ error, value = .error error → setting.raises error)
    (resume : ∀ found, value = .ok found → setting.Safe (rest found) post world) :
    setting.Safe (orRaise value >>= rest) post world := by
  cases value with
  | error error => exact Program.Safe.fail (raises error rfl)
  | ok found => exact resume found rfl

theorem externally_bind (call : γ → Except String α × γ) (rest : α → Op γ β) :
    (externally call >>= rest : Op γ β) =
      external call >>= fun answer => match answer with
        | .ok value => rest value
        | .error detail => .fail (.backend detail) := by
  show Program.access none _ _ = Program.access none _ _
  congr 1
  funext answer
  cases answer <;> rfl

/-- The rule of a call whose error nothing catches. -/
theorem safe_externally {call : γ → Except String α × γ} {rest : α → Op γ β}
    (serves : ∀ cloud, ∃ kind, setting.issues kind ∧
      setting.outside.calls kind cloud (call cloud).2)
    (raises : ∀ cloud detail, (call cloud).1 = .error detail → setting.raises (.backend detail))
    (resume : ∀ current value, setting.others world current → Booked current →
      (call current.cloud).1 = .ok value →
      setting.Safe (rest value) post (current.called (call current.cloud).2)) :
    setting.Safe (externally call >>= rest) post world := by
  rw [externally_bind]
  refine safe_external serves fun current moved booked => ?_
  split
  · next value answer => exact resume current value moved booked answer
  · next detail answer => exact Program.Safe.fail (raises current.cloud detail answer)

/-- What is left of a safe program after a call it started with. -/
theorem safe_called {call : γ → α × γ} {rest : α → Op γ β} (booked : Booked world)
    (safe : setting.Safe (external call >>= rest) post world) :
    setting.Safe (rest (call world.cloud).1) post (world.called (call world.cloud).2) := by
  have unfolded : (external call >>= rest : Op γ β) =
      .access none (fun world => ((call world.cloud).1, world.called (call world.cloud).2)) rest := rfl
  rw [unfolded] at safe
  have step := safe world (setting.refl world) booked fun _ none => by cases none
  exact step.2.2

/-- The rule of a transaction that ends a program: what it is computed from, and what it leaves. -/
theorem safe_executing {write : Write} {value : β}
    (facts : ∀ current, setting.others world current → Booked current →
      setting.Owes current write)
    (leaves : ∀ current next final, setting.others world current → Booked current →
      setting.allows write current → write.apply current = .ok next → Booked next →
      setting.others next final → Booked final → post value final) :
    setting.Safe (executing write value) post world := by
  refine Program.Safe.commit ?_ ?_
  · intro current next moved booked allowed applied
    have owed := facts current moved booked
    have unmoved := owed.unmoved allowed
    have kept := booked.write owed.sound unmoved applied
    exact ⟨kept, ⟨owed, unmoved, (Write.leaves_ok applied).symm⟩, fun final later keptFinal =>
      leaves current next final moved booked allowed applied kept later keptFinal⟩
  · intro current error moved booked allowed applied
    have owed := facts current moved booked
    exact ⟨⟨owed, owed.unmoved allowed, (Write.leaves_error applied).symm⟩,
      setting.fails booked allowed owed.makes owed.sound owed.exactly applied⟩

/-! ### Programs run to their end -/

theorem whole_now {rest : Time → Op γ α} :
    (now >>= rest).whole world = (rest (world.clock world.asked)).whole world.ticked := rfl

theorem whole_settings {rest : BrokerConfig → Op γ α} :
    (settings >>= rest).whole world = (rest world.config).whole world := rfl

theorem whole_query {β : Type} {view : Db → β} {rest : β → Op γ α} :
    (query view >>= rest).whole world = (rest (view world.db)).whole world := rfl

theorem whole_external {β : Type} {call : γ → β × γ} {rest : β → Op γ α} :
    (external call >>= rest).whole world =
      (rest (call world.cloud).1).whole (world.called (call world.cloud).2) := rfl

theorem whole_executing (write : Write) (value : α) (world : World γ) :
    (executing write value).whole world =
      match write.apply world with
      | .ok next => (.ok value, next)
      | .error error => (.error error, world) := by
  unfold executing execute
  rw [Program.whole_bind, Program.whole_commit]
  cases write.apply world <;> rfl

/-- A transaction that is the last access of a program has committed, when the program has a result. -/
theorem committed_of_whole {write : Write} {value result : α} {world next : World γ}
    (ran : (executing write value).whole world = (.ok result, next)) :
    result = value ∧ write.apply world = .ok next := by
  rw [whole_executing] at ran
  cases applied : write.apply world with
  | ok after =>
      rw [applied] at ran
      cases ran
      exact ⟨rfl, rfl⟩
  | error error =>
      rw [applied] at ran
      cases ran

theorem ok_of_toOption {ε : Type} {answer : Except ε α} {value : α} (came : value ∈ answer.toOption) :
    answer = .ok value := by
  cases answer with
  | error error => cases came
  | ok other =>
      cases came
      rfl

end GpuBroker.Broker
