/-
This file is a broker with several providers, each of which answers from
capacity of its own and remembers what it was asked, and the world without the
jobs of one of them.

A look at a job of another provider runs in that world as it runs in the world
with those jobs; a look at one of those jobs changes nothing in it but how much
time has passed.
-/
import GpuBroker.Broker.Looks
import GpuBroker.Broker.Rows
import GpuBroker.Library.Course
import GpuBroker.Library.Veil

namespace GpuBroker.Broker

open Library

variable {σ γ α : Type}

/-! ### Providers -/

/-- What a provider is asked. -/
inductive Ask where
  | freeSlots (gpuType : String)
  | launch (job : JobId)
  | start (handle : String)
  | poll (handle : String)
  | fetchLogs (handle : String) (after : Nat)
  | sampleUtilization (handle : String)
  | terminate (handle reason : String)
  deriving DecidableEq

/-- What looks at the machine of a handle, or stops it. -/
def Ask.about (handle : String) : Ask → Bool
  | .poll other => other = handle
  | .terminate other _ => other = handle
  | _ => false

/-- A provider: its capacity, and what it was asked so far. -/
structure Provider (σ : Type) where
  capacity : σ
  heard : List Ask

/-- The providers by name, and what the jobs have saved. -/
structure Providers (σ : Type) where
  provider : String → Provider σ
  saved : JobId → σ

namespace Providers

/-- A call of a provider. -/
def ask (name : String) (ask : Ask) (call : σ → α × σ) (providers : Providers σ) : α × Providers σ :=
  let provider := providers.provider name
  let answer := call provider.capacity
  (answer.1, { providers with
    provider := Function.update providers.provider name ⟨answer.2, provider.heard ++ [ask]⟩ })

/-- A look at what a job has saved. -/
def consult (id : JobId) (call : σ → α × σ) (providers : Providers σ) : α × Providers σ :=
  let answer := call (providers.saved id)
  (answer.1, { providers with saved := Function.update providers.saved id answer.2 })

/-- How often a provider was asked about the machine of a handle. -/
def asked (name handle : String) (providers : Providers σ) : Nat :=
  ((providers.provider name).heard.filter (Ask.about handle)).length

theorem asked_ask (name handle other : String) (about : Ask) (call : σ → α × σ)
    (providers : Providers σ) :
    (providers.ask other about call).2.asked name handle =
      providers.asked name handle + if name = other ∧ about.about handle then 1 else 0 := by
  unfold asked ask
  dsimp only
  by_cases here : name = other
  · subst here
    rw [Function.update_self, List.filter_append, List.length_append]
    cases mine : about.about handle <;> simp [mine]
  · rw [Function.update_of_ne here, if_neg fun both => here both.1]
    rfl

end Providers

/-- A backend whose calls are those of the provider of its name. -/
def Backend.provided (backend : Backend σ) : Backend (Providers σ) where
  name := backend.name
  currency := backend.currency
  tier := backend.tier
  supports := backend.supports
  freeSlots := fun gpuType => Providers.ask backend.name (.freeSlots gpuType) (backend.freeSlots gpuType)
  launch := fun job => Providers.ask backend.name (.launch job.jobId) (backend.launch job)
  start := fun handle job => Providers.ask backend.name (.start handle) (backend.start handle job)
  poll := fun handle => Providers.ask backend.name (.poll handle) (backend.poll handle)
  fetchLogs := fun handle after =>
    Providers.ask backend.name (.fetchLogs handle after) (backend.fetchLogs handle after)
  sampleUtilization := fun handle =>
    Providers.ask backend.name (.sampleUtilization handle) (backend.sampleUtilization handle)
  terminate := fun handle reason =>
    Providers.ask backend.name (.terminate handle reason) (backend.terminate handle reason)

/-- What a broker with several providers is set up with. -/
structure Brokerage (σ : Type) where
  backends : List (Backend σ)
  latest : Option (JobId → σ → Except String (Option (Int × String)) × σ)
  score : Db → Time → Job → ℚ
  evidence : List Sample → String
  text : Refusal → String
  named : ∀ backend ∈ backends, backend.name ≠ ""

namespace Brokerage

/-- The site of the broker. -/
def site (brokerage : Brokerage σ) : Site (Providers σ) where
  backends := brokerage.backends.map Backend.provided
  latest := brokerage.latest.map fun latest job => Providers.consult job (latest job)
  score := brokerage.score
  evidence := brokerage.evidence

/-- The desk of the broker. -/
def desk (brokerage : Brokerage σ) : Desk (Providers σ) := ⟨brokerage.site, brokerage.text⟩

theorem backend_provided {brokerage : Brokerage σ} {name : String} {backend : Backend (Providers σ)}
    (found : brokerage.site.backend name = some backend) :
    ∃ other ∈ brokerage.backends, other.name = name ∧ backend = other.provided := by
  obtain ⟨member, named⟩ := Site.backend_mem found
  obtain ⟨other, known, rfl⟩ := List.mem_map.mp member
  exact ⟨other, known, named, rfl⟩

end Brokerage

/-! ### A database without some jobs -/

/-- The database without some jobs and the rows about them. -/
def Db.without (gone : JobId → Bool) (db : Db) : Db where
  users := db.users
  jobs := db.jobs.erase fun row => gone row.jobId
  transitions := db.transitions.filter fun row => !gone row.jobId
  ledger := db.ledger.filter fun row => !row.jobId.any gone
  logs := db.logs.filter fun row => !gone row.jobId
  samples := db.samples.filter fun row => !gone row.jobId
  notifications := db.notifications.filter fun row => !row.jobId.any gone

variable {gone : JobId → Bool} {id : JobId}

theorem Db.find_without (db : Db) (shown : gone id = false) :
    (db.without gone).jobs.find id = db.jobs.find id := by
  unfold Db.without
  rw [Table.find_erase]
  cases found : db.jobs.find id with
  | none => rfl
  | some row =>
      have mine : row.jobId = id := Table.find_key found
      rw [Option.filter_some, if_pos (by rw [mine, shown]; rfl)]

/-- A filter that asks for more finds the same behind one that asks for less. -/
theorem filter_behind {Row : Type} {which keep : Row → Bool} (rows : List Row)
    (implied : ∀ row, which row = true → keep row = true) :
    (rows.filter keep).filter which = rows.filter which := by
  rw [List.filter_filter]
  refine List.filter_congr fun row _ => ?_
  cases asked : which row with
  | false => rfl
  | true => rw [implied row asked]; rfl

/-- What is asked about a job that is shown is answered alike without the others. -/
structure Answers (gone : JobId → Bool) (id : JobId) (db : Db) : Prop where
  jobSpend : (db.without gone).jobSpend id = db.jobSpend id
  jobHolding : ∀ currency, (db.without gone).jobHolding id currency = db.jobHolding id currency
  logCount : (db.without gone).logCount id = db.logCount id
  lastSampleAt : (db.without gone).lastSampleAt id = db.lastSampleAt id
  samplesFor : ∀ since limit, (db.without gone).samplesFor id since limit = db.samplesFor id since limit
  lastNotified : ∀ kind, (db.without gone).lastNotified id kind = db.lastNotified id kind

theorem answers_without (shown : gone id = false) (db : Db) : Answers gone id db := by
  have row : ∀ other : JobId, other = id → (!gone other) = true := by
    rintro other rfl
    rw [shown]
    rfl
  have entry : ∀ other : Option JobId, other = some id → (!other.any gone) = true := by
    rintro other rfl
    exact row id rfl
  refine ⟨?_, fun currency => ?_, ?_, ?_, fun since limit => ?_, fun kind => ?_⟩
  · exact congrArg (fun rows => (aggregate rows).2) (filter_behind db.ledger fun line asked =>
      entry line.jobId (of_decide_eq_true asked))
  · exact congrArg (fun rows => (aggregate rows).1) (filter_behind db.ledger fun line asked =>
      entry line.jobId (of_decide_eq_true asked).1)
  · exact congrArg List.length (filter_behind db.logs fun line asked =>
      row line.jobId (of_decide_eq_true asked))
  · exact congrArg (fun rows : List Sample => (rows.map Sample.takenAt).max?)
      (filter_behind db.samples fun line asked => row line.jobId (of_decide_eq_true asked))
  · exact congrArg (fun rows : List Sample => rows.rtake limit)
      (filter_behind db.samples fun line asked => row line.jobId (of_decide_eq_true asked).1)
  · exact congrArg (fun rows : List Notification => (rows.map Notification.writtenAt).getLast?)
      (filter_behind db.notifications fun line asked => entry line.jobId (of_decide_eq_true asked).1)

/-! ### What a transaction about a job adds -/

/-- What a transaction about a job makes of its row, and the rows it adds. -/
structure Growth where
  set : Job → Job
  same : ∀ row, (set row).jobId = row.jobId
  transitions : List Transition := []
  ledger : List LedgerEntry := []
  logs : List LogRow := []
  samples : List Sample := []
  notifications : List Notification := []

/-- The database after a transaction about a job. -/
def Db.grown (id : JobId) (growth : Growth) (db : Db) : Db where
  users := db.users
  jobs := db.jobs.modify id growth.set growth.same
  transitions := db.transitions ++ growth.transitions
  ledger := db.ledger ++ growth.ledger
  logs := db.logs ++ growth.logs
  samples := db.samples ++ growth.samples
  notifications := db.notifications ++ growth.notifications

/-- No row is added. -/
theorem unadded {Row : Type} {holds : Row → Prop} : ∀ row ∈ ([] : List Row), holds row :=
  fun _ member => (List.not_mem_nil member).elim

/-- Every row that is added names the job. -/
structure Growth.About (id : JobId) (growth : Growth) : Prop where
  transitions : ∀ row ∈ growth.transitions, row.jobId = id
  ledger : ∀ row ∈ growth.ledger, row.jobId = some id
  logs : ∀ row ∈ growth.logs, row.jobId = id
  samples : ∀ row ∈ growth.samples, row.jobId = id
  notifications : ∀ row ∈ growth.notifications, row.jobId = some id

theorem rows_ext {Row Key : Type} {key : Row → Key} {one other : Table Row key}
    (same : one.rows = other.rows) : one = other := by
  cases one
  cases other
  cases same
  rfl

/-- Rows that go by their key go before they are rewritten or after. -/
theorem erase_modify {Row Key : Type} {key : Row → Key} [DecidableEq Key] (table : Table Row key)
    (out : Key → Bool) (id : Key) (set : Row → Row) (same : ∀ row, key (set row) = key row) :
    ((table.modify id set same).erase fun row => out (key row)) =
      (table.erase fun row => out (key row)).modify id set same := by
  refine rows_ext ?_
  show (table.rows.map _).filter _ = (table.rows.filter _).map _
  rw [List.filter_map]
  refine congrArg _ (List.filter_congr fun row _ => ?_)
  show (!out (key (if _ then set row else row))) = !out (key row)
  split
  · rw [same]
  · rfl

theorem filter_grown {Row : Type} {keep : Row → Bool} (rows more : List Row) {all : Bool}
    (each : ∀ row ∈ more, keep row = all) :
    (rows ++ more).filter keep = rows.filter keep ++ if all then more else [] := by
  rw [List.filter_append]
  refine congrArg _ ?_
  cases all with
  | true => exact List.filter_eq_self.mpr each
  | false =>
      refine List.filter_eq_nil_iff.mpr fun row member => ?_
      rw [each row member]
      exact Bool.false_ne_true

/-- A transaction about a job that is shown adds the same without the others. -/
theorem Db.without_grown {growth : Growth} (about : growth.About id) (shown : gone id = false) (db : Db) :
    (db.grown id growth).without gone = (db.without gone).grown id growth := by
  have row : ∀ other : JobId, other = id → (!gone other) = true := by
    rintro other rfl
    rw [shown]
    rfl
  have entry : ∀ other : Option JobId, other = some id → (!other.any gone) = true := by
    rintro other rfl
    exact row id rfl
  unfold Db.grown Db.without
  rw [erase_modify db.jobs gone id growth.set growth.same,
    filter_grown db.transitions _ fun line member => row _ (about.transitions line member),
    filter_grown db.ledger _ fun line member => entry _ (about.ledger line member),
    filter_grown db.logs _ fun line member => row _ (about.logs line member),
    filter_grown db.samples _ fun line member => row _ (about.samples line member),
    filter_grown db.notifications _ fun line member => entry _ (about.notifications line member)]
  rfl

/-- A transaction about a job that is gone adds nothing that is left. -/
theorem Db.without_grown_gone {growth : Growth} (about : growth.About id) (hidden : gone id = true)
    (db : Db) : (db.grown id growth).without gone = db.without gone := by
  have row : ∀ other : JobId, other = id → (!gone other) = false := by
    rintro other rfl
    rw [hidden]
    rfl
  have entry : ∀ other : Option JobId, other = some id → (!other.any gone) = false := by
    rintro other rfl
    exact row id rfl
  have jobs : (db.jobs.erase fun row => gone row.jobId).modify id growth.set growth.same =
      db.jobs.erase fun row => gone row.jobId := by
    refine Table.update_none _ _ _ _ fun other line found => decide_eq_false fun mine => ?_
    obtain ⟨_, there⟩ := List.mem_filter.mp (Table.find_mem found)
    simp [mine, hidden] at there
  unfold Db.grown Db.without
  rw [erase_modify db.jobs gone id growth.set growth.same, jobs,
    filter_grown db.transitions _ fun line member => row _ (about.transitions line member),
    filter_grown db.ledger _ fun line member => entry _ (about.ledger line member),
    filter_grown db.logs _ fun line member => row _ (about.logs line member),
    filter_grown db.samples _ fun line member => row _ (about.samples line member),
    filter_grown db.notifications _ fun line member => entry _ (about.notifications line member)]
  simp only [Bool.false_eq_true, if_false, List.append_nil]

/-- A transaction about a job: when it is rolled back, and what it adds otherwise. -/
structure Effect (config : BrokerConfig) (job : Job) (write : Write)
    (refuses : Db → Option BrokerError) (growth : Growth) : Prop where
  onDb : ∀ db, write.onDb config db =
    match refuses db with
    | some error => .error error
    | none => .ok (db.grown job.jobId growth)
  about : growth.About job.jobId
  ours : ∀ db error, refuses db = some error → error.ours
  sited : ∀ row, (growth.set row).backend = row.backend ∨ (growth.set row).backend = job.backend
  blind : ∀ gone db, gone job.jobId = false →
    (∀ row ∈ db.jobs.rows, gone row.jobId = true → row.backend.getD "" ≠ job.backend.getD "") →
      refuses (Db.without gone db) = refuses db

/-- Jobs that are on another backend are on no machine of a job's. -/
theorem handleTaken_without {db : Db} {updated : Job}
    (elsewhere : ∀ row ∈ db.jobs.rows, gone row.jobId = true →
      row.backend.getD "" ≠ updated.backend.getD "") :
    (db.without gone).handleTaken updated = db.handleTaken updated := by
  unfold Db.handleTaken
  refine congrArg (updated.backend.isSome && updated.backendHandle.isSome && ·) ?_
  show (db.jobs.rows.filter _).any _ = _
  rw [Bool.eq_iff_iff, List.any_eq_true, List.any_eq_true]
  constructor
  · rintro ⟨row, member, taken⟩
    exact ⟨row, List.mem_of_mem_filter member, taken⟩
  · rintro ⟨row, member, taken⟩
    refine ⟨row, List.mem_filter.mpr ⟨member, ?_⟩, taken⟩
    show (!gone row.jobId) = true
    cases hidden : gone row.jobId with
    | false => rfl
    | true =>
        have there : row.backend = updated.backend := by
          simp only [Bool.and_eq_true, decide_eq_true_eq] at taken
          exact taken.1.2
        exact (elsewhere row member hidden (by rw [there])).elim

/-- What rolls back a move. -/
def Db.refusesMove (current updated : Job) (db : Db) : Option BrokerError :=
  let illegal := BrokerError.illegalTransition current.jobId current.state updated.state
  match db.jobs.find current.jobId with
  | none => some illegal
  | some row =>
      if row.state ≠ current.state then some illegal
      else if db.handleTaken updated then some (.integrity "jobs")
      else none

variable {job : Job} {config : BrokerConfig}

theorem effect_move {current : Job} {target : JobState} {change : Change} {now : Time}
    {outstanding : Option Cents} (seat : current.seat = job.seat) (bare : change.backend = none) :
    Effect config job (.move current target change now outstanding)
      (Db.refusesMove current (current.movedTo target change now))
      { set := (current.movedTo target change now).writtenOver
        same := Job.writtenOver_id _
        transitions := [⟨current.jobId, some current.state, target, now, change.reason⟩]
        ledger := ledgerWrites config current (change.writes current.currency outstanding) now } := by
  have mine : current.jobId = job.jobId := congrArg Prod.fst seat
  have sited : (current.movedTo target change now).backend = job.backend := by
    unfold Job.movedTo
    rw [bare]
    exact congrArg Prod.snd seat
  refine ⟨fun db => ?_, ⟨?_, ?_, unadded, unadded, unadded⟩, fun db error refused => ?_,
    fun row => Or.inr sited, fun gone db shown elsewhere => ?_⟩
  · show db.moveJob _ _ _ _ = _
    unfold Db.moveJob Db.refusesMove Db.grown
    simp only [mine, List.append_nil]
    cases db.jobs.find job.jobId with
    | none => rfl
    | some row =>
        simp only
        split
        · rfl
        · split
          · rfl
          · rfl
  · intro row member
    rw [List.mem_singleton.mp member]
    exact mine
  · intro row member
    obtain ⟨write, _, rfl⟩ := List.mem_map.mp member
    exact congrArg some mine
  · unfold Db.refusesMove at refused
    simp only at refused
    split at refused
    · cases refused
      exact fun _ => nofun
    · split at refused
      · cases refused
        exact fun _ => nofun
      · split at refused
        · cases refused
          exact fun _ => nofun
        · cases refused
  · unfold Db.refusesMove
    rw [mine, Db.find_without db shown, handleTaken_without (sited ▸ elsewhere)]

theorem effect_settle {current : Job} {amount : Cents} {accrued now : Time}
    (mine : current.jobId = job.jobId) :
    Effect config job (.settle current amount accrued now) (fun _ => none)
      { set := Job.stamped now
        same := Job.stamped_id now
        ledger := settlement config current amount now } := by
  refine ⟨fun db => ?_, ⟨unadded, ?_, unadded, unadded, unadded⟩, fun _ _ => nofun, fun _ => Or.inl rfl,
    fun _ _ _ _ => rfl⟩
  · unfold Write.onDb Db.grown
    simp only [mine, List.append_nil]
  · intro row member
    rcases List.mem_cons.mp member with rfl | other
    · exact congrArg some mine
    · rw [List.mem_singleton.mp other]
      exact congrArg some mine

theorem effect_touch {columns : Touch} {now : Time} :
    Effect config job (.touch job.jobId columns now)
      (fun db =>
        let known := (db.jobs.find job.jobId).isSome && columns.lines.all fun line => line.1 ∈ logStreams
        if columns.lines ≠ [] && !known then some (.integrity "job_logs") else none)
      { set := columns.onRow now
        same := columns.onRow_id now
        logs := columns.lines.map fun line => ⟨job.jobId, now, line.1, line.2⟩ } := by
  refine ⟨fun db => ?_, ⟨unadded, unadded, ?_, unadded, unadded⟩, fun db error refused => ?_, fun row => Or.inl ?_,
    fun gone db shown _ => ?_⟩
  · unfold Write.onDb Db.touchJob Db.grown
    simp only [List.append_nil]
    split
    · rfl
    · rfl
  · intro row member
    obtain ⟨line, _, rfl⟩ := List.mem_map.mp member
    rfl
  · simp only at refused
    split at refused
    · cases refused
      exact fun _ same => by cases same
    · cases refused
  · exact (columns.onRow_machine now row).1
  · simp only [Db.find_without db shown]

theorem modify_id (jobs : Table Job Job.jobId) (id : JobId) :
    jobs.modify id (fun row => row) (fun _ => rfl) = jobs := by
  refine rows_ext ?_
  show jobs.rows.map _ = jobs.rows
  simp

theorem effect_sampled {samples : List Sample} (named : ∀ sample ∈ samples, sample.jobId = job.jobId) :
    Effect config job (.sampled job.jobId samples)
      (fun db => if (db.jobs.find job.jobId).isSome then none else some (.integrity "gpu_samples"))
      { set := fun row => row, same := fun _ => rfl, samples } := by
  refine ⟨fun db => ?_, ⟨unadded, unadded, unadded, named, unadded⟩, fun db error refused => ?_,
    fun row => Or.inl rfl, fun gone db shown _ => ?_⟩
  · unfold Write.onDb Db.grown
    simp only [modify_id, List.append_nil]
    split
    · rfl
    · rfl
  · split at refused
    · cases refused
    · cases refused
      exact fun _ same => by cases same
  · simp only [Db.find_without db shown]

theorem effect_notify {notification : Notification} (named : notification.jobId = some job.jobId) :
    Effect config job (.notify notification)
      (fun db => if (db.jobs.find job.jobId).isSome then none else some (.integrity "notifications"))
      { set := fun row => row, same := fun _ => rfl, notifications := [notification] } := by
  refine ⟨fun db => ?_, ⟨unadded, unadded, unadded, unadded, ?_⟩, fun db error refused => ?_,
    fun row => Or.inl rfl, fun gone db shown _ => ?_⟩
  · unfold Write.onDb Db.grown
    simp only [modify_id, List.append_nil, named, Option.all_some]
    split
    · rfl
    · rfl
  · intro row member
    rw [List.mem_singleton.mp member]
    exact named
  · split at refused
    · cases refused
    · cases refused
      exact fun _ same => by cases same
  · simp only [Db.find_without db shown]

/-- Every transaction about a job has such an effect. -/
theorem Write.effect {write : Write} (within : write.within job) (config : BrokerConfig) :
    ∃ refuses growth, Effect config job write refuses growth := by
  cases write with
  | move current target change now outstanding => exact ⟨_, _, effect_move within.1 within.2⟩
  | settle current amount accrued now => exact ⟨_, _, effect_settle within⟩
  | touch other columns now =>
      obtain rfl : other = job.jobId := within
      exact ⟨_, _, effect_touch⟩
  | sampled other samples =>
      obtain ⟨rfl, named⟩ := within
      exact ⟨_, _, effect_sampled named⟩
  | notify notification => exact ⟨_, _, effect_notify within⟩
  | insertUser | updateUser | suspend | restore | create | refuse | abandon | applyPrices =>
      exact within.elim

/-! ### Time -/

/-- Time passes. -/
def Waits (start last : World γ) : Prop := ∃ pause, last = { start with asked := start.asked + pause }

theorem Waits.refl (world : World γ) : Waits world world := ⟨0, rfl⟩

theorem Waits.trans {one two three : World γ} (first : Waits one two) (second : Waits two three) :
    Waits one three := by
  obtain ⟨pause, rfl⟩ := first
  obtain ⟨more, rfl⟩ := second
  exact ⟨pause + more, by simp [Nat.add_assoc]⟩

/-! ### A world without the jobs of a provider -/

/-- A provider and jobs of its, and the providers as they were before these jobs were looked at. -/
structure Absence (σ : Type) where
  down : String
  gone : JobId → Bool
  start : Providers σ

namespace Absence

variable {absence : Absence σ} {world : World (Providers σ)}

/-- The providers without what the jobs had of them. -/
def cloud (absence : Absence σ) (providers : Providers σ) : Providers σ where
  provider := Function.update providers.provider absence.down (absence.start.provider absence.down)
  saved := fun id => if absence.gone id then absence.start.saved id else providers.saved id

/-- The world without the jobs. -/
def veil (absence : Absence σ) (world : World (Providers σ)) : World (Providers σ) :=
  { world with db := world.db.without absence.gone, cloud := absence.cloud world.cloud }

/-- The jobs are on the provider. -/
def Sited (absence : Absence σ) (world : World (Providers σ)) : Prop :=
  ∀ row ∈ world.db.jobs.rows, absence.gone row.jobId = true → row.backend.getD "" = absence.down

/-- A job of another provider, that is not among the jobs. -/
structure Spares (absence : Absence σ) (job : Job) : Prop where
  shown : absence.gone job.jobId = false
  sited : job.backend.getD "" ≠ absence.down

/-- A transaction that grows the database keeps jobs on the provider. -/
theorem Sited.grown {growth : Growth} (sited : absence.Sited world)
    (about : ∀ row, (growth.set row).backend = row.backend ∨ (growth.set row).backend = job.backend)
    (mine : absence.gone job.jobId = true → job.backend.getD "" = absence.down) :
    absence.Sited { world with db := world.db.grown job.jobId growth } := by
  intro row member hidden
  obtain ⟨before, there, rfl⟩ := List.mem_map.mp member
  by_cases here : before.jobId = job.jobId
  · have chosen : (if decide (before.jobId = job.jobId) = true then growth.set before else before) =
        growth.set before := if_pos (decide_eq_true here)
    rw [chosen] at hidden ⊢
    rw [growth.same, here] at hidden
    rcases about before with same | same
    · rw [same]
      exact sited before there (here ▸ hidden)
    · rw [same]
      exact mine hidden
  · have chosen : (if decide (before.jobId = job.jobId) = true then growth.set before else before) =
        before := if_neg fun same => here (of_decide_eq_true same)
    rw [chosen] at hidden ⊢
    exact sited before there hidden

theorem onConfig_within {write : Write} (within : write.within job) (config : BrokerConfig) :
    write.onConfig config = config := by
  cases write with
  | applyPrices book => exact within.elim
  | move | settle | touch | sampled | notify | insertUser | updateUser | suspend | restore | create | refuse
  | abandon => rfl

/-- A transaction about a job is rolled back, or grows the database. -/
theorem apply_cases {write : Write} (within : write.within job) (world : World γ) :
    (∃ error, error.ours ∧ write.apply world = .error error) ∨
      ∃ growth : Growth, growth.About job.jobId ∧
        (∀ row, (growth.set row).backend = row.backend ∨ (growth.set row).backend = job.backend) ∧
          write.apply world = .ok { world with db := world.db.grown job.jobId growth } := by
  obtain ⟨refuses, growth, effect⟩ := write.effect within world.config
  unfold Write.apply
  rw [effect.onDb, onConfig_within within]
  cases refused : refuses world.db with
  | some error => exact Or.inl ⟨error, effect.ours _ _ refused, rfl⟩
  | none => exact Or.inr ⟨growth, effect.about, effect.sited, rfl⟩

/-- A transaction about a job of another provider does under the veil what it does without. -/
theorem apply_veil {write : Write} (spares : absence.Spares job) (within : write.within job)
    (sited : absence.Sited world) :
    write.apply (absence.veil world) = match write.apply world with
      | .ok next => .ok (absence.veil next)
      | .error error => .error error := by
  obtain ⟨refuses, growth, effect⟩ := write.effect within world.config
  have alike : refuses (world.db.without absence.gone) = refuses world.db :=
    effect.blind absence.gone world.db spares.shown fun row member hidden => by
      rw [sited row member hidden]
      exact spares.sited.symm
  unfold Write.apply
  rw [show (absence.veil world).db = world.db.without absence.gone from rfl,
    show (absence.veil world).config = world.config from rfl, effect.onDb, effect.onDb, alike]
  cases refuses world.db with
  | some error => rfl
  | none =>
      simp only
      unfold veil
      rw [Db.without_grown effect.about spares.shown]

/-- A call is served alike under the veil: it answers alike, and changes nothing but what is shown. -/
def Serves (absence : Absence σ) (call : Providers σ → α × Providers σ) : Prop :=
  ∀ providers, call (absence.cloud providers) = ((call providers).1, absence.cloud (call providers).2)

theorem blind_external {call : Providers σ → α × Providers σ} {post : α → Prop}
    (serves : absence.Serves call) (holds : ∀ providers, post (call providers).1) :
    Program.Blind absence.veil absence.Sited BrokerError.ours (external call : Op (Providers σ) α) post := by
  intro world sited
  refine ⟨?_, sited, fun answer came => ?_, nofun⟩
  · have same := serves world.cloud
    show (Except.ok (call (absence.cloud world.cloud)).1,
      { absence.veil world with cloud := (call (absence.cloud world.cloud)).2 }) = _
    rw [same]
    rfl
  · cases came
    exact holds world.cloud

/-- The programs that are blind to the jobs. -/
def blindness (absence : Absence σ) : Regime (Providers σ) where
  Yields := Program.Blind absence.veil absence.Sited BrokerError.ours
  sees := fun view => ∀ db, view (Db.without absence.gone db) = view db
  serves := absence.Serves
  trusts := fun call => absence.Serves call ∧ ∀ providers detail, (call providers).1 ≠ .error detail
  makes := fun write => ∃ job, absence.Spares job ∧ write.within job
  done := Program.blind_done
  fail := Program.blind_fail
  bind := Program.Blind.bind
  config := Program.blind_access (fun _ _ => rfl) (fun _ sited => sited) fun _ => Program.blind_done trivial
  moment := Program.blind_access (fun _ _ => rfl) (fun _ sited => sited) fun _ => Program.blind_done trivial
  reading := fun sees => Program.blind_access (fun world _ => Prod.ext (sees world.db) rfl)
    (fun _ sited => sited) fun _ => Program.blind_done trivial
  calling := fun serves => blind_external serves fun _ => trivial
  trusting := by
    intro α call trusts
    have answers : Program.Blind absence.veil absence.Sited BrokerError.ours
        (external call : Op (Providers σ) (Except String α)) fun answer => ∃ value, answer = .ok value := by
      refine blind_external trusts.1 fun providers => ?_
      cases came : (call providers).1 with
      | ok value => exact ⟨value, rfl⟩
      | error detail => exact (trusts.2 providers detail came).elim
    refine answers.bind ?_
    rintro answer ⟨value, rfl⟩
    exact Program.blind_done trivial
  writing := by
    intro α write value post makes holds world sited
    obtain ⟨job, spares, within⟩ := makes
    have under := apply_veil spares within sited
    rcases apply_cases within world with ⟨error, ours, failed⟩ | ⟨growth, about, grows, applied⟩
    · rw [failed] at under
      refine ⟨?_, ?_, ?_, ?_⟩
      · rw [whole_executing, whole_executing, under, failed]
      · rw [whole_executing, failed]
        exact sited
      · rw [whole_executing, failed]
        exact nofun
      · rw [whole_executing, failed]
        rintro other same
        cases same
        exact ours
    · rw [applied] at under
      refine ⟨?_, ?_, ?_, ?_⟩
      · rw [whole_executing, whole_executing, under, applied]
      · rw [whole_executing, applied]
        exact sited.grown grows fun hidden => absurd (spares.shown.symm.trans hidden) Bool.false_ne_true
      · rw [whole_executing, applied]
        rintro other same
        cases same
        exact holds
      · rw [whole_executing, applied]
        exact nofun

/-! ### Looks under the veil -/

variable {job : Job} {brokerage : Brokerage σ} {now : Time}

theorem serves_ask {name : String} (other : name ≠ absence.down) (about : Ask) (call : σ → α × σ) :
    absence.Serves (Providers.ask name about call) := by
  intro providers
  unfold Providers.ask cloud
  simp only [Function.update_of_ne other]
  rw [Function.update_comm other]

theorem serves_consult {id : JobId} (shown : absence.gone id = false) (call : σ → α × σ) :
    absence.Serves (Providers.consult id call) := by
  intro providers
  unfold Providers.consult cloud
  simp only [shown, Bool.false_eq_true, if_false]
  refine Prod.ext rfl ?_
  simp only [Providers.mk.injEq, true_and]
  funext other
  by_cases mine : other = id
  · rw [mine, Function.update_self, shown, Function.update_self]
    rfl
  · rw [Function.update_of_ne mine, Function.update_of_ne mine]

theorem sees_shown (spares : absence.Spares job) : absence.blindness.Sees job.jobId :=
  ⟨fun db => (answers_without spares.shown db).jobSpend,
    fun currency db => (answers_without spares.shown db).jobHolding currency,
    fun db => (answers_without spares.shown db).logCount,
    fun db => (answers_without spares.shown db).lastSampleAt,
    fun since limit db => (answers_without spares.shown db).samplesFor since limit,
    fun kind db => (answers_without spares.shown db).lastNotified kind⟩

/-- A look at a job of another provider, one that does not raise, is blind to the jobs. -/
theorem blind_advance (spares : absence.Spares job)
    (polls : ∀ other ∈ brokerage.backends, other.name ≠ absence.down →
      ∀ handle capacity detail, (other.poll handle capacity).1 ≠ .error detail)
    (stops : ∀ other ∈ brokerage.backends, other.name ≠ absence.down →
      ∀ handle reason capacity detail, (other.terminate handle reason capacity).1 ≠ .error detail) :
    (advance brokerage.site job now).Blind absence.veil absence.Sited BrokerError.ours fun _ => True := by
  have permits : absence.blindness.Permits job :=
    ⟨sees_shown spares, fun write within => ⟨job, spares, within⟩⟩
  refine yields_advance permits (fun latest member => ?_) fun backend handle found _ => ?_
  · obtain ⟨known, _, rfl⟩ := Option.map_eq_some_iff.mp member
    exact serves_consult spares.shown _
  · obtain ⟨other, member, named, rfl⟩ := Brokerage.backend_provided found
    have elsewhere : other.name ≠ absence.down := named ▸ spares.sited
    exact ⟨fun _ => serves_ask elsewhere _ _,
      ⟨serves_ask elsewhere _ _, fun providers detail => polls other member elsewhere handle _ detail⟩,
      fun _ => serves_ask elsewhere _ _, serves_ask elsewhere _ _,
      fun reason => ⟨serves_ask elsewhere _ _,
        fun providers detail => stops other member elsewhere handle reason _ detail⟩⟩

/-- What is done to the jobs shows in nothing but how much time has passed. -/
def Hides (absence : Absence σ) (before after : World (Providers σ)) : Prop :=
  absence.Sited before → absence.Sited after ∧ Waits (absence.veil before) (absence.veil after)

theorem Hides.refl (world : World (Providers σ)) : absence.Hides world world :=
  fun sited => ⟨sited, .refl _⟩

theorem Hides.trans {one two three : World (Providers σ)} (first : absence.Hides one two)
    (second : absence.Hides two three) : absence.Hides one three := by
  intro sited
  obtain ⟨middle, waited⟩ := first sited
  obtain ⟨last, more⟩ := second middle
  exact ⟨last, waited.trans more⟩

/-- The habit of what is done to the jobs. -/
def covering (absence : Absence σ) : Habit (Providers σ) where
  owes := fun _ => absence.Hides
  calls := fun before after => absence.cloud after = absence.cloud before
  makes := fun write => ∃ job : Job, absence.gone job.jobId = true ∧ job.backend.getD "" = absence.down ∧
    write.within job
  rests := Hides.refl
  reads := fun _ sited => ⟨sited, 1, rfl⟩
  serves := by
    intro world cloud same sited
    refine ⟨sited, 0, ?_⟩
    unfold veil World.called
    rw [same]
    rfl
  writes := by
    rintro write world ⟨job, hidden, mine, within⟩ sited
    rcases apply_cases within world with ⟨error, _, failed⟩ | ⟨growth, about, grows, applied⟩
    · rw [Write.leaves_error failed]
      exact ⟨sited, .refl _⟩
    · rw [Write.leaves_ok applied]
      refine ⟨sited.grown grows fun _ => mine, 0, ?_⟩
      unfold veil
      rw [Db.without_grown_gone about hidden]
      rfl

theorem hides_ask {name : String} (here : name = absence.down) (about : Ask) (call : σ → α × σ)
    (providers : Providers σ) : absence.cloud (providers.ask name about call).2 = absence.cloud providers := by
  subst here
  unfold Providers.ask cloud
  simp only [Function.update_idem]

theorem hides_consult {id : JobId} (hidden : absence.gone id = true) (call : σ → α × σ)
    (providers : Providers σ) :
    absence.cloud (providers.consult id call).2 = absence.cloud providers := by
  unfold Providers.consult cloud
  simp only [Providers.mk.injEq, true_and]
  funext other
  by_cases mine : other = id
  · rw [mine, hidden]
    rfl
  · rw [Function.update_of_ne mine]

/-- A look at one of the jobs shows in nothing but how much time has passed. -/
theorem hides_advance (hidden : absence.gone job.jobId = true) (mine : job.backend.getD "" = absence.down)
    (world : World (Providers σ)) :
    absence.Hides world ((advance brokerage.site job now).whole world).2 := by
  have permits : absence.covering.regime.Permits job :=
    ⟨absence.covering.sees _, fun write within => ⟨job, hidden, mine, within⟩⟩
  have yields : absence.covering.Yields (advance brokerage.site job now) fun _ => True := by
    refine yields_advance permits (fun latest member => ?_) fun backend handle found _ => ?_
    · obtain ⟨known, _, rfl⟩ := Option.map_eq_some_iff.mp member
      exact hides_consult hidden _
    · obtain ⟨other, member, named, rfl⟩ := Brokerage.backend_provided found
      have here : other.name = absence.down := named.trans mine
      exact Habit.Attends.regime ⟨fun _ _ => hides_ask here _ _ _, fun _ => hides_ask here _ _ _,
        fun _ _ => hides_ask here _ _ _, fun _ => hides_ask here _ _ _, fun _ _ => hides_ask here _ _ _⟩
  exact ((yields world).passing Hides.refl Hides.trans).2.1

end Absence

/-! ### What a provider hears -/

section Hearing

variable {brokerage : Brokerage σ} {name handle : String} {job : Job} {now : Time}

/-- The habit of programs that ask a provider about a machine no less often, as a relation of how often
has it. -/
def hearing (name handle : String) (still : Nat → Nat → Prop) (refl : ∀ count, still count count) :
    Habit (Providers σ) where
  owes := fun _ before after => still (before.cloud.asked name handle) (after.cloud.asked name handle)
  calls := fun before after => still (before.asked name handle) (after.asked name handle)
  makes := fun _ => True
  rests := fun _ => refl _
  reads := fun _ => refl _
  serves := fun _ _ same => same
  writes := by
    intro write world _
    cases applied : write.apply world with
    | error error =>
        rw [Write.leaves_error applied]
        exact refl _
    | ok next =>
        rw [Write.leaves_ok applied, apply_cloud applied]
        exact refl _

theorem asked_consult {id : JobId} (call : σ → α × σ) (providers : Providers σ) :
    (providers.consult id call).2.asked name handle = providers.asked name handle := rfl

/-- A look at a job that is on another machine asks a provider about a machine as often as before. -/
theorem asked_advance_same (elsewhere : job.backend.getD "" = name → job.backendHandle ≠ some handle) :
    (hearing name handle (· = ·) fun _ => rfl).Yields (advance brokerage.site job now) fun _ => True := by
  have permits : (hearing (σ := σ) name handle (· = ·) fun _ => rfl).regime.Permits job :=
    Habit.permitting fun _ _ => trivial
  refine yields_advance permits (fun latest member => ?_) fun backend machine found placed => ?_
  · obtain ⟨known, _, rfl⟩ := Option.map_eq_some_iff.mp member
    exact fun _ => rfl
  · obtain ⟨other, _, named, rfl⟩ := Brokerage.backend_provided found
    have still : ∀ (about : Ask), (about.about handle = true → machine = handle) →
        ∀ {α : Type} (call : σ → α × σ) (providers : Providers σ),
          providers.asked name handle = (providers.ask other.name about call).2.asked name handle := by
      intro about only α call providers
      rw [Providers.asked_ask, if_neg, Nat.add_zero]
      rintro ⟨here, mine⟩
      exact elsewhere (named.symm.trans here.symm) (only mine ▸ placed)
    have silent : false = true → machine = handle := fun wrong => absurd wrong Bool.false_ne_true
    exact Habit.Attends.regime ⟨fun _ _ => still (.start machine) silent _ _,
      fun _ => still (.poll machine) of_decide_eq_true _ _,
      fun after _ => still (.fetchLogs machine after) silent _ _,
      fun _ => still (.sampleUtilization machine) silent _ _,
      fun reason _ => still (.terminate machine reason) of_decide_eq_true _ _⟩

/-- What a program leaves that asks a provider about a machine as a relation has it. -/
theorem asked_whole {still : Nat → Nat → Prop} {refl : ∀ count, still count count}
    {program : Op (Providers σ) α} {post : α → World (Providers σ) → Prop} {world : World (Providers σ)}
    (safe : program.Safe (Contract.lone (hearing name handle still refl).owes) post world)
    (trans : ∀ one two three, still one two → still two three → still one three) :
    still (world.cloud.asked name handle) ((program.whole world).2.cloud.asked name handle) ∧
      ∀ result, (program.whole world).1 = .ok result → post result (program.whole world).2 := by
  let moves : World (Providers σ) → World (Providers σ) → Prop := fun before after =>
    still (before.cloud.asked name handle) (after.cloud.asked name handle)
  have rests : ∀ world, moves world world := fun _ => refl _
  have chains : ∀ {one two three}, moves one two → moves two three → moves one three := trans _ _ _
  have quiet : program.Safe (Contract.lone fun _ => moves) post world := safe
  exact (quiet.passing rests chains).2

end Hearing

end GpuBroker.Broker
