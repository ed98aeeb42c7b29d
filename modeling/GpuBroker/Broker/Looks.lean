/-
This file is what a look at a running job reaches: the record of that job, and
the machine on that record.

A regime says which programs are of a kind, of which readings, calls and
transactions they are made, and that the kind is closed under composition. The
parts of a look are of every kind whose readings are about the job, whose calls
are those of its backend about its machine, and whose transactions are about
the job. A habit, which says what every access is to be like, is one such kind.
-/
import GpuBroker.Broker.Accesses

namespace GpuBroker.Broker

open Library

variable {γ α β : Type}

/-! ### Transactions about a job -/

/-- A transaction that notes something about a job and leaves its state and its machine alone. -/
def Write.notes (id : JobId) : Write → Prop
  | .settle job _ _ _ => job.jobId = id
  | .touch job (.output _ _ _) _ => job = id
  | .touch job (.note _) _ => job = id
  | .sampled _ _ => True
  | .notify _ => True
  | _ => False

/-- A transaction that changes the record of no job but one. -/
def Write.about (id : JobId) : Write → Prop
  | .move current _ _ _ _ => current.jobId = id
  | .settle job _ _ _ => job.jobId = id
  | .touch job _ _ => job = id
  | .sampled _ _ => True
  | .notify _ => True
  | _ => False

/-- A transaction that notes something about a job, of which every row it adds names the job. -/
def Write.jots (id : JobId) : Write → Prop
  | .settle job _ _ _ => job.jobId = id
  | .touch job (.output _ _ _) _ => job = id
  | .touch job (.note _) _ => job = id
  | .sampled job samples => job = id ∧ ∀ sample ∈ samples, sample.jobId = id
  | .notify notification => notification.jobId = some id
  | _ => False

/-- A job, and the backend its record names. -/
def Job.seat (job : Job) : JobId × Option String := (job.jobId, job.backend)

/-- A transaction about a job that keeps the backend on its record, of which every row it adds names the
job. -/
def Write.within (job : Job) : Write → Prop
  | .move current _ change _ _ => current.seat = job.seat ∧ change.backend = none
  | .settle other _ _ _ => other.jobId = job.jobId
  | .touch other _ _ => other = job.jobId
  | .sampled other samples => other = job.jobId ∧ ∀ sample ∈ samples, sample.jobId = job.jobId
  | .notify notification => notification.jobId = some job.jobId
  | _ => False

theorem Write.jots.notes {id : JobId} {write : Write} (jots : write.jots id) : write.notes id := by
  cases write with
  | touch job columns now =>
      cases columns with
      | output | note => exact jots
      | attempt | preemption | checkpoint | pinTier | cancelRequest => exact jots.elim
  | settle => exact jots
  | sampled | notify => trivial
  | move | insertUser | updateUser | suspend | restore | create | refuse | abandon | applyPrices =>
      exact jots.elim

theorem Write.jots.within {job : Job} {write : Write} (jots : write.jots job.jobId) :
    write.within job := by
  cases write with
  | touch other columns now =>
      cases columns with
      | output | note => exact jots
      | attempt | preemption | checkpoint | pinTier | cancelRequest => exact jots.elim
  | settle | sampled | notify => exact jots
  | move | insertUser | updateUser | suspend | restore | create | refuse | abandon | applyPrices =>
      exact jots.elim

theorem Write.within.about {job : Job} {write : Write} (within : write.within job) :
    write.about job.jobId := by
  cases write with
  | move current target change now outstanding => exact congrArg Prod.fst within.1
  | settle | touch => exact within
  | sampled | notify => trivial
  | insertUser | updateUser | suspend | restore | create | refuse | abandon | applyPrices =>
      exact within.elim

/-! ### Regimes -/

/-- An error that is not a backend's. -/
def BrokerError.ours (error : BrokerError) : Prop := ∀ detail, error ≠ .backend detail

/-- Which programs are of a kind, with what their results are like: the readings, the calls and the
transactions they may be made of. A call is trusted when nothing catches what it raises. -/
structure Regime (γ : Type) where
  Yields : {α : Type} → Op γ α → (α → Prop) → Prop
  sees : {α : Type} → (Db → α) → Prop
  serves : {α : Type} → (γ → α × γ) → Prop
  trusts : {α : Type} → (γ → Except String α × γ) → Prop
  makes : Write → Prop
  done : ∀ {α : Type} {value : α} {post : α → Prop}, post value → Yields (.done value) post
  fail : ∀ {α : Type} {error : BrokerError} {post : α → Prop}, error.ours →
    Yields (.fail error : Op γ α) post
  bind : ∀ {α β : Type} {first : Op γ α} {rest : α → Op γ β} {middle : α → Prop} {post : β → Prop},
    Yields first middle → (∀ value, middle value → Yields (rest value) post) →
      Yields (first >>= rest) post
  config : Yields settings fun _ => True
  moment : Yields Broker.now fun _ => True
  reading : ∀ {α : Type} {view : Db → α}, sees view → Yields (query view) fun _ => True
  calling : ∀ {α : Type} {call : γ → α × γ}, serves call → Yields (external call) fun _ => True
  trusting : ∀ {α : Type} {call : γ → Except String α × γ}, trusts call →
    Yields (externally call) fun _ => True
  writing : ∀ {α : Type} {write : Write} {value : α} {post : α → Prop}, makes write → post value →
    Yields (executing write value) post

/-- The readings about one job. -/
structure Regime.Sees (regime : Regime γ) (id : JobId) : Prop where
  jobSpend : regime.sees fun db => db.jobSpend id
  jobHolding : ∀ currency, regime.sees fun db => db.jobHolding id currency
  logCount : regime.sees fun db => db.logCount id
  lastSampleAt : regime.sees fun db => db.lastSampleAt id
  samplesFor : ∀ since limit, regime.sees fun db => db.samplesFor id since limit
  lastNotified : ∀ kind, regime.sees fun db => db.lastNotified id kind

/-- The readings about a job, and the transactions that note something about it. -/
structure Regime.Notes (regime : Regime γ) (id : JobId) : Prop extends regime.Sees id where
  makes : ∀ write, write.jots id → regime.makes write

/-- The readings about a job, and the transactions about it that keep its backend. -/
structure Regime.Permits (regime : Regime γ) (job : Job) : Prop extends regime.Sees job.jobId where
  makes : ∀ write, write.within job → regime.makes write

/-- The calls of a backend about one machine. -/
structure Regime.Attends (regime : Regime γ) (backend : Backend γ) (handle : String) : Prop where
  start : ∀ job, regime.serves (backend.start handle job)
  poll : regime.trusts (backend.poll handle)
  fetchLogs : ∀ after, regime.serves (backend.fetchLogs handle after)
  sampleUtilization : regime.serves (backend.sampleUtilization handle)
  terminate : ∀ reason, regime.trusts (backend.terminate handle reason)

section Looking

variable {regime : Regime γ} {post : β → Prop} {id : JobId} {job other : Job}

theorem Regime.Permits.notes (permits : regime.Permits job) : regime.Notes job.jobId :=
  ⟨permits.toSees, fun write jots => permits.makes write jots.within⟩

/-- What is permitted about a job is permitted about a copy of it. -/
theorem Regime.Permits.copy (permits : regime.Permits job) (same : other.seat = job.seat) :
    regime.Permits other := by
  have named : other.jobId = job.jobId := congrArg Prod.fst same
  refine ⟨named ▸ permits.toSees, fun write within => permits.makes write ?_⟩
  unfold Write.within at within ⊢
  rw [same, named] at within
  exact within

theorem yields_pure {value : β} (holds : post value) : regime.Yields (pure value : Op γ β) post :=
  regime.done holds

theorem Regime.weaken (regime : Regime γ) {program : Op γ α} {middle post : α → Prop}
    (yields : regime.Yields program middle) (implies : ∀ value, middle value → post value) : regime.Yields program post := by
  have whole : regime.Yields (program >>= pure) post :=
    regime.bind yields fun value holds => regime.done (implies value holds)
  rwa [bind_pure] at whole

theorem yields_query {view : Db → α} {rest : α → Op γ β} (sees : regime.sees view)
    (resumes : ∀ value, regime.Yields (rest value) post) : regime.Yields (query view >>= rest) post :=
  regime.bind (regime.reading sees) fun value _ => resumes value

theorem yields_settings {rest : BrokerConfig → Op γ β}
    (resumes : ∀ config, regime.Yields (rest config) post) : regime.Yields (settings >>= rest) post :=
  regime.bind regime.config fun config _ => resumes config

theorem yields_now {rest : Time → Op γ β} (resumes : ∀ moment, regime.Yields (rest moment) post) :
    regime.Yields (now >>= rest) post :=
  regime.bind regime.moment fun moment _ => resumes moment

theorem yields_external {call : γ → α × γ} {rest : α → Op γ β} (serves : regime.serves call)
    (resumes : ∀ answer, regime.Yields (rest answer) post) :
    regime.Yields (external call >>= rest) post :=
  regime.bind (regime.calling serves) fun answer _ => resumes answer

theorem yields_externally {call : γ → Except String α × γ} {rest : α → Op γ β}
    (trusts : regime.trusts call) (resumes : ∀ value, regime.Yields (rest value) post) :
    regime.Yields (externally call >>= rest) post :=
  regime.bind (regime.trusting trusts) fun value _ => resumes value

/-- The rule of the kind of capacity of a job: what is raised when it is not configured is the broker's
own. -/
theorem yields_gpu {config : BrokerConfig} {name : String} {rest : GpuType → Op γ β}
    (resumes : ∀ gpu, regime.Yields (rest gpu) post) :
    regime.Yields (orRaise (config.gpu name) >>= rest) post := by
  unfold BrokerConfig.gpu
  split
  · exact resumes _
  · exact regime.fail fun _ => nofun

theorem yields_foldlM {turn : β → α → Op γ β} {items : List α}
    (each : ∀ item ∈ items, ∀ value, regime.Yields (turn value item) fun _ => True) (start : β) :
    regime.Yields (items.foldlM turn start) fun _ => True := by
  induction items generalizing start with
  | nil => exact yields_pure trivial
  | cons item items inductionHypothesis =>
      rw [List.foldlM_cons]
      exact regime.bind (each item List.mem_cons_self start) fun value _ =>
        inductionHypothesis (fun other member => each other (List.mem_cons_of_mem _ member)) value

/-! ### Notes, records and readings -/

theorem yields_appendLog (notes : regime.Notes id) (line : String) :
    regime.Yields (appendLog id line : Op γ Unit) fun _ => True := by
  refine yields_settings fun config => yields_query notes.logCount fun stored => ?_
  simp only
  split
  · exact yields_pure trivial
  · exact yields_now fun moment => regime.writing (notes.makes _ rfl) trivial

theorem yields_notify (notes : regime.Notes id) (user : UserId) (notice : Notice) :
    regime.Yields (notify user (some id) notice : Op γ Notification) fun _ => True :=
  yields_now fun _ => regime.writing (notes.makes _ rfl) trivial

theorem yields_settleAccrued (notes : regime.Notes job.jobId) (now : Time) :
    regime.Yields (settleAccrued job now : Op γ Bool) fun _ => True := by
  have accrued : regime.Yields (accrue job now : Op γ Cents) fun _ => True :=
    yields_settings fun config => yields_gpu fun gpu => yields_query notes.jobSpend fun already =>
      yields_pure trivial
  have settles : ∀ amount, regime.Yields (settle job amount now : Op γ Unit) fun _ => True := by
    intro amount
    unfold settle
    split
    · exact yields_pure trivial
    · exact yields_now fun moment => regime.writing (notes.makes _ rfl) trivial
  refine regime.bind accrued fun amount _ => ?_
  split
  · exact regime.bind (settles _) fun _ _ => yields_pure trivial
  · exact yields_pure trivial

theorem yields_evaluate (sees : regime.Sees job.jobId) :
    regime.Yields (evaluate job : Op γ IdleVerdict) fun verdict => verdict.job = job := by
  refine yields_settings fun config => yields_now fun moment => yields_query (sees.samplesFor _ _)
    fun samples => yields_query (sees.lastNotified _) fun notified => ?_
  simp only
  split
  · exact yields_pure rfl
  · split
    · exact yields_pure rfl
    · exact yields_query (sees.samplesFor _ _) fun history => yields_gpu fun gpu => yields_pure rfl

/-- Draining the output of a job moves its read cursor and nothing else of the caller's copy. -/
theorem yields_drainLogs {backend : Backend γ} {handle : String} (notes : regime.Notes job.jobId)
    (fetches : ∀ after, regime.serves (backend.fetchLogs handle after))
    (placed : job.backendHandle = some handle) :
    regime.Yields (drainLogs job backend) fun drained =>
      ∃ cursor, drained = { job with logsFetched := cursor } := by
  refine yields_external (by rw [placed]; exact fetches _) fun answer => ?_
  cases answer with
  | error detail =>
      exact regime.bind (yields_appendLog notes _) fun _ _ => yields_pure ⟨_, rfl⟩
  | ok lines =>
      simp only
      split
      · exact yields_pure ⟨_, rfl⟩
      · have stores : regime.Yields (appendBackendLogs job lines : Op γ Nat) fun _ => True := by
          unfold appendBackendLogs
          split
          · exact yields_pure trivial
          · exact yields_now fun moment => yields_settings fun config =>
              yields_query notes.logCount fun stored => regime.writing (notes.makes _ rfl) trivial
        exact regime.bind stores fun cursor _ => yields_pure ⟨cursor, rfl⟩

theorem yields_sample {backend : Backend γ} {handle : String} (notes : regime.Notes job.jobId)
    (samples : regime.serves (backend.sampleUtilization handle))
    (placed : job.backendHandle = some handle) :
    regime.Yields (sample job backend) fun _ => True := by
  have records : ∀ samples, (∀ sample ∈ samples, sample.jobId = job.jobId) →
      regime.Yields (recordSamples job.jobId samples : Op γ Unit) fun _ => True := by
    intro samples named
    unfold recordSamples
    split
    · exact yields_pure trivial
    · exact regime.writing (notes.makes _ ⟨rfl, named⟩) trivial
  refine yields_now fun moment => yields_query notes.lastSampleAt fun last =>
    yields_settings fun config => ?_
  split
  · exact yields_pure trivial
  · refine yields_external (by rw [placed]; exact samples) fun answer => ?_
    cases answer with
    | error detail => exact yields_pure trivial
    | ok readings =>
        simp only
        split
        · exact yields_pure trivial
        · refine regime.bind (records _ fun sample member => ?_) fun _ _ =>
            regime.bind (yields_evaluate notes.toSees) ?_
          · obtain ⟨reading, _, rfl⟩ := List.mem_map.mp member
            rfl
          · rintro verdict rfl
            unfold warnIdle
            split
            · exact yields_pure trivial
            · exact regime.bind (yields_notify notes _ _) fun _ _ => yields_appendLog notes _

/-! ### A look at a running job -/

variable {backend : Backend γ} {handle : String} {outcome : Outcome}

theorem yields_transition {target : JobState} {change : Change}
    (holds : ∀ currency, regime.sees fun db => db.jobHolding job.jobId currency)
    (makes : ∀ moment outstanding, regime.makes (.move job target change moment outstanding)) :
    regime.Yields (transition job target change : Op γ Job) fun moved =>
      ∃ moment, moved = job.movedTo target change moment := by
  unfold transition
  split
  · refine yields_now fun moment => ?_
    split
    · exact yields_query (holds _) fun holding => regime.writing (makes _ _) ⟨moment, rfl⟩
    · exact regime.writing (makes _ _) ⟨moment, rfl⟩
  · exact regime.fail fun _ => nofun

/-- A move that names no backend keeps the one on the record. -/
theorem yields_step {target : JobState} {change : Change} (permits : regime.Permits job)
    (bare : change.backend = none) :
    regime.Yields (transition job target change : Op γ Job) fun moved => moved.seat = job.seat := by
  refine regime.weaken (yields_transition permits.jobHolding fun _ _ => permits.makes _ ⟨rfl, bare⟩) ?_
  rintro moved ⟨moment, rfl⟩
  unfold Job.seat Job.movedTo
  rw [bare]
  rfl

theorem yields_requeue (permits : regime.Permits job) :
    regime.Yields (requeue job outcome : Op γ Outcome) fun _ => True :=
  regime.bind (yields_appendLog permits.notes _) fun _ _ =>
    regime.bind (yields_step permits rfl) fun _ _ => yields_pure trivial

theorem yields_collectCheckpoint {site : Site γ} (permits : regime.Permits job)
    (latest : ∀ latest ∈ site.latest, regime.serves (latest job.jobId)) :
    regime.Yields (collectCheckpoint site job) fun progressed => (progressed.getD job).seat = job.seat := by
  unfold collectCheckpoint
  split
  · exact yields_pure rfl
  · next look configured =>
    refine yields_external (latest look configured) fun answer => ?_
    split
    · exact regime.bind (yields_appendLog permits.notes _) fun _ _ => yields_pure rfl
    · exact yields_pure rfl
    · split
      · exact yields_pure rfl
      · have recorded : ∀ step key, regime.Yields (recordCheckpoint job step key : Op γ Job)
            fun saved => saved.seat = job.seat :=
          fun step key => yields_now fun moment => regime.writing (permits.makes _ rfl) rfl
        exact regime.bind (recorded _ _) fun saved same => yields_pure same

theorem yields_preempt {site : Site γ} {observation : Observation} (permits : regime.Permits job)
    (latest : ∀ latest ∈ site.latest, regime.serves (latest job.jobId))
    (attends : regime.Attends backend handle) (placed : job.backendHandle = some handle) :
    regime.Yields (preempt site job backend observation outcome) fun _ => True := by
  refine yields_externally (by rw [placed]; exact attends.terminate _) fun _ => ?_
  refine regime.bind (yields_collectCheckpoint permits latest) fun progressed same => ?_
  have saved := permits.copy same
  have counts : regime.Yields (recordPreemption (progressed.getD job) : Op γ Job)
      fun counted => counted.seat = (progressed.getD job).seat :=
    yields_now fun moment => regime.writing (saved.makes _ rfl) rfl
  refine regime.bind counts fun counted its => ?_
  have counting := saved.copy its
  refine regime.bind (yields_step counting rfl) fun moved mine => ?_
  have moving := counting.copy mine
  refine yields_settings fun config => ?_
  split
  · refine yields_gpu fun gpu => ?_
    simp only
    split
    · exact regime.bind (yields_appendLog moving.notes _) fun _ _ => yields_requeue moving
    · have pins : ∀ tier why, regime.Yields (pinTier moved tier why : Op γ Job)
          fun pinned => pinned.seat = moved.seat :=
        fun tier why => yields_now fun moment => regime.writing (moving.makes _ rfl) rfl
      refine regime.bind (pins _ _) fun pinned kept => ?_
      have pinning := moving.copy kept
      exact regime.bind (yields_notify pinning.notes _ _) fun _ _ => yields_requeue pinning
  · exact yields_requeue moving

theorem yields_startCommand (permits : regime.Permits job) (attends : regime.Attends backend handle) :
    regime.Yields (startCommand job backend handle outcome) fun _ => True := by
  refine yields_external (attends.start job) fun answer => ?_
  cases answer with
  | ok _ => exact regime.bind (yields_appendLog permits.notes _) fun _ _ => yields_pure trivial
  | error detail =>
      exact regime.bind (yields_appendLog permits.notes _) fun _ _ =>
        yields_externally (attends.terminate _) fun _ =>
          regime.bind (yields_step permits rfl) fun _ _ => yields_pure trivial

/-- What is left to do once the machine of a job was stopped: drain its output, and move it. -/
theorem yields_drained {target : JobState} {change : Job → Change} {result : Job → Outcome}
    (permits : regime.Permits job) (attends : regime.Attends backend handle)
    (placed : job.backendHandle = some handle) (bare : ∀ job, (change job).backend = none) :
    regime.Yields (do
      let job ← drainLogs job backend
      let job ← transition job target (change job)
      pure (result job)) fun _ => True := by
  refine regime.bind (yields_drainLogs permits.notes attends.fetchLogs placed) ?_
  rintro drained ⟨cursor, same⟩
  have drawn : regime.Permits drained := permits.copy (by rw [same]; rfl)
  exact regime.bind (yields_step drawn (bare _)) fun _ _ => yields_pure trivial

theorem yields_stopRequested {actor : String} (permits : regime.Permits job)
    (attends : regime.Attends backend handle) (placed : job.backendHandle = some handle) :
    regime.Yields (stopRequested job backend handle actor outcome) fun _ => True :=
  yields_externally (attends.terminate _) fun _ => yields_drained permits attends placed fun _ => rfl

theorem yields_finish {target : JobState} {observation : Observation} (permits : regime.Permits job)
    (attends : regime.Attends backend handle) :
    regime.Yields (finish job backend handle target observation outcome) fun _ => True :=
  yields_externally (attends.terminate _) fun _ =>
    regime.bind (yields_step permits rfl) fun _ _ => yields_pure trivial

theorem yields_stopAtCeiling {config : BrokerConfig} {now : Time} (permits : regime.Permits job)
    (attends : regime.Attends backend handle) (placed : job.backendHandle = some handle) :
    regime.Yields (stopAtCeiling config job now backend handle outcome) fun _ => True :=
  yields_externally (attends.terminate _) fun _ => yields_drained permits attends placed fun _ => rfl

theorem yields_follow {target : JobState} {observation : Observation} (permits : regime.Permits job) :
    regime.Yields (follow job target backend observation outcome) fun _ => True := by
  unfold follow
  extract_lets aimed
  split
  · exact yields_pure trivial
  · split
    · exact regime.bind (yields_step permits rfl) fun _ _ => yields_pure trivial
    · exact regime.bind (yields_appendLog permits.notes _) fun _ _ => yields_pure trivial

/-- A look at a running job makes transactions about that job only, and asks its backend about its own
machine only. -/
theorem yields_advance {site : Site γ} {now : Time} (permits : regime.Permits job)
    (latest : ∀ latest ∈ site.latest, regime.serves (latest job.jobId))
    (attends : ∀ backend handle, site.backend (job.backend.getD "") = some backend →
      job.backendHandle = some handle → regime.Attends backend handle) :
    regime.Yields (advance site job now) fun _ => True := by
  unfold advance
  split
  · next backend handle found placed =>
    have attended := attends backend handle found placed
    refine regime.bind (yields_settleAccrued permits.notes now) fun settled _ => ?_
    simp only
    split
    · exact yields_stopRequested permits attended placed
    · refine yields_externally attended.poll fun observation =>
        regime.bind (yields_drainLogs permits.notes attended.fetchLogs placed) ?_
      rintro drained ⟨cursor, same⟩
      have drawn : regime.Permits drained := permits.copy (by rw [same]; rfl)
      have its : drained.backendHandle = some handle := by rw [same]; exact placed
      have mine : drained.jobId = job.jobId := by rw [same]
      refine regime.bind (yields_sample drawn.notes attended.sampleUtilization its) fun _ _ => ?_
      split
      · exact yields_startCommand drawn attended
      · simp only
        split
        · exact yields_preempt drawn (mine ▸ latest) attended its
        · split
          · exact yields_finish drawn attended
          · refine yields_settings fun config => yields_gpu fun gpu => ?_
            split
            · exact yields_stopAtCeiling drawn attended its
            · exact yields_follow drawn
  · exact yields_pure trivial

end Looking

/-! ### Habits -/

/-- What an access is to be like, when readings, some calls and some transactions are like it. -/
structure Habit (γ : Type) where
  owes : Option Write → World γ → World γ → Prop
  calls : γ → γ → Prop
  makes : Write → Prop
  rests : ∀ world, owes none world world
  reads : ∀ world, owes none world world.ticked
  serves : ∀ world cloud, calls world.cloud cloud → owes none world (world.called cloud)
  writes : ∀ write world, makes write → owes (some write) world (write.leaves world)

/-- A program keeps to a habit wherever it starts, and comes to a result of a kind. -/
abbrev Habit.Yields (habit : Habit γ) (program : Op γ α) (post : α → Prop) : Prop :=
  ∀ world, program.Safe (Contract.lone habit.owes) (fun value _ => post value) world

/-- The calls of a backend about one machine. -/
structure Habit.Attends (habit : Habit γ) (backend : Backend γ) (handle : String) : Prop where
  start : ∀ job cloud, habit.calls cloud (backend.start handle job cloud).2
  poll : ∀ cloud, habit.calls cloud (backend.poll handle cloud).2
  fetchLogs : ∀ after cloud, habit.calls cloud (backend.fetchLogs handle after cloud).2
  sampleUtilization : ∀ cloud, habit.calls cloud (backend.sampleUtilization handle cloud).2
  terminate : ∀ reason cloud, habit.calls cloud (backend.terminate handle reason cloud).2

namespace Habit

variable {habit : Habit γ} {post : β → Prop} {id : JobId} {job : Job} {backend : Backend γ} {handle : String}

theorem yields_read {view : World γ → α} : habit.Yields (Program.read view) fun _ => True := by
  rintro world current rfl _ _
  exact ⟨trivial, habit.rests current, fun _ _ _ => trivial⟩

theorem yields_called {call : γ → α × γ} (serves : ∀ cloud, habit.calls cloud (call cloud).2) :
    habit.Yields (external call) fun _ => True := by
  rintro world current rfl _ _
  exact ⟨trivial, habit.serves current _ (serves current.cloud), fun _ _ _ => trivial⟩

theorem yields_bind {middle : α → Prop} {first : Op γ α} {rest : α → Op γ β}
    (begins : habit.Yields first middle)
    (resumes : ∀ value, middle value → habit.Yields (rest value) post) :
    habit.Yields (first >>= rest) post :=
  fun world => (begins world).bind fun value current _ holds => resumes value holds current

theorem yields_executing {write : Write} {value : β} (made : habit.makes write) (holds : post value) :
    habit.Yields (executing write value : Op γ β) post := by
  rintro world current rfl _ _
  have owed := habit.writes write current made
  unfold Write.leaves at owed
  simp only
  split
  · next next applied =>
    rw [applied] at owed
    exact ⟨trivial, owed, fun _ _ _ => holds⟩
  · next error failed =>
    rw [failed] at owed
    exact ⟨trivial, owed, fun _ _ _ => trivial⟩

/-- The programs that keep to a habit. -/
def regime (habit : Habit γ) : Regime γ where
  Yields := habit.Yields
  sees := fun _ => True
  serves := fun call => ∀ cloud, habit.calls cloud (call cloud).2
  trusts := fun call => ∀ cloud, habit.calls cloud (call cloud).2
  makes := habit.makes
  done := fun holds _ _ _ _ => holds
  fail := fun _ _ _ _ _ => trivial
  bind := yields_bind
  config := yields_read
  moment := by
    rintro world current rfl _ _
    exact ⟨trivial, habit.reads current, fun _ _ _ => trivial⟩
  reading := fun _ => yields_read
  calling := yields_called
  trusting := by
    intro α call serves
    refine yields_bind (yields_called serves) fun answer _ => ?_
    cases answer with
    | ok value => exact fun _ _ _ _ => trivial
    | error detail => exact fun _ _ _ _ => trivial
  writing := yields_executing

theorem sees (habit : Habit γ) (id : JobId) : habit.regime.Sees id :=
  ⟨trivial, fun _ => trivial, trivial, trivial, fun _ _ => trivial, fun _ => trivial⟩

/-- A habit that allows what notes something about a job. -/
theorem noting (makes : ∀ write : Write, write.notes id → habit.makes write) : habit.regime.Notes id :=
  ⟨habit.sees id, fun write jots => makes write jots.notes⟩

/-- A habit that allows what is about a job. -/
theorem permitting (makes : ∀ write : Write, write.about job.jobId → habit.makes write) :
    habit.regime.Permits job :=
  ⟨habit.sees _, fun write within => makes write within.about⟩

theorem Attends.regime (attends : habit.Attends backend handle) :
    habit.regime.Attends backend handle :=
  ⟨attends.start, attends.poll, attends.fetchLogs, attends.sampleUtilization, attends.terminate⟩

end Habit

end GpuBroker.Broker
