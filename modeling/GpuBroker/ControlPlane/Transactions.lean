/-
This file reads every transaction of the application layer as a change of the
books.

Each use case is followed statement by statement: the statements outside the
books drop out, the ones inside are moves, and a placement or a closing stands
for its five statements at once. The two repairs of the reconciler
are not here: what they would write is not a move, and they are shown to write
nothing once the invariants are known.
-/
import GpuBroker.ControlPlane.Moves

namespace GpuBroker.ControlPlane

open Library Library.Transaction

/-! ### Submission, cancellation and administration -/

theorem cheapestCost_reads (job : Job) : Tx.Reads (Service.cheapestCost job) := by
  intro db result next finished
  unfold Service.cheapestCost at finished
  obtain ⟨_, _, pools, finished⟩ := bind_ok.mp finished
  obtain ⟨_, _, workers, finished⟩ := bind_ok.mp finished
  rw [← Tx.reads_of_get _ _ _ _ pools, ← Tx.reads_of_get _ _ _ _ workers]
  cases pure_ok.mp finished
  rfl

/-- Admission queues a job or fails it; either way the job holds nothing. -/
theorem admission_holdsCapacity (job : Job) (cheapest : Option MicroUSD) (available : MicroUSD) :
    (Service.admission job cheapest available).1.holdsCapacity = false := by
  unfold Service.admission
  split
  · rfl
  · split_ifs <;> rfl

theorem requestedProject_spec {tenant : TenantID} {id : ProjectID} {db next : Db}
    {project : Project}
    (finished : Service.requestedProject tenant id db = .ok (project, next)) :
    db.projects.find project.id = some project ∧ db = next := by
  unfold Service.requestedProject at finished
  split at finished
  · exact Tx.defaultProject_spec finished
  · exact Tx.getProject_spec finished

theorem checkQueue_reads (service : Service) (tenant : TenantID) (gpus : Int) :
    Tx.Reads (service.checkQueue tenant gpus) := by
  intro db result next finished
  simp only [Service.checkQueue, Tx.getQuota, Tx.countQueued, Tx.countQueuedAll, bind_ok, get_ok,
    pure_ok, require_ok] at finished
  obtain ⟨_, _, ⟨_, _, read, one⟩, _, _, ⟨_, _, again, two⟩, _, _, ⟨_, rfl⟩, _, _, ⟨_, rfl⟩,
    _, _, ⟨_, _, last, three⟩, _, rfl⟩ := finished
  cases read
  cases one
  cases again
  cases two
  cases last
  cases three
  rfl

/-- A submission inserts the job as submitted and moves it on in the same transaction. -/
theorem submit_moves (service : Service) (principal : Principal) (request : SubmitRequest)
    (correlation : String) (id : JobID) (now appliedAt : Time) :
    MovesBooks (service.submit principal request correlation id now appliedAt) := by
  intro db result next finished
  unfold Service.submit at finished
  obtain ⟨_, _, isUser, finished⟩ := bind_ok.mp finished
  obtain ⟨_, rfl⟩ := require_ok.mp isUser
  obtain ⟨valid, _, validated, finished⟩ := bind_ok.mp finished
  obtain ⟨_, rfl⟩ := fallible_ok.mp validated
  simp only at finished
  obtain ⟨project, _, readProject, finished⟩ := bind_ok.mp finished
  obtain ⟨registered, rfl⟩ := requestedProject_spec readProject
  obtain ⟨_, _, belowLimits, finished⟩ := bind_ok.mp finished
  cases checkQueue_reads service _ _ _ _ _ belowLimits
  obtain ⟨_, one, inserts, finished⟩ := bind_ok.mp finished
  obtain ⟨atLeastOne, positive, jobs, inserted, wroteJob⟩ := Tx.insertJob_spec inserts
  obtain ⟨cheapest, _, readCheapest, finished⟩ := bind_ok.mp finished
  cases cheapestCost_reads _ _ _ _ readCheapest
  obtain ⟨spend, _, readSpend, finished⟩ := bind_ok.mp finished
  obtain ⟨_, rfl⟩ := Tx.projectSpend_spec readSpend
  obtain ⟨moved, two, applies, finished⟩ := bind_ok.mp finished
  cases pure_ok.mp finished
  have submitted : Moves db.toBooks one.toBooks := by
    rw [wroteJob]
    exact .single (Move.newJob inserted rfl rfl atLeastOne positive ⟨project, registered⟩)
  have stored : ∃ row, one.jobs.find id = some row ∧ row.state = .submitted ∧ row.attempt = 0 := by
    rw [wroteJob]
    exact ⟨_, (Table.find_insert inserted id).trans (if_pos rfl), rfl, rfl⟩
  obtain ⟨row, found, state, attempt⟩ := stored
  exact submitted.trans (apply_moves found state attempt (admission_holdsCapacity _ _ _)
    (fun _ => Or.inl rfl) applies)

/-- A locked job moves along an edge between states that hold the same. -/
theorem locked_apply_moves {job : Job} {target : JobState} {actor : Actor}
    {reason correlation : String} {time : Time} {db : Db} (stored : db.jobs.find job.id = some job)
    (holding : target.holdsCapacity = job.state.holdsCapacity)
    (settled : target ≠ .submitted ∧ target ≠ .queued) {result : Job} {next : Db}
    (finished : Service.apply job target actor reason correlation time db = .ok (result, next)) :
    Moves db.toBooks next.toBooks :=
  apply_moves stored rfl rfl holding
    (fun waits => waits.elim (fun same => absurd same settled.1) fun same => absurd same settled.2)
    finished

theorem cancel_turns (service : Service) (principal : Principal) (id : JobID)
    (correlation : String) (now appliedAt : Time) :
    TurnsBooks (service.cancel principal id correlation now appliedAt) := by
  intro db result next finished
  unfold Service.cancel at finished
  obtain ⟨_, _, isUser, finished⟩ := bind_ok.mp finished
  obtain ⟨_, rfl⟩ := require_ok.mp isUser
  obtain ⟨_, _, owned, finished⟩ := bind_ok.mp finished
  cases Tx.getJob_reads _ _ _ _ _ owned
  obtain ⟨job, _, locks, finished⟩ := bind_ok.mp finished
  obtain ⟨found, rfl⟩ := Tx.lockJob_spec locks
  have stored : db.jobs.find job.id = some job := by rwa [Table.find_key found]
  cases state : job.state <;> simp only [state] at finished
  case submitted | queued =>
    refine .moves (locked_apply_moves stored ?_ ⟨?_, ?_⟩ finished)
    · rw [state]
      rfl
    all_goals exact nofun
  case reserved =>
    obtain ⟨closing, _, _, closed⟩ := closeAttempt_spec stored finished
    rw [closed]
    exact .close closing
  case dispatched | running =>
    refine .moves (locked_apply_moves stored ?_ ⟨?_, ?_⟩ finished)
    · rw [state]
      rfl
    all_goals exact nofun
  all_goals
    cases pure_ok.mp finished
    exact .moves .refl

theorem createTenant_moves (tenant : TenantID) (project : ProjectID) (budget : MicroUSD)
    (maxQueuedJobs maxActiveGPUs : Int) :
    MovesBooks (createTenant tenant project budget maxQueuedJobs maxActiveGPUs) := by
  refine moves_bind (fun db result next finished => ?_) fun _ => (Tx.upsertQuota_quiet _).moves
  obtain ⟨nonneg, projects, inserted, wrote⟩ := Tx.insertProject_spec finished
  rw [wrote]
  exact .single (Move.newProject inserted nonneg)

theorem upsertPool_moves (pool : Pool) : MovesBooks (upsertPool pool) := by
  intro db result next finished
  unfold upsertPool at finished
  obtain ⟨_, _, named, finished⟩ := bind_ok.mp finished
  obtain ⟨_, rfl⟩ := require_ok.mp named
  exact (Tx.upsertPool_quiet pool).moves _ _ _ finished

/-! ### The scheduler -/

theorem requestStop_moves (id : AttemptID) (kind : StopKind) :
    MovesBooks (Tx.requestStop id kind) := by
  intro db result next finished
  rcases Tx.requestStop_spec finished with unchanged | ⟨⟨row, found, unclosed⟩, wrote⟩
  · rw [unchanged]
  · rw [wrote]
    exact .single (Move.attempt id _ _ found unclosed fun _ => ⟨rfl, rfl, rfl, rfl⟩)

/-- Enacting a decision places its job under the epoch and the ids given, at the price the chosen
pool has then, when a placement is what it asks for, and otherwise moves the books. -/
theorem enact_spec {epoch : Int} {tick : String} {decision : Decision} {attempt : AttemptID}
    {reservation : ReservationID} {now appliedAt : Time} {db next : Db} {result : Unit}
    (finished : Service.enact epoch tick decision attempt reservation now appliedAt db =
      .ok (result, next)) :
    Turn db.toBooks next.toBooks ∨
      decision.action = .place ∧ ∃ placement : Placement db.toBooks,
        placement.job.id = decision.job ∧ placement.epoch = epoch ∧ placement.attempt = attempt ∧
          (∃ pool, db.pools.find decision.chosenPool = some pool ∧
            pool.pricePerGPUHour = placement.rate) ∧ next.toBooks = placement.result := by
  unfold Service.enact at finished
  obtain ⟨job, _, locks, finished⟩ := bind_ok.mp finished
  obtain ⟨found, rfl⟩ := Tx.lockJob_spec locks
  have stored : db.jobs.find job.id = some job := by rwa [Table.find_key found]
  obtain ⟨_, _, isQueued, finished⟩ := bind_ok.mp finished
  obtain ⟨queued, rfl⟩ := require_ok.mp isQueued
  cases action : decision.action <;> simp only [action] at finished
  case place =>
    obtain ⟨_, placed, places, records⟩ := bind_ok.mp finished
    obtain ⟨placement, ofJob, underEpoch, ofAttempt, inPool, priced, wrote⟩ :=
      place_spec stored queued places
    refine Or.inr ⟨rfl, placement, ?_, underEpoch, ofAttempt, inPool ▸ priced, ?_⟩
    · rw [ofJob]
      exact Table.find_key found
    · rw [Tx.insertDecision_quiet _ _ _ _ _ _ records, wrote]
  case delay =>
    obtain ⟨_, saved, saves, records⟩ := bind_ok.mp finished
    obtain ⟨_, _, _, wrote⟩ := Tx.saveJob_spec saves
    rw [Tx.insertDecision_quiet _ _ _ _ _ _ records, wrote]
    refine Or.inl (.moves (.single (@Move.job _ job _ stored ⟨?_, rfl, rfl, id⟩)))
    rw [queued]
    rfl
  case wait =>
    obtain ⟨last, _, reads, finished⟩ := bind_ok.mp finished
    cases Tx.reads_of_get _ _ _ _ reads
    split at finished
    · cases pure_ok.mp finished
      exact Or.inl (.moves .refl)
    · exact Or.inl ((Tx.insertDecision_quiet _ _ _).moves.turns _ _ _ finished)
  case preempt =>
    obtain ⟨_, _, reads, finished⟩ := bind_ok.mp finished
    cases get_ok.mp reads
    obtain ⟨victim, _, needs, finished⟩ := bind_ok.mp finished
    obtain ⟨_, rfl⟩ := need_ok.mp needs
    obtain ⟨_, stopped, stops, records⟩ := bind_ok.mp finished
    rw [Tx.insertDecision_quiet _ _ _ _ _ _ records]
    exact Or.inl ((requestStop_moves _ _).turns _ _ _ stops)
  case expire =>
    obtain ⟨_, expired, expires, records⟩ := bind_ok.mp finished
    rw [Tx.insertDecision_quiet _ _ _ _ _ _ records]
    refine Or.inl (.moves (locked_apply_moves stored ?_ ⟨?_, ?_⟩ expires))
    · rw [queued]
      rfl
    all_goals exact nofun

theorem enact_changes (epoch : Int) (tick : String) (decision : Decision) (attempt : AttemptID)
    (reservation : ReservationID) (now appliedAt : Time) :
    ChangesBooks (Service.enact epoch tick decision attempt reservation now appliedAt) := by
  intro db result next finished
  rcases enact_spec finished with taken | ⟨_, placement, _, _, _, _, wrote⟩
  · exact .turn taken
  · rw [wrote]
    exact .place placement

/-! ### The worker protocol -/

theorem touchWorker_moves (id : WorkerID) (time : Time) (state : WorkerState) :
    MovesBooks (Tx.touchWorker id time state) := by
  intro db result next finished
  rw [Tx.touchWorker_spec finished]
  exact .single (Move.workers _ _ _ fun _ => ⟨rfl, rfl⟩)

theorem markWorkersOffline_moves (before : Time) : MovesBooks (Tx.markWorkersOffline before) := by
  intro db result next finished
  simp only [Tx.markWorkersOffline, bind_ok, get_ok, set_ok, pure_ok] at finished
  obtain ⟨_, _, pair, _, _, rfl, final⟩ := finished
  cases pair
  cases final
  exact .single (Move.workers _ _ _ fun _ => ⟨rfl, rfl⟩)

theorem register_moves (principal : Principal) (name : String) (capability : Capability)
    (id : WorkerID) (now : Time) :
    MovesBooks (Service.register principal name capability id now) := by
  intro db result next finished
  unfold Service.register at finished
  obtain ⟨_, _, isBootstrap, finished⟩ := bind_ok.mp finished
  obtain ⟨_, rfl⟩ := require_ok.mp isBootstrap
  obtain ⟨_, _, shaped, finished⟩ := bind_ok.mp finished
  obtain ⟨_, rfl⟩ := require_ok.mp shaped
  obtain ⟨_, _, known, finished⟩ := bind_ok.mp finished
  obtain ⟨_, rfl⟩ := require_ok.mp known
  obtain ⟨pool, _, readPool, finished⟩ := bind_ok.mp finished
  obtain ⟨_, rfl⟩ := Tx.getPool_spec readPool
  obtain ⟨existing, _, reads, finished⟩ := bind_ok.mp finished
  cases Tx.reads_of_get _ _ _ _ reads
  cases existing with
  | none =>
      obtain ⟨_, inserted, inserts, finished⟩ := bind_ok.mp finished
      cases pure_ok.mp finished
      obtain ⟨positive, workers, added, wrote⟩ := Tx.insertWorker_spec inserts
      rw [wrote]
      exact .single (Move.newWorker added rfl positive)
  | some worker =>
      obtain ⟨_, touched, touches, finished⟩ := bind_ok.mp finished
      cases pure_ok.mp finished
      exact touchWorker_moves _ _ _ _ _ _ touches

theorem heartbeat_moves (service : Service) (principal : Principal) (state : WorkerState)
    (held : List AttemptID) (now : Time) :
    MovesBooks (service.heartbeat principal state held now) := by
  intro db result next finished
  unfold Service.heartbeat at finished
  obtain ⟨_, _, isWorker, finished⟩ := bind_ok.mp finished
  obtain ⟨_, rfl⟩ := require_ok.mp isWorker
  obtain ⟨_, _, reported, finished⟩ := bind_ok.mp finished
  obtain ⟨_, rfl⟩ := require_ok.mp reported
  obtain ⟨_, _, few, finished⟩ := bind_ok.mp finished
  obtain ⟨_, rfl⟩ := require_ok.mp few
  obtain ⟨_, touched, touches, finished⟩ := bind_ok.mp finished
  obtain ⟨_, renewed, renews, finished⟩ := bind_ok.mp finished
  obtain ⟨_, _, reads, finished⟩ := bind_ok.mp finished
  cases get_ok.mp reads
  cases pure_ok.mp finished
  rw [Tx.renewLeases_quiet _ _ _ _ _ _ _ renews]
  exact touchWorker_moves _ _ _ _ _ _ touches

theorem claimDispatches_moves (service : Service) (principal : Principal) (max : Int) (now : Time) :
    MovesBooks (service.claimDispatches principal max now) := by
  intro db result next finished
  unfold Service.claimDispatches at finished
  obtain ⟨_, _, isWorker, finished⟩ := bind_ok.mp finished
  obtain ⟨_, rfl⟩ := require_ok.mp isWorker
  exact (Tx.claim_quiet _ _ _ _).moves _ _ _ finished

theorem handleDispatch_moves (service : Service) (principal : Principal) (event : OutboxEvent)
    (now appliedAt : Time) : MovesBooks (service.handleDispatch principal event now appliedAt) := by
  intro db result next finished
  unfold Service.handleDispatch at finished
  obtain ⟨job, _, locks, finished⟩ := bind_ok.mp finished
  obtain ⟨found, rfl⟩ := Tx.lockJob_spec locks
  obtain ⟨attempt, _, reads, finished⟩ := bind_ok.mp finished
  obtain ⟨_, rfl⟩ := Tx.getAttempt_spec reads
  obtain ⟨_, marked, marks, finished⟩ := bind_ok.mp finished
  have wroteOutbox := Tx.markDelivered_quiet _ _ _ _ _ marks
  rw [← wroteOutbox]
  have stored : marked.jobs.find job.id = some job := by
    rw [wroteOutbox, Table.find_key found]
    exact found
  split at finished
  · cases pure_ok.mp finished
    exact .refl
  cases state : job.state <;> simp only [state] at finished
  case reserved =>
    obtain ⟨_, leased, puts, finished⟩ := bind_ok.mp finished
    obtain ⟨_, moved, applies, finished⟩ := bind_ok.mp finished
    cases pure_ok.mp finished
    have wroteLease := Tx.putLease_quiet _ _ _ _ puts
    rw [← wroteLease] at stored ⊢
    refine locked_apply_moves stored ?_ ⟨?_, ?_⟩ applies
    · rw [state]
      rfl
    all_goals exact nofun
  case dispatched =>
    obtain ⟨lease, _, readLease, finished⟩ := bind_ok.mp finished
    obtain ⟨_, rfl⟩ := Tx.getLease_spec readLease
    obtain ⟨_, _, needs, finished⟩ := bind_ok.mp finished
    obtain ⟨_, rfl⟩ := need_ok.mp needs
    cases pure_ok.mp finished
    exact .refl
  all_goals
    cases pure_ok.mp finished
    exact .refl

theorem ack_moves (service : Service) (principal : Principal) (dispatch : Service.Dispatch)
    (now appliedAt : Time) : MovesBooks (service.ack principal dispatch now appliedAt) := by
  intro db result next finished
  unfold Service.ack at finished
  obtain ⟨_, _, owned, finished⟩ := bind_ok.mp finished
  obtain ⟨_, rfl⟩ := require_ok.mp owned
  obtain ⟨_, _, signed, finished⟩ := bind_ok.mp finished
  obtain ⟨_, rfl⟩ := require_ok.mp signed
  obtain ⟨job, _, locks, finished⟩ := bind_ok.mp finished
  obtain ⟨found, rfl⟩ := Tx.lockJob_spec locks
  obtain ⟨attempt, _, reads, finished⟩ := bind_ok.mp finished
  obtain ⟨_, rfl⟩ := Tx.getAttempt_spec reads
  obtain ⟨_, _, ours, finished⟩ := bind_ok.mp finished
  obtain ⟨_, rfl⟩ := require_ok.mp ours
  obtain ⟨_, _, digest, finished⟩ := bind_ok.mp finished
  obtain ⟨_, rfl⟩ := require_ok.mp digest
  obtain ⟨worker, _, readWorker, finished⟩ := bind_ok.mp finished
  cases Tx.getWorker_reads _ _ _ _ readWorker
  obtain ⟨_, _, capable, finished⟩ := bind_ok.mp finished
  obtain ⟨_, rfl⟩ := require_ok.mp capable
  obtain ⟨acked, one, acks, finished⟩ := bind_ok.mp finished
  obtain ⟨wroteAttempt, fresh⟩ := Tx.ackAttempt_spec acks
  obtain ⟨_, _, first, finished⟩ := bind_ok.mp finished
  obtain ⟨rfl, rfl⟩ := require_ok.mp first
  obtain ⟨row, rowFound, unclosed⟩ := fresh rfl
  have acknowledged : Moves db.toBooks one.toBooks := by
    rw [wroteAttempt]
    exact .single (Move.attempt attempt.id _ _ rowFound unclosed fun _ => ⟨rfl, rfl, rfl, rfl⟩)
  have stored : one.jobs.find job.id = some job := by
    rw [wroteAttempt, Table.find_key found]
    exact found
  cases state : job.state <;> simp only [state] at finished
  case cancelRequested =>
    cases pure_ok.mp finished
    exact acknowledged
  case dispatched =>
    obtain ⟨_, two, renews, finished⟩ := bind_ok.mp finished
    obtain ⟨_, three, applies, finished⟩ := bind_ok.mp finished
    cases pure_ok.mp finished
    have wroteLease := Tx.renewLeases_quiet _ _ _ _ _ _ _ renews
    rw [← wroteLease] at stored acknowledged
    have started : (job.started now).state = .dispatched := state
    have startedStored : two.jobs.find (job.started now).id = some job := stored
    refine acknowledged.trans (apply_moves startedStored rfl rfl ?_ ?_ applies)
    · rw [started]
      rfl
    · exact fun waits => waits.elim nofun nofun
  all_goals exact absurd finished throw_ok

/-- Once a report knows the attempt's outcome it only stores events: it returns the known outcome
when it holds a terminal event, and the books stay. -/
theorem reportLoop_closed {service : Service} {principal : Principal} {job : Job}
    {attempt : AttemptID} {outcome : AttemptOutcome} :
    ∀ {events : List (WorkerEvent × Service.EventReadings)} {final result : Option AttemptOutcome}
      {db next : Db},
      service.reportLoop principal job attempt events (some outcome) final db = .ok (result, next) →
        next.toBooks = db.toBooks ∧
          result = if events.any fun pair => pair.1.kind = some .exit then some outcome else final := by
  intro events
  induction events with
  | nil =>
      intro final result db next finished
      cases pure_ok.mp finished
      exact ⟨rfl, rfl⟩
  | cons head rest inductionHypothesis =>
      intro final result db next finished
      obtain ⟨event, readings⟩ := head
      unfold Service.reportLoop at finished
      obtain ⟨_, stored, stores, finished⟩ := bind_ok.mp finished
      have wrote := Tx.insertAttemptEvent_quiet _ _ _ _ stores
      by_cases terminal : event.kind = some .exit
      · rw [if_neg (not_not.mpr terminal)] at finished
        obtain ⟨kept, returned⟩ := inductionHypothesis finished
        refine ⟨kept.trans wrote, ?_⟩
        rw [returned, List.any_cons, decide_eq_true terminal, Bool.true_or, if_pos rfl]
        exact ite_self _
      · rw [if_pos terminal] at finished
        obtain ⟨kept, returned⟩ := inductionHypothesis finished
        refine ⟨kept.trans wrote, ?_⟩
        rw [returned, List.any_cons, decide_eq_false terminal, Bool.false_or]

/-- A report of an open attempt either holds no terminal event and leaves the books alone, or it
closes the attempt once, with the outcome it returns. -/
theorem reportLoop_open {service : Service} {principal : Principal} {job : Job}
    {attempt : AttemptID} :
    ∀ {events : List (WorkerEvent × Service.EventReadings)} {final result : Option AttemptOutcome}
      {db next : Db}, db.jobs.find job.id = some job →
      service.reportLoop principal job attempt events none final db = .ok (result, next) →
        (next.toBooks = db.toBooks ∧ result = final ∧
            events.all fun pair => pair.1.kind ≠ some .exit) ∨
          ∃ closing : Closing db.toBooks, closing.job = job ∧ result = some closing.outcome ∧
            next.toBooks = closing.result := by
  intro events
  induction events with
  | nil =>
      intro final result db next _ finished
      cases pure_ok.mp finished
      exact Or.inl ⟨rfl, rfl, rfl⟩
  | cons head rest inductionHypothesis =>
      intro final result db next found finished
      obtain ⟨event, readings⟩ := head
      unfold Service.reportLoop at finished
      obtain ⟨_, stored, stores, finished⟩ := bind_ok.mp finished
      have wrote := Tx.insertAttemptEvent_quiet _ _ _ _ stores
      rw [← wrote] at found ⊢
      by_cases terminal : event.kind = some .exit
      · rw [if_neg (not_not.mpr terminal)] at finished
        obtain ⟨outcome, _, needs, finished⟩ := bind_ok.mp finished
        obtain ⟨_, rfl⟩ := need_ok.mp needs
        obtain ⟨_, _, acknowledged, finished⟩ := bind_ok.mp finished
        obtain ⟨_, rfl⟩ := require_ok.mp acknowledged
        obtain ⟨_, closed, closes, finished⟩ := bind_ok.mp finished
        obtain ⟨closing, ofJob, withOutcome, wroteClosing⟩ := closeAttempt_spec found closes
        obtain ⟨kept, returned⟩ := reportLoop_closed finished
        refine Or.inr ⟨closing, ofJob, ?_, kept.trans wroteClosing⟩
        rw [returned, withOutcome]
        exact ite_self _
      · rw [if_pos terminal] at finished
        rcases inductionHypothesis found finished with ⟨kept, returned, quiet⟩ | closes
        · refine Or.inl ⟨kept, returned, ?_⟩
          rw [List.all_cons, quiet, decide_eq_true terminal]
          rfl
        · exact Or.inr closes

/-- What a report that went through did: it found the caller's attempt, and either the attempt
was closed and nothing but events was written, or it was open and was closed at most once. -/
theorem reportEvents_spec {service : Service} {principal : Principal} {attempt : AttemptID}
    {events : List (WorkerEvent × Service.EventReadings)} {db next : Db}
    {result : Option AttemptOutcome}
    (finished : service.reportEvents principal attempt events db = .ok (result, next)) :
    ∃ row job, db.attempts.find attempt = some row ∧ db.jobs.find row.job = some job ∧
      ((∃ outcome, row.outcome = some outcome ∧ next.toBooks = db.toBooks ∧
          result = if events.any fun pair => pair.1.kind = some .exit then some outcome else none) ∨
        (row.outcome = none ∧
          ((next.toBooks = db.toBooks ∧ result = none ∧
              events.all fun pair => pair.1.kind ≠ some .exit) ∨
            ∃ closing : Closing db.toBooks, closing.job = job ∧ result = some closing.outcome ∧
              next.toBooks = closing.result))) := by
  unfold Service.reportEvents at finished
  obtain ⟨_, _, isWorker, finished⟩ := bind_ok.mp finished
  obtain ⟨_, rfl⟩ := require_ok.mp isWorker
  obtain ⟨_, _, bounded, finished⟩ := bind_ok.mp finished
  obtain ⟨_, rfl⟩ := require_ok.mp bounded
  obtain ⟨_, _, shaped, finished⟩ := bind_ok.mp finished
  obtain ⟨_, rfl⟩ := require_ok.mp shaped
  obtain ⟨_, _, outcomes, finished⟩ := bind_ok.mp finished
  obtain ⟨_, rfl⟩ := require_ok.mp outcomes
  obtain ⟨row, _, reads, finished⟩ := bind_ok.mp finished
  obtain ⟨found, rfl⟩ := Tx.getAttempt_spec reads
  obtain ⟨_, _, ours, finished⟩ := bind_ok.mp finished
  obtain ⟨_, rfl⟩ := require_ok.mp ours
  obtain ⟨job, _, locks, finished⟩ := bind_ok.mp finished
  obtain ⟨jobFound, rfl⟩ := Tx.lockJob_spec locks
  obtain ⟨again, _, rereads, finished⟩ := bind_ok.mp finished
  obtain ⟨foundAgain, rfl⟩ := Tx.getAttempt_spec rereads
  cases found.symm.trans foundAgain
  refine ⟨row, job, found, jobFound, ?_⟩
  cases outcome : row.outcome with
  | some known =>
      rw [outcome] at finished
      obtain ⟨kept, returned⟩ := reportLoop_closed finished
      exact Or.inl ⟨known, rfl, kept, returned⟩
  | none =>
      rw [outcome] at finished
      have stored : db.jobs.find job.id = some job := by rwa [Table.find_key jobFound]
      exact Or.inr ⟨rfl, reportLoop_open stored finished⟩

theorem reportEvents_turns (service : Service) (principal : Principal) (attempt : AttemptID)
    (events : List (WorkerEvent × Service.EventReadings)) :
    TurnsBooks (service.reportEvents principal attempt events) := by
  intro db result next finished
  obtain ⟨row, job, _, _, ⟨_, _, kept, _⟩ | ⟨_, ⟨kept, _, _⟩ | ⟨closing, _, _, wrote⟩⟩⟩ :=
    reportEvents_spec finished
  · rw [kept]
    exact .moves .refl
  · rw [kept]
    exact .moves .refl
  · rw [wrote]
    exact .close closing

/-! ### Reconciliation -/

/-- A reclaim closes the attempt's job's attempt or leaves the books alone, whatever its check
reads. -/
theorem reclaim_turns (service : Service) (attempt : AttemptID) (check : Tx Bool) (reason : String)
    (now appliedAt : Time) (reads : Tx.Reads check) :
    TurnsBooks (service.reclaim attempt check reason now appliedAt) := by
  intro db result next finished
  unfold Service.reclaim at finished
  obtain ⟨row, _, readRow, finished⟩ := bind_ok.mp finished
  obtain ⟨_, rfl⟩ := Tx.getAttempt_spec readRow
  obtain ⟨job, _, locks, finished⟩ := bind_ok.mp finished
  obtain ⟨found, rfl⟩ := Tx.lockJob_spec locks
  obtain ⟨again, _, rereads, finished⟩ := bind_ok.mp finished
  obtain ⟨_, rfl⟩ := Tx.getAttempt_spec rereads
  split at finished
  · obtain ⟨_, dropped, drops, finished⟩ := bind_ok.mp finished
    cases pure_ok.mp finished
    rw [Tx.deleteLease_quiet _ _ _ _ drops]
    exact .moves .refl
  · obtain ⟨still, _, checks, finished⟩ := bind_ok.mp finished
    cases reads _ _ _ checks
    split at finished
    · obtain ⟨_, closed, closes, finished⟩ := bind_ok.mp finished
      cases pure_ok.mp finished
      have stored : db.jobs.find job.id = some job := by rwa [Table.find_key found]
      obtain ⟨closing, _, _, wrote⟩ := closeAttempt_spec stored closes
      rw [wrote]
      exact .close closing
    · cases pure_ok.mp finished
      exact .moves .refl

theorem reclaimLease_turns (service : Service) (attempt : AttemptID) (pass now appliedAt : Time) :
    TurnsBooks (service.reclaimLease attempt pass now appliedAt) := by
  refine reclaim_turns _ _ _ _ _ _ fun db result next finished => ?_
  obtain ⟨_, _, reads, finished⟩ := bind_ok.mp finished
  obtain ⟨_, rfl⟩ := Tx.getLease_spec reads
  cases pure_ok.mp finished
  rfl

theorem reclaimStale_turns (service : Service) (reservation : Reservation) (now appliedAt : Time) :
    TurnsBooks (service.reclaimStale reservation now appliedAt) := by
  refine reclaim_turns _ _ _ _ _ _ fun db result next finished => ?_
  obtain ⟨_, _, locks, finished⟩ := bind_ok.mp finished
  obtain ⟨_, rfl⟩ := Tx.lockJob_spec locks
  cases pure_ok.mp finished
  rfl

theorem timeoutStop_moves (service : Service) (id : JobID) (now : Time) :
    MovesBooks (service.timeoutStop id now) := by
  intro db result next finished
  unfold Service.timeoutStop at finished
  obtain ⟨job, _, locks, finished⟩ := bind_ok.mp finished
  obtain ⟨_, rfl⟩ := Tx.lockJob_spec locks
  cases started : job.startedAt with
  | none =>
      simp only [started] at finished
      cases pure_ok.mp finished
      exact .refl
  | some time =>
      simp only [started] at finished
      split at finished
      · obtain ⟨reservation, _, reads, finished⟩ := bind_ok.mp finished
        obtain ⟨_, rfl⟩ := Tx.activeReservation_spec reads
        exact requestStop_moves _ _ _ _ _ finished
      · cases pure_ok.mp finished
        exact .refl

end GpuBroker.ControlPlane
