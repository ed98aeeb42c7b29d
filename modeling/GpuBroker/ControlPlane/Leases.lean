/-
This file is lease safety: when the reconciler may take an attempt from a
worker that holds it.

A transaction reads the clock when it begins and writes when it commits, so a
renewal that was held up can write an earlier expiry over a later one. Where
no renewal goes back in this way, a lease only ever moves forward, the check
under the job lock reads the newest one, and an attempt whose renewal was
reported is not replaced before the expiry it was promised, unless its own
worker ended it or its job was cancelled. The last part is two overlapping
heartbeats after which the attempt is replaced early.
-/
import GpuBroker.ControlPlane.Timeouts
import GpuBroker.ControlPlane.Acks

namespace GpuBroker.ControlPlane

open Library Library.Transaction

/-! ### One clock -/

/-- The readings of the clock a call takes. -/
def Call.readings : Call → List Time
  | .request (.register _ _ _ _ now) => [now]
  | .request (.submit _ _ _ _ now appliedAt) => [now, appliedAt]
  | .request (.cancel _ _ _ now appliedAt) => [now, appliedAt]
  | .request (.claimDispatches _ _ now) => [now]
  | .request (.handleDispatch _ _ now appliedAt) => [now, appliedAt]
  | .request (.ack _ _ now appliedAt) => [now, appliedAt]
  | .request (.heartbeat _ _ _ now) => [now]
  | .request (.reportEvents _ _ events) =>
      events.flatMap fun pair => [pair.2.event, pair.2.now, pair.2.applied]
  | .request (.reclaimLease _ pass now appliedAt) => [pass, now, appliedAt]
  | .request (.reclaimStale _ now appliedAt) => [now, appliedAt]
  | .request (.timeoutStop _ now) => [now]
  | .request (.repairLedger now) => [now]
  | .applyDecision _ _ _ _ _ now appliedAt => [now, appliedAt]
  | _ => []

/-- A call and what the clock showed when it committed. -/
structure Step where
  call : Call
  ended : Time

/-- The clock is shared and never goes back: calls commit in its order, and whatever a call read it
read before it committed. -/
structure OneClock (steps : List Step) : Prop where
  ordered : (steps.map Step.ended).Pairwise (· ≤ ·)
  read : ∀ step ∈ steps, ∀ reading ∈ step.call.readings, reading ≤ step.ended

/-- The database after some steps of the system. -/
def after (service : Service) (steps : List Step) : Database :=
  run service (steps.map Step.call) .initial

/-- The stored attempt of that id, if there is one, is of the job. -/
def attemptOf (db : Database) (id : AttemptID) (job : JobID) : Bool :=
  (db.attempts.find id).all fun attempt => attempt.job = job

/-- The event or the reservation a call was given names an attempt with its job, as the rows of the
store do. -/
def genuine (db : Database) : Call → Bool
  | .request (.handleDispatch _ event _ _) => attemptOf db event.attempt event.job
  | .request (.reclaimStale reservation _ _) => attemptOf db reservation.attempt reservation.job
  | _ => true

/-- The worker's lease on the attempt, if it has one, was last renewed at the reading or before. -/
def renewsForward (db : Database) (worker : WorkerID) (now : Time) (id : AttemptID) : Bool :=
  (db.leases.find id).all fun lease => lease.worker ≠ worker || decide (lease.renewedAt ≤ now)

/-- A call renews no lease with an earlier reading of the clock than the lease was last renewed
with. -/
def forward (db : Database) : Call → Bool
  | .request (.heartbeat principal _ held now) =>
      held.all (renewsForward db principal.worker now)
  | .request (.ack principal dispatch now _) =>
      renewsForward db principal.worker now dispatch.attempt
  | _ => true

/-! ### What the leases say -/

/-- A worker has claimed the job's current attempt. -/
def JobState.claimed (state : JobState) : Bool :=
  [dispatched, running, cancelRequested].contains state

/-- A lease is of an open attempt on the lease's worker, of a job that has been claimed, and lasts
from its last renewal. -/
structure Leased (service : Service) (db : Live) (id : AttemptID) (lease : Lease) : Prop where
  term : lease.expiresAt = lease.renewedAt + service.cfg.leaseTTL
  attempt : ∃ attempt, db.attempts.find id = some attempt ∧ attempt.outcome = none ∧
    attempt.worker = lease.worker ∧
    ∃ job, db.jobs.find attempt.job = some job ∧ job.state.claimed = true

def AllLeased (service : Service) (db : Live) : Prop :=
  ∀ id lease, db.leases.find id = some lease → Leased service db id lease

/-- Every attempt's number is at most its job's. -/
def Numbered (db : Live) : Prop :=
  ∀ id row, db.attempts.find id = some row →
    ∃ job, db.jobs.find row.job = some job ∧ row.number ≤ job.attempt

/-! ### One call -/

theorem JobState.claimed_cases {state : JobState} (claimed : state.claimed = true) :
    state ≠ .queued ∧ state ≠ .reserved ∧ state.holdsCapacity = true ∧ state.terminal = false := by
  cases state <;> simp_all [JobState.claimed, holdsCapacity, terminal, transitions]

theorem attemptOf_found {db : Database} {id : AttemptID} {job : JobID} {attempt : Attempt}
    (named : attemptOf db id job = true) (found : db.attempts.find id = some attempt) :
    attempt.job = job := by
  unfold attemptOf at named
  rw [found] at named
  exact of_decide_eq_true named

theorem forward_renews {db : Database} {call : Call} {id : AttemptID} {lease : Lease} {now : Time}
    (forwards : forward db call = true) (found : db.leases.find id = some lease)
    (renews : Renews call id lease.worker now) : lease.renewedAt ≤ now := by
  -- the check of the lease that is renewed
  have checked : ∀ {worker : WorkerID}, lease.worker = worker →
      renewsForward db worker now id = true → lease.renewedAt ≤ now := by
    intro worker own check
    unfold renewsForward at check
    rw [found] at check
    simpa [own] using check
  generalize own : lease.worker = worker at renews
  cases renews with
  | heartbeat named =>
      exact checked own (List.all_eq_true.mp forwards id (List.contains_iff_mem.mp named))
  | ack => exact checked own forwards

/-- A lease goes on when its worker and its term do, its attempt stays open, and its job stays
claimed. -/
theorem Leased.later {service : Service} {db next : Live} {id : AttemptID} {lease later : Lease}
    (leased : Leased service db id lease) (worker : later.worker = lease.worker)
    (term : later.expiresAt = later.renewedAt + service.cfg.leaseTTL)
    (stays : ∀ row job, db.attempts.find id = some row → row.outcome = none →
      db.jobs.find row.job = some job → job.state.claimed = true →
        ∃ kept, next.attempts.find id = some kept ∧ kept.outcome = none ∧
          kept.worker = row.worker ∧
          ∃ last, next.jobs.find kept.job = some last ∧ last.state.claimed = true) :
    Leased service next id later := by
  obtain ⟨_, row, found, unclosed, own, job, hasJob, claimed⟩ := leased
  obtain ⟨kept, hasKept, keptOpen, sameWorker, last⟩ := stays row job found unclosed hasJob claimed
  exact ⟨term, kept, hasKept, keptOpen, by rw [sameWorker, own, worker], last⟩

/-- The lease after a renewal is the old one or the renewed one, and its worker and term go with
it. -/
theorem Renewed.origin {service : Service} {db next : Live} {worker : WorkerID}
    {ids : List AttemptID} {now : Time} (renewed : Renewed service db next worker ids now)
    {id : AttemptID} {later : Lease} (found : next.leases.find id = some later) :
    ∃ lease, db.leases.find id = some lease ∧ later.worker = lease.worker ∧
      (lease.expiresAt = lease.renewedAt + service.cfg.leaseTTL →
        later.expiresAt = later.renewedAt + service.cfg.leaseTTL) := by
  rw [renewed id] at found
  obtain ⟨lease, held, same⟩ := Option.map_eq_some_iff.mp found
  refine ⟨lease, held, ?_⟩
  split at same
  · cases same
    exact ⟨rfl, fun _ => rfl⟩
  · cases same
    exact ⟨rfl, fun term => term⟩

/-- A lease that is still there after one was erased was there before, of another attempt. -/
theorem withoutLease_found {db : Live} {other id : AttemptID} {later : Lease}
    (found : (withoutLease db other).find id = some later) :
    db.leases.find id = some later ∧ id ≠ other := by
  rw [withoutLease, Table.find_erase] at found
  obtain ⟨held, kept⟩ := Option.filter_eq_some_iff.mp found
  have key : later.attempt = id := Table.find_key held
  refine ⟨held, ?_⟩
  rintro rfl
  simp [key] at kept

theorem AllLeased.deed {service : Service} {call : Call} {db : Database} {next : Live}
    (sound : Sound db.toBooks) (leased : AllLeased service db.live)
    (named : genuine db call = true) (deed : Deed service db.live next call) :
    AllLeased service next := by
  intro id later found
  cases deed with
  | aside same =>
      rw [same] at found ⊢
      exact leased id later found
  | submitted fresh admitted jobs attempts leases =>
      rw [leases] at found
      have old := leased id later found
      refine old.later rfl old.term fun row job hasRow unclosed hasJob claimed => ?_
      refine ⟨row, attempts ▸ hasRow, unclosed, rfl, job, ?_, claimed⟩
      refine (jobs.find_other fun own => ?_).trans hasJob
      rw [own, fresh] at hasJob
      cases hasJob
  | @moved _ moving moved stored number edge holding target jobs attempts leases =>
      rw [leases] at found
      have old := leased id later found
      refine old.later rfl old.term fun row job hasRow unclosed hasJob claimed => ?_
      refine ⟨row, attempts ▸ hasRow, unclosed, rfl, ?_⟩
      by_cases own : row.job = moving.id
      · rw [own] at hasJob ⊢
        cases stored.symm.trans hasJob
        refine ⟨_, jobs.find_self, ?_⟩
        show moved.state.claimed = true
        rw [(JobState.claimed_cases claimed).2.2.1] at holding
        rcases target with state | state | state | state <;> rw [state] at holding ⊢
        · cases holding
        · cases holding
        · cases holding
        · rfl
      · exact ⟨job, (jobs.find_other own).trans hasJob, claimed⟩
  | @placed _ _ _ _ _ _ _ placing moved opened stored queued number state fresh ofJob numbered
      unacked unclosed unasked jobs attempts leases =>
      rw [leases] at found
      have old := leased id later found
      refine old.later rfl old.term fun row job hasRow unclosed hasJob claimed => ?_
      have away : id ≠ opened.id := by
        rintro rfl
        rw [fresh] at hasRow
        cases hasRow
      refine ⟨row, (attempts.find_other away).trans hasRow, unclosed, rfl, job, ?_, claimed⟩
      refine (jobs.find_other fun own => ?_).trans hasJob
      rw [own] at hasJob
      cases stored.symm.trans hasJob
      exact (JobState.claimed_cases claimed).1 queued
  | @claimed principal event now _ claiming moved attempt stored ofEvent reserved number state
      attemptFound ofAttempt own unclosed current jobs attempts leases =>
      have ofJob : attempt.job = claiming.id := by
        exact (attemptOf_found named (ofAttempt ▸ attemptFound)).trans ofEvent
      have after := jobs.find_self
      rw [leases id] at found
      split at found
      · next claims =>
        cases found
        refine ⟨rfl, attempt, ?_, unclosed, own, _, ofJob ▸ after, ?_⟩
        · rw [attempts, claims.1]
          exact attemptFound
        · show moved.state.claimed = true
          rw [state]
          rfl
      · have old := leased id later found
        refine old.later rfl old.term fun row job hasRow unclosed hasJob claimed => ?_
        refine ⟨row, attempts ▸ hasRow, unclosed, rfl, job, ?_, claimed⟩
        refine (jobs.find_other fun own => ?_).trans hasJob
        rw [own] at hasJob
        cases stored.symm.trans hasJob
        exact (JobState.claimed_cases claimed).2.1 reserved
  | @started _ _ _ _ starting moved attempt stored dispatched number state start forJob
      attemptFound forAttempt own ofJob unacked unclosed jobs attempts leases =>
      obtain ⟨lease, held, worker, term⟩ := leases.origin found
      have old := leased id lease held
      refine old.later worker (term old.term) fun row job hasRow unclosed hasJob claimed => ?_
      have goesOn : ∃ last, next.jobs.find row.job = some last ∧ last.state.claimed = true := by
        by_cases same : row.job = starting.id
        · refine ⟨_, same ▸ jobs.find_self, ?_⟩
          show moved.state.claimed = true
          rw [state]
          rfl
        · exact ⟨job, (jobs.find_other same).trans hasJob, claimed⟩
      by_cases same : id = attempt.id
      · subst same
        cases attemptFound.symm.trans hasRow
        exact ⟨_, attempts.find_self, unclosed, rfl, goesOn⟩
      · exact ⟨row, (attempts.find_other same).trans hasRow, unclosed, rfl, goesOn⟩
  | @noticed _ _ _ _ _ attempt stored cancelling attemptFound ofJob unacked unclosed jobs attempts
      leases =>
      rw [leases] at found
      have old := leased id later found
      refine old.later rfl old.term fun row job hasRow unclosed hasJob claimed => ?_
      by_cases same : id = attempt.id
      · subst same
        cases attemptFound.symm.trans hasRow
        exact ⟨_, attempts.find_self, unclosed, rfl, job, jobs ▸ hasJob, claimed⟩
      · exact ⟨row, (attempts.find_other same).trans hasRow, unclosed, rfl, job, jobs ▸ hasJob,
          claimed⟩
  | renewed jobs attempts leases =>
      obtain ⟨lease, held, worker, term⟩ := leases.origin found
      have old := leased id lease held
      refine old.later worker (term old.term) fun row job hasRow unclosed hasJob claimed => ?_
      exact ⟨row, attempts ▸ hasRow, unclosed, rfl, job, jobs ▸ hasJob, claimed⟩
  | @ordered _ _ _ attempt stored attemptFound ofJob unclosed asks jobs attempts leases =>
      rw [leases] at found
      have old := leased id later found
      refine old.later rfl old.term fun row job hasRow unclosed hasJob claimed => ?_
      by_cases same : id = attempt.id
      · subst same
        cases attemptFound.symm.trans hasRow
        exact ⟨_, attempts.find_self, unclosed, rfl, job, jobs ▸ hasJob, claimed⟩
      · exact ⟨row, (attempts.find_other same).trans hasRow, unclosed, rfl, job, jobs ▸ hasJob,
          claimed⟩
  | @closed _ closing moved attempt ended outcome _ stored number edge state attemptFound ofJob
      unclosed close ground jobs attempts leases =>
      rw [leases] at found
      obtain ⟨held, away⟩ := withoutLease_found found
      have old := leased id later held
      refine old.later rfl old.term fun row job hasRow rowOpen hasJob claimed => ?_
      refine ⟨row, (attempts.find_other away).trans hasRow, rowOpen, rfl, job, ?_, claimed⟩
      refine (jobs.find_other fun own => ?_).trans hasJob
      -- the closing job has one open attempt, and it is not this one
      have same := sound.open_single hasRow attemptFound rowOpen unclosed (own.trans ofJob.symm)
      rw [← same, Table.find_key hasRow] at away
      exact away rfl
  | dropped attemptFound ended jobs attempts leases =>
      rw [leases] at found
      obtain ⟨held, _⟩ := withoutLease_found found
      have old := leased id later held
      refine old.later rfl old.term fun row job hasRow unclosed hasJob claimed => ?_
      exact ⟨row, attempts ▸ hasRow, unclosed, rfl, job, jobs ▸ hasJob, claimed⟩

theorem Numbered.deed {service : Service} {call : Call} {db next : Live} (numbered : Numbered db)
    (deed : Deed service db next call) : Numbered next := by
  intro id row found
  cases before : db.attempts.find id with
  | none =>
      obtain ⟨_, later, _, _, hasLater, counted⟩ := deed.attempt_new before found
      exact ⟨later, hasLater, counted.ge⟩
  | some old =>
      obtain ⟨_, hasRow, lasting⟩ := deed.attempt before
      cases found.symm.trans hasRow
      obtain ⟨job, hasJob, within⟩ := numbered id old before
      obtain ⟨later, hasLater, _, counted, _⟩ := deed.job hasJob
      exact ⟨later, lasting.job ▸ hasLater, lasting.number ▸ within.trans counted⟩

/-- An attempt that a call closed was closed on a ground. -/
theorem Deed.closing {service : Service} {call : Call} {db next : Live}
    (deed : Deed service db next call) {id : AttemptID} {row later : Attempt}
    (found : db.attempts.find id = some row) (unclosed : row.outcome = none)
    (after : next.attempts.find id = some later) (ended : later.outcome ≠ none) :
    ∃ job, db.jobs.find row.job = some job ∧ row.job = job.id ∧ Ground db job row call := by
  have kept : next.attempts = db.attempts → False := by
    intro same
    rw [same, found] at after
    cases after
    exact ended unclosed
  have written : ∀ {old moved : Attempt}, db.attempts.Sets next.attempts moved →
      db.attempts.find old.id = some old → moved.id = old.id → moved.outcome = old.outcome →
        False := by
    intro old moved sets stored key same
    rcases sets.found after with ⟨rfl, own⟩ | ⟨_, before⟩
    · rw [own, key, stored] at found
      cases found
      exact ended (same.trans unclosed)
    · cases before.symm.trans found
      exact ended unclosed
  cases deed with
  | aside same => exact (kept (congrArg Live.attempts same)).elim
  | submitted fresh admitted jobs attempts leases => exact (kept attempts).elim
  | moved stored number edge holding target jobs attempts leases => exact (kept attempts).elim
  | placed stored queued number state fresh ofJob numbered unacked unclosed_ unasked jobs attempts
      leases =>
      rcases attempts.found after with ⟨rfl, own⟩ | ⟨_, before⟩
      · rw [own, fresh] at found
        cases found
      · cases before.symm.trans found
        exact (ended unclosed).elim
  | claimed stored ofEvent reserved number state attemptFound attemptOfEvent own unclosed_ current
      jobs attempts leases => exact (kept attempts).elim
  | started stored dispatched number state start forJob attemptFound forAttempt own ofJob unacked
      unclosed_ jobs attempts leases => exact (written attempts attemptFound rfl rfl).elim
  | noticed stored cancelling attemptFound ofJob unacked unclosed_ jobs attempts leases =>
      exact (written attempts attemptFound rfl rfl).elim
  | renewed jobs attempts leases => exact (kept attempts).elim
  | ordered stored attemptFound ofJob unclosed_ asks jobs attempts leases =>
      exact (written attempts attemptFound rfl rfl).elim
  | @closed _ job _ attempt _ _ _ stored number edge state attemptFound ofJob unclosed_ close ground
      jobs attempts leases =>
      rcases attempts.found after with ⟨_, own⟩ | ⟨_, before⟩
      · rw [own] at found
        cases attemptFound.symm.trans found
        exact ⟨job, ofJob ▸ stored, ofJob, ground⟩
      · cases before.symm.trans found
        exact (ended unclosed).elim
  | dropped attemptFound ended_ jobs attempts leases => exact (kept attempts).elim

/-! ### Runs -/

/-- What holds in every state of a run whose events and reservations are the store's own. -/
structure Sure (service : Service) (db : Database) : Prop where
  balanced : Balanced db.toBooks
  leased : AllLeased service db.live
  numbered : Numbered db.live

theorem Sure.initial (service : Service) : Sure service .initial where
  balanced := Balanced.initial
  leased := fun id _ found => absurd ((Table.find_empty id).symm.trans found) nofun
  numbered := fun id _ found => absurd ((Table.find_empty id).symm.trans found) nofun

theorem Sure.perform {service : Service} {call : Call} {db : Database} (sure : Sure service db)
    (named : genuine db call = true) : Sure service (call.perform service db) where
  balanced := sure.balanced.change (call.perform_changes service sure.balanced)
  leased := sure.leased.deed sure.balanced.sound named (call.deed service sure.balanced)
  numbered := sure.numbered.deed (call.deed service sure.balanced)

theorem everyCall_append {condition : Database → Call → Bool} {service : Service}
    {one two : List Call} {db : Database} :
    everyCall condition service (one ++ two) db = true ↔
      everyCall condition service one db = true ∧
        everyCall condition service two (run service one db) = true := by
  induction one generalizing db with
  | nil => simp [everyCall, run]
  | cons call rest inductionHypothesis =>
      simp only [List.cons_append, everyCall, run, Bool.and_eq_true, inductionHypothesis, and_assoc]

theorem everyCall_cons {condition : Database → Call → Bool} {service : Service} {call : Call}
    {rest : List Call} {db : Database} :
    everyCall condition service (call :: rest) db = true ↔
      condition db call = true ∧ everyCall condition service rest (call.perform service db) = true :=
  Bool.and_eq_true_iff

theorem Sure.run {service : Service} {calls : List Call} {db : Database} (sure : Sure service db)
    (named : everyCall genuine service calls db = true) : Sure service (run service calls db) := by
  induction calls generalizing db with
  | nil => exact sure
  | cons call rest inductionHypothesis =>
      obtain ⟨first, later⟩ := everyCall_cons.mp named
      exact inductionHypothesis (sure.perform first) later

/-- While an attempt is open its lease only moves forward, and stays with its worker. -/
theorem run_lease_forward {service : Service} {calls : List Call} {db : Database}
    (sure : Sure service db) (named : everyCall genuine service calls db = true)
    (forwards : everyCall forward service calls db = true) {id : AttemptID} {lease : Lease} {row : Attempt}
    (held : db.leases.find id = some lease)
    (last : (run service calls db).attempts.find id = some row) (unclosed : row.outcome = none) :
    ∃ later, (ControlPlane.run service calls db).leases.find id = some later ∧
      lease.expiresAt ≤ later.expiresAt := by
  induction calls generalizing db lease with
  | nil => exact ⟨lease, held, le_refl _⟩
  | cons call rest inductionHypothesis =>
      obtain ⟨namedFirst, namedRest⟩ := everyCall_cons.mp named
      obtain ⟨forwardsFirst, forwardsRest⟩ := everyCall_cons.mp forwards
      have deed := call.deed service sure.balanced
      obtain ⟨term, attempt, found, _, _, job, hasJob, claimed⟩ := sure.leased id lease held
      obtain ⟨middle, hasMiddle, _⟩ := deed.attempt found
      have next := sure.perform namedFirst
      obtain ⟨_, hasFinal, lasting⟩ := run_attempt service rest next.balanced hasMiddle
      cases last.symm.trans hasFinal
      have stillOpen : middle.outcome = none := by
        by_contra ended
        rw [lasting.ended ended] at unclosed
        exact ended unclosed
      obtain ⟨later, hasLater, either⟩ := deed.lease held hasMiddle stillOpen
      have grown : lease.expiresAt ≤ later.expiresAt := by
        rcases either with rfl | claims | ⟨now, renews, rfl⟩
        · exact le_refl _
        · -- a claim finds the job reserved, and a leased attempt's job is past that
          cases claims with
          | @claim _ event _ _ other hasOther reserved =>
              rw [← attemptOf_found namedFirst found] at hasOther
              cases hasOther.symm.trans hasJob
              exact absurd reserved (JobState.claimed_cases claimed).2.1
        · rw [term]
          exact Int.add_le_add_right (forward_renews forwardsFirst held renews) _
      obtain ⟨final, hasLease, further⟩ :=
        inductionHypothesis next namedRest forwardsRest hasLater last
      exact ⟨final, hasLease, grown.trans further⟩

/-! ### What the leases promise -/

/-- The call is the end of the attempt by its own worker, or a cancel of its job. -/
def EndedByOwner (call : Call) (attempt : Attempt) : Prop :=
  (∃ principal events, call = .request (.reportEvents principal attempt.id events) ∧
      attempt.worker = principal.worker) ∨
    ∃ principal correlation now appliedAt,
      call = .request (.cancel principal attempt.job correlation now appliedAt)

/-- Whatever attempt of a job the database holds, it is not newer than this one. -/
def Newest (db : Live) (attempt : Attempt) : Prop :=
  ∀ id row, db.attempts.find id = some row → row.job = attempt.job → row.number ≤ attempt.number

def OpenIn (db : Live) (id : AttemptID) : Prop :=
  ∃ row, db.attempts.find id = some row ∧ row.outcome = none

/-- The reconciler closes no attempt whose lease, in any state from the pass's reading of the clock
on, was unexpired at that reading. -/
def NoneLostEarly (service : Service) (steps : List Step) : Prop :=
  ∀ one middle step rest, steps = one ++ (middle ++ step :: rest) →
    ∀ id lease, (after service one).leases.find id = some lease →
      OpenIn (after service (one ++ middle)).live id →
        ¬ OpenIn (after service (one ++ (middle ++ [step]))).live id →
          (∀ other pass now appliedAt,
            step.call = .request (.reclaimLease other pass now appliedAt) →
              lease.expiresAt ≤ pass) ∧
            ∀ reservation now appliedAt,
              step.call ≠ .request (.reclaimStale reservation now appliedAt)

/-- After a heartbeat has reported an attempt as renewed, and as long as the clock has not reached
the renewed expiry, there is no newer attempt of its job, unless the attempt was ended by its own
worker's report or by a cancel. -/
def RenewalsHold (service : Service) (steps : List Step) : Prop :=
  ∀ one step middle rest, steps = one ++ step :: (middle ++ rest) →
    ∀ principal state held now result next,
      step.call = .request (.heartbeat principal state held now) →
        service.heartbeat principal state held now (after service one).toDb =
          .ok (result, next) →
          (∀ later ∈ middle, later.ended < now + service.cfg.leaseTTL) →
            ∀ id ∈ result.renewed, ∃ attempt, (after service one).attempts.find id = some attempt ∧
              (Newest (after service (one ++ step :: middle)).live attempt ∨
                ∃ before call others, middle = before ++ call :: others ∧
                  EndedByOwner call.call attempt ∧
                  OpenIn (after service (one ++ step :: before)).live id ∧
                  ¬ OpenIn (after service (one ++ step :: (before ++ [call]))).live id)

/-- A heartbeat tells its worker to abandon exactly the attempts it named that have no lease for
it. -/
def AbandonsExactly (service : Service) (steps : List Step) : Prop :=
  ∀ one rest, steps = one ++ rest →
    ∀ principal state held now result next,
      service.heartbeat principal state held now (after service one).toDb = .ok (result, next) →
        ∀ id, id ∈ result.abandon ↔
          id ∈ held ∧ ¬ ∃ lease, next.leases.find id = some lease ∧
            lease.worker = principal.worker

structure LeaseSafe (service : Service) (steps : List Step) : Prop where
  lost : NoneLostEarly service steps
  renewed : RenewalsHold service steps
  abandoned : AbandonsExactly service steps

/-! ### No attempt is lost early -/

theorem after_append (service : Service) (one two : List Step) :
    after service (one ++ two) = run service (two.map Step.call) (after service one) := by
  unfold after
  rw [List.map_append, run_append]

/-- What every call of a run has, the calls of its first part have, and those that follow it. -/
theorem everyCall_after {condition : Database → Call → Bool} {service : Service}
    {one two : List Step}
    (every : everyCall condition service ((one ++ two).map Step.call) .initial = true) :
    everyCall condition service (one.map Step.call) .initial = true ∧
      everyCall condition service (two.map Step.call) (after service one) = true := by
  rw [List.map_append] at every
  exact everyCall_append.mp every

/-- An attempt that is open before a call and not after it is there after it, with an outcome. -/
theorem Deed.closes_row {service : Service} {call : Call} {db next : Live}
    (deed : Deed service db next call) {id : AttemptID} (before : OpenIn db id)
    (after : ¬ OpenIn next id) :
    ∃ row job, db.attempts.find id = some row ∧ row.outcome = none ∧
      db.jobs.find row.job = some job ∧ row.job = job.id ∧ Ground db job row call := by
  obtain ⟨row, found, unclosed⟩ := before
  obtain ⟨later, hasLater, _⟩ := deed.attempt found
  have ended : later.outcome ≠ none := fun still => after ⟨later, hasLater, still⟩
  obtain ⟨job, hasJob, ofJob, ground⟩ := deed.closing found unclosed hasLater ended
  exact ⟨row, job, found, unclosed, hasJob, ofJob, ground⟩

/-- An attempt with a lease is not taken back as stale. -/
theorem AllLeased.not_stale {service : Service} {db : Database}
    (leased : AllLeased service db.live)
    {id : AttemptID} {lease : Lease} {owner : Job} {reservation : Reservation}
    {now appliedAt : Time} (held : db.leases.find id = some lease)
    (ofAttempt : reservation.attempt = id)
    (named : genuine db (.request (.reclaimStale reservation now appliedAt)) = true)
    (hasOwner : db.jobs.find reservation.job = some owner) : owner.state ≠ .reserved := by
  intro reserved
  obtain ⟨_, attempt, hasAttempt, _, _, job, hasJob, claimed⟩ := leased id lease held
  rw [attemptOf_found named (ofAttempt ▸ hasAttempt)] at hasJob
  cases hasJob.symm.trans hasOwner
  exact (JobState.claimed_cases claimed).2.1 reserved

theorem none_lost_early {service : Service} {steps : List Step}
    (named : everyCall genuine service (steps.map Step.call) .initial = true)
    (forwards : everyCall forward service (steps.map Step.call) .initial = true) :
    NoneLostEarly service steps := by
  rintro one middle step rest rfl id lease held before ended
  obtain ⟨namedOne, namedRest⟩ := everyCall_after named
  obtain ⟨_, forwardsRest⟩ := everyCall_after forwards
  rw [List.map_append] at namedRest forwardsRest
  obtain ⟨namedMiddle, namedLast⟩ := everyCall_append.mp namedRest
  obtain ⟨namedStep, _⟩ := everyCall_cons.mp namedLast
  obtain ⟨forwardsMiddle, _⟩ := everyCall_append.mp forwardsRest
  have sure : Sure service (after service one) := (Sure.initial service).run namedOne
  have middleSure := sure.run namedMiddle
  rw [after_append] at before ended
  rw [List.map_append, run_append] at ended
  have deed := step.call.deed service middleSure.balanced
  obtain ⟨row, job, found, unclosed, _, _, ground⟩ := deed.closes_row before ended
  obtain ⟨last, hasLast, grown⟩ :=
    run_lease_forward sure namedMiddle forwardsMiddle held found unclosed
  have key : row.id = id := Table.find_key found
  constructor
  · intro other pass now appliedAt same
    rw [same] at ground
    cases ground with
    | expired hasLease past =>
        rw [key] at hasLease
        cases hasLease.symm.trans hasLast
        exact grown.trans past
  · intro reservation now appliedAt same
    rw [same] at ground namedStep
    cases ground with
    | stale ofAttempt hasOwner reserved =>
        exact middleSure.leased.not_stale hasLast (ofAttempt.trans key) namedStep hasOwner
          reserved

/-! ### A renewal holds -/

/-- An open attempt stays open over some steps, or one of them closes it. -/
theorem open_or_closed (service : Service) (steps : List Step) {db : Database} {id : AttemptID}
    (before : OpenIn db.live id) :
    OpenIn (run service (steps.map Step.call) db).live id ∨
      ∃ front step others, steps = front ++ step :: others ∧
        OpenIn (run service (front.map Step.call) db).live id ∧
        ¬ OpenIn (step.call.perform service (run service (front.map Step.call) db)).live id := by
  induction steps generalizing db with
  | nil => exact Or.inl before
  | cons step rest inductionHypothesis =>
      by_cases still : OpenIn (step.call.perform service db).live id
      · rcases inductionHypothesis still with stays | ⟨front, last, others, rfl, opened, closed⟩
        · exact Or.inl stays
        · exact Or.inr ⟨step :: front, last, others, rfl, opened, closed⟩
      · exact Or.inr ⟨[], step, rest, rfl, before, still⟩

/-- An open attempt is the newest of its job. -/
theorem Sure.newest {service : Service} {db : Database} (sure : Sure service db) {id : AttemptID}
    {row attempt : Attempt} (found : db.attempts.find id = some row) (unclosed : row.outcome = none)
    (job : row.job = attempt.job) (number : row.number = attempt.number) :
    Newest db.live attempt := by
  intro other another hasOther sameJob
  obtain ⟨holder, hasHolder, within⟩ := sure.numbered other another hasOther
  have stored : db.attempts.find row.id = some row := by rwa [Table.find_key found]
  obtain ⟨_, held, hasHeld, ofAttempt, unreleased, ofJob⟩ :=
    sure.balanced.sound.open_reserved stored unclosed
  have hasJob : db.jobs.find held.job = some holder := by
    rw [ofJob, job, ← sameJob]
    exact hasHolder
  have current := (sure.balanced.sound.current _ _ hasHeld unreleased holder row hasJob
    (ofAttempt ▸ stored)).2
  linarith

/-- A heartbeat that went through has renewed the worker's leases among those named, and abandons
the others. -/
theorem heartbeat_spec {service : Service} {principal : Principal} {state : WorkerState}
    {held : List AttemptID} {now : Time} {db next : Db} {result : Service.HeartbeatResult}
    (finished : service.heartbeat principal state held now db = .ok (result, next)) :
    (∀ id, next.leases.find id = (db.leases.find id).map fun row =>
      if row.worker = principal.worker ∧ held.contains row.attempt then
        { row with expiresAt := now + service.cfg.leaseTTL, renewedAt := now }
      else row) ∧
    (∀ id, id ∈ result.renewed ↔
      held.contains id ∧ ∃ row, db.leases.find id = some row ∧ row.worker = principal.worker) ∧
    result.abandon = held.filter fun id => !result.renewed.contains id := by
  unfold Service.heartbeat at finished
  obtain ⟨_, _, isWorker, finished⟩ := bind_ok.mp finished
  obtain ⟨_, rfl⟩ := require_ok.mp isWorker
  obtain ⟨_, _, reportable, finished⟩ := bind_ok.mp finished
  obtain ⟨_, rfl⟩ := require_ok.mp reportable
  obtain ⟨_, _, few, finished⟩ := bind_ok.mp finished
  obtain ⟨_, rfl⟩ := require_ok.mp few
  obtain ⟨_, touched, touches, finished⟩ := bind_ok.mp finished
  have keptLeases := Tx.touchWorker_leases _ _ _ _ _ _ touches
  obtain ⟨renewed, _, renews, finished⟩ := bind_ok.mp finished
  obtain ⟨_, _, reads, finished⟩ := bind_ok.mp finished
  cases get_ok.mp reads
  cases pure_ok.mp finished
  rw [← keptLeases]
  obtain ⟨leases, members⟩ := Tx.renewLeases_leases renews
  exact ⟨leases, members, rfl⟩

theorem renewals_hold {service : Service} {steps : List Step} (clock : OneClock steps)
    (named : everyCall genuine service (steps.map Step.call) .initial = true)
    (forwards : everyCall forward service (steps.map Step.call) .initial = true) :
    RenewalsHold service steps := by
  rintro one step middle rest rfl principal state held now result next same finished soon id renewed
  obtain ⟨namedOne, namedLast⟩ := everyCall_after named
  obtain ⟨namedStep, namedRest⟩ := everyCall_cons.mp namedLast
  obtain ⟨_, forwardsLast⟩ := everyCall_after forwards
  obtain ⟨_, forwardsRest⟩ := everyCall_cons.mp forwardsLast
  rw [List.map_append] at namedRest forwardsRest
  obtain ⟨namedMiddle, _⟩ := everyCall_append.mp namedRest
  obtain ⟨forwardsMiddle, _⟩ := everyCall_append.mp forwardsRest
  have sure : Sure service (after service one) := (Sure.initial service).run namedOne
  have first := sure.perform namedStep
  have performed : step.call.perform service (after service one) =
      { after service one with toDb := next } := by
    rw [same]
    exact perform_request (ignore_of_ok finished)
  obtain ⟨leases, members, _⟩ := heartbeat_spec finished
  obtain ⟨named, lease, hasLease, own⟩ := (members id).mp renewed
  -- the heartbeat leaves the attempt of the lease, and the lease runs to the promised expiry
  obtain ⟨_, attempt, found, unclosed, _, _⟩ := sure.leased id lease hasLease
  have deed := step.call.deed service sure.balanced
  obtain ⟨row, hasRow, lasting⟩ := deed.attempt found
  have promised : (step.call.perform service (after service one)).leases.find id =
      some { lease with expiresAt := now + service.cfg.leaseTTL, renewedAt := now } := by
    rw [performed]
    show next.leases.find id = _
    rw [leases id, hasLease, Option.map_some,
      if_pos ⟨own, by rw [show lease.attempt = id from Table.find_key hasLease]; exact named⟩]
  have stillOpen : OpenIn (step.call.perform service (after service one)).live id := by
    obtain ⟨_, kept, hasKept, keptOpen, _⟩ := first.leased id _ promised
    exact ⟨kept, hasKept, keptOpen⟩
  have split : ∀ more : List Step, after service (one ++ step :: more) =
      run service (more.map Step.call) (step.call.perform service (after service one)) :=
    fun more => after_append service one (step :: more)
  refine ⟨attempt, found, ?_⟩
  rcases open_or_closed service middle stillOpen with ⟨last, hasLast, lastOpen⟩ |
    ⟨front, call, others, rfl, opened, closed⟩
  · left
    rw [split]
    obtain ⟨_, hasFinal, lastingOn⟩ := run_attempt service _ first.balanced hasRow
    cases hasFinal.symm.trans hasLast
    have throughout := lasting.trans lastingOn
    exact (first.run namedMiddle).newest hasLast lastOpen throughout.job throughout.number
  · right
    refine ⟨front, call, others, rfl, ?_, ?_, ?_⟩
    · rw [List.map_append] at namedMiddle forwardsMiddle
      obtain ⟨namedFront, namedOthers⟩ := everyCall_append.mp namedMiddle
      obtain ⟨namedCall, _⟩ := everyCall_cons.mp namedOthers
      obtain ⟨forwardsFront, _⟩ := everyCall_append.mp forwardsMiddle
      have frontSure := first.run namedFront
      obtain ⟨last, job, hasLast, lastOpen, _, ofJob, ground⟩ :=
        (call.call.deed service frontSure.balanced).closes_row opened closed
      obtain ⟨final, hasFinal, grown⟩ :=
        run_lease_forward first namedFront forwardsFront promised hasLast lastOpen
      obtain ⟨_, hasKept, lastingOn⟩ := run_attempt service _ first.balanced hasRow
      cases hasKept.symm.trans hasLast
      have throughout := lasting.trans lastingOn
      have key : last.id = attempt.id := by rw [Table.find_key hasLast, Table.find_key found]
      generalize asked : call.call = request at ground namedCall
      cases ground with
      | report ownEnd =>
          exact Or.inl ⟨_, _, by rw [key], throughout.worker ▸ ownEnd⟩
      | cancel reserved =>
          exact Or.inr ⟨_, _, _, _, by rw [← ofJob, throughout.job]⟩
      | @expired pass _ _ expired hasExpired past =>
          -- the pass read the clock before it committed, and that was before the promised expiry
          rw [show last.id = id from Table.find_key hasLast] at hasExpired
          cases hasExpired.symm.trans hasFinal
          have read : pass ≤ call.ended := by
            refine clock.read call ?_ pass ?_
            · simp
            · rw [asked]
              simp [Call.readings]
          have early := soon call (by simp)
          have promise : now + service.cfg.leaseTTL ≤ final.expiresAt := grown
          linarith
      | stale ofAttempt hasOwner reserved =>
          exact absurd reserved (frontSure.leased.not_stale hasFinal
            (ofAttempt.trans (Table.find_key hasLast)) namedCall hasOwner)
    · rw [split]
      exact opened
    · rw [split, List.map_append, run_append]
      exact closed

theorem abandons_exactly (service : Service) (steps : List Step) :
    AbandonsExactly service steps := by
  rintro one rest _ principal state held now result next finished id
  obtain ⟨leases, members, abandon⟩ := heartbeat_spec finished
  have same : (∃ lease, next.leases.find id = some lease ∧ lease.worker = principal.worker) ↔
      ∃ lease, (after service one).leases.find id = some lease ∧
        lease.worker = principal.worker := by
    rw [leases id]
    constructor
    · rintro ⟨later, found, own⟩
      obtain ⟨lease, hasLease, rfl⟩ := Option.map_eq_some_iff.mp found
      refine ⟨lease, hasLease, ?_⟩
      split at own <;> exact own
    · rintro ⟨lease, hasLease, own⟩
      refine ⟨_, by rw [hasLease]; rfl, ?_⟩
      dsimp only
      split <;> exact own
  have missing : (!result.renewed.contains id) = true ↔ id ∉ result.renewed := by simp
  rw [abandon, List.mem_filter, same, missing, members, List.contains_iff_mem]
  constructor
  · rintro ⟨named, others⟩
    exact ⟨named, fun own => others ⟨named, own⟩⟩
  · rintro ⟨named, others⟩
    exact ⟨named, fun own => others own.2⟩

/-- With one clock, in every run in which no call renews a lease with an earlier reading than it
was last renewed with, the leases are safe. -/
theorem leases_safe (service : Service) (steps : List Step) (clock : OneClock steps)
    (named : everyCall genuine service (steps.map Step.call) .initial = true)
    (forwards : everyCall forward service (steps.map Step.call) .initial = true) : LeaseSafe service steps where
  lost := none_lost_early named forwards
  renewed := renewals_hold clock named forwards
  abandoned := abandons_exactly service steps

/-! ### Two overlapping heartbeats -/

/-- The first attempt is claimed and acknowledged at the start. -/
def startedSteps : List Step := ((retriedRun 0).take 9).map fun call => ⟨call, 0⟩

/-- The attempt is renewed at ten seconds. -/
def renewingStep : Step where
  call := .request (.heartbeat retriedWorker .ready ["first"] (10 * second))
  ended := 10 * second

/-- Another heartbeat of the worker commits a second later, with a reading of its own; then the
lease is looked at, and the job placed again before the expiry the first heartbeat promised. -/
def laterSteps (reading : Time) : List Step :=
  [⟨.request (.heartbeat retriedWorker .ready ["first"] reading), 11 * second⟩,
    ⟨.request (.reclaimLease "first" (51 * second) (51 * second) (51 * second)), 51 * second⟩,
    ⟨.applyDecision 1 "tock" placeOnWorker "second" "two" (52 * second) (52 * second), 52 * second⟩]

def heartbeatsRun (reading : Time) : List Step :=
  startedSteps ++ renewingStep :: (laterSteps reading ++ [])

/-- In order, the second heartbeat renews the lease further. -/
theorem leases_safe_renewed : LeaseSafe plainService (heartbeatsRun (11 * second)) :=
  leases_safe plainService _ ⟨by decide +kernel, by decide +kernel⟩ (by decide +kernel)
    (by decide +kernel)

/-- With a reading from before the first heartbeat the second one takes five seconds of the lease
back, and the job has a newer attempt three seconds before the promised expiry. -/
theorem renewal_taken_back :
    OneClock (heartbeatsRun (5 * second)) ∧
      everyCall genuine plainService ((heartbeatsRun (5 * second)).map Step.call) .initial = true ∧
      ¬ RenewalsHold plainService (heartbeatsRun (5 * second)) := by
  refine ⟨⟨by decide +kernel, by decide +kernel⟩, by decide +kernel, fun holds => ?_⟩
  have beats : ((plainService.heartbeat retriedWorker .ready ["first"] (10 * second)
      (after plainService startedSteps).toDb).toOption.map fun pair =>
        pair.1.renewed.contains "first") = some true := by
    decide +kernel
  have first : ((after plainService startedSteps).attempts.find "first").all
      (fun attempt => attempt.job = "job" ∧ attempt.number = 1) = true := by
    decide +kernel
  have replaced : ((after plainService (startedSteps ++ renewingStep :: laterSteps
      (5 * second))).attempts.find "second").any
        (fun attempt => attempt.job = "job" ∧ attempt.number = 2) = true := by
    decide +kernel
  obtain ⟨⟨result, next⟩, finished, renewed⟩ := Option.map_eq_some_iff.mp beats
  obtain ⟨attempt, found, either⟩ := holds startedSteps renewingStep (laterSteps (5 * second)) []
    rfl _ _ _ _ result next rfl (ok_of_toOption finished) (by decide +kernel) "first"
    (List.contains_iff_mem.mp renewed)
  rcases either with newest | ⟨before, step, others, split, ended, _⟩
  · generalize after plainService startedSteps = start at found first
    generalize after plainService (startedSteps ++ renewingStep :: laterSteps (5 * second)) = last
      at newest replaced
    obtain ⟨later, hasLater, facts⟩ := (Option.any_eq_true _ _).mp replaced
    obtain ⟨sameJob, second⟩ := of_decide_eq_true facts
    rw [found] at first
    obtain ⟨job, number⟩ := of_decide_eq_true first
    have older := newest "second" later hasLater (sameJob.trans job.symm)
    rw [second, number] at older
    exact absurd older (by decide)
  · -- none of the later calls is a report or a cancel
    have member : step ∈ laterSteps (5 * second) := split ▸ by simp
    simp only [laterSteps, List.mem_cons, List.not_mem_nil, or_false] at member
    rcases member with rfl | rfl | rfl <;>
      rcases ended with ⟨_, _, same, _⟩ | ⟨_, _, _, _, same⟩ <;> cases same

end GpuBroker.ControlPlane
