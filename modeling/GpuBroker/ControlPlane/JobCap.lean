/-
This file is about the per-job budget cap: what the code keeps of it, and where
it does not.

The filter compares the cap with the cost of one attempt. What a lost attempt
was charged stays charged, so the next attempt's full hold can come on top of
it. The cap is kept in every run that places a capped job only while what is
settled and the new hold fit it together; the last part is a run in which every
placement passes the filter and the cap is exceeded.
-/
import GpuBroker.ControlPlane.Outcomes
import GpuBroker.ControlPlane.Policy

namespace GpuBroker.ControlPlane

open Library Library.Transaction

/-! ### What is spent on a job -/

/-- What the ledger settled of a job. -/
def settledOf (ledger : List LedgerEntry) (id : JobID) : MicroUSD :=
  ledgerSum ledger .settle fun entry => entry.job = id

/-- No capped job has more settled and outstanding than its cap. -/
def Capped (books : Books) : Prop :=
  ∀ id job, books.jobs.find id = some job → 0 < job.budgetCap →
    settledOf books.ledger id + outstandingOf books.ledger id ≤ job.budgetCap

/-- What is settled and outstanding of a job are the holds it has not released. -/
theorem spent_eq (ledger : List LedgerEntry) (id : JobID) :
    settledOf ledger id + outstandingOf ledger id =
      ledgerSum ledger .hold (fun entry => entry.job = id) -
        ledgerSum ledger .release (fun entry => entry.job = id) := by
  unfold settledOf outstandingOf
  linarith

/-- The books of a job go on from one state to a later one: it was there with the same cap, or it
is new. -/
structure Carried (books next : Books) : Prop where
  ledger : next.ledger = books.ledger
  jobs : ∀ id job, next.jobs.find id = some job →
    (∃ old, books.jobs.find id = some old ∧ old.budgetCap = job.budgetCap) ∨
      books.jobs.find id = none

theorem Carried.refl (books : Books) : Carried books books :=
  ⟨rfl, fun _ job found => Or.inl ⟨job, found, rfl⟩⟩

/-- Saving a job's row keeps its cap. -/
theorem saved_cap {books : Books} {target id : JobID} {row next job : Job}
    (stored : books.jobs.find target = some row)
    (found : (books.jobs.modify target fun row => Job.saved row next).find id = some job) :
    ∃ old, books.jobs.find id = some old ∧ old.budgetCap = job.budgetCap := by
  rw [Table.find_modify_found stored (fun row => Job.saved row next) fun _ => rfl] at found
  split at found
  · next same =>
    cases found
    exact ⟨row, same ▸ stored, rfl⟩
  · exact ⟨job, found, rfl⟩

theorem Carried.move {books next : Books} (moved : Move books next) : Carried books next := by
  have refl := Carried.refl books
  cases moved with
  | newJob inserted submitted first atLeastOne positive registered =>
      refine ⟨rfl, fun id job found => ?_⟩
      change Table.find _ id = some job at found
      rw [Table.find_insert inserted] at found
      split at found
      · next same => exact Or.inr (same ▸ (Table.insert_eq_some inserted).1)
      · exact Or.inl ⟨job, found, rfl⟩
  | job found advance => exact ⟨rfl, fun id job after => Or.inl (saved_cap found after)⟩
  | newProject inserted nonneg => exact { refl with }
  | newWorker inserted idle positive => exact { refl with }
  | workers which set same kept => exact { refl with }
  | attempt target set same found unclosed kept => exact { refl with }

/-- A job that is not there has no lines. -/
theorem Balanced.spent_absent {books : Books} (balanced : Balanced books) {id : JobID}
    (absent : books.jobs.find id = none) :
    settledOf books.ledger id + outstandingOf books.ledger id = 0 := by
  have unused : ∀ entry ∈ books.ledger, decide (entry.job = id) = false := by
    intro entry member
    obtain ⟨_, row, job, _, hasJob, _, ofJob, _⟩ := balanced.funded.owned entry member
    refine decide_eq_false fun named => ?_
    rw [← ofJob, named, absent] at hasJob
    cases hasJob
  rw [spent_eq, ledgerSum_none unused, ledgerSum_none unused, sub_zero]

theorem Capped.carried {books next : Books} (balanced : Balanced books) (capped : Capped books)
    (carried : Carried books next) : Capped next := by
  intro id job found positive
  rw [carried.ledger]
  rcases carried.jobs id job found with ⟨old, hasOld, cap⟩ | absent
  · rw [← cap]
    exact capped id old hasOld (cap ▸ positive)
  · rw [balanced.spent_absent absent]
    exact le_of_lt positive

theorem Capped.moves {books next : Books} (balanced : Balanced books) (capped : Capped books)
    (moved : Moves books next) : Capped next := by
  induction moved with
  | refl => exact capped
  | tail before last inductionHypothesis =>
      exact inductionHypothesis.carried (balanced.moves before) (Carried.move last)

/-- A closing settles and releases what was held, so it spends nothing more. -/
theorem Capped.close {books : Books} (balanced : Balanced books) (capped : Capped books)
    (closing : Closing books) : Capped closing.result := by
  intro id job found positive
  obtain ⟨old, hasOld, cap⟩ := saved_cap closing.jobFound found
  obtain ⟨nonneg, within⟩ := closing.settled_bounds balanced.sound balanced.funded
  have before := capped id old hasOld (cap ▸ positive)
  rw [← cap]
  refine le_trans ?_ before
  rw [spent_eq, spent_eq]
  show ledgerSum (books.ledger ++ closing.lines) _ _ - ledgerSum (books.ledger ++ closing.lines) _ _
    ≤ _
  rw [closing.lines_eq balanced.sound balanced.funded]
  simp only [ledgerSum_append]
  rw [ledgerSum_charge (by simpa using nonneg), ledgerSum_charge (by simpa using sub_nonneg.mpr within),
    ledgerSum_charge (by simpa using nonneg), ledgerSum_charge (by simpa using sub_nonneg.mpr within)]
  simp only [entryOf]
  grind

theorem Capped.turn {books next : Books} (balanced : Balanced books) (capped : Capped books)
    (taken : Turn books next) : Capped next := by
  cases taken with
  | moves moved => exact capped.moves balanced moved
  | close closing => exact capped.close balanced closing

/-- A placement keeps the cap of its job when the new hold fits it next to what is settled. -/
theorem Capped.place {books : Books} (balanced : Balanced books) (capped : Capped books)
    (placement : Placement books) (fits : 0 < placement.job.budgetCap →
      settledOf books.ledger placement.job.id + placement.hold ≤ placement.job.budgetCap) :
    Capped placement.result := by
  intro id job found positive
  obtain ⟨old, hasOld, cap⟩ := saved_cap placement.jobFound found
  have nonneg : 0 ≤ placement.hold := costOf_nonneg _ _ _
  have grows : settledOf placement.result.ledger id + outstandingOf placement.result.ledger id =
      settledOf books.ledger id + outstandingOf books.ledger id +
        if placement.job.id = id then placement.hold else 0 := by
    rw [spent_eq, spent_eq]
    simp only [Placement.result, ledgerSum_append]
    rw [ledgerSum_charge nonneg, ledgerSum_charge nonneg]
    simp only [entryOf]
    grind
  rw [grows, ← cap]
  by_cases same : placement.job.id = id
  · -- the queued job has nothing outstanding
    have ours := placement.jobFound
    rw [same, hasOld] at ours
    cases ours
    have idle := balanced.outstanding_idle placement.jobFound
      (waiting_not_holding (queued_waits placement.queued))
    rw [if_pos same, ← same, idle, add_zero]
    exact fits (cap ▸ positive)
  · rw [if_neg same, add_zero]
    exact capped id old hasOld (cap ▸ positive)

/-! ### Runs that keep the cap -/

/-- The condition on a call: if it places a queued job that has a cap, then what is settled of the
job and the cost of one attempt at the pool's current price are together within the cap. -/
def affordable (db : Database) : Call → Bool
  | .applyDecision _ _ decision _ _ _ _ =>
      match db.jobs.find decision.job, db.pools.find decision.chosenPool with
      | some job, some pool =>
          decide (decision.action = .place ∧ job.state = .queued ∧ 0 < job.budgetCap →
            settledOf db.ledger job.id +
              costOf pool.pricePerGPUHour job.requirements.gpus job.maxRuntime ≤ job.budgetCap)
      | _, _ => true
  | _ => true

/-- Every call of a run meets a condition in the state it meets. -/
def everyCall (condition : Database → Call → Bool) (service : Service) :
    List Call → Database → Bool
  | [], _ => true
  | call :: rest, db =>
      condition db call && everyCall condition service rest (call.perform service db)

theorem Capped.perform (service : Service) {call : Call} {db : Database}
    (balanced : Balanced db.toBooks) (capped : Capped db.toBooks)
    (fits : affordable db call = true) : Capped (call.perform service db).toBooks := by
  rcases commit_cases (call.body service) db with ⟨_, finished, _⟩ | unchanged
  swap
  · unfold Call.perform
    rw [unchanged]
    exact capped
  change Capped (commit (call.body service) db).2.toBooks
  generalize (commit (call.body service) db).2 = next at finished
  cases call with
  | request asked =>
      exact capped.turn balanced (asked.turns service balanced (onTables_ok.mp finished).1)
  | tryLead =>
      obtain ⟨_, ran⟩ := ignore_ok finished
      cases ran
      exact capped
  | applyDecision epoch tick decision attempt reservation now appliedAt =>
      obtain ⟨_, _, checks, enacts⟩ := bind_ok.mp finished
      obtain ⟨_, rfl⟩ := checkEpoch_ok.mp checks
      rcases enact_spec (onTables_ok.mp enacts).1 with
        taken | ⟨places, placement, ofJob, _, _, ⟨pool, hasPool, price⟩, wrote⟩
      · exact capped.turn balanced taken
      · rw [wrote]
        refine capped.place balanced placement fun positive => ?_
        have hasJob := placement.jobFound
        rw [ofJob] at hasJob
        simp only [affordable, hasJob, hasPool] at fits
        have within := of_decide_eq_true fits ⟨places, placement.queued, positive⟩
        rw [price] at within
        exact within

/-- In every run that places a capped job only when what is settled and the new hold fit its cap
together, no capped job ever has more settled and outstanding than its cap. -/
theorem job_cap_kept (service : Service) (calls : List Call)
    (fits : everyCall affordable service calls .initial = true) :
    Capped (run service calls .initial).toBooks := by
  have initial : Capped Database.initial.toBooks :=
    fun id _ found => absurd ((Table.find_empty id).symm.trans found) nofun
  have balanced : Balanced Database.initial.toBooks := Balanced.initial
  generalize Database.initial = db at fits initial balanced
  induction calls generalizing db with
  | nil => exact initial
  | cons call rest inductionHypothesis =>
      obtain ⟨now, later⟩ := Bool.and_eq_true_iff.mp fits
      exact inductionHypothesis _ later (initial.perform service balanced now)
        (balanced.change (call.perform_changes service balanced))

/-! ### A run that exceeds it -/

/-- What a snapshot of the database says a project may still hold. -/
def availableIn (db : Db) (id : ProjectID) : Option MicroUSD :=
  (db.projects.find id).map fun project =>
    projectAvailable project.budget (outstandingWhere db.ledger fun entry => entry.project = id)
      (ledgerSum db.ledger .settle fun entry => entry.project = id)

/-- A decision's worker passes the filter on a snapshot of the database. -/
def cleared (db : Database) : Call → Bool
  | .applyDecision _ _ decision _ _ _ _ =>
      match db.jobs.find decision.job, db.workers.find decision.chosenWorker,
        db.pools.find decision.chosenPool with
      | some job, some worker, some pool =>
          (filter job worker pool worker.freeGPUs (fun _ => none) (availableIn db.toDb)).isNone
      | _, _, _ => false
  | _ => true

/-- A service with one policy, whose digests are the texts themselves. -/
def plainService : Service where
  cfg := .default
  policies := ["balanced"]
  specDigest := fun image _ _ _ => image
  sign := fun attempt _ _ digest => attempt ++ digest
  verify := fun attempt _ _ digest mac => mac = attempt ++ digest

/-- A job for one GPU for up to an hour, with a cap. -/
def cappedRequest (cap : MicroUSD) : SubmitRequest where
  project := ""
  image := "trainer"
  command := ["train"]
  gpus := 1
  gpuModel := ""
  minGPUMemGB := 0
  runtime := ""
  priority := 0
  preemptible := false
  deadline := none
  maxRuntime := hour
  maxDelay := 0
  budgetCap := cap
  policy := ""
  allowedPools := []
  maxAttempts := 3

def placeOnWorker : Decision where
  job := "job"
  tenant := "tenant"
  policyVersion := "balanced"
  action := .place
  reason := "best of 1 candidates"
  chosenWorker := "worker"
  chosenPool := "pool"
  delayUntil := none
  budgetEffect := 1000000
  priceRate := 1000000
  fallbacks := []
  victim := ""
  inputDigest := ""

/-- A job is placed at one dollar an hour and acknowledged, its worker falls silent, the lease is
reclaimed after a minute, and the job is placed again. -/
def retriedRun (cap : MicroUSD) : List Call :=
  let member : Principal :=
    { kind := .user, user := "user", tenant := "tenant", role := .member, worker := "", pool := "" }
  let bootstrap : Principal := { member with kind := .bootstrap, pool := "pool" }
  let worker : Principal := { member with kind := .worker, worker := "worker" }
  let event : OutboxEvent :=
    { id := 1, topic := "worker", job := "job", attempt := "first", availableAt := 0, attempts := 1
      lockedUntil := some (30 * second), lockedBy := some "worker", deliveredAt := none }
  let dispatch : Service.Dispatch :=
    { attempt := "first", job := "job", worker := "worker", image := "trainer"
      command := ["train"], gpus := 1, gpuModel := "", runtime := "", maxRuntimeS := 3600
      leaseExpires := 45 * second, specDigest := "trainer", mac := "firsttrainer" }
  [.request (.createTenant "tenant" "project" 10000000 0 0),
    .request (.upsertPool
      { id := "pool", name := "pool", kind := .simulated, region := "region"
        pricePerGPUHour := 1000000, interruptible := false }),
    .request (.register bootstrap "worker"
      { gpuModel := "a100", gpus := 1, gpuMemGB := 80, runtimes := ["sim"], region := "" }
      "worker" 0),
    .request (.submit member (cappedRequest cap) "request" "job" 0 0),
    .tryLead,
    .applyDecision 1 "tick" placeOnWorker "first" "one" 0 0,
    .request (.claimDispatches worker 1 0),
    .request (.handleDispatch worker event 0 0),
    .request (.ack worker dispatch 0 0),
    .request (.reclaimLease "first" minute minute minute),
    .applyDecision 1 "tock" placeOnWorker "second" "two" minute minute]

/-- With a cap that pays for both attempts the run meets the condition. -/
theorem job_cap_kept_retried :
    everyCall affordable plainService (retriedRun 1500000) .initial = true ∧
      Capped (run plainService (retriedRun 1500000) .initial).toBooks :=
  have fits : everyCall affordable plainService (retriedRun 1500000) .initial = true := by
    decide +kernel
  ⟨fits, job_cap_kept plainService (retriedRun 1500000) fits⟩

/-- With a cap that pays for one full attempt, every placement of the run passes the filter, and
after the second one the settled minute and the new hold exceed the cap. -/
theorem job_cap_exceeded :
    everyCall cleared plainService (retriedRun 1000000) .initial = true ∧
      ¬ Capped (run plainService (retriedRun 1000000) .initial).toBooks := by
  refine ⟨by decide +kernel, fun capped => ?_⟩
  have above : let last := run plainService (retriedRun 1000000) .initial
      (last.jobs.find "job").any (fun job => decide (0 < job.budgetCap) &&
        decide (job.budgetCap < settledOf last.ledger "job" + outstandingOf last.ledger "job")) =
          true := by
    decide +kernel
  generalize run plainService (retriedRun 1000000) .initial = last at capped above
  obtain ⟨job, found, both⟩ := (Option.any_eq_true _ _).mp above
  obtain ⟨positive, exceeds⟩ := Bool.and_eq_true_iff.mp both
  exact absurd (capped "job" job found (of_decide_eq_true positive))
    (not_le.mpr (of_decide_eq_true exceeds))

end GpuBroker.ControlPlane
