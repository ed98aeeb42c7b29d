/-
This file is the cost report: the aggregate that is built from the jobs that were
not seeded, and what it makes of two stores that differ in seeded data only.

The jobs are filtered by their origin, and with them the costs that are read job
by job. The charges for abandoned capacity and the observations of the scheduler
are read by queries of their own, over every row there is.

The table of observations is kept beside the rest of the database. Constant
entries of the report are left out, and quotients and seconds are exact.
-/
import GpuBroker.Broker.Store
import Mathlib.Data.List.Dedup
import Mathlib.Tactic.Linarith

namespace GpuBroker.Broker

/-! ### Observations -/

/-- A decision of the scheduler about a job. -/
structure ScheduleObservation where
  jobId : JobId
  decision : String
  backend : Option String
  tier : Option String
  detail : String
  deriving DecidableEq

/-- What a report is built from: the store, and the observations of its scheduler. -/
structure Study where
  db : Db
  observations : List ScheduleObservation

/-- Record one real scheduler decision; a blocked decision that is repeated is not. -/
def Study.recordScheduleObservation (study : Study) (row : ScheduleObservation) : Study :=
  let latest := (study.observations.filter fun other => other.jobId = row.jobId).getLast?
  if row.decision ≠ "DISPATCH" ∧ latest = some row then study
  else { study with observations := study.observations ++ [row] }

/-! ### Numbers as they are printed -/

/-- A decimal as it is printed: hundredths, and whether it is written with two places. -/
structure Printed where
  hundredths : Cents
  places : Bool
  deriving DecidableEq

/-- A sum, which starts from a zero without places. -/
def Printed.total (numbers : List Printed) : Printed :=
  ⟨(numbers.map Printed.hundredths).sum, numbers.any Printed.places⟩

/-- A sum of amounts of the ledger. -/
def Printed.sum (amounts : List Cents) : Printed :=
  .total (amounts.map fun amount => ⟨amount, true⟩)

theorem Printed.sum_eq (amounts : List Cents) : Printed.sum amounts = ⟨amounts.sum, !amounts.isEmpty⟩ := by
  unfold Printed.sum Printed.total
  rw [List.map_map]
  cases amounts <;> simp [Function.comp_def]

/-- The element a fraction of the way through some values in order. -/
def percentile (values : List ℚ) (fraction : ℚ) : Option ℚ :=
  (values.mergeSort fun one other => one ≤ other)[(⌈fraction * values.length⌉ - 1).toNat]?

/-- The seconds between two moments. -/
def secondsSince (moment since : Time) : ℚ := ((moment - since : Int) : ℚ) / 1000000

/-- A text contains the word "budget", in letters of any case. -/
def mentionsBudget (text : String) : Bool :=
  (text.toList.map Char.toLower).tails.any fun rest => "budget".toList.isPrefixOf rest

/-! ### The report -/

/-- What a job has been charged, row by row. -/
def Db.jobCost (db : Db) (job : JobId) : Printed :=
  .sum ((db.ledger.filter fun row =>
    row.jobId = some job ∧ row.kind ≠ .reserve ∧ row.kind ≠ .release).map LedgerEntry.amount)

/-- What abandoned capacity has been charged, in one currency. -/
def Db.abandonedCost (db : Db) (currency : Currency) : Printed :=
  .sum ((db.ledger.filter fun row => row.kind = .abandoned ∧ row.currency = currency).map
    LedgerEntry.amount)

/-- What the queries of a report answer: its jobs, each with its cost, the abandoned capacity, and how
many observations there are. -/
@[ext] structure Trace where
  jobs : List (Job × Printed)
  abandoned : Currency → Printed
  observations : Nat

/-- The entries of a report on one currency. -/
structure CurrencyCost where
  settledCost : Printed
  estimatedReservedCost : Printed
  costPerCompletedJob : Option Decimal
  estimatedRetryCost : Decimal
  abandonedCapacityCost : Printed
  deriving DecidableEq

/-- What a report says. -/
structure CostReport where
  jobs : Nat
  anonymousUsers : Nat
  schedulerObservations : Nat
  interruptions : Nat
  checkpointResumes : Nat
  completed : Nat
  refused : Nat
  budgetRefusals : Nat
  completionRate : ℚ
  queueP50Seconds : Option ℚ
  queueP95Seconds : Option ℚ
  cost : Currency → Option CurrencyCost
  sameTraceJobs : Nat
  fifoP50Seconds : Option ℚ
  fifoP95Seconds : Option ℚ

/-- A replay: when each class of capacity is free again, and the waits so far. -/
structure Replay where
  available : String → ℚ
  waits : List ℚ

/-- Replay one job that really started, through the one slot of its class. -/
def Replay.next (epoch : Time) (replay : Replay) (entry : Job × Time) : Replay :=
  let job := entry.1
  let submitted := secondsSince job.submittedAt epoch
  let start := max submitted (replay.available job.gpuType)
  let duration := match job.finishedAt with
    | some finished => max 0 (secondsSince finished entry.2)
    | none => 0
  { available := fun kind => if kind = job.gpuType then start + duration else replay.available kind
    waits := replay.waits ++ [start - submitted] }

/-- By submission, and by id. -/
def submittedFirst (one other : Job) : Bool :=
  one.submittedAt < other.submittedAt ∨
    (one.submittedAt = other.submittedAt ∧ one.jobId ≤ other.jobId)

/-- The waits of the jobs that started, had they been taken first in, first out. -/
def fifoWaits (started : List (Job × Time)) : List ℚ :=
  match (started.map fun entry => entry.1.submittedAt).min? with
  | none => []
  | some epoch =>
      let ordered := started.mergeSort fun one other => submittedFirst one.1 other.1
      (ordered.foldl (Replay.next epoch) ⟨fun _ => 0, []⟩).waits

namespace Trace

/-- The jobs of a trace that started, each with when. -/
def started (trace : Trace) : List (Job × Time) :=
  trace.jobs.filterMap fun entry => entry.1.startedAt.map fun moment => (entry.1, moment)

def completed (trace : Trace) : List (Job × Printed) :=
  trace.jobs.filter fun entry => entry.1.state = .completed

/-- The entries on one currency, when a job or an abandoned machine is billed in it. -/
def costIn (trace : Trace) (currency : Currency) : Option CurrencyCost :=
  let mine := trace.jobs.filter fun entry => entry.1.currency = currency
  let done := trace.completed.filter fun entry => entry.1.currency = currency
  if mine ≠ [] ∨ (trace.abandoned currency).places then
    some
      { settledCost := .total (mine.map Prod.snd)
        estimatedReservedCost := .sum (mine.map fun entry => entry.1.reserved)
        costPerCompletedJob :=
          if done.length ≠ 0 then
            some (money (Printed.total (done.map Prod.snd)).hundredths / done.length)
          else none
        estimatedRetryCost :=
          ((mine.filter fun entry => 1 < entry.1.attempts).map fun entry =>
            money entry.2.hundredths * (entry.1.attempts - 1) / entry.1.attempts).sum
        abandonedCapacityCost := trace.abandoned currency }
  else none

/-- The report on a trace with so many distinct users. -/
def report (trace : Trace) (users : Nat) : CostReport :=
  let waits := trace.started.map fun entry => secondsSince entry.2 entry.1.submittedAt
  let fifo := fifoWaits trace.started
  let refused := trace.jobs.filter fun entry => entry.1.state = .refused
  { jobs := trace.jobs.length
    anonymousUsers := users
    schedulerObservations := trace.observations
    interruptions := (trace.jobs.map fun entry => entry.1.preemptions).sum
    checkpointResumes :=
      trace.jobs.countP fun entry => 1 < entry.1.attempts ∧ entry.1.checkpointStep.isSome
    completed := trace.completed.length
    refused := refused.length
    budgetRefusals := refused.countP fun entry => mentionsBudget (entry.1.refusalReason.getD "")
    completionRate := trace.completed.length / trace.jobs.length
    queueP50Seconds := percentile waits (1 / 2)
    queueP95Seconds := percentile waits (19 / 20)
    cost := trace.costIn
    sameTraceJobs := trace.started.length
    fifoP50Seconds := percentile fifo (1 / 2)
    fifoP95Seconds := percentile fifo (19 / 20) }

end Trace

/-- Why no report is built. -/
inductive TraceError where
  | shortSalt
  | insufficientData (jobs users : Nat)
  deriving DecidableEq

def minOperationalJobs : Nat := 20

def minOperationalUsers : Nat := 5

def TraceError.text : TraceError → String
  | shortSalt => "GPU_BROKER_TRACE_SALT must contain at least 16 bytes"
  | insufficientData jobs users =>
      s!"insufficient data: the operational trace holds {jobs} job(s) from {users} user(s); " ++
        s!"a cost comparison needs at least {minOperationalJobs} jobs from " ++
        s!"{minOperationalUsers} users, so no cost-comparison verdict is emitted"

/-- The jobs of a store that were not seeded, in the order they were submitted in. -/
def Db.operationalJobs (db : Db) : List Job :=
  (db.listJobs fun _ => true).filter fun job => job.origin ≠ "seeded"

section Report

-- the first digits of the hash of a user's name under a key, and the digest of a report
variable (hmac : String → UserId → String) (digest : CostReport → String)

/-- Stable within an operator's secret salt. -/
def anonymousUserId (salt : String) (user : UserId) : Except TraceError String :=
  if salt.utf8ByteSize < 16 then .error .shortSalt else .ok (hmac salt user)

/-- What the queries of a report answer. -/
def Study.trace (study : Study) : Trace where
  jobs := study.db.operationalJobs.map fun job => (job, study.db.jobCost job.jobId)
  abandoned := study.db.abandonedCost
  observations := study.observations.length

/-- Build an aggregate-only report, signed with its digest. -/
def Study.buildCostReport (study : Study) (salt : String) : Except TraceError (CostReport × String) :=
  match study.db.operationalJobs.mapM fun job => anonymousUserId hmac salt job.userId with
  | .error error => .error error
  | .ok keys =>
      let jobs := study.db.operationalJobs.length
      let users := keys.dedup.length
      if jobs < minOperationalJobs ∨ users < minOperationalUsers then .error (.insufficientData jobs users)
      else .ok (study.trace.report users, digest (study.trace.report users))

/-- A report is built: the salt is long enough, and there are jobs enough, of users enough. -/
def Study.Reportable (study : Study) (salt : String) : Prop :=
  16 ≤ salt.utf8ByteSize ∧ minOperationalJobs ≤ study.db.operationalJobs.length ∧
    minOperationalUsers ≤ (study.db.operationalJobs.map fun job => hmac salt job.userId).dedup.length

instance (study : Study) (salt : String) : Decidable (study.Reportable hmac salt) :=
  inferInstanceAs (Decidable (_ ∧ _ ∧ _))

end Report

/-! ### Stores that differ in seeded data -/

/-- A job of a name is there, and was not seeded. -/
def Db.operational (db : Db) (id : JobId) : Bool := (db.jobs.find id).any fun job => job.origin ≠ "seeded"

/-- A row of the ledger that belongs to no seeded job. -/
def Db.unseeded (db : Db) (row : LedgerEntry) : Bool := row.jobId.all db.operational

/-- Two stores agree on the jobs that were not seeded, and on the rows that belong to no seeded job. -/
structure Agree (one other : Study) : Prop where
  jobs : ∀ job, job.origin ≠ "seeded" → (job ∈ one.db.jobs.rows ↔ job ∈ other.db.jobs.rows)
  ledger : (one.db.ledger.filter one.db.unseeded).Perm (other.db.ledger.filter other.db.unseeded)
  observations :
    (one.observations.filter fun row => one.db.operational row.jobId).Perm
      (other.observations.filter fun row => other.db.operational row.jobId)

/-- What abandoned capacity has been charged in one currency, by rows that belong to seeded jobs or by
those that do not. -/
def Db.abandonedOf (db : Db) (seeded : Bool) (currency : Currency) : List Cents :=
  (db.ledger.filter fun row =>
    row.kind = .abandoned ∧ row.currency = currency ∧ db.unseeded row = !seeded).map LedgerEntry.amount

/-- How many observations belong to seeded jobs. -/
def Study.seededObservations (study : Study) : Nat :=
  study.observations.countP fun row => !study.db.operational row.jobId

/-- Seeded rows charge the same for abandoned capacity; where nobody else is charged in that currency,
there are such rows in both stores or in neither. -/
def SameAbandoned (one other : Db) (currency : Currency) : Prop :=
  (one.abandonedOf true currency).sum = (other.abandonedOf true currency).sum ∧
    (one.abandonedOf false currency = [] →
      (one.abandonedOf true currency = [] ↔ other.abandonedOf true currency = []))

instance (one other : Db) (currency : Currency) : Decidable (SameAbandoned one other currency) :=
  inferInstanceAs (Decidable (_ ∧ _))

theorem mem_operationalJobs {db : Db} {job : Job} :
    job ∈ db.operationalJobs ↔ job ∈ db.jobs.rows ∧ job.origin ≠ "seeded" := by
  unfold Db.operationalJobs Db.listJobs
  rw [List.mem_filter, List.mem_mergeSort, List.mem_filter]
  simp

theorem submittedFirst_iff {one other : Job} :
    submittedFirst one other = true ↔ one.submittedAt < other.submittedAt ∨
      (one.submittedAt = other.submittedAt ∧ one.jobId ≤ other.jobId) :=
  decide_eq_true_iff

theorem submittedFirst_trans {one two three : Job} (first : submittedFirst one two = true)
    (second : submittedFirst two three = true) : submittedFirst one three = true := by
  rw [submittedFirst_iff] at first second ⊢
  rcases first with first | ⟨same, first⟩ <;> rcases second with second | ⟨again, second⟩
  · exact Or.inl (first.trans second)
  · exact Or.inl (again ▸ first)
  · exact Or.inl (same ▸ second)
  · exact Or.inr ⟨same.trans again, String.le_trans first second⟩

theorem submittedFirst_total (one other : Job) :
    submittedFirst one other = true ∨ submittedFirst other one = true := by
  rw [submittedFirst_iff, submittedFirst_iff]
  rcases lt_trichotomy one.submittedAt other.submittedAt with before | same | after
  · exact Or.inl (Or.inl before)
  · rcases String.le_total one.jobId other.jobId with before | after
    · exact Or.inl (Or.inr ⟨same, before⟩)
    · exact Or.inr (Or.inr ⟨same.symm, after⟩)
  · exact Or.inr (Or.inl after)

/-- Jobs that come before one another have one name. -/
theorem submittedFirst_antisymm {one other : Job} (before : submittedFirst one other = true)
    (after : submittedFirst other one = true) : one.jobId = other.jobId := by
  rw [submittedFirst_iff] at before after
  rcases before with before | ⟨same, before⟩ <;> rcases after with after | ⟨again, after⟩
  · exact absurd after (not_lt.mpr before.le)
  · exact absurd before (not_lt.mpr again.le)
  · exact absurd after (not_lt.mpr same.le)
  · exact String.le_antisymm before after

theorem operationalJobs_sorted (db : Db) :
    db.operationalJobs.Pairwise fun one other => submittedFirst one other = true := by
  refine List.Pairwise.filter _ ?_
  unfold Db.listJobs
  exact @List.pairwise_mergeSort _ submittedFirst (fun _ _ _ => submittedFirst_trans)
    (fun one other => by simpa using submittedFirst_total one other) _

theorem operationalJobs_nodup (db : Db) : db.operationalJobs.Nodup := by
  refine List.Nodup.filter _ ((List.mergeSort_perm _ _).nodup_iff.mpr (List.Nodup.filter _ ?_))
  exact List.Nodup.of_map _ db.jobs.distinct

/-- Stores that agree report on the same jobs, in the same order. -/
theorem Agree.operationalJobs {one other : Study} (agree : Agree one other) :
    one.db.operationalJobs = other.db.operationalJobs := by
  have same : ∀ job, job ∈ one.db.operationalJobs ↔ job ∈ other.db.operationalJobs := by
    intro job
    rw [mem_operationalJobs, mem_operationalJobs]
    constructor
    · exact fun ⟨member, real⟩ => ⟨(agree.jobs job real).mp member, real⟩
    · exact fun ⟨member, real⟩ => ⟨(agree.jobs job real).mpr member, real⟩
  refine @List.Perm.eq_of_pairwise _ (fun one other => submittedFirst one other = true) _ _ ?_
    (operationalJobs_sorted _) (operationalJobs_sorted _)
    ((List.perm_ext_iff_of_nodup (operationalJobs_nodup _) (operationalJobs_nodup _)).mpr same)
  intro first second hasFirst hasSecond before after
  have mine := (mem_operationalJobs.mp ((same first).mp hasFirst)).1
  have yours := (mem_operationalJobs.mp hasSecond).1
  have key := submittedFirst_antisymm before after
  have found := Library.Table.find_of_mem mine
  rw [key, Library.Table.find_of_mem yours] at found
  exact (Option.some.inj found).symm

/-! ### What the queries answer -/

theorem Printed.sum_perm {one other : List Cents} (same : one.Perm other) :
    Printed.sum one = Printed.sum other := by
  rw [Printed.sum_eq, Printed.sum_eq, same.sum_eq, same.isEmpty_eq]

/-- A query that selects rows of no seeded job selects them from those alone. -/
theorem filter_unseeded {db : Db} {which : LedgerEntry → Bool}
    (unseeded : ∀ row, which row = true → db.unseeded row = true) :
    db.ledger.filter which = (db.ledger.filter db.unseeded).filter which := by
  rw [List.filter_filter]
  refine List.filter_congr fun row _ => ?_
  cases chosen : which row with
  | false => rfl
  | true => rw [unseeded row chosen, Bool.and_self]

theorem Agree.jobCost {one other : Study} (agree : Agree one other) {job : Job}
    (member : job ∈ one.db.operationalJobs) :
    one.db.jobCost job.jobId = other.db.jobCost job.jobId := by
  have operational : ∀ {db : Db}, job ∈ db.operationalJobs → ∀ row : LedgerEntry,
      decide (row.jobId = some job.jobId ∧ row.kind ≠ .reserve ∧ row.kind ≠ .release) = true →
        db.unseeded row = true := by
    intro db listed row chosen
    obtain ⟨stored, real⟩ := mem_operationalJobs.mp listed
    rw [Db.unseeded, (of_decide_eq_true chosen).1, Option.all_some, Db.operational,
      Library.Table.find_of_mem stored, Option.any_some]
    exact decide_eq_true real
  unfold Db.jobCost
  rw [filter_unseeded (operational member), filter_unseeded (operational (agree.operationalJobs ▸ member))]
  exact Printed.sum_perm ((agree.ledger.filter _).map _)

theorem Agree.abandonedOf {one other : Study} (agree : Agree one other) (currency : Currency) :
    (one.db.abandonedOf false currency).Perm (other.db.abandonedOf false currency) := by
  have unseeded : ∀ db : Db, ∀ row : LedgerEntry,
      decide (row.kind = .abandoned ∧ row.currency = currency ∧ db.unseeded row = !false) = true →
        db.unseeded row = true := fun db row chosen => (of_decide_eq_true chosen).2.2
  have alone : ∀ db : Db, (db.abandonedOf false currency) =
      ((db.ledger.filter db.unseeded).filter fun row =>
        row.kind = .abandoned ∧ row.currency = currency).map LedgerEntry.amount := by
    intro db
    unfold Db.abandonedOf
    rw [filter_unseeded (unseeded db), List.filter_filter, List.filter_filter]
    refine congrArg _ (List.filter_congr fun row _ => ?_)
    cases db.unseeded row <;> simp
  rw [alone, alone]
  exact (agree.ledger.filter _).map _

/-- What is charged for abandoned capacity is charged by seeded rows, and by the others. -/
theorem abandonedCost_split (db : Db) (currency : Currency) :
    db.abandonedCost currency =
      ⟨(db.abandonedOf false currency).sum + (db.abandonedOf true currency).sum,
        !(db.abandonedOf false currency).isEmpty || !(db.abandonedOf true currency).isEmpty⟩ := by
  have parts : ((db.abandonedOf false currency) ++ (db.abandonedOf true currency)).Perm
      ((db.ledger.filter fun row => row.kind = .abandoned ∧ row.currency = currency).map
        LedgerEntry.amount) := by
    refine List.Perm.trans ?_ ((List.filter_append_perm db.unseeded _).map _)
    unfold Db.abandonedOf
    rw [List.map_append, List.filter_filter, List.filter_filter]
    refine List.Perm.append (.of_eq ?_) (.of_eq ?_) <;>
    · refine congrArg _ (List.filter_congr fun row _ => ?_)
      cases db.unseeded row <;> simp
  unfold Db.abandonedCost
  rw [← Printed.sum_perm parts, Printed.sum_eq, List.sum_append]
  cases db.abandonedOf false currency <;> rfl

/-- Abandoned capacity is charged the same in both stores exactly when it is charged the same by seeded
rows. -/
theorem Agree.abandonedCost_iff {one other : Study} (agree : Agree one other) (currency : Currency) :
    one.db.abandonedCost currency = other.db.abandonedCost currency ↔
      SameAbandoned one.db other.db currency := by
  have kept := agree.abandonedOf currency
  rw [abandonedCost_split, abandonedCost_split, ← kept.sum_eq, ← kept.isEmpty_eq, Printed.mk.injEq,
    add_right_inj, SameAbandoned]
  refine and_congr_right fun _ => ?_
  cases one.db.abandonedOf false currency with
  | cons amount rest => simp
  | nil =>
      cases one.db.abandonedOf true currency <;> cases other.db.abandonedOf true currency <;> simp

theorem Agree.observations_iff {one other : Study} (agree : Agree one other) :
    one.observations.length = other.observations.length ↔
      one.seededObservations = other.seededObservations := by
  have split : ∀ study : Study, study.observations.length =
      (study.observations.filter fun row => study.db.operational row.jobId).length +
        study.seededObservations := by
    intro study
    rw [Study.seededObservations, ← List.countP_eq_length_filter,
      List.length_eq_countP_add_countP fun row => study.db.operational row.jobId]
    simp
  rw [split one, split other, agree.observations.length_eq, add_right_inj]

/-! ### The report -/

theorem abandonedCost_bare {db : Db} {currency : Currency}
    (bare : (db.abandonedCost currency).places = false) : db.abandonedCost currency = ⟨0, false⟩ := by
  unfold Db.abandonedCost at bare ⊢
  rw [Printed.sum_eq] at bare ⊢
  rw [Bool.not_eq_false', List.isEmpty_iff] at bare
  rw [bare]
  rfl

/-- A currency is in the report with what abandoned capacity is charged in it, or none is. -/
theorem costIn_cases (trace : Trace) (currency : Currency) :
    (∃ cost, trace.costIn currency = some cost ∧
        cost.abandonedCapacityCost = trace.abandoned currency) ∨
      (trace.costIn currency = none ∧ (trace.abandoned currency).places = false) := by
  by_cases listed : (trace.jobs.filter fun entry => entry.1.currency = currency) ≠ [] ∨
      (trace.abandoned currency).places = true
  · exact Or.inl ⟨_, if_pos listed, rfl⟩
  · exact Or.inr ⟨if_neg listed, Bool.eq_false_iff.mpr fun charged => listed (Or.inr charged)⟩

/-- Traces of the same jobs have the same entries on a currency exactly when abandoned capacity is
charged the same in it. -/
theorem costIn_iff {one other : Study} (jobs : one.trace.jobs = other.trace.jobs) (currency : Currency) :
    one.trace.costIn currency = other.trace.costIn currency ↔
      one.db.abandonedCost currency = other.db.abandonedCost currency := by
  constructor
  · intro same
    rcases costIn_cases one.trace currency with ⟨cost, listed, charged⟩ | ⟨unlisted, bare⟩
    · rcases costIn_cases other.trace currency with ⟨cost', listed', charged'⟩ | ⟨unlisted', _⟩
      · rw [listed, listed'] at same
        cases same
        exact charged.symm.trans charged'
      · rw [listed, unlisted'] at same
        cases same
    · rcases costIn_cases other.trace currency with ⟨cost', listed', _⟩ | ⟨_, bare'⟩
      · rw [unlisted, listed'] at same
        cases same
      · exact (abandonedCost_bare bare).trans (abandonedCost_bare bare').symm
  · intro same
    have charged : one.trace.abandoned currency = other.trace.abandoned currency := same
    unfold Trace.costIn Trace.completed
    rw [jobs, charged]

theorem Agree.traceJobs {one other : Study} (agree : Agree one other) :
    one.trace.jobs = other.trace.jobs := by
  show one.db.operationalJobs.map _ = other.db.operationalJobs.map _
  rw [← agree.operationalJobs]
  exact List.map_congr_left fun job member => Prod.ext rfl (agree.jobCost member)

/-- Reports on the same jobs are the same exactly when seeded data is, where it is not left out. -/
theorem Agree.report_iff {one other : Study} (agree : Agree one other) (users : Nat) :
    one.trace.report users = other.trace.report users ↔
      (∀ currency, SameAbandoned one.db other.db currency) ∧
        one.seededObservations = other.seededObservations := by
  have jobs := agree.traceJobs
  constructor
  · intro same
    refine ⟨fun currency => ?_, agree.observations_iff.mp ?_⟩
    · rw [← agree.abandonedCost_iff, ← costIn_iff jobs]
      exact congrFun (congrArg CostReport.cost same) currency
    · exact congrArg CostReport.schedulerObservations same
  · rintro ⟨abandoned, observations⟩
    have trace : one.trace = other.trace := by
      refine Trace.ext jobs ?_ (agree.observations_iff.mpr observations)
      funext currency
      exact (agree.abandonedCost_iff currency).mpr (abandoned currency)
    rw [trace]

section Report

variable (hmac : String → UserId → String) (digest : CostReport → String)

/-- The names of the users of some jobs, under a salt that is long enough. -/
theorem keys_salted {salt : String} (long : 16 ≤ salt.utf8ByteSize) (jobs : List Job) :
    (jobs.mapM fun job => anonymousUserId hmac salt job.userId) =
      .ok (jobs.map fun job => hmac salt job.userId) := by
  induction jobs with
  | nil => rfl
  | cons job rest inductionHypothesis =>
      have salted : anonymousUserId hmac salt job.userId = .ok (hmac salt job.userId) :=
        if_neg (not_lt.mpr long)
      rw [List.mapM_cons, inductionHypothesis, salted]
      rfl

/-- Stores that agree outside seeded data get the same report, or the same error, exactly when no report
is built or seeded data is the same where it is not left out: in what abandoned capacity is charged, and
in how many observations there are. -/
theorem seeded_excluded_iff (salt : String) (one other : Study) (agree : Agree one other) :
    one.buildCostReport hmac digest salt = other.buildCostReport hmac digest salt ↔
      (one.Reportable hmac salt → (∀ currency, SameAbandoned one.db other.db currency) ∧
        one.seededObservations = other.seededObservations) := by
  unfold Study.buildCostReport Study.Reportable
  rw [← agree.operationalJobs]
  generalize one.db.operationalJobs = jobs
  by_cases long : 16 ≤ salt.utf8ByteSize
  · rw [keys_salted hmac long]
    simp only
    generalize (jobs.map fun job => hmac salt job.userId).dedup.length = users
    by_cases few : jobs.length < minOperationalJobs ∨ users < minOperationalUsers
    · rw [if_pos few, if_pos few]
      refine iff_of_true rfl fun reportable => ?_
      omega
    · rw [if_neg few, if_neg few, Except.ok.injEq, Prod.mk.injEq, ← agree.report_iff users]
      have reportable : 16 ≤ salt.utf8ByteSize ∧ minOperationalJobs ≤ jobs.length ∧
          minOperationalUsers ≤ users := by omega
      constructor
      · exact fun same _ => same.1
      · exact fun same => ⟨same reportable, congrArg digest (same reportable)⟩
  · refine iff_of_true ?_ fun reportable => absurd reportable.1 long
    -- without a salt nothing but the jobs is looked at
    split
    · rfl
    · next keys salted =>
      have none : jobs = [] := by
        cases jobs with
        | nil => rfl
        | cons job rest =>
            have short : anonymousUserId hmac salt job.userId = .error .shortSalt :=
              if_pos (not_le.mp long)
            rw [List.mapM_cons, short] at salted
            cases salted
      rw [none]
      rfl

end Report

/-- A job of one of five members, submitted a second after the one before it. -/
def Job.numbered (origin : String) (number : Nat) : Job :=
  { NewJob.row ⟨s!"job-{number}", s!"member-{number % 5}", "train", "t4", 1, .usd, 1, none, origin⟩ .queued
      (number * 1000000) with state := .completed }

/-- Twenty jobs that are real and one that was seeded, with rows of the ledger. -/
def Db.mixed (ledger : List LedgerEntry) : Db :=
  { Db.empty with
    jobs := ⟨(List.range 20).map (Job.numbered "real") ++ [Job.numbered "seeded" 20], by decide +kernel⟩
    ledger }

/-- A row of the seeded job. -/
def LedgerEntry.ofSeeded (kind : LedgerKind) : LedgerEntry where
  jobId := some "job-20"
  userId := some "member-0"
  currency := .usd
  kind := kind
  amount := 500
  period := 0
  writtenAt := 0
  resourceHandle := none

/-- Stores with the same jobs, in which every row belongs to the seeded one. -/
theorem Agree.mixed {one other : List LedgerEntry} {first second : List ScheduleObservation}
    (rows : ∀ row ∈ one ++ other, row.jobId = some "job-20")
    (observed : ∀ row ∈ first ++ second, row.jobId = "job-20") :
    Agree ⟨.mixed one, first⟩ ⟨.mixed other, second⟩ := by
  have seeded : ∀ ledger, (Db.mixed ledger).operational "job-20" = false := by
    intro ledger
    show (Db.mixed []).operational "job-20" = false
    decide +kernel
  have none : ∀ ledger ⦃rows : List LedgerEntry⦄, (∀ row ∈ rows, row.jobId = some "job-20") →
      rows.filter (Db.mixed ledger).unseeded = [] := by
    intro ledger rows mine
    refine List.filter_eq_nil_iff.mpr fun row member => ?_
    rw [Db.unseeded, mine row member, Option.all_some, seeded]
    exact Bool.false_ne_true
  have unseen : ∀ ledger ⦃rows : List ScheduleObservation⦄, (∀ row ∈ rows, row.jobId = "job-20") →
      (rows.filter fun row => (Db.mixed ledger).operational row.jobId) = [] := by
    intro ledger rows mine
    refine List.filter_eq_nil_iff.mpr fun row member => ?_
    rw [mine row member, seeded]
    exact Bool.false_ne_true
  refine ⟨fun _ _ => Iff.rfl, .of_eq ?_, .of_eq ?_⟩
  · show one.filter _ = other.filter _
    rw [none one fun row member => rows row (List.mem_append_left _ member),
      none other fun row member => rows row (List.mem_append_right _ member)]
  · show first.filter _ = second.filter _
    rw [unseen one fun row member => observed row (List.mem_append_left _ member),
      unseen other fun row member => observed row (List.mem_append_right _ member)]

theorem operationalJobs_mixed (ledger : List LedgerEntry) :
    (Db.mixed ledger).operationalJobs = (List.range 20).map (Job.numbered "real") := by
  have same : (Db.mixed ledger).operationalJobs = (Db.mixed []).operationalJobs := rfl
  rw [same]
  unfold Db.operationalJobs Db.listJobs
  -- the rows are in order already
  rw [List.mergeSort_of_pairwise (by decide +kernel)]
  decide +kernel

/-- What is settled to a seeded job is left out. -/
theorem seeded_excluded_iff_settled :
    let one : Study := ⟨.mixed [], []⟩
    let other : Study := ⟨.mixed [.ofSeeded .reserve, .ofSeeded .settle], []⟩
    one.buildCostReport (fun salt user => salt ++ user) (fun _ => "") "sixteen bytes in all" =
      other.buildCostReport (fun salt user => salt ++ user) (fun _ => "") "sixteen bytes in all" :=
  (seeded_excluded_iff _ _ "sixteen bytes in all" _ _
    (Agree.mixed (by decide +kernel) (by decide +kernel))).mpr fun _ =>
      ⟨fun currency => by cases currency <;> decide +kernel, by decide +kernel⟩

/-- Two stores agree outside seeded data; in the second a seeded job abandoned a machine, and the
scheduler decided about it. Both are in the report. -/
theorem seeded_counted :
    let one : Study := ⟨.mixed [], []⟩
    let other : Study := Study.recordScheduleObservation ⟨.mixed [.ofSeeded .abandoned], []⟩
      ⟨"job-20", "DISPATCH", some "cloud", none, ""⟩
    let built := fun study : Study =>
      (study.buildCostReport (fun salt user => salt ++ user) (fun _ => "") "sixteen bytes in all").toOption
    Agree one other ∧
      (built one).map (fun signed => (signed.1.jobs, signed.1.schedulerObservations)) = some (20, 0) ∧
      (built other).map (fun signed => (signed.1.jobs, signed.1.schedulerObservations)) = some (20, 1) ∧
      (built one).bind (fun signed => (signed.1.cost .usd).map CurrencyCost.abandonedCapacityCost) =
        some ⟨0, false⟩ ∧
      (built other).bind (fun signed => (signed.1.cost .usd).map CurrencyCost.abandonedCapacityCost) =
        some ⟨500, true⟩ := by
  intro one other built
  have recorded : other =
      ⟨.mixed [.ofSeeded .abandoned], [⟨"job-20", "DISPATCH", some "cloud", none, ""⟩]⟩ :=
    rfl
  rw [recorded]
  refine ⟨Agree.mixed (by decide +kernel) (by decide +kernel), ?_⟩
  simp only [built, one, Study.buildCostReport, Study.trace, operationalJobs_mixed]
  decide +kernel

end GpuBroker.Broker
