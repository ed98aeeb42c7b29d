/-
This file is the fair share of the control plane beside the one of the Python
broker, over the same jobs, weights, shares and times: when the two put the queue
in the same order.

Both score a job by its share and by its age, and both break ties by age. They
count the age of a job that has been started differently, and one of them
compares scores in six decimals only.
-/
import GpuBroker.Broker.Fairshare
import GpuBroker.ControlPlane.Exact

namespace GpuBroker.ControlPlane

open Library

/-! ### One queue in two brokers -/

section

variable {half : ℚ → ℚ} {jobs : List Broker.Job} {ledger : List Broker.LedgerEntry}
  {now : Broker.Time} {config : Broker.FairshareConfig ℚ} {twin : Broker.Job → Job}
  {snapshot : Snapshot ℚ} {policy : Policy ℚ} {old young : Broker.Job}

/-- The two brokers hold the same queue: the same jobs, weights and age limit, the same share for the
member of each job, and the same times, which one counts in microseconds and the other one in
nanoseconds. -/
structure Twins (half : ℚ → ℚ) (jobs : List Broker.Job) (ledger : List Broker.LedgerEntry)
    (now : Broker.Time) (config : Broker.FairshareConfig ℚ) (twin : Broker.Job → Job)
    (snapshot : Snapshot ℚ) (policy : Policy ℚ) : Prop where
  valid : config.validate = .ok ()
  ordering : policy.ordering = .fairShare
  weightless : policy.priorityWeight = 0
  wFair : policy.fairShare.wFair = config.wFair
  wAge : policy.fairShare.wAge = config.wAge
  ageMax : (policy.fairShare.ageMax : ℚ) / hour = config.ageMaxHours
  time : snapshot.now = 1000 * now
  queued : snapshot.jobs.Perm (jobs.map twin)
  id : ∀ job ∈ jobs, (twin job).id = job.jobId
  submittedAt : ∀ job ∈ jobs, (twin job).submittedAt = 1000 * job.submittedAt
  share : ∀ job ∈ jobs, usageShares snapshot.tenantUsage (twin job).tenant =
    (Broker.usageShares half ledger now config).of (some job.userId)

/-- The two return the jobs in the same order. -/
def SameOrder (half : ℚ → ℚ) (jobs : List Broker.Job) (ledger : List Broker.LedgerEntry)
    (now : Broker.Time) (config : Broker.FairshareConfig ℚ) (twin : Broker.Job → Job)
    (snapshot : Snapshot ℚ) (policy : Policy ℚ) : Prop :=
  queue snapshot policy =
    ((Broker.orderQueue half jobs ledger now config).map Prod.fst).map twin

/-- A job was submitted before another one, or with it and under a lesser id. -/
def Before (old young : Broker.Job) : Prop :=
  old.submittedAt < young.submittedAt ∨
    old.submittedAt = young.submittedAt ∧ old.jobId < young.jobId

/-- The part of the age limit that a job has reached at a moment. -/
def agedBy (config : Broker.FairshareConfig ℚ) (moment : Broker.Time) (job : Broker.Job) : ℚ :=
  min 1 (max 0 (Broker.hoursIn (moment - job.submittedAt)) / config.ageMaxHours)

/-- The younger of two jobs has more over the older one in its share than the older one has over it in
age, counted for each job up to some moment. -/
def Overtakes (config : Broker.FairshareConfig ℚ) (shares : Broker.Totals ℚ)
    (upTo : Broker.Job → Broker.Time) (old young : Broker.Job) : Prop :=
  config.wAge * (agedBy config (upTo old) old - agedBy config (upTo young) young) <
    config.wFair * (shares.of (some old.userId) - shares.of (some young.userId))

/-- A job's share and its age at a moment, under the weights. -/
def weighted (config : Broker.FairshareConfig ℚ) (shares : Broker.Totals ℚ) (moment : Broker.Time)
    (job : Broker.Job) : ℚ :=
  config.wFair * (1 - shares.of (some job.userId)) + config.wAge * agedBy config moment job

/-- Six decimals do not tell two jobs apart. -/
def Level (config : Broker.FairshareConfig ℚ) (shares : Broker.Totals ℚ) (moment : Broker.Time)
    (old young : Broker.Job) : Prop :=
  (round6 (weighted config shares moment old) : ℚ) = round6 (weighted config shares moment young)

/-- Until when a job's wait counts in the Python broker. -/
def waitEnd (now : Broker.Time) (job : Broker.Job) : Broker.Time := job.startedAt.getD now

/-! ### The scores of the two -/

theorem overtakes_iff {shares : Broker.Totals ℚ} {upTo : Broker.Job → Broker.Time} :
    Overtakes config shares upTo old young ↔
      weighted config shares (upTo old) old < weighted config shares (upTo young) young := by
  unfold Overtakes weighted
  constructor
  · intro less
    linarith
  · intro less
    linarith

theorem priorityOf_score (shares : Broker.Totals ℚ) (job : Broker.Job) :
    (Broker.priorityOf job shares now config).score =
      weighted config shares (waitEnd now job) job := rfl

theorem scoreOf_weightless (shares : policy.ordering = .fairShare)
    (weightless : policy.priorityWeight = 0) (job : Job) :
    snapshot.scoreOf policy job =
      round6 (policy.fairShare.wFair * (1 - usageShares snapshot.tenantUsage job.tenant) +
        policy.fairShare.wAge *
          ageTerm (max 0 (snapshot.now - job.submittedAt)) policy.fairShare.ageMax) := by
  have weighs : ¬ Number.less (Number.ofInt 0) policy.priorityWeight = true := by
    rw [weightless]
    decide
  unfold Snapshot.scoreOf Snapshot.keyed orderKey
  rw [shares]
  simp only
  rw [if_neg weighs, fairShareScore_eq]

/-- Nanoseconds over nanoseconds, or hours over hours. -/
theorem ageTerm_hours {ageMax : Duration} (limit : (ageMax : ℚ) / hour = config.ageMaxHours)
    (waited : Broker.Duration) :
    ageTerm (max 0 (1000 * waited)) ageMax =
      min 1 (max 0 (Broker.hoursIn waited) / config.ageMaxHours) := by
  have positive : (hour : ℚ) ≠ 0 := by
    show ((3600000000000 : Int) : ℚ) ≠ 0
    norm_num
  have inHours : ((max 0 (1000 * waited) : Int) : ℚ) / hour = max 0 (Broker.hoursIn waited) := by
    have scale : (hour : ℚ) = 1000 * 3600000000 := by
      show ((3600000000000 : Int) : ℚ) = _
      norm_num
    have parts : (1000 * (waited : ℚ)) / (1000 * 3600000000) = waited / 3600000000 :=
      mul_div_mul_left _ _ (by norm_num)
    unfold Broker.hoursIn
    rw [scale]
    push_cast
    rw [← max_div_div_right (by norm_num), zero_div, parts]
  unfold ageTerm
  rw [← limit, ← inHours, div_div_div_cancel_right₀ positive]

theorem Twins.score (twins : Twins half jobs ledger now config twin snapshot policy)
    {job : Broker.Job} (member : job ∈ jobs) :
    snapshot.scoreOf policy (twin job) =
      round6 (weighted config (Broker.usageShares half ledger now config) now job) := by
  have waited : snapshot.now - (twin job).submittedAt = 1000 * (now - job.submittedAt) := by
    rw [twins.time, twins.submittedAt job member]
    exact (mul_sub _ _ _).symm
  rw [scoreOf_weightless twins.ordering twins.weightless, waited, ageTerm_hours twins.ageMax,
    twins.wFair, twins.wAge, twins.share job member]
  rfl

/-! ### Who is ahead in each -/

theorem Before.apart (before : Before old young) : old.jobId ≠ young.jobId ∨
    old.submittedAt < young.submittedAt := by
  rcases before with sooner | ⟨_, lesser⟩
  · exact Or.inr sooner
  · exact Or.inl fun same => String.lt_irrefl _ (same ▸ lesser)

theorem Before.ne (before : Before old young) : old ≠ young := by
  rintro rfl
  rcases before.apart with apart | sooner
  · exact apart rfl
  · exact lt_irrefl _ sooner

/-- Of two jobs with different ids one was submitted before the other. -/
theorem before_total {one other : Broker.Job} (apart : one.jobId ≠ other.jobId) :
    Before one other ∨ Before other one := by
  rcases lt_trichotomy one.submittedAt other.submittedAt with sooner | level | later
  · exact Or.inl (Or.inl sooner)
  · by_cases lesser : one.jobId < other.jobId
    · exact Or.inl (Or.inr ⟨level, lesser⟩)
    · refine Or.inr (Or.inr ⟨level.symm, ?_⟩)
      by_contra greater
      exact apart (String.le_antisymm (String.not_lt.mp greater) (String.not_lt.mp lesser))
  · exact Or.inr (Or.inl later)

theorem Twins.inAge (twins : Twins half jobs ledger now config twin snapshot policy)
    (isOld : old ∈ jobs) (isYoung : young ∈ jobs) (before : Before old young) :
    older (twin old) (twin young) = true := by
  rw [older_iff, twins.submittedAt old isOld, twins.submittedAt young isYoung, twins.id old isOld,
    twins.id young isYoung]
  rcases before with sooner | ⟨level, lesser⟩
  · exact Or.inl (Int.mul_lt_mul_of_pos_left sooner (by decide))
  · exact Or.inr ⟨congrArg (1000 * ·) level, lesser⟩

/-- Of two jobs not each is older. -/
theorem older_asymm {one two : Job} (first : older one two = true) : ¬ older two one = true := by
  rw [not_older_iff]
  rcases older_iff.mp first with sooner | ⟨level, lesser⟩
  · exact ⟨sooner.le, fun same => absurd same.symm sooner.ne⟩
  · exact ⟨level.le, fun _ => String.not_lt.mp (String.lt_asymm lesser)⟩

theorem sooner_asymm {one two : Job} (first : snapshot.sooner policy one two = true) :
    ¬ snapshot.sooner policy two one = true := by
  rw [ControlPlane.sooner_iff] at first ⊢
  rcases first with more | ⟨level, elder⟩
  · rintro (less | ⟨level, _⟩)
    · exact lt_asymm more less
    · exact more.ne level
  · rintro (less | ⟨_, turned⟩)
    · exact less.ne level
    · exact older_asymm elder turned

/-- In the control plane the younger of two jobs is ahead where it scores more in six decimals. -/
theorem Twins.sooner_iff (twins : Twins half jobs ledger now config twin snapshot policy)
    (isOld : old ∈ jobs) (isYoung : young ∈ jobs) (before : Before old young) :
    snapshot.sooner policy (twin young) (twin old) = true ↔
      Overtakes config (Broker.usageShares half ledger now config) (fun _ => now) old young ∧
        ¬ Level config (Broker.usageShares half ledger now config) now old young := by
  have younger := older_asymm (twins.inAge isOld isYoung before)
  rw [ControlPlane.sooner_iff, twins.score isOld, twins.score isYoung, overtakes_iff]
  constructor
  · rintro (more | ⟨_, turned⟩)
    · refine ⟨lt_of_not_ge fun less => absurd more (not_lt.mpr (round6_mono less)), more.ne⟩
    · exact absurd turned younger
  · rintro ⟨less, apart⟩
    exact Or.inl (lt_of_le_of_ne (round6_mono less.le) apart)

/-- In the Python broker the older of two jobs precedes the younger one unless that scores more. -/
theorem precedes_younger_iff {shares : Broker.Totals ℚ} (before : Before old young) :
    Broker.Precedes (young, Broker.priorityOf young shares now config)
        (old, Broker.priorityOf old shares now config) ↔
      Overtakes config shares (waitEnd now) old young := by
  rw [overtakes_iff]
  unfold Broker.Precedes
  rw [priorityOf_score, priorityOf_score]
  refine or_iff_left fun tie => ?_
  rcases tie.2 with earlier | ⟨level, lesser⟩
  · rcases before with sooner | ⟨level, _⟩
    · exact lt_asymm earlier sooner
    · exact absurd level.symm earlier.ne
  · rcases before.apart with apart | sooner
    · refine before.elim (fun sooner => absurd level.symm sooner.ne) fun both => ?_
      exact absurd both.2 (String.not_lt.mpr lesser)
    · exact absurd level.symm sooner.ne

theorem precedes_older_iff {shares : Broker.Totals ℚ} (before : Before old young) :
    Broker.Precedes (old, Broker.priorityOf old shares now config)
        (young, Broker.priorityOf young shares now config) ↔
      ¬ Overtakes config shares (waitEnd now) old young := by
  rw [overtakes_iff, not_lt]
  unfold Broker.Precedes
  rw [priorityOf_score, priorityOf_score]
  have aged : old.submittedAt < young.submittedAt ∨
      (old.submittedAt = young.submittedAt ∧ old.jobId ≤ young.jobId) :=
    before.imp_right fun both => ⟨both.1, String.not_lt.mp (String.lt_asymm both.2)⟩
  constructor
  · rintro (more | ⟨level, _⟩)
    · exact more.le
    · exact level.ge
  · intro below
    rcases lt_or_eq_of_le below with more | level
    · exact Or.inl more
    · exact Or.inr ⟨level.symm, aged⟩

/-! ### The same order -/

/-- Counted up to the first start of each, the younger job overtakes the older one exactly if it does
counted up to now, and by what six decimals show. -/
def Agree (config : Broker.FairshareConfig ℚ) (shares : Broker.Totals ℚ) (now : Broker.Time)
    (old young : Broker.Job) : Prop :=
  Overtakes config shares (waitEnd now) old young ↔
    Overtakes config shares (fun _ => now) old young ∧ ¬ Level config shares now old young

theorem Twins.same (twins : Twins half jobs ledger now config twin snapshot policy)
    {one other : Broker.Job} (isOne : one ∈ jobs) (isOther : other ∈ jobs)
    (same : one.jobId = other.jobId) : one = other := by
  have distinct : (jobs.map fun job => (twin job).id).Nodup := by
    have ids := (twins.queued.map Job.id).nodup_iff.mp snapshot.jobsDistinct
    rwa [List.map_map] at ids
  refine List.inj_on_of_nodup_map distinct isOne isOther ?_
  rw [twins.id one isOne, twins.id other isOther, same]

/-- The order of the Python broker, without the priorities. -/
def pythonOrder (half : ℚ → ℚ) (jobs : List Broker.Job) (ledger : List Broker.LedgerEntry)
    (now : Broker.Time) (config : Broker.FairshareConfig ℚ) : List Broker.Job :=
  (Broker.orderQueue half jobs ledger now config).map Prod.fst

theorem pythonOrder_perm : (pythonOrder half jobs ledger now config).Perm jobs := by
  have perm := (List.mergeSort_perm (jobs.map fun job =>
    (job, Broker.priorityOf job (Broker.usageShares half ledger now config) now config))
      fun one other => Broker.Precedes one other).map Prod.fst
  rw [List.map_map] at perm
  exact perm.trans (List.Perm.of_eq (List.map_id _))

theorem SameOrder.agree (twins : Twins half jobs ledger now config twin snapshot policy)
    (same : SameOrder half jobs ledger now config twin snapshot policy)
    (isOld : old ∈ jobs) (isYoung : young ∈ jobs) (before : Before old young) :
    Agree config (Broker.usageShares half ledger now config) now old young := by
  unfold Agree
  rw [← twins.sooner_iff isOld isYoung before]
  have placed : ∀ {one other : Broker.Job}, one ∈ jobs → other ∈ jobs → one.jobId ≠ other.jobId →
      [one, other].Sublist (pythonOrder half jobs ledger now config) →
        snapshot.sooner policy (twin one) (twin other) = true := by
    intro one other isOne isOther apart sublist
    have queued : ∀ job ∈ jobs, twin job ∈ snapshot.jobs := fun job member =>
      twins.queued.mem_iff.mpr (List.mem_map_of_mem member)
    refine (queue_before_iff (queued one isOne) (queued other isOther) ?_).mp ?_
    · rwa [twins.id one isOne, twins.id other isOther]
    · rw [same]
      exact sublist.map twin
  have apart : old.jobId ≠ young.jobId := fun level =>
    before.ne (twins.same isOld isYoung level)
  constructor
  · intro overtakes
    refine placed isYoung isOld apart.symm ?_
    refine Broker.orderQueue_before isYoung isOld before.ne.symm ?_
    rw [precedes_older_iff before]
    exact not_not.mpr overtakes
  · intro sooner
    by_contra behind
    have ahead := placed isOld isYoung apart (Broker.orderQueue_before isOld isYoung before.ne
      fun precedes => behind ((precedes_younger_iff before).mp precedes))
    exact sooner_asymm ahead sooner

theorem SameOrder.of_agree (twins : Twins half jobs ledger now config twin snapshot policy)
    (agree : ∀ old ∈ jobs, ∀ young ∈ jobs, Before old young →
      Agree config (Broker.usageShares half ledger now config) now old young) :
    SameOrder half jobs ledger now config twin snapshot policy := by
  have listed : ∀ job ∈ pythonOrder half jobs ledger now config, job ∈ jobs := fun job =>
    pythonOrder_perm.mem_iff.mp
  -- whoever precedes in the Python broker is not behind in the control plane
  have ordered : ((pythonOrder half jobs ledger now config).map twin).Pairwise fun one two =>
      ¬ snapshot.sooner policy two one = true := by
    rw [List.pairwise_map, List.pairwise_iff_forall_sublist]
    intro one other sublist
    have isOne := listed one (sublist.subset List.mem_cons_self)
    have isOther := listed other (sublist.subset (List.mem_cons_of_mem _ List.mem_cons_self))
    have precedes := Broker.orderQueue_pair sublist
    by_cases level : one.jobId = other.jobId
    · rw [twins.same isOne isOther level]
      exact fun sooner => sooner_asymm sooner sooner
    rcases before_total level with before | before
    · intro sooner
      have overtakes := (agree one isOne other isOther before).mpr
        ((twins.sooner_iff isOne isOther before).mp sooner)
      exact (precedes_older_iff before).mp precedes overtakes
    · have overtakes := (precedes_younger_iff before).mp precedes
      exact sooner_asymm ((twins.sooner_iff isOther isOne before).mpr
        ((agree other isOther one isOne before).mp overtakes))
  refine @List.Perm.eq_of_pairwise _ (fun one two => ¬ snapshot.sooner policy two one = true) _ _
    (fun one two isOne isTwo first second => ?_) (queue_sorted comparable_rat snapshot policy) ordered ?_
  · have isTwo := List.mem_map.mp isTwo
    obtain ⟨job, member, rfl⟩ := isTwo
    refine jobs_apart (mem_queue.mp isOne) ?_ (comparable_rat.apart first second)
    exact twins.queued.mem_iff.mpr (List.mem_map_of_mem (listed job member))
  · refine (orderJobs_perm snapshot policy).trans (twins.queued.trans ?_)
    exact (pythonOrder_perm.map twin).symm

/-- Over the same queue the two brokers return the jobs in the same order exactly when, for any two jobs,
it makes no difference that one counts the waits up to the first start and the other one up to now in
six decimals. Where every wait counts the same, exactly when no two jobs of which the younger one
overtakes are level in six decimals. -/
theorem same_order_iff (twins : Twins half jobs ledger now config twin snapshot policy) :
    let shares := Broker.usageShares half ledger now config
    (SameOrder half jobs ledger now config twin snapshot policy ↔
      ∀ old ∈ jobs, ∀ young ∈ jobs, Before old young → Agree config shares now old young) ∧
    ((∀ job ∈ jobs, agedBy config (waitEnd now job) job = agedBy config now job) →
      (SameOrder half jobs ledger now config twin snapshot policy ↔
        ∀ old ∈ jobs, ∀ young ∈ jobs, Before old young →
          Overtakes config shares (fun _ => now) old young →
            ¬ Level config shares now old young)) := by
  intro shares
  have general : SameOrder half jobs ledger now config twin snapshot policy ↔
      ∀ old ∈ jobs, ∀ young ∈ jobs, Before old young → Agree config shares now old young := by
    constructor
    · exact fun same _ isOld _ isYoung before => same.agree twins isOld isYoung before
    · exact SameOrder.of_agree twins
  refine ⟨general, fun waits => general.trans ?_⟩
  refine forall₂_congr fun old isOld => forall₂_congr fun young isYoung => imp_congr_right fun _ => ?_
  have unended : Overtakes config shares (waitEnd now) old young ↔
      Overtakes config shares (fun _ => now) old young := by
    unfold Overtakes
    rw [waits old isOld, waits young isYoung]
  unfold Agree
  rw [unended]
  exact iff_self_and

end

/-! ### Two jobs in both -/

/-- The configuration as it comes, with one currency. -/
def dollarConfig : Broker.FairshareConfig ℚ :=
  { Broker.FairshareConfig.standard with wUsdShare := 1, wGpuHourShare := 0 }

/-- A queued job of the Python broker. -/
def clubJob (id : Broker.JobId) (user : Broker.UserId) (submittedAt : Broker.Time)
    (startedAt : Option Broker.Time) : Broker.Job where
  jobId := id
  userId := user
  command := "train"
  gpuType := "t4"
  requestedHours := 1
  currency := .usd
  reserved := 0
  state := .queued
  submittedAt := submittedAt
  updatedAt := submittedAt
  backend := none
  backendHandle := none
  startedAt := startedAt
  finishedAt := none
  exitCode := none
  refusalReason := none
  logsFetched := 0
  attempts := 0
  preemptions := 0
  pinnedTier := none
  checkpointStep := none
  checkpointKey := none
  checkpointAt := none
  cancelRequested := none
  environment := none
  origin := "real"

/-- The job in the control plane, in a tenant of its member's. -/
def clubTwin (job : Broker.Job) : Job :=
  { queuedJob job.jobId 1 (1000 * job.submittedAt) with tenant := job.userId }

/-- Ann's job is the older one. -/
def annsJob (startedAt : Option Broker.Time) : Broker.Job := clubJob "ann-job" "ann" 0 startedAt

def bobsJob (submittedAt : Broker.Time) : Broker.Job := clubJob "bob-job" "bob" submittedAt none

/-- The two wait in the control plane. -/
def clubSnapshot (usage : List (TenantID × ℚ)) (submittedAt now : Broker.Time) : Snapshot ℚ where
  now := 1000 * now
  jobs := [clubTwin (annsJob none), clubTwin (bobsJob submittedAt)]
  jobsDistinct := show (["ann-job", "bob-job"] : List JobID).Nodup by decide +kernel
  workers := []
  workersDistinct := List.nodup_nil
  pools _ := none
  pue _ := 1
  running := []
  tenantUsage := usage
  tenantActiveGPUs _ := 0
  tenantMaxGPUs _ := none
  projectAvailable _ := none
  carbon _ := { current := none, forecast := [], forecastModel := "" }

/-- The fair share of the control plane, with the same weights and age limit. -/
def clubPolicy : Policy ℚ where
  version := "fair-share@v1"
  ordering := .fairShare
  weights := { fit := 1, cost := 0, carbon := 0, deadline := 0 }
  agingStep := 0
  maxAgingBoost := 0
  fairShare := { wFair := 1 / 2, wAge := 1 / 2, ageMax := 12 * hour }
  priorityWeight := 0
  starvationGuard := 0
  allowPreemption := false
  allowDelay := false
  delayMinImprovement := 0
  carbonMaxAge := 0
  fallback := .unset
  emergency := false

/-- Ann has settled a dollar. -/
def annsDollar (moment : Broker.Time) : List Broker.LedgerEntry :=
  [{ jobId := none
     userId := some "ann"
     currency := .usd
     kind := .settle
     amount := 100
     period := 0
     writtenAt := moment
     resourceHandle := none }]

theorem club_twins {usage : List (TenantID × ℚ)} {ledger : List Broker.LedgerEntry}
    {startedAt : Option Broker.Time} {submittedAt now : Broker.Time}
    (shares : ∀ user ∈ ["ann", "bob"], usageShares usage user =
      (Broker.usageShares Broker.halved ledger now dollarConfig).of (some user)) :
    Twins Broker.halved [annsJob startedAt, bobsJob submittedAt] ledger now dollarConfig clubTwin
      (clubSnapshot usage submittedAt now) clubPolicy where
  valid := by decide +kernel
  ordering := rfl
  weightless := rfl
  wFair := rfl
  wAge := rfl
  ageMax := by decide +kernel
  time := rfl
  queued := List.Perm.refl _
  id _ _ := rfl
  submittedAt _ _ := rfl
  share job member := by
    rcases List.mem_cons.mp member with rfl | member
    · exact shares "ann" List.mem_cons_self
    · rw [List.mem_singleton.mp member]
      exact shares "bob" (List.mem_cons_of_mem _ List.mem_cons_self)

instance (config : Broker.FairshareConfig ℚ) (shares : Broker.Totals ℚ)
    (upTo : Broker.Job → Broker.Time) (old young : Broker.Job) :
    Decidable (Overtakes config shares upTo old young) :=
  inferInstanceAs (Decidable (_ < _))

instance (config : Broker.FairshareConfig ℚ) (shares : Broker.Totals ℚ) (moment : Broker.Time)
    (old young : Broker.Job) : Decidable (Level config shares moment old young) :=
  inferInstanceAs (Decidable (_ = _))

instance (old young : Broker.Job) : Decidable (Before old young) :=
  inferInstanceAs (Decidable (_ ∨ _))

instance (config : Broker.FairshareConfig ℚ) (shares : Broker.Totals ℚ) (now : Broker.Time)
    (old young : Broker.Job) : Decidable (Agree config shares now old young) :=
  inferInstanceAs (Decidable (_ ↔ _))

/-- Both put Bob's job first, an hour younger, where Ann has used everything. -/
theorem same_order_spent :
    SameOrder Broker.halved [annsJob none, bobsJob 3600000000] (annsDollar 36000000000) 36000000000
      dollarConfig clubTwin (clubSnapshot [("ann", 1)] 3600000000 36000000000) clubPolicy := by
  have twins := @club_twins [("ann", 1)] (annsDollar 36000000000) none 3600000000 36000000000
    (by decide +kernel)
  exact (same_order_iff twins).1.mpr (by decide +kernel)

/-- Where Ann's job was started after a second and put back, only the Python broker puts Bob's first; and
where Ann has used everything and waited long, only the control plane does not put first a job of Bob's
that has waited for a microsecond. -/
theorem order_differs :
    (Twins Broker.halved [annsJob (some 1000000), bobsJob 3600000000] [] 36000000000 dollarConfig
        clubTwin (clubSnapshot [] 3600000000 36000000000) clubPolicy ∧
      ¬ SameOrder Broker.halved [annsJob (some 1000000), bobsJob 3600000000] [] 36000000000
        dollarConfig clubTwin (clubSnapshot [] 3600000000 36000000000) clubPolicy) ∧
    Twins Broker.halved [annsJob none, bobsJob 46799999999] (annsDollar 46800000000) 46800000000
        dollarConfig clubTwin (clubSnapshot [("ann", 1)] 46799999999 46800000000) clubPolicy ∧
      ¬ SameOrder Broker.halved [annsJob none, bobsJob 46799999999] (annsDollar 46800000000)
        46800000000 dollarConfig clubTwin (clubSnapshot [("ann", 1)] 46799999999 46800000000)
          clubPolicy := by
  have requeued := @club_twins [] [] (some 1000000) 3600000000 36000000000 (by decide +kernel)
  have close := @club_twins [("ann", 1)] (annsDollar 46800000000) none 46799999999 46800000000
    (by decide +kernel)
  refine ⟨⟨requeued, fun same => ?_⟩, close, fun same => ?_⟩
  · have agree := same.agree requeued List.mem_cons_self (List.mem_cons_of_mem _ List.mem_cons_self)
      (by decide)
    exact absurd agree (by decide +kernel)
  · have agree := same.agree close List.mem_cons_self (List.mem_cons_of_mem _ List.mem_cons_self)
      (by decide)
    exact absurd agree (by decide +kernel)

end GpuBroker.ControlPlane
