/-
This file is the order of the queue as a whole: whatever order the jobs are
listed in, they are scored and sorted into one order, by shares that divide what
the pool has been used for.

A job that was never started and has waited its time goes before every job that
has not waited, with one exception. A job that was started in the moment it was
submitted and was queued again has never waited either; where it ties in score,
the tie breaks on submit time, and it may have been submitted first.
-/
import GpuBroker.Broker.Fairshare

namespace GpuBroker.Broker

open Library

variable {K : Type} [Field K] [LinearOrder K]

/-! ### Shares divide a whole -/

section Shares

/-- All that is counted in some totals. -/
def Totals.sum (totals : Totals K) : K := (totals.map Prod.snd).sum

omit [LinearOrder K] in
theorem Totals.sum_cons (user : Option UserId) (total : K) (rest : Totals K) :
    Totals.sum ((user, total) :: rest) = total + rest.sum := List.sum_cons

omit [LinearOrder K] in
theorem Totals.sum_add (totals : Totals K) (user : Option UserId) (amount : K) :
    (totals.add user amount).sum = totals.sum + amount := by
  induction totals with
  | nil => simp [Totals.add, Totals.sum]
  | cons entry rest inductionHypothesis =>
      obtain ⟨other, total⟩ := entry
      unfold Totals.add
      split
      · rw [Totals.sum_cons, Totals.sum_cons]
        ring
      · rw [Totals.sum_cons, Totals.sum_cons, inductionHypothesis]
        ring

omit [LinearOrder K] in
theorem Totals.sum_foldl (counted : K → K) (usage start : Totals K) :
    (usage.foldl (fun shares (user, amount) => shares.add user (counted amount)) start).sum =
      start.sum + (usage.map fun entry => counted entry.2).sum := by
  induction usage generalizing start with
  | nil => exact (add_zero _).symm
  | cons entry rest inductionHypothesis =>
      rw [List.foldl_cons, inductionHypothesis, Totals.sum_add, List.map_cons, List.sum_cons, add_assoc]

omit [LinearOrder K] in
theorem Totals.sum_div (totals : Totals K) (weight : K) :
    Totals.sum (totals.map fun (user, share) => (user, share / weight)) = totals.sum / weight := by
  unfold Totals.sum
  simp only [div_eq_mul_inv]
  rw [List.map_map, ← List.sum_map_mul_right]
  rfl

variable [IsStrictOrderedRing K] {half : K → K} {ledger : List LedgerEntry} {now : Time}
  {config : FairshareConfig K}

theorem Totals.nonneg_foldl {counted : K → K} {usage start : Totals K}
    (nonneg : ∀ entry ∈ start, 0 ≤ entry.2) (more : ∀ entry ∈ usage, 0 ≤ counted entry.2) :
    ∀ entry ∈ usage.foldl (fun shares (user, amount) => shares.add user (counted amount)) start,
      0 ≤ entry.2 := by
  refine List.foldlRecOn (motive := fun totals : Totals K => ∀ entry ∈ totals, 0 ≤ entry.2) _ _ nonneg
    fun totals kept entry member => ?_
  exact Totals.nonneg_add kept (more entry member)

/-- Shares that are blended so far are parts of the weight that was blended. -/
structure Divided (blended : Totals K × K) : Prop where
  weight : 0 ≤ blended.2
  parts : ∀ entry ∈ blended.1, 0 ≤ entry.2
  whole : blended.1.sum ≤ blended.2

theorem Divided.blend {blended : Totals K × K} (divided : Divided blended)
    (halves : ∀ power, 0 ≤ half power) (settled : Settled ledger) (currency : Currency) :
    Divided (blend half ledger now config blended currency) := by
  unfold Broker.blend
  simp only
  split
  · exact divided
  · next counts =>
    have weight : 0 < config.shareWeight currency := not_le.mp counts
    split
    · exact ⟨add_nonneg divided.weight weight.le, divided.parts,
        divided.whole.trans (le_add_of_nonneg_right weight.le)⟩
    · next used =>
      have pool := not_le.mp used
      have parts : ∀ entry ∈ decayedUsage half ledger currency now config, 0 ≤ config.shareWeight currency *
          (entry.2 / ((decayedUsage half ledger currency now config).map Prod.snd).sum) :=
        blend_nonneg halves settled weight.le pool.le
      refine ⟨add_nonneg divided.weight weight.le, @Totals.nonneg_foldl _ _ _ _
        (fun amount => config.shareWeight currency * (amount / _)) _ _ divided.parts parts, ?_⟩
      refine (Totals.sum_foldl (fun amount => config.shareWeight currency * (amount / _)) _ _).trans_le ?_
      exact add_le_add divided.whole (blend_whole pool).le

/-- The shares of all members are parts of one whole. -/
theorem usageShares_divided (halves : ∀ power, 0 ≤ half power) (settled : Settled ledger) :
    (∀ entry ∈ usageShares half ledger now config, 0 ≤ entry.2 ∧ entry.2 ≤ 1) ∧
      (usageShares half ledger now config).sum ≤ 1 := by
  have divided : Divided (Currency.all.foldl (blend half ledger now config) ([], 0)) :=
    List.foldlRecOn (motive := Divided) _ _ ⟨le_rfl, fun _ none => absurd none List.not_mem_nil, le_rfl⟩
      fun _ divided currency _ => divided.blend halves settled currency
  suffices parts : (∀ entry ∈ usageShares half ledger now config, 0 ≤ entry.2) ∧
      (usageShares half ledger now config).sum ≤ 1 by
    refine ⟨fun entry member => ⟨parts.1 entry member, ?_⟩, parts.2⟩
    refine le_trans (List.single_le_sum ?_ _ (List.mem_map_of_mem member)) parts.2
    rintro _ counted
    obtain ⟨other, listed, rfl⟩ := List.mem_map.mp counted
    exact parts.1 other listed
  unfold usageShares
  generalize Currency.all.foldl (blend half ledger now config) ([], 0) = blended at divided ⊢
  obtain ⟨shares, weight⟩ := blended
  simp only
  split
  · exact ⟨fun _ none => absurd none List.not_mem_nil, zero_le_one⟩
  · next counts =>
    have positive : 0 < weight := not_le.mp counts
    refine ⟨fun entry member => ?_, ?_⟩
    · obtain ⟨share, listed, rfl⟩ := List.mem_map.mp member
      exact div_nonneg (divided.parts share listed) positive.le
    · rw [Totals.sum_div]
      exact (div_le_one positive).mpr divided.whole

end Shares

/-! ### One order -/

section Order

variable {half : K → K} {jobs : List Job} {ledger : List LedgerEntry} {now : Time}
  {config : FairshareConfig K}

theorem orderQueue_perm (half : K → K) (jobs : List Job) (ledger : List LedgerEntry) (now : Time)
    (config : FairshareConfig K) :
    ((orderQueue half jobs ledger now config).map Prod.fst).Perm jobs := by
  refine ((List.mergeSort_perm _ _).map Prod.fst).trans ?_
  rw [List.map_map]
  exact List.Perm.of_eq (List.map_id _)

omit [Field K] in
/-- Of two jobs that may each go before the other, both are the same. -/
theorem Precedes.antisymm {one other : Job × Priority K} (first : Precedes one other)
    (second : Precedes other one) : one.1.jobId = other.1.jobId := by
  rcases first with higher | ⟨level, before⟩
  · rcases second with more | ⟨same, _⟩
    · exact absurd more (lt_asymm higher)
    · exact absurd same higher.ne
  · rcases second with more | ⟨_, after⟩
    · exact absurd level more.ne
    · rcases before with earlier | ⟨moment, id⟩
      · rcases after with later | ⟨same, _⟩
        · exact absurd later (lt_asymm earlier)
        · exact absurd same earlier.ne'
      · rcases after with later | ⟨_, next⟩
        · exact absurd moment later.ne'
        · exact String.le_antisymm id next

/-- The order of the queue does not depend on the order the jobs are listed in. -/
theorem orderQueue_unordered (distinct : (jobs.map Job.jobId).Nodup) {others : List Job}
    (same : others.Perm jobs) :
    orderQueue half others ledger now config = orderQueue half jobs ledger now config := by
  have listed : ∀ {entry list}, entry ∈ orderQueue half list ledger now config →
      entry.1 ∈ list := fun {entry list} member =>
    (orderQueue_perm half list ledger now config).mem_iff.mp (List.mem_map_of_mem member)
  refine List.Perm.eq_of_pairwise ?_ (orderQueue_sorted half others ledger now config)
    (orderQueue_sorted half jobs ledger now config) ?_
  · intro one other member also first second
    have alike : one.1 = other.1 :=
      List.inj_on_of_nodup_map distinct (same.mem_iff.mp (listed member)) (listed also)
        (first.antisymm second)
    exact Prod.ext alike (by rw [mem_orderQueue member, mem_orderQueue also, alike])
  · exact (List.mergeSort_perm _ _).trans ((same.map _).trans (List.mergeSort_perm _ _).symm)

end Order

/-! ### Jobs that have waited their time -/

section Ageing

/-- Every job that was never started and has waited its time is placed before every job that has not
waited. -/
def AgedFirst (half : K → K) (jobs : List Job) (ledger : List LedgerEntry) (now : Time)
    (config : FairshareConfig K) : Prop :=
  ∀ aged ∈ jobs, ∀ fresh ∈ jobs, aged.startedAt = none → config.ageMaxHours ≤ aged.waitHours now →
    (fresh.waitHours now : K) = 0 →
      [aged, fresh].Sublist ((orderQueue half jobs ledger now config).map Prod.fst)

/-- A job that was started in the moment it was submitted, or before, ties in score with another and was
submitted no later. -/
structure StartedAtOnce (half : K → K) (ledger : List LedgerEntry) (now : Time) (config : FairshareConfig K)
    (aged fresh : Job) : Prop where
  started : ∃ moment ∈ fresh.startedAt, moment ≤ fresh.submittedAt
  tie : (priorityOf fresh (usageShares half ledger now config) now config).score =
    (priorityOf aged (usageShares half ledger now config) now config).score
  submitted : fresh.submittedAt ≤ aged.submittedAt

variable [IsStrictOrderedRing K] {half : K → K} {jobs : List Job} {ledger : List LedgerEntry} {now : Time}
  {config : FairshareConfig K}

theorem past_of_hoursIn {duration : Duration} (past : max 0 (hoursIn duration : K) = 0) : duration ≤ 0 := by
  have bound : (duration : K) / 3600000000 ≤ 0 := max_eq_left_iff.mp past
  rw [div_le_iff₀ (by norm_num), zero_mul] at bound
  exact_mod_cast bound

/-- A job that has waited its time is placed before one that has not waited, unless that one was
started at once, ties with it and was submitted no later. -/
theorem aged_before_unwaited (halves : ∀ power, 0 ≤ half power) (valid : config.validate = .ok ())
    (settled : Settled ledger) {aged fresh : Job} (member : aged ∈ jobs) (also : fresh ∈ jobs)
    (unstarted : aged.startedAt = none) (waited : config.ageMaxHours ≤ aged.waitHours now)
    (unwaited : (fresh.waitHours now : K) = 0) :
    [aged, fresh].Sublist ((orderQueue half jobs ledger now config).map Prod.fst) ∨
      StartedAtOnce half ledger now config aged fresh := by
  obtain ⟨_, _, positive⟩ := config.validate_ok valid
  have apart : aged ≠ fresh := fun same => by
    rw [same, unwaited] at waited
    exact absurd positive (not_lt.mpr waited)
  have before : aged.submittedAt < now := by
    by_contra late
    have past : now - aged.submittedAt ≤ 0 := sub_nonpos.mpr (not_lt.mp late)
    refine absurd positive (not_lt.mpr (waited.trans ?_))
    unfold Job.waitHours
    rw [unstarted]
    exact (max_eq_left (hoursIn_nonpos past)).le
  have scores : (priorityOf fresh (usageShares half ledger now config) now config).score ≤
      (priorityOf aged (usageShares half ledger now config) now config).score :=
    unwaited_le_aged valid (usageShares_bounds halves settled)
      (Or.inl (config.outweighs valid waited)) unwaited
  by_cases first : Precedes (fresh, priorityOf fresh (usageShares half ledger now config) now config)
      (aged, priorityOf aged (usageShares half ledger now config) now config)
  · right
    rcases first with higher | ⟨tie, order⟩
    · exact absurd higher (not_lt.mpr scores)
    · have submitted : fresh.submittedAt ≤ aged.submittedAt := order.elim le_of_lt fun same => same.1.le
      have past : fresh.startedAt.getD now - fresh.submittedAt ≤ 0 := past_of_hoursIn unwaited
      refine ⟨?_, tie, submitted⟩
      cases started : fresh.startedAt with
      | none =>
          rw [started, Option.getD_none] at past
          exact absurd (submitted.trans_lt before) (not_lt.mpr (sub_nonpos.mp past))
      | some moment =>
          rw [started, Option.getD_some] at past
          exact ⟨moment, rfl, sub_nonpos.mp past⟩
  · exact Or.inl (orderQueue_before member also apart first)

/-- The queue is put into one order, whatever order it is listed in; the shares are parts of a whole; and
a job that was never started and has waited its time goes before every job that has not waited, but for
one that was started at once, ties with it and was submitted no later. -/
theorem orderQueue_fair (halves : ∀ power, 0 ≤ half power) (valid : config.validate = .ok ())
    (settled : Settled ledger) (now : Time) (distinct : (jobs.map Job.jobId).Nodup) :
    ((orderQueue half jobs ledger now config).map Prod.fst).Perm jobs ∧
      (∀ others : List Job, others.Perm jobs →
        orderQueue half others ledger now config = orderQueue half jobs ledger now config) ∧
      (∀ entry ∈ usageShares half ledger now config, 0 ≤ entry.2 ∧ entry.2 ≤ 1) ∧
      ((usageShares half ledger now config).map Prod.snd).sum ≤ 1 ∧
      ∀ aged ∈ jobs, ∀ fresh ∈ jobs, aged.startedAt = none → config.ageMaxHours ≤ aged.waitHours now →
        (fresh.waitHours now : K) = 0 →
          [aged, fresh].Sublist ((orderQueue half jobs ledger now config).map Prod.fst) ∨
            StartedAtOnce half ledger now config aged fresh := by
  obtain ⟨parts, whole⟩ : (∀ entry ∈ usageShares half ledger now config, 0 ≤ entry.2 ∧ entry.2 ≤ 1) ∧
      (usageShares half ledger now config).sum ≤ 1 := usageShares_divided halves settled
  refine ⟨orderQueue_perm half jobs ledger now config, fun others same => orderQueue_unordered distinct same,
    parts, whole, fun aged member fresh also unstarted waited unwaited => ?_⟩
  exact aged_before_unwaited halves valid settled member also unstarted waited unwaited

end Ageing

/-! ### Two jobs that tie -/

/-- Ann's job, which has waited for twelve hours by noon. -/
def waitingJob : Job :=
  NewJob.row ⟨"ann-job", "ann", "train", "t4", 4, .usd, 1, none, "real"⟩ .queued 1

/-- Bob's job, submitted a moment before, started at once and queued again. -/
def requeuedJob : Job :=
  { NewJob.row ⟨"bob-job", "bob", "train", "t4", 4, .usd, 1, none, "real"⟩ .queued 0 with
    startedAt := some 0 }

/-- Ann has had everything and Bob nothing, so that with the weights as they come the two tie; Bob's job
was submitted first. -/
theorem requeuedJob_first :
    FairshareConfig.standard.validate = .ok () ∧ Settled (settledFor "ann" 0) ∧
      ([waitingJob, requeuedJob].map Job.jobId).Nodup ∧
      ¬ AgedFirst halved [waitingJob, requeuedJob] (settledFor "ann" 0) 43200000001 .standard := by
  refine ⟨by decide +kernel, settledFor_settled "ann" 0, by decide +kernel, fun agedFirst => ?_⟩
  have placed := agedFirst waitingJob List.mem_cons_self requeuedJob
    (List.mem_cons_of_mem _ List.mem_cons_self) rfl (by decide +kernel) (by decide +kernel)
  exact absurd (orderQueue_pair placed) (by decide +kernel)

/-- Bob's job, had it been submitted at noon. -/
def newJob : Job := { requeuedJob with startedAt := none, submittedAt := 43200000001 }

theorem orderQueue_fair_waiting :
    [waitingJob, newJob].Sublist ((orderQueue halved [newJob, waitingJob] (settledFor "ann" 0) 43200000001
      .standard).map Prod.fst) := by
  have distinct : ([newJob, waitingJob].map Job.jobId).Nodup := by decide +kernel
  have valid : FairshareConfig.standard.validate = .ok () := by decide +kernel
  obtain ⟨-, -, -, -, first⟩ :=
    orderQueue_fair halved_nonneg valid (settledFor_settled "ann" 0) 43200000001 distinct
  refine (first waitingJob (List.mem_cons_of_mem _ List.mem_cons_self) newJob List.mem_cons_self rfl
    (by decide +kernel) (by decide +kernel)).resolve_right fun exception => ?_
  obtain ⟨_, started, _⟩ := exception.started
  cases started

end GpuBroker.Broker
