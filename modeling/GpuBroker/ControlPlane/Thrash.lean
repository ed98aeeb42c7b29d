/-
This file is preemption beside the order of the queue: whether a victim that is
requeued stays behind the job it was preempted for.

Victims are chosen by raw priority, the queue is ordered by a score. The two agree
for a pair of priorities when the most a job of the lower one can score is less
than the least a job of the higher one can, in six decimals; the policies that
order by arrival or by deadline never make them agree.
-/
import GpuBroker.ControlPlane.Exact
import Mathlib.Data.Rat.Floor

namespace GpuBroker.ControlPlane

open Library

/-! ### Policies that are accepted -/

/-- A rational with two decimals. -/
def fixed2Rat (x : ℚ) : String :=
  let hundredths := (roundRat (x * 100)).natAbs
  let digits := toString (hundredths % 100)
  (if x < 0 then "-" else "") ++ toString (hundredths / 100) ++ "." ++
    "".pushn '0' (2 - digits.length) ++ digits

/-- The checks on a policy of this name; its ordering is one of the known ones. -/
def Policy.validate (name : String) (policy : Policy ℚ) : Except String Unit :=
  let fair := policy.fairShare
  let weights := policy.weights
  if name = "" ∨ policy.version = "" then .error "policy needs a name and a version"
  else if policy.ordering = .fairShare ∧ fair.wAge < fair.wFair then
    .error ("policy " ++ name ++ ": fair-share WAge (" ++ fixed2Rat fair.wAge ++
      ") must be >= WFair (" ++ fixed2Rat fair.wFair ++ ") or heavy tenants starve")
  else if policy.ordering = .priorityAging ∧ (policy.agingStep ≤ 0 ∨ policy.maxAgingBoost ≤ 0) then
    .error ("policy " ++ name ++ ": priority aging needs a positive step and bound")
  else if policy.allowPreemption ∧ policy.ordering = .fairShare ∧ policy.priorityWeight < 1 then
    .error ("policy " ++ name ++ ": preemption by priority needs PriorityWeight >= 1 or preempted " ++
      "jobs are re-placed first")
  else if weights.fit < 0 ∨ weights.cost < 0 ∨ weights.carbon < 0 ∨ weights.deadline < 0 then
    .error ("policy " ++ name ++ ": weights must be non-negative")
  else if 0 < weights.carbon ∧ policy.carbonMaxAge ≤ 0 then
    .error ("policy " ++ name ++ ": a carbon weight needs CarbonMaxAge")
  else if 0 < weights.carbon ∧ policy.fallback = .unset then
    .error ("policy " ++ name ++ ": a carbon weight needs an explicit fallback")
  else .ok ()

variable {policy : Policy ℚ} {name : String}

theorem validate_aging (valid : policy.validate name = .ok ()) (ages : policy.ordering = .priorityAging) :
    0 < policy.agingStep ∧ 0 < policy.maxAgingBoost := by
  unfold Policy.validate at valid
  simp only at valid
  split at valid
  · cases valid
  split at valid
  · cases valid
  split at valid
  · cases valid
  next positive =>
  rw [not_and, not_or, not_le, not_le] at positive
  exact positive ages

theorem validate_fairShare (valid : policy.validate name = .ok ())
    (preempts : policy.allowPreemption = true) (shares : policy.ordering = .fairShare) :
    policy.fairShare.wFair ≤ policy.fairShare.wAge ∧ 0 < policy.priorityWeight := by
  unfold Policy.validate at valid
  simp only at valid
  split at valid
  · cases valid
  split at valid
  · cases valid
  next ages =>
  split at valid
  · cases valid
  split at valid
  · cases valid
  next weighs =>
  refine ⟨not_lt.mp fun less => ages ⟨shares, less⟩, ?_⟩
  exact zero_lt_one.trans_le (not_lt.mp fun less => weighs ⟨preempts, shares, less⟩)

/-! ### The range of a score -/

/-- The most a job of the lower priority can score is less than the least that one of the higher
priority can. -/
def Policy.outranks (policy : Policy ℚ) (low high : Int) : Bool :=
  match policy.ordering with
  | .fifo | .deadline => false
  | .priorityAging =>
      (round6 ((low : ℚ) + policy.maxAgingBoost) : ℚ) < round6 (high : ℚ)
  | .fairShare =>
      let fair := policy.fairShare
      (0 < fair.ageMax ∨ fair.wAge = 0) ∧
        (round6 (max fair.wFair 0 + max fair.wAge 0 + policy.priorityWeight * low) : ℚ) <
          round6 (min fair.wFair 0 + min fair.wAge 0 + policy.priorityWeight * high)

variable {snapshot : Snapshot ℚ} {job : Job}

theorem scoreOf_aging (ages : policy.ordering = .priorityAging) :
    snapshot.scoreOf policy job = round6 ((job.priority : ℚ) +
      min policy.maxAgingBoost ((max 0 (snapshot.now - job.submittedAt) : Int) / policy.agingStep)) := by
  unfold Snapshot.scoreOf Snapshot.keyed orderKey
  rw [ages, ← least_eq]
  rfl

theorem scoreOf_undated (slack : policy.ordering = .deadline) (undated : job.deadline = none) :
    snapshot.scoreOf policy job =
      ((-1000000000000 : Int) : ℚ) + (max 0 (snapshot.now - job.submittedAt) : Int) / hour := by
  unfold Snapshot.scoreOf Snapshot.keyed orderKey
  rw [slack, ← hours_eq]
  simp only [undated]
  rfl

theorem scoreOf_fairShare (shares : policy.ordering = .fairShare) (weighs : 0 < policy.priorityWeight) :
    snapshot.scoreOf policy job =
      round6 (policy.fairShare.wFair * (1 - usageShares snapshot.tenantUsage job.tenant) +
        policy.fairShare.wAge *
          ageTerm (max 0 (snapshot.now - job.submittedAt)) policy.fairShare.ageMax +
        policy.priorityWeight * job.priority) := by
  unfold Snapshot.scoreOf Snapshot.keyed orderKey
  rw [shares]
  simp only
  rw [if_pos (show Number.less (Number.ofInt 0) policy.priorityWeight = true from
    decide_eq_true (by exact_mod_cast weighs)), fairShareScore_eq]
  rfl

/-- A part of a weight is between it and nothing. -/
theorem weight_part {weight part : ℚ} (low : 0 ≤ part) (high : part ≤ 1) :
    min weight 0 ≤ weight * part ∧ weight * part ≤ max weight 0 := by
  rcases le_total 0 weight with positive | negative
  · rw [min_eq_right positive, max_eq_left positive]
    exact ⟨mul_nonneg positive low, mul_le_of_le_one_right positive high⟩
  · rw [min_eq_left negative, max_eq_right negative]
    exact ⟨le_mul_of_le_one_right negative high, mul_nonpos_of_nonpos_of_nonneg negative low⟩

theorem age_part {fair : FairShare ℚ} {wait : Duration} (waited : 0 ≤ wait)
    (limited : 0 < fair.ageMax ∨ fair.wAge = 0) :
    min fair.wAge 0 ≤ fair.wAge * ageTerm wait fair.ageMax ∧
      fair.wAge * ageTerm wait fair.ageMax ≤ max fair.wAge 0 := by
  rcases limited with limit | none
  · exact weight_part (ageTerm_bounds waited limit).1 (ageTerm_bounds waited limit).2
  · rw [none, zero_mul]
    exact ⟨min_le_right _ _, le_max_right _ _⟩

/-- Under a policy that ranks the priorities apart, a job of the lower one always scores less. -/
theorem outranks_scores (valid : policy.validate name = .ok ())
    (preempts : policy.allowPreemption = true) (used : Used snapshot.tenantUsage) {one two : Job}
    (ranks : policy.outranks one.priority two.priority = true) :
    snapshot.scoreOf policy one < snapshot.scoreOf policy two := by
  unfold Policy.outranks at ranks
  split at ranks
  · cases ranks
  · cases ranks
  · next ages =>
    have range := validate_aging valid ages
    rw [scoreOf_aging ages, scoreOf_aging ages]
    have least_waits : (0 : ℚ) ≤ min policy.maxAgingBoost
        ((max 0 (snapshot.now - two.submittedAt) : Int) / policy.agingStep) :=
      le_min range.2.le (div_nonneg (by exact_mod_cast le_max_left _ _) (by exact_mod_cast range.1.le))
    calc round6 ((one.priority : ℚ) + min policy.maxAgingBoost
          ((max 0 (snapshot.now - one.submittedAt) : Int) / policy.agingStep))
        ≤ round6 ((one.priority : ℚ) + policy.maxAgingBoost) :=
          round6_mono ((add_le_add_iff_left _).mpr (min_le_left _ _))
      _ < round6 (two.priority : ℚ) := of_decide_eq_true ranks
      _ ≤ _ := round6_mono (le_add_of_nonneg_right least_waits)
  · next shares =>
    have weighs := (validate_fairShare valid preempts shares).2
    obtain ⟨limited, ranks⟩ := of_decide_eq_true ranks
    have fair : ∀ tenant, min policy.fairShare.wFair 0 ≤
        policy.fairShare.wFair * (1 - usageShares snapshot.tenantUsage tenant) ∧
          policy.fairShare.wFair * (1 - usageShares snapshot.tenantUsage tenant) ≤
            max policy.fairShare.wFair 0 := by
      intro tenant
      obtain ⟨low, high⟩ := usageShares_bounds used tenant
      exact weight_part (by linarith) (by linarith)
    rw [scoreOf_fairShare shares weighs, scoreOf_fairShare shares weighs]
    calc round6 _
        ≤ round6 (max policy.fairShare.wFair 0 + max policy.fairShare.wAge 0 +
            policy.priorityWeight * one.priority) :=
          round6_mono ((add_le_add_iff_right _).mpr
            (add_le_add (fair one.tenant).2 (age_part (le_max_left _ _) limited).2))
      _ < round6 (min policy.fairShare.wFair 0 + min policy.fairShare.wAge 0 +
            policy.priorityWeight * two.priority) := ranks
      _ ≤ _ := round6_mono ((add_le_add_iff_right _).mpr
          (add_le_add (fair two.tenant).1 (age_part (le_max_left _ _) limited).1))

/-! ### Victims -/

/-- The pass preempts the running victim for the waiting job. -/
structure Preempts (policy : Policy ℚ) (snapshot : Snapshot ℚ) (digest : String)
    (waiting victim : Job) : Prop where
  queued : waiting ∈ snapshot.jobs
  unqueued : victim.id ∉ snapshot.jobs.map Job.id
  priority : ∀ running ∈ snapshot.running, running.job = victim.id →
    running.priority = victim.priority
  decided : ∃ decision ∈ policy.decide snapshot digest, decision.job = waiting.id ∧
    decision.action = .preempt ∧ decision.victim = victim.id

/-- A row of the job at some other time: nothing that orders it ever changes. -/
structure Job.Kept (before after : Job) : Prop where
  id : after.id = before.id
  tenant : after.tenant = before.tenant
  priority : after.priority = before.priority
  deadline : after.deadline = before.deadline
  maxRuntime : after.maxRuntime = before.maxRuntime
  submittedAt : after.submittedAt = before.submittedAt

/-- Whenever the policy preempts a victim of the lower priority for a job of the higher one, then at
every later time at which the job still waits and the victim was requeued, the victim is behind it. -/
def VictimsBehind (policy : Policy ℚ) (low high : Int) : Prop :=
  ∀ (snapshot : Snapshot ℚ) (digest : String) (waiting victim : Job),
    waiting.priority = high → victim.priority = low →
    Preempts policy snapshot digest waiting victim →
    ∀ (later : Snapshot ℚ) (still requeued : Job), snapshot.now < later.now →
      Used later.tenantUsage → waiting.Kept still → victim.Kept requeued →
      still ∈ later.jobs → requeued ∈ later.jobs →
        [still, requeued].Sublist (queue later policy)

/-- A victim is chosen among the running jobs of lower priority. -/
theorem pickVictim_some {held : Held} {left : Left} {running : RunningJob} {worker : Worker}
    (picked : pickVictim job snapshot held left = some (running, worker)) :
    running ∈ snapshot.running ∧ running.priority < job.priority := by
  unfold pickVictim at picked
  have member := (List.perm_insertionSort _ _).mem_iff.mp (List.mem_of_head? picked)
  obtain ⟨other, isRunning, chosen⟩ := List.mem_filterMap.mp member
  split at chosen
  · cases chosen
  next spared =>
  split at chosen
  · cases chosen
  split at chosen
  · cases chosen
  split at chosen
  · cases chosen
  cases chosen
  rw [not_or, not_or] at spared
  exact ⟨isRunning, not_le.mp spared.2.1⟩

theorem decideJob_preempt {digest : String} {held : Held} {left : Left} {ordered : OrderedJob ℚ}
    (preempts : (decideJob snapshot policy digest held left ordered).1.action = .preempt) :
    ∃ running ∈ snapshot.running, running.priority < ordered.job.priority ∧
      running.job = (decideJob snapshot policy digest held left ordered).1.victim := by
  revert preempts
  unfold decideJob decideStuck decideBest
  simp only
  split
  · nofun
  split
  · nofun
  split
  · nofun
  split
  · split
    · next running worker picked =>
      intro _
      split at picked
      · exact ⟨running, (pickVictim_some picked).1, (pickVictim_some picked).2, rfl⟩
      · cases picked
    · nofun
  · split <;> nofun

/-- The victim has the lower priority. -/
theorem Preempts.lower {digest : String} {waiting victim : Job}
    (preempts : Preempts policy snapshot digest waiting victim) :
    victim.priority < waiting.priority := by
  obtain ⟨decision, member, about, action, names⟩ := preempts.decided
  obtain ⟨before, ordered, after, split, rfl⟩ := mem_outputs member
  obtain ⟨running, isRunning, lower, own⟩ := decideJob_preempt action
  have same : ordered.job = waiting := by
    refine jobs_apart (mem_orderJobs (split ▸ List.mem_append_right _ List.mem_cons_self))
      preempts.queued ?_
    rw [← about, (decideJob_outcome snapshot policy digest _ _ ordered).1]
  rw [← preempts.priority running isRunning (own.trans names), ← same]
  exact lower

theorem outranks_behind (valid : policy.validate name = .ok ())
    (allows : policy.allowPreemption = true) {low high : Int}
    (ranks : policy.outranks low high = true) : VictimsBehind policy low high := by
  intro snapshot digest waiting victim isHigh isLow preempts later still requeued _ used keptWaiting
    keptVictim isStill isRequeued
  refine (queue_before_iff isStill isRequeued ?_).mpr (sooner_iff.mpr (Or.inl ?_))
  · rw [keptWaiting.id, keptVictim.id]
    exact fun same => preempts.unqueued (same ▸ List.mem_map_of_mem preempts.queued)
  · refine outranks_scores valid allows used ?_
    rw [keptVictim.priority, keptWaiting.priority, isHigh, isLow]
    exact ranks

/-! ### Two jobs over one GPU -/

/-- A job for one GPU, in a tenant of its own. -/
def contender (id : JobID) (priority : Int) (submittedAt : Time) : Job :=
  { queuedJob id 1 submittedAt with tenant := id, priority := priority }

/-- One of them holds the only GPU while the other one waits. -/
def standoff (waiting victim : Job) : Snapshot ℚ where
  now := 0
  jobs := [waiting]
  jobsDistinct := List.nodup_singleton _
  workers := [readyWorker "worker" 1 1]
  workersDistinct := List.nodup_singleton _
  pools _ := some dollarPool
  pue _ := 1
  running :=
    [{ job := victim.id, worker := "worker", gpus := 1, priority := victim.priority
       preemptible := true, startedAt := 0 }]
  tenantUsage := []
  tenantActiveGPUs _ := 0
  tenantMaxGPUs _ := none
  projectAvailable _ := none
  carbon _ := { current := none, forecast := [], forecastModel := "" }

/-- Later both of them wait. -/
def reunion (usage : List (TenantID × ℚ)) (low high : Int) (early late now : Time) : Snapshot ℚ where
  now := now
  jobs := [contender "waiting" high late, contender "victim" low early]
  jobsDistinct := show (["waiting", "victim"] : List JobID).Nodup by decide +kernel
  workers := []
  workersDistinct := List.nodup_nil
  pools _ := none
  pue _ := 1
  running := []
  tenantUsage := usage
  tenantActiveGPUs _ := 0
  tenantMaxGPUs _ := none
  projectAvailable _ := none
  carbon _ := { current := none, forecast := [], forecastModel := "" }

theorem standoff_pick {waiting victim : Job} (lower : victim.priority < waiting.priority) {held : Held}
    (own : ∀ holder, held "worker" = some holder → holder = waiting.id)
    (passes : Passes waiting (readyWorker "worker" 1 1) dollarPool 1 (fun _ => none) fun _ => none) :
    pickVictim waiting (standoff waiting victim) held (.start (standoff waiting victim)) =
      some ({ job := victim.id, worker := "worker", gpus := 1, priority := victim.priority
              preemptible := true, startedAt := 0 }, readyWorker "worker" 1 1) := by
  have free : filter waiting (readyWorker "worker" 1 1) dollarPool
      ((Left.start (standoff waiting victim)).free "worker" + 1) held (fun _ => none) = none :=
    filter_eq_none.mpr { passes with room := passes.room, unheld := own }
  have found : (standoff waiting victim).workers.find? (fun worker => worker.id = "worker") =
      some (readyWorker "worker" 1 1) := rfl
  have spared : ¬ ((¬ (true : Bool) = true) ∨ victim.priority ≥ waiting.priority ∨
      ([] : List JobID).contains victim.id = true) := by
    rw [not_or, not_or, not_le]
    exact ⟨fun unmoved => unmoved rfl, lower, Bool.false_ne_true⟩
  unfold pickVictim
  show ((List.filterMap _ [_]).insertionSort _).head? = _
  rw [List.filterMap_cons_some]
  · rfl
  · refine (if_neg spared).trans ?_
    show (if (readyWorker "worker" 1 1).state ≠ .ready then none else _) = _
    refine (if_neg (not_not.mpr rfl)).trans (if_neg ?_)
    exact fun rejected => Option.isSome_iff_ne_none.mp rejected free

/-- With preemption the one that waits takes the GPU, if its priority is higher. -/
theorem standoff_preempts (allows : policy.allowPreemption = true) {low high : Int}
    (lower : low < high) (early late : Time) (digest : String) :
    Preempts policy (standoff (contender "waiting" high late) (contender "victim" low early)) digest
      (contender "waiting" high late) (contender "victim" low early) := by
  refine ⟨List.mem_cons_self, ?_, fun running member _ => by rw [List.mem_singleton.mp member], ?_⟩
  · show "victim" ∉ ["waiting"]
    decide
  let snapshot := standoff (contender "waiting" high late) (contender "victim" low early)
  have single := List.perm_singleton.mp (orderJobs_perm snapshot policy)
  obtain ⟨ordered, rest, cut, own, _⟩ := List.map_eq_cons_iff.mp single
  have kept : ∀ holder, heldWorkers snapshot policy "worker" = some holder → holder = "waiting" := by
    intro holder holds
    obtain ⟨job, isQueued, rfl, _⟩ := held_origin holds
    rw [List.mem_singleton.mp isQueued]
    rfl
  have full : survivors ordered.job snapshot (heldWorkers snapshot policy) (.start snapshot) = [] := by
    refine List.eq_nil_iff_forall_not_mem.mpr fun input member => ?_
    obtain ⟨worker, isWorker, passes, _⟩ := mem_survivors.mp member
    have room := passes.room
    rw [List.mem_singleton.mp isWorker, own] at room
    exact absurd (show (1 : Int) ≤ 0 from room) (by decide)
  have picked := @standoff_pick (contender "waiting" high late) (contender "victim" low early) lower
    (heldWorkers snapshot policy) kept
      ⟨Or.inl rfl, rfl, rfl, le_refl _, nofun, nofun, nofun, nofun⟩
  refine ⟨(decideJob snapshot policy digest (heldWorkers snapshot policy) (.start snapshot) ordered).1,
    ?_, ?_⟩
  · unfold Policy.decide
    rw [cut]
    exact List.mem_cons_self
  · rw [decideJob_stuck (by rw [own]; rfl) (by rw [own]; rfl) (by rw [own]; rfl) full]
    unfold decideStuck
    rw [own, if_pos allows, picked]
    exact ⟨congrArg Job.id own, rfl, rfl⟩

section

variable {low high : Int} {usage : List (TenantID × ℚ)}

/-- Where victims stay behind, they score no more. -/
theorem behind_le (behind : VictimsBehind policy low high) (allows : policy.allowPreemption = true)
    (lower : low < high) (used : Used usage) (early late : Time) {now : Time} (after : 0 < now) :
    ¬ (reunion usage low high early late now).sooner policy (contender "victim" low early)
      (contender "waiting" high late) = true := by
  have sublist := behind _ "" _ _ rfl rfl (standoff_preempts allows lower early late "")
    (reunion usage low high early late now) _ _ after used ⟨rfl, rfl, rfl, rfl, rfl, rfl⟩
    ⟨rfl, rfl, rfl, rfl, rfl, rfl⟩ List.mem_cons_self (List.mem_cons_of_mem _ List.mem_cons_self)
  exact List.pairwise_pair.mp ((queue_sorted comparable_rat _ policy).sublist sublist)

/-- An older victim scores less. -/
theorem behind_lt (behind : VictimsBehind policy low high) (allows : policy.allowPreemption = true)
    (lower : low < high) (used : Used usage) {early late now : Time} (older_ : early < late)
    (after : 0 < now) :
    (reunion usage low high early late now).scoreOf policy (contender "victim" low early) <
      (reunion usage low high early late now).scoreOf policy (contender "waiting" high late) := by
  have behind := behind_le behind allows lower used early late after
  rw [sooner_iff, not_or, not_lt, not_and] at behind
  refine lt_of_le_of_ne behind.1 fun level => behind.2 level ?_
  exact older_iff.mpr (Or.inl older_)

theorem behind_not_fifo (behind : VictimsBehind policy low high)
    (allows : policy.allowPreemption = true) (lower : low < high) : policy.ordering ≠ .fifo := by
  intro arrival
  have scores := @behind_lt policy low high [] behind allows lower nofun 0 1 1 (by decide) (by decide)
  unfold Snapshot.scoreOf Snapshot.keyed orderKey at scores
  rw [arrival] at scores
  exact lt_irrefl _ scores

theorem behind_not_deadline (behind : VictimsBehind policy low high)
    (allows : policy.allowPreemption = true) (lower : low < high) : policy.ordering ≠ .deadline := by
  intro slack
  have scores := @behind_lt policy low high [] behind allows lower nofun 0 1 1 (by decide) (by decide)
  rw [scoreOf_undated slack rfl, scoreOf_undated slack rfl, add_lt_add_iff_left] at scores
  exact absurd (show ((max 0 (1 - 0) : Int) : ℚ) / hour < (max 0 (1 - 1) : Int) / hour from scores)
    (by decide +kernel)

theorem behind_aging (behind : VictimsBehind policy low high)
    (allows : policy.allowPreemption = true) (lower : low < high) (valid : policy.validate name = .ok ())
    (ages : policy.ordering = .priorityAging) :
    (round6 ((low : ℚ) + policy.maxAgingBoost) : ℚ) < round6 (high : ℚ) := by
  obtain ⟨step, boost⟩ := validate_aging valid ages
  -- the victim has waited for the whole boost, and the other job not at all
  obtain ⟨wait, waited, whole⟩ : ∃ wait : Int, 0 < wait ∧
      policy.maxAgingBoost * policy.agingStep ≤ wait :=
    ⟨⌈policy.maxAgingBoost * policy.agingStep⌉,
      Int.ceil_pos.mpr (mul_pos boost (by exact_mod_cast step)), Int.le_ceil _⟩
  have scores := @behind_lt policy low high [] behind allows lower nofun (1 - wait) 1 1
    (sub_lt_self 1 waited) (by decide)
  rw [scoreOf_aging ages, scoreOf_aging ages] at scores
  have scores : round6 ((low : ℚ) + min policy.maxAgingBoost
      ((max 0 (1 - (1 - wait)) : Int) / policy.agingStep)) < round6 ((high : ℚ) +
        min policy.maxAgingBoost ((max 0 (1 - 1) : Int) / policy.agingStep)) := scores
  have full : policy.maxAgingBoost ≤ (wait : ℚ) / policy.agingStep :=
    (le_div_iff₀ (by exact_mod_cast step)).mpr whole
  rwa [sub_sub_cancel, max_eq_right waited.le, min_eq_left full, sub_self, max_self, Int.cast_zero,
    zero_div, min_eq_right boost.le, add_zero] at scores

/-- What a contender scores in a fair share after a wait. -/
theorem contender_score (shares : policy.ordering = .fairShare) (weighs : 0 < policy.priorityWeight)
    {early late : Time} {id : JobID} {priority : Int} {wait : Duration} (waited : 0 ≤ wait) :
    (reunion usage low high early late 1).scoreOf policy (contender id priority (1 - wait)) =
      round6 (policy.fairShare.wFair * (1 - usageShares usage id) +
        policy.fairShare.wAge * ageTerm wait policy.fairShare.ageMax +
        policy.priorityWeight * priority) := by
  rw [scoreOf_fairShare shares weighs]
  show round6 (policy.fairShare.wFair * (1 - usageShares usage id) + policy.fairShare.wAge *
    ageTerm (max 0 (1 - (1 - wait))) policy.fairShare.ageMax + policy.priorityWeight * priority) = _
  rw [sub_sub_cancel, max_eq_right waited]

/-- Some usage gives the victim the better share for a weight. -/
theorem opposed_shares (weight : ℚ) : ∃ usage, Used usage ∧
    weight * (1 - usageShares usage "victim") = max weight 0 ∧
      weight * (1 - usageShares usage "waiting") = min weight 0 := by
  have shares : usageShares [("waiting", (1 : ℚ))] "victim" = 0 ∧
      usageShares [("waiting", (1 : ℚ))] "waiting" = 1 ∧
      usageShares [("victim", (1 : ℚ))] "victim" = 1 ∧
      usageShares [("victim", (1 : ℚ))] "waiting" = 0 := by
    decide +kernel
  obtain ⟨spared, spent, spender, saver⟩ := shares
  have used : ∀ tenant : TenantID, Used [(tenant, 1)] := fun _ _ member => by
    rw [List.mem_singleton.mp member]
    exact zero_le_one
  rcases le_total 0 weight with positive | negative
  · refine ⟨[("waiting", 1)], used _, ?_, ?_⟩
    · rw [spared, sub_zero, mul_one, max_eq_left positive]
    · rw [spent, sub_self, mul_zero, min_eq_right positive]
  · refine ⟨[("victim", 1)], used _, ?_, ?_⟩
    · rw [spender, sub_self, mul_zero, max_eq_right negative]
    · rw [saver, sub_zero, mul_one, min_eq_left negative]

/-- A negative age limit lets a long wait cost a job any score. -/
theorem behind_limited (behind : VictimsBehind policy low high)
    (allows : policy.allowPreemption = true) (lower : low < high)
    (valid : policy.validate name = .ok ()) (shares : policy.ordering = .fairShare)
    (dated : policy.fairShare.ageMax ≠ 0) (ages : 0 ≤ policy.fairShare.wAge) :
    0 < policy.fairShare.ageMax ∨ policy.fairShare.wAge = 0 := by
  have weighs := (validate_fairShare valid allows shares).2
  by_contra unlimited
  rw [not_or, not_lt] at unlimited
  have negative : policy.fairShare.ageMax < 0 := lt_of_le_of_ne unlimited.1 dated
  have heavy : 0 < policy.fairShare.wAge := lt_of_le_of_ne ages (Ne.symm unlimited.2)
  obtain ⟨spans, enough⟩ : ∃ spans : Nat,
      (policy.priorityWeight * (high - low) + 1) / policy.fairShare.wAge ≤ spans :=
    ⟨_, Nat.le_ceil _⟩
  rw [div_le_iff₀ heavy] at enough
  have waited : 0 ≤ -policy.fairShare.ageMax * spans :=
    mul_nonneg (neg_nonneg.mpr negative.le) (Int.natCast_nonneg spans)
  have term : ageTerm (-policy.fairShare.ageMax * spans) policy.fairShare.ageMax = -spans := by
    have nonzero : (policy.fairShare.ageMax : ℚ) ≠ 0 := by exact_mod_cast dated
    unfold ageTerm
    push_cast
    rw [neg_mul, neg_div, mul_div_cancel_left₀ _ nonzero]
    exact min_eq_right (by linarith [(Nat.cast_nonneg spans : (0 : ℚ) ≤ spans)])
  have fresh : ageTerm 0 policy.fairShare.ageMax = 0 := by
    unfold ageTerm
    rw [Int.cast_zero, zero_div, min_eq_right zero_le_one]
  have stays := @behind_le policy low high [] behind allows lower nofun (1 - 0)
    (1 - -policy.fairShare.ageMax * spans) 1 zero_lt_one
  rw [sooner_iff, not_or] at stays
  refine stays.1 ?_
  rw [contender_score shares weighs waited, contender_score shares weighs (le_refl 0), term, fresh]
  have unused : ∀ tenant, usageShares ([] : List (TenantID × ℚ)) tenant = 0 := fun _ => rfl
  rw [unused, unused]
  exact round6_lt (by linarith)

theorem behind_fairShare (behind : VictimsBehind policy low high)
    (allows : policy.allowPreemption = true) (lower : low < high)
    (valid : policy.validate name = .ok ()) (shares : policy.ordering = .fairShare)
    (dated : policy.fairShare.ageMax ≠ 0) (ages : 0 ≤ policy.fairShare.wAge) :
    (0 < policy.fairShare.ageMax ∨ policy.fairShare.wAge = 0) ∧
      (round6 (max policy.fairShare.wFair 0 + max policy.fairShare.wAge 0 +
        policy.priorityWeight * low) : ℚ) <
          round6 (min policy.fairShare.wFair 0 + min policy.fairShare.wAge 0 +
            policy.priorityWeight * high) := by
  have weighs := (validate_fairShare valid allows shares).2
  have limited := behind_limited behind allows lower valid shares dated ages
  refine ⟨limited, ?_⟩
  obtain ⟨usage, used, most, least⟩ := opposed_shares policy.fairShare.wFair
  -- the victim has waited for the whole age term, and the other job not at all
  obtain ⟨wait, waited, whole⟩ : ∃ wait : Int, 0 < wait ∧
      policy.fairShare.wAge * ageTerm wait policy.fairShare.ageMax = policy.fairShare.wAge := by
    rcases limited with limit | none
    · refine ⟨policy.fairShare.ageMax, limit, ?_⟩
      unfold ageTerm
      rw [div_self (by exact_mod_cast limit.ne'), min_self, mul_one]
    · exact ⟨1, zero_lt_one, by rw [none, zero_mul]⟩
  have scores := behind_lt behind allows lower used (show 1 - wait < 1 - 0 by rw [sub_zero]; exact sub_lt_self 1 waited)
    zero_lt_one
  have fresh : ageTerm 0 policy.fairShare.ageMax = 0 := by
    unfold ageTerm
    rw [Int.cast_zero, zero_div, min_eq_right zero_le_one]
  rw [contender_score shares weighs waited.le, contender_score shares weighs (le_refl 0), most, least,
    whole, fresh, mul_zero] at scores
  rwa [max_eq_left ages, min_eq_right ages]

end

/-! ### When victims stay behind -/

/-- A preempted victim has the lower priority. For a policy that is accepted and preempts, victims of
one priority stay behind jobs of a higher one when the policy ranks the two apart, and, where the age
weight of a fair share is not negative, only then. -/
theorem victims_behind_iff (name : String) (policy : Policy ℚ) (valid : policy.validate name = .ok ())
    (allows : policy.allowPreemption = true)
    (dated : policy.ordering = .fairShare → policy.fairShare.ageMax ≠ 0) :
    (∀ snapshot digest waiting victim, Preempts policy snapshot digest waiting victim →
      victim.priority < waiting.priority) ∧
    ∀ low high : Int, low < high →
      (policy.outranks low high = true → VictimsBehind policy low high) ∧
      ((policy.ordering = .fairShare → 0 ≤ policy.fairShare.wAge) →
        VictimsBehind policy low high → policy.outranks low high = true) := by
  refine ⟨fun _ _ _ _ preempts => preempts.lower, fun low high lower =>
    ⟨outranks_behind valid allows, fun ages behind => ?_⟩⟩
  unfold Policy.outranks
  cases order : policy.ordering with
  | fifo => exact absurd order (behind_not_fifo behind allows lower)
  | deadline => exact absurd order (behind_not_deadline behind allows lower)
  | priorityAging => exact decide_eq_true (behind_aging behind allows lower valid order)
  | fairShare =>
      exact decide_eq_true (behind_fairShare behind allows lower valid order (dated order) (ages order))

/-- The policy of emergencies. -/
def emergency (boost : ℚ) : Policy ℚ where
  version := "emergency@v2"
  ordering := .priorityAging
  weights := { fit := 1, cost := 0, carbon := 0, deadline := 0 }
  agingStep := hour
  maxAgingBoost := boost
  fairShare := { wFair := 0, wAge := 0, ageMax := 0 }
  priorityWeight := 0
  starvationGuard := 0
  allowPreemption := true
  allowDelay := false
  delayMinImprovement := 0
  carbonMaxAge := 0
  fallback := .unset
  emergency := true

/-- With a boost of half a level victims stay behind. -/
theorem victims_behind_half : VictimsBehind (emergency (1 / 2)) 0 1 :=
  ((victims_behind_iff "emergency" (emergency (1 / 2)) (by decide +kernel) rfl nofun).2 0 1
    (by decide)).1 (by decide +kernel)

/-- With the five levels it has, a job of priority 0 that is ten hours old is preempted for a fresh one
of priority 4, and a second later it is ahead of it. -/
theorem victim_ahead :
    (emergency 5).validate "emergency" = .ok () ∧ (emergency 5).allowPreemption = true ∧
    Preempts (emergency 5) (standoff (contender "waiting" 4 0) (contender "victim" 0 (-10 * hour))) ""
      (contender "waiting" 4 0) (contender "victim" 0 (-10 * hour)) ∧
    ¬ [contender "waiting" 4 0, contender "victim" 0 (-10 * hour)].Sublist
      (queue (reunion [] 0 4 (-10 * hour) 0 second) (emergency 5)) := by
  refine ⟨by decide +kernel, rfl, standoff_preempts rfl (by decide) _ _ _, fun sublist => ?_⟩
  have sooner := (queue_before_iff List.mem_cons_self (List.mem_cons_of_mem _ List.mem_cons_self)
    (by decide)).mp sublist
  exact absurd sooner (by decide +kernel)

end GpuBroker.ControlPlane
