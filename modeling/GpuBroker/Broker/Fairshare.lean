/-
This file is who goes next, and why: the fair-share priority of a queued job and
the order of the queue, in exact numbers, against the promise that a job that
has waited its time is not put behind one that has just been submitted.

A score is a sum of two terms, and the one that ages reads how long a job waited
before it was first started. For a job that has never been started that is the
time its history has spent in the queue. For one that was started and then taken
off its machine it stands still, however long the job waits again.
-/
import Mathlib.Algebra.BigOperators.Ring.List
import Mathlib.Algebra.Order.BigOperators.Group.List
import Mathlib.Algebra.Order.Field.Basic
import Mathlib.Tactic.FieldSimp
import Mathlib.Tactic.Linarith
import Mathlib.Tactic.Positivity
import GpuBroker.Broker.Plans

namespace GpuBroker.Broker

open Library

variable {γ K : Type} [Field K] [LinearOrder K]

/-! ### The configuration -/

/-- The part of the configuration that orders the queue, with the window as a duration. -/
structure FairshareConfig (K : Type) where
  wFair : K
  wAge : K
  ageMaxHours : K
  fairshareWindow : Duration
  fairshareHalfLifeDays : K
  wUsdShare : K
  wGpuHourShare : K

/-- How much a currency counts in a share. -/
def FairshareConfig.shareWeight (config : FairshareConfig K) : Currency → K
  | .usd => config.wUsdShare
  | .gpuHour => config.wGpuHourShare

/-- What is wrong with a configuration. -/
inductive ConfigError (K : Type) where
  | negativeWeights
  | nothingOrders
  | starves (wAge wFair : K)
  | ageMaxHours
  | fairshareHalfLifeDays
  deriving DecidableEq

/-- The checks of a configuration that concern the order of the queue. -/
def FairshareConfig.validate (config : FairshareConfig K) : Except (ConfigError K) Unit := do
  if config.wFair < 0 ∨ config.wAge < 0 then .error .negativeWeights
  if config.wFair = 0 ∧ config.wAge = 0 then .error .nothingOrders
  if config.wAge < config.wFair then .error (.starves config.wAge config.wFair)
  if config.ageMaxHours ≤ 0 then .error .ageMaxHours
  if config.fairshareHalfLifeDays ≤ 0 then .error .fairshareHalfLifeDays

/-! ### Shares -/

/-- A duration in hours. -/
def hoursIn (duration : Duration) : K := duration / 3600000000

/-- A duration in days. -/
def daysIn (duration : Duration) : K := duration / 86400000000

/-- How much a settlement from some days ago still counts; `half` raises a half to a power. -/
def decayWeight (half : K → K) (ageDays halfLifeDays : K) : K :=
  if ageDays ≤ 0 then 1 else half (ageDays / halfLifeDays)

/-- Every settlement in the window. Newest last. -/
def settlementsSince (ledger : List LedgerEntry) (cutoff : Time) (currency : Currency) :
    List (Option UserId × Cents × Time) :=
  ((ledger.filter fun row => row.kind = .settle ∧ row.currency = currency ∧ cutoff ≤ row.writtenAt).mergeSort
    fun one other => one.writtenAt ≤ other.writtenAt).map fun row => (row.userId, row.amount, row.writtenAt)

/-- Totals by member. -/
abbrev Totals (K : Type) := List (Option UserId × K)

/-- The total of a member, where absent means nothing. -/
def Totals.of (totals : Totals K) (user : Option UserId) : K := (totals.lookup user).getD 0

/-- Add to the total of a member. -/
def Totals.add : Totals K → Option UserId → K → Totals K
  | [], user, amount => [(user, amount)]
  | (other, total) :: rest, user, amount =>
      if other = user then (other, total + amount) :: rest else (other, total) :: add rest user amount

/-- Decayed consumption per member, in one currency, over the window. -/
def decayedUsage (half : K → K) (ledger : List LedgerEntry) (currency : Currency) (now : Time)
    (config : FairshareConfig K) : Totals K :=
  (settlementsSince ledger (now - config.fairshareWindow) currency).foldl
    (fun totals (user, amount, written) =>
      totals.add user ((amount / 100 : K) * decayWeight half (daysIn (now - written)) config.fairshareHalfLifeDays))
    []

/-- Blend a currency into the shares so far; a currency nobody has used yet adds nothing but its
weight. -/
def blend (half : K → K) (ledger : List LedgerEntry) (now : Time) (config : FairshareConfig K)
    (blended : Totals K × K) (currency : Currency) : Totals K × K :=
  let weight := config.shareWeight currency
  if weight ≤ 0 then blended
  else
    let usage := decayedUsage half ledger currency now config
    let poolTotal := (usage.map Prod.snd).sum
    if poolTotal ≤ 0 then (blended.1, blended.2 + weight)
    else
      (usage.foldl (fun shares (user, amount) => shares.add user (weight * (amount / poolTotal))) blended.1,
        blended.2 + weight)

/-- Each member's blended share of everything consumed in the window. -/
def usageShares (half : K → K) (ledger : List LedgerEntry) (now : Time) (config : FairshareConfig K) :
    Totals K :=
  let blended := Currency.all.foldl (blend half ledger now config) ([], 0)
  if blended.2 ≤ 0 then [] else blended.1.map fun (user, share) => (user, share / blended.2)

/-! ### Priorities -/

/-- Why a queued job sits where it sits. -/
structure Priority (K : Type) where
  jobId : JobId
  userId : UserId
  score : K
  fairTerm : K
  ageTerm : K
  usageShare : K
  waitHours : K

/-- How long a job has been waiting for capacity: from submission to dispatch, or now. -/
def Job.waitHours (job : Job) (now : Time) : K :=
  max 0 (hoursIn (job.startedAt.getD now - job.submittedAt))

def priorityOf (job : Job) (shares : Totals K) (now : Time) (config : FairshareConfig K) : Priority K :=
  let share := shares.of (some job.userId)
  let waitHours := job.waitHours now
  let fairTerm := config.wFair * (1 - share)
  let ageTerm := config.wAge * min 1 (waitHours / config.ageMaxHours)
  { jobId := job.jobId
    userId := job.userId
    score := fairTerm + ageTerm
    fairTerm
    ageTerm
    usageShare := share
    waitHours }

/-- One goes before another, or may: higher priority first, ties break on submit time and then on id. -/
def Precedes (one other : Job × Priority K) : Prop :=
  other.2.score < one.2.score ∨ (one.2.score = other.2.score ∧
    (one.1.submittedAt < other.1.submittedAt ∨
      (one.1.submittedAt = other.1.submittedAt ∧ one.1.jobId ≤ other.1.jobId)))

instance (one other : Job × Priority K) : Decidable (Precedes one other) :=
  inferInstanceAs (Decidable (_ ∨ _))

/-- Highest priority first. -/
def orderQueue (half : K → K) (jobs : List Job) (ledger : List LedgerEntry) (now : Time)
    (config : FairshareConfig K) : List (Job × Priority K) :=
  let shares := usageShares half ledger now config
  let scored := jobs.map fun job => (job, priorityOf job shares now config)
  scored.mergeSort fun one other => Precedes one other

/-! ### Shares are between nothing and all -/

section Bounds

variable [IsStrictOrderedRing K]

omit [LinearOrder K] [IsStrictOrderedRing K] in
theorem Totals.of_cons (user other : Option UserId) (total : K) (rest : Totals K) :
    Totals.of ((user, total) :: rest) other = if other = user then total else Totals.of rest other := by
  unfold Totals.of
  by_cases same : other = user
  · rw [if_pos same, List.lookup_cons, beq_iff_eq.mpr same]
    rfl
  · rw [if_neg same, List.lookup_cons, beq_eq_false_iff_ne.mpr same]

omit [LinearOrder K] [IsStrictOrderedRing K] in
theorem Totals.of_add (totals : Totals K) (user other : Option UserId) (amount : K) :
    (totals.add user amount).of other = totals.of other + if other = user then amount else 0 := by
  induction totals with
  | nil =>
      unfold Totals.add
      rw [Totals.of_cons]
      exact (zero_add _).symm
  | cons entry rest inductionHypothesis =>
      obtain ⟨name, total⟩ := entry
      unfold Totals.add
      by_cases mine : name = user
      · rw [if_pos mine, Totals.of_cons, Totals.of_cons, mine]
        split
        · rfl
        · exact (add_zero _).symm
      · rw [if_neg mine, Totals.of_cons, Totals.of_cons]
        by_cases same : other = name
        · have apart : ¬ other = user := fun equal => mine (same.symm.trans equal)
          rw [if_pos same, if_pos same, if_neg apart, add_zero]
        · rw [if_neg same, if_neg same, inductionHypothesis]

omit [LinearOrder K] [IsStrictOrderedRing K] in
theorem Totals.of_div (totals : Totals K) (user : Option UserId) (weight : K) :
    Totals.of (totals.map fun (user, share) => (user, share / weight)) user = totals.of user / weight := by
  induction totals with
  | nil => exact (zero_div weight).symm
  | cons entry rest inductionHypothesis =>
      obtain ⟨name, share⟩ := entry
      rw [List.map_cons, Totals.of_cons, Totals.of_cons]
      split
      · rfl
      · exact inductionHypothesis

theorem Totals.nonneg_add {totals : Totals K} {user : Option UserId} {amount : K}
    (nonneg : ∀ entry ∈ totals, 0 ≤ entry.2) (more : 0 ≤ amount) :
    ∀ entry ∈ totals.add user amount, 0 ≤ entry.2 := by
  induction totals with
  | nil => simpa [Totals.add] using more
  | cons entry rest inductionHypothesis =>
      obtain ⟨other, total⟩ := entry
      have first : 0 ≤ total := nonneg (other, total) List.mem_cons_self
      have later : ∀ entry ∈ rest, 0 ≤ entry.2 := fun entry member =>
        nonneg entry (List.mem_cons_of_mem _ member)
      unfold Totals.add
      split
      · rw [List.forall_mem_cons]
        exact ⟨add_nonneg first more, later⟩
      · rw [List.forall_mem_cons]
        exact ⟨first, inductionHypothesis later⟩

theorem Totals.of_foldl {counted : K → K} {usage : Totals K} (start : Totals K) (user : Option UserId)
    (nonneg : ∀ entry ∈ usage, 0 ≤ counted entry.2) :
    let total := usage.foldl (fun shares (user, amount) => shares.add user (counted amount)) start
    start.of user ≤ total.of user ∧
      total.of user ≤ start.of user + (usage.map fun entry => counted entry.2).sum := by
  induction usage generalizing start with
  | nil => exact ⟨le_rfl, (add_zero (start.of user)).ge⟩
  | cons entry rest inductionHypothesis =>
      obtain ⟨name, amount⟩ := entry
      have more : 0 ≤ counted amount := nonneg (name, amount) List.mem_cons_self
      have later := inductionHypothesis (start.add name (counted amount)) fun entry member =>
        nonneg entry (List.mem_cons_of_mem _ member)
      rw [Totals.of_add] at later
      simp only [List.foldl_cons, List.map_cons, List.sum_cons]
      constructor
      · refine le_trans ?_ later.1
        split <;> linarith
      · refine later.2.trans ?_
        split <;> linarith

variable {half : K → K} {ledger : List LedgerEntry} {now : Time} {config : FairshareConfig K}

/-- Nothing in the ledger was settled that was less than nothing. -/
def Settled (ledger : List LedgerEntry) : Prop := ∀ row ∈ ledger, row.kind = .settle → 0 ≤ row.amount

theorem decayWeight_nonneg (halves : ∀ power, 0 ≤ half power) (ageDays halfLifeDays : K) :
    0 ≤ decayWeight half ageDays halfLifeDays := by
  unfold decayWeight
  split
  · exact zero_le_one
  · exact halves _

theorem decayedUsage_nonneg (halves : ∀ power, 0 ≤ half power) (settled : Settled ledger)
    (currency : Currency) : ∀ entry ∈ decayedUsage half ledger currency now config, 0 ≤ entry.2 := by
  unfold decayedUsage
  refine List.foldlRecOn (motive := fun totals : Totals K => ∀ entry ∈ totals, 0 ≤ entry.2) _ _
    (fun _ none => by cases none) fun totals nonneg row member => ?_
  obtain ⟨user, amount, written⟩ := row
  have counted : 0 ≤ amount := by
    obtain ⟨line, listed, same⟩ := List.mem_map.mp member
    cases same
    have chosen := List.mem_filter.mp ((List.mergeSort_perm _ _).mem_iff.mp listed)
    exact settled line chosen.1 (of_decide_eq_true chosen.2).1
  refine Totals.nonneg_add nonneg (mul_nonneg ?_ (decayWeight_nonneg halves _ _))
  have cast : (0 : K) ≤ amount := by exact_mod_cast counted
  positivity

/-- Shares that are blended so far, beside the weight that was blended. -/
def Blended (blended : Totals K × K) : Prop :=
  0 ≤ blended.2 ∧ ∀ user, 0 ≤ blended.1.of user ∧ blended.1.of user ≤ blended.2

/-- What a currency blends in for each member is not less than nothing. -/
theorem blend_nonneg (halves : ∀ power, 0 ≤ half power) (settled : Settled ledger) {currency : Currency}
    {weight pool : K} (counts : 0 ≤ weight) (used : 0 ≤ pool) :
    ∀ entry ∈ decayedUsage half ledger currency now config, 0 ≤ weight * (entry.2 / pool) :=
  fun entry member =>
    mul_nonneg counts (div_nonneg (decayedUsage_nonneg halves settled currency entry member) used)

omit [IsStrictOrderedRing K] in
/-- What a currency blends in for all members together is its weight. -/
theorem blend_whole {usage : Totals K} {weight : K} (used : 0 < (usage.map Prod.snd).sum) :
    (usage.map fun entry => weight * (entry.2 / (usage.map Prod.snd).sum)).sum = weight := by
  have whole := List.sum_map_mul_right usage Prod.snd (usage.map Prod.snd).sum⁻¹
  rw [mul_inv_cancel₀ used.ne'] at whole
  simp only [div_eq_mul_inv]
  rw [List.sum_map_mul_left, whole, mul_one]

theorem Blended.blend {blended : Totals K × K} (held : Blended blended)
    (halves : ∀ power, 0 ≤ half power) (settled : Settled ledger) (currency : Currency) :
    Blended (blend half ledger now config blended currency) := by
  unfold Broker.blend
  simp only
  split
  · exact held
  · next counts =>
    have weight : 0 < config.shareWeight currency := not_le.mp counts
    split
    · refine ⟨add_nonneg held.1 weight.le, fun user => ⟨(held.2 user).1, ?_⟩⟩
      exact (held.2 user).2.trans (le_add_of_nonneg_right weight.le)
    · next used =>
      have pool := not_le.mp used
      have parts : ∀ entry ∈ decayedUsage half ledger currency now config, 0 ≤ config.shareWeight currency *
          (entry.2 / ((decayedUsage half ledger currency now config).map Prod.snd).sum) :=
        blend_nonneg halves settled weight.le pool.le
      refine ⟨add_nonneg held.1 weight.le, fun user => ?_⟩
      have bounds := @Totals.of_foldl _ _ _ _ (fun amount => config.shareWeight currency *
        (amount / ((decayedUsage half ledger currency now config).map Prod.snd).sum)) _ blended.1 user parts
      refine ⟨(held.2 user).1.trans bounds.1, bounds.2.trans (add_le_add (held.2 user).2 ?_)⟩
      exact (blend_whole pool).le

/-- A share is between nothing and all. -/
theorem usageShares_bounds (halves : ∀ power, 0 ≤ half power) (settled : Settled ledger)
    (user : Option UserId) :
    0 ≤ (usageShares half ledger now config).of user ∧
      (usageShares half ledger now config).of user ≤ 1 := by
  have held : Blended (Currency.all.foldl (blend half ledger now config) ([], 0)) :=
    List.foldlRecOn (motive := Blended) _ _ ⟨le_rfl, fun _ => ⟨le_rfl, le_rfl⟩⟩
      fun _ held currency _ => held.blend halves settled currency
  unfold usageShares
  generalize Currency.all.foldl (blend half ledger now config) ([], 0) = blended at held ⊢
  obtain ⟨shares, weight⟩ := blended
  simp only
  split
  · exact ⟨le_rfl, zero_le_one⟩
  · next counts =>
    have positive : 0 < weight := not_le.mp counts
    rw [Totals.of_div]
    exact ⟨div_nonneg (held.2 user).1 positive.le, (div_le_one positive).mpr (held.2 user).2⟩

end Bounds

/-! ### The order of the queue -/

omit [Field K] in
theorem Precedes.trans {one two three : Job × Priority K} (first : Precedes one two)
    (second : Precedes two three) : Precedes one three := by
  rcases first with higher | ⟨level, before⟩
  · rcases second with more | ⟨same, _⟩
    · exact Or.inl (more.trans higher)
    · exact Or.inl (same ▸ higher)
  · rcases second with more | ⟨same, later⟩
    · exact Or.inl (level ▸ more)
    · refine Or.inr ⟨level.trans same, ?_⟩
      rcases before with earlier | ⟨moment, id⟩
      · rcases later with much | ⟨instant, _⟩
        · exact Or.inl (earlier.trans much)
        · exact Or.inl (instant ▸ earlier)
      · rcases later with much | ⟨instant, next⟩
        · exact Or.inl (moment ▸ much)
        · exact Or.inr ⟨moment.trans instant, String.le_trans id next⟩

omit [Field K] in
theorem Precedes.total (one other : Job × Priority K) : Precedes one other ∨ Precedes other one := by
  rcases lt_trichotomy one.2.score other.2.score with lower | level | higher
  · exact Or.inr (Or.inl lower)
  · rcases lt_trichotomy one.1.submittedAt other.1.submittedAt with before | moment | after
    · exact Or.inl (Or.inr ⟨level, Or.inl before⟩)
    · exact (String.le_total one.1.jobId other.1.jobId).imp
        (fun id => Or.inr ⟨level, Or.inr ⟨moment, id⟩⟩)
        fun id => Or.inr ⟨level.symm, Or.inr ⟨moment.symm, id⟩⟩
    · exact Or.inr (Or.inr ⟨level.symm, Or.inl after⟩)
  · exact Or.inl (Or.inl higher)

theorem orderQueue_sorted (half : K → K) (jobs : List Job) (ledger : List LedgerEntry) (now : Time)
    (config : FairshareConfig K) : (orderQueue half jobs ledger now config).Pairwise Precedes := by
  unfold orderQueue
  simp only
  refine (List.pairwise_mergeSort ?_ ?_ _).imp of_decide_eq_true
  · intro one two three first second
    exact decide_eq_true ((of_decide_eq_true first).trans (of_decide_eq_true second))
  · intro one other
    rw [Bool.or_eq_true, decide_eq_true_eq, decide_eq_true_eq]
    exact Precedes.total one other

section Places

variable {half : K → K} {jobs : List Job} {ledger : List LedgerEntry} {now : Time}
  {config : FairshareConfig K} {one other : Job}

theorem mem_orderQueue {entry : Job × Priority K} (member : entry ∈ orderQueue half jobs ledger now config) :
    entry.2 = priorityOf entry.1 (usageShares half ledger now config) now config := by
  obtain ⟨job, _, rfl⟩ := List.mem_map.mp ((List.mergeSort_perm _ _).mem_iff.mp member)
  rfl

/-- A job that is placed before another precedes it, in their scores. -/
theorem orderQueue_pair
    (placed : [one, other].Sublist ((orderQueue half jobs ledger now config).map Prod.fst)) :
    Precedes (one, priorityOf one (usageShares half ledger now config) now config)
      (other, priorityOf other (usageShares half ledger now config) now config) := by
  obtain ⟨entries, part, same⟩ := List.sublist_map_iff.mp placed
  obtain ⟨first, rest, rfl, rfl, after⟩ := List.map_eq_cons_iff.mp same.symm
  obtain ⟨second, tail, rfl, rfl, nothing⟩ := List.map_eq_cons_iff.mp after
  rw [List.map_eq_nil_iff.mp nothing] at part
  have precedes := List.pairwise_iff_forall_sublist.mp (orderQueue_sorted half jobs ledger now config) part
  rw [← mem_orderQueue (part.subset List.mem_cons_self),
    ← mem_orderQueue (part.subset (List.mem_cons_of_mem _ List.mem_cons_self))]
  exact precedes

/-- Of two members of a list, one stands before the other. -/
theorem pair_sublist {α : Type} {first second : α} {list : List α} (one : first ∈ list) (two : second ∈ list)
    (apart : first ≠ second) : [first, second].Sublist list ∨ [second, first].Sublist list := by
  induction list with
  | nil => cases one
  | cons head rest inductionHypothesis =>
      rcases List.mem_cons.mp one with rfl | later
      · have after := (List.mem_cons.mp two).resolve_left apart.symm
        exact Or.inl ((List.singleton_sublist.mpr after).cons_cons _)
      · rcases List.mem_cons.mp two with rfl | also
        · exact Or.inr ((List.singleton_sublist.mpr later).cons_cons _)
        · exact (inductionHypothesis later also).imp (·.cons _) (·.cons _)

/-- A job that another does not precede is placed before it. -/
theorem orderQueue_before (member : one ∈ jobs) (also : other ∈ jobs) (apart : one ≠ other)
    (strict : ¬ Precedes (other, priorityOf other (usageShares half ledger now config) now config)
      (one, priorityOf one (usageShares half ledger now config) now config)) :
    [one, other].Sublist ((orderQueue half jobs ledger now config).map Prod.fst) := by
  have placed : ∀ job ∈ jobs, job ∈ (orderQueue half jobs ledger now config).map Prod.fst := fun job here =>
    List.mem_map.mpr ⟨_, (List.mergeSort_perm _ _).mem_iff.mpr (List.mem_map_of_mem here), rfl⟩
  rcases pair_sublist (placed one member) (placed other also) apart with before | after
  · exact before
  · exact absurd (orderQueue_pair after) strict

end Places

/-! ### Time in the queue -/

/-- How long a job has been in the queue by a moment, as its history says. -/
def timeQueued : List Transition → Time → Duration
  | [], _ => 0
  | row :: rest, now =>
      let left := (rest.head?.map Transition.writtenAt).getD now
      (if row.toState = .queued then left - row.writtenAt else 0) + timeQueued rest now

/-- The rows of a history follow each other in time, and none is later than a moment. -/
def Forward (rows : List Transition) (now : Time) : Prop :=
  (rows.map Transition.writtenAt ++ [now]).Pairwise (· ≤ ·)

theorem Forward.until {rows : List Transition} {now later : Time} (forward : Forward rows now)
    (passed : now ≤ later) : Forward rows later := by
  unfold Forward at forward ⊢
  rw [List.pairwise_append] at forward ⊢
  obtain ⟨ordered, _, before⟩ := forward
  refine ⟨ordered, List.pairwise_singleton _ _, fun moment member last final => ?_⟩
  rw [List.mem_singleton.mp final]
  exact (before moment member now List.mem_cons_self).trans passed

theorem Forward.concat {rows : List Transition} {row : Transition} {now : Time} (forward : Forward rows now)
    (stamped : row.writtenAt = now) : Forward (rows ++ [row]) now := by
  unfold Forward at forward ⊢
  rw [List.map_append, List.map_singleton, stamped]
  refine List.pairwise_append.mpr ⟨forward, List.pairwise_singleton _ _, fun moment member last final => ?_⟩
  rw [List.mem_singleton.mp final]
  obtain ⟨_, _, before⟩ := List.pairwise_append.mp forward
  rcases List.mem_append.mp member with earlier | same
  · exact before moment earlier now List.mem_cons_self
  · exact (List.mem_singleton.mp same).le

/-- A job has not been in the queue for longer than since its first row. -/
theorem timeQueued_le {row : Transition} {rest : List Transition} {now : Time}
    (forward : Forward (row :: rest) now) : timeQueued (row :: rest) now ≤ now - row.writtenAt := by
  induction rest generalizing row with
  | nil =>
      have before : row.writtenAt ≤ now := (List.pairwise_cons.mp forward).1 now List.mem_cons_self
      simp only [timeQueued, List.head?_nil, Option.map_none, Option.getD_none]
      split <;> linarith
  | cons next rest inductionHypothesis =>
      obtain ⟨first, others⟩ := List.pairwise_cons.mp forward
      have before : row.writtenAt ≤ next.writtenAt := first next.writtenAt List.mem_cons_self
      have later : timeQueued (next :: rest) now ≤ now - next.writtenAt := inductionHypothesis others
      rw [timeQueued]
      simp only [List.head?_cons, Option.map_some, Option.getD_some]
      split <;> linarith

theorem Traced.timeQueued_le {rows : List Transition} {job : Job} {now : Time} (traced : Traced rows job)
    (forward : Forward rows now) : Broker.timeQueued rows now ≤ now - job.submittedAt := by
  cases rows with
  | nil => cases traced.path
  | cons row rest =>
      rw [← traced.dated row rfl]
      exact Broker.timeQueued_le forward

/-- A history that has ended has no more rows. -/
theorem leads_terminal {current state : JobState} {rows : List Transition} (ended : current.terminal = true)
    (path : leads (some current) rows = some state) : rows = [] ∧ state = current := by
  cases rows with
  | nil =>
      cases path
      exact ⟨rfl, rfl⟩
  | cons row rest =>
      rw [leads] at path
      split at path
      · next goes =>
        rw [(JobState.canTransition_spec goes.2).1] at ended
        cases ended
      · cases path

/-- A job in the queue that was never started has been there since it was submitted. -/
theorem Traced.timeQueued {rows : List Transition} {job : Job} (traced : Traced rows job)
    (queued : job.state = .queued) (unstarted : job.startedAt = none) (now : Time) :
    Broker.timeQueued rows now = now - job.submittedAt := by
  obtain ⟨path, dated, begun, _⟩ := traced
  have idle : ∀ row ∈ rows, row.toState.active = false := fun row member => by
    by_contra active
    have started := begun row member (Bool.eq_true_of_not_eq_false active)
    rw [unstarted] at started
    cases started
  rw [queued] at path
  cases rows with
  | nil => cases path
  | cons row rest =>
      rw [leads] at path
      split at path
      · next goes =>
        have first : row.toState = .queued ∨ row.toState = .refused := by
          simpa [JobState.follows] using goes.2
        rcases first with waits | refused
        · rw [waits] at path
          cases rest with
          | nil =>
              have moment : row.writtenAt = job.submittedAt := dated row rfl
              simp [Broker.timeQueued, waits, moment]
          | cons next rest =>
              rw [leads] at path
              split at path
              · next goes =>
                have resting := idle next (List.mem_cons_of_mem _ List.mem_cons_self)
                have legal := goes.2
                have ended : next.toState.terminal = true := by
                  clear path goes idle
                  revert resting legal
                  cases next.toState <;> decide
                have left := (leads_terminal ended path).2
                rw [← left] at ended
                cases ended
              · cases path
        · rw [refused] at path
          cases (leads_terminal rfl path).2
      · cases path

/-- On a clock that does not run backwards, the history of every job that was not refused follows the
clock. -/
structure InOrder (world : World γ) : Prop where
  clock : Monotone world.clock
  tracked : Tracked world
  rows : ∀ id job, world.db.jobs.find id = some job → job.state ≠ .refused →
    Forward (world.db.historyOf id) world.last

theorem InOrder.quiet {world next : World γ} (inOrder : InOrder world) (quiet : Quiet world next) :
    InOrder next := by
  refine ⟨quiet.clock ▸ inOrder.clock, inOrder.tracked.quiet quiet.db, fun id job found admitted => ?_⟩
  rw [quiet.db] at found ⊢
  refine (inOrder.rows id job found admitted).until ?_
  unfold World.last
  rw [quiet.clock]
  exact inOrder.clock (Nat.sub_le_sub_right quiet.asked 1)

theorem InOrder.write {outside : Outside γ} {world next : World γ} {write : Write} (inOrder : InOrder world)
    (sound : Sound world write) (exactly : Exact outside world write) (applied : write.apply world = .ok next) : InOrder next := by
  have same : next.clock = world.clock ∧ next.last = world.last := by
    obtain ⟨db, _, rfl⟩ := Write.apply_eq applied
    exact ⟨rfl, rfl⟩
  refine ⟨same.1 ▸ inOrder.clock, inOrder.tracked.write sound exactly applied,
    fun id later hasLater admitted => ?_⟩
  rw [same.2]
  have untouched : write.history id = none → next.db.historyOf id = world.db.historyOf id :=
    fun none => by rw [historyOf_apply applied, none, Option.toList_none, List.append_nil]
  cases Write.rowStep applied hasLater with
  | inserted fresh new =>
      have submitted : ∃ row, write.history id = some row ∧ row.writtenAt = world.last := by
        cases write with
        | create other read =>
            cases new
            exact ⟨_, if_pos (Table.find_key hasLater), exactly.1⟩
        | refuse other refusal =>
            cases new
            exact absurd sound.2.1 admitted
        | insertUser | updateUser | suspend | restore | move | settle | touch | sampled | notify | abandon
        | applyPrices => cases new
      obtain ⟨row, noted, stamped⟩ := submitted
      rw [historyOf_apply applied, inOrder.tracked.absent id fresh, noted]
      exact Forward.concat (List.pairwise_singleton _ _) stamped
  | moved current target change now outstanding row move mine found state after =>
      subst move mine after
      obtain ⟨⟨again, hasRow, essence⟩, stamped, _⟩ := exactly
      cases found.symm.trans hasRow
      have noted : (Write.move current target change now outstanding).history current.jobId =
          some ⟨current.jobId, some current.state, target, now, change.reason⟩ := if_pos rfl
      have before : row.state ≠ .refused := by
        rw [essence_eq essence Job.state fun _ => rfl]
        intro refused
        have left := (JobState.canTransition_spec (Moving.legal sound)).1
        rw [refused] at left
        cases left
      rw [historyOf_apply applied, noted]
      exact (inOrder.rows _ row found before).concat stamped
  | touched columns now row touch found after =>
      subst touch after
      rw [untouched rfl]
      exact inOrder.rows id row found ((columns.onRow_placed now row).1 ▸ admitted)
  | stamped job amount accrued now row settle mine found after =>
      subst settle after
      rw [untouched rfl]
      exact inOrder.rows id row found admitted
  | kept found unmoved _ =>
      rw [untouched (history_unmoved found applied unmoved)]
      exact inOrder.rows id later found admitted

/-- Wherever a run on a clock that does not run backwards is stopped, histories follow the clock. -/
theorem inOrder_run (desk : Desk γ) (config : BrokerConfig) (cloud : γ) {clock : Nat → Time}
    (forward : Monotone clock) (entries : List (Operation × Nat)) :
    InOrder (desk.after entries (World.new config cloud clock)) := by
  refine (Desk.keeps (runs_unknown desk.site) (Booked.new config cloud clock)
    (desk.allows_anything entries _) ?_ ?_ ?_).2
  · exact ⟨forward, ⟨fun _ _ => nofun, fun _ _ => rfl⟩, fun _ _ => nofun⟩
  · exact fun before after _ quiet _ inOrder => inOrder.quiet quiet
  · exact fun write before after _ _ sound _ exactly applied inOrder =>
      inOrder.write sound exactly applied

/-! ### Ageing -/

section Ageing

variable [IsStrictOrderedRing K] {half : K → K} {now : Time} {config : FairshareConfig K} {job fresh : Job}

/-- A check that comes to its end has passed. -/
theorem checked_ok {ε : Type} {wrong : Prop} [Decidable wrong] {error : ε} {rest : Except ε Unit}
    (passed : (do
      if wrong then Except.error error
      rest) = .ok ()) : ¬ wrong ∧ rest = .ok () := by
  by_cases fails : wrong
  · rw [if_pos fails] at passed
    cases passed
  · rw [if_neg fails] at passed
    exact ⟨fails, passed⟩

omit [IsStrictOrderedRing K] in
/-- What a configuration that is accepted says of its weights. -/
theorem FairshareConfig.validate_ok (valid : config.validate = .ok ()) :
    0 ≤ config.wFair ∧ config.wFair ≤ config.wAge ∧ 0 < config.ageMaxHours := by
  unfold FairshareConfig.validate at valid
  obtain ⟨negative, valid⟩ := checked_ok valid
  obtain ⟨_, valid⟩ := checked_ok valid
  obtain ⟨starves, valid⟩ := checked_ok valid
  obtain ⟨empty, _⟩ := checked_ok valid
  exact ⟨not_lt.mp (not_or.mp negative).1, not_lt.mp starves, not_le.mp empty⟩

/-- The age of a job that has waited its time outweighs any share. -/
theorem FairshareConfig.outweighs (valid : config.validate = .ok ()) {waited : K}
    (long : config.ageMaxHours ≤ waited) : config.wFair * config.ageMaxHours ≤ config.wAge * waited := by
  obtain ⟨fair, outweighs, positive⟩ := config.validate_ok valid
  calc config.wFair * config.ageMaxHours ≤ config.wAge * config.ageMaxHours :=
        mul_le_mul_of_nonneg_right outweighs positive.le
    _ ≤ config.wAge * waited := mul_le_mul_of_nonneg_left long (fair.trans outweighs)

theorem hoursIn_nonpos {duration : Duration} (past : duration ≤ 0) : (hoursIn duration : K) ≤ 0 := by
  have cast : (duration : K) ≤ 0 := by exact_mod_cast past
  exact div_nonpos_of_nonpos_of_nonneg cast (by norm_num)

theorem Job.waitHours_fresh (submitted : fresh.submittedAt = now)
    (startedBy : ∀ started ∈ fresh.startedAt, started ≤ now) : (fresh.waitHours now : K) = 0 := by
  have past : fresh.startedAt.getD now - fresh.submittedAt ≤ 0 := by
    cases started : fresh.startedAt with
    | none => simp [submitted]
    | some moment =>
        have before := startedBy moment started
        simp only [Option.getD_some, submitted]
        linarith
  exact max_eq_left (hoursIn_nonpos past)

/-- The score of a job whose wait counts as nothing is its fair-share half. -/
theorem priorityOf_unwaited {shares : Totals K} (unwaited : (fresh.waitHours now : K) = 0) :
    (priorityOf fresh shares now config).score = config.wFair * (1 - shares.of (some fresh.userId)) := by
  show _ + config.wAge * min 1 (fresh.waitHours now / config.ageMaxHours) = _
  rw [unwaited, zero_div, min_eq_right zero_le_one, mul_zero, add_zero]

/-- The score of a job that has waited its time is not under that of one whose wait counts as nothing,
and neither is any under one of the same share. -/
theorem unwaited_le_aged {shares : Totals K} (valid : config.validate = .ok ())
    (bounds : ∀ user, 0 ≤ shares.of user ∧ shares.of user ≤ 1)
    (aged : config.wFair * config.ageMaxHours ≤ config.wAge * job.waitHours now ∨
      shares.of (some fresh.userId) = shares.of (some job.userId))
    (unwaited : (fresh.waitHours now : K) = 0) :
    (priorityOf fresh shares now config).score ≤ (priorityOf job shares now config).score := by
  obtain ⟨fair, outweighs, positive⟩ := config.validate_ok valid
  have age : 0 ≤ config.wAge := fair.trans outweighs
  have waited : (0 : K) ≤ job.waitHours now := le_max_left _ _
  have ageTerm : 0 ≤ config.wAge * min 1 (job.waitHours now / config.ageMaxHours) :=
    mul_nonneg age (le_min zero_le_one (div_nonneg waited positive.le))
  rw [priorityOf_unwaited unwaited]
  show _ ≤ config.wFair * (1 - shares.of (some job.userId)) +
    config.wAge * min 1 (job.waitHours now / config.ageMaxHours)
  rcases aged with counted | level
  · have reached : config.wFair ≤ config.wAge * min 1 (job.waitHours now / config.ageMaxHours) := by
      rw [mul_min_of_nonneg _ _ age, mul_one, mul_div_assoc', le_min_iff]
      exact ⟨outweighs, (le_div_iff₀ positive).mpr counted⟩
    have whole : config.wFair * (1 - shares.of (some fresh.userId)) ≤ config.wFair :=
      mul_le_of_le_one_right fair (sub_le_self 1 (bounds _).1)
    have rest : 0 ≤ config.wFair * (1 - shares.of (some job.userId)) :=
      mul_nonneg fair (sub_nonneg.mpr (bounds _).2)
    linarith
  · rw [level]
    exact le_add_of_nonneg_right ageTerm

/-- A job that has waited its time in the eyes of the score is not behind one that has just been
submitted, and neither is any job behind one of the same share. -/
theorem aged_precedes {shares : Totals K} (valid : config.validate = .ok ())
    (bounds : ∀ user, 0 ≤ shares.of user ∧ shares.of user ≤ 1)
    (aged : config.wFair * config.ageMaxHours ≤ config.wAge * job.waitHours now ∨
      shares.of (some fresh.userId) = shares.of (some job.userId))
    (unwaited : (fresh.waitHours now : K) = 0) (before : job.submittedAt < fresh.submittedAt) :
    ¬ Precedes (fresh, priorityOf fresh shares now config) (job, priorityOf job shares now config) := by
  rintro (higher | ⟨_, earlier | ⟨same, _⟩⟩)
  · exact absurd higher (not_lt.mpr (unwaited_le_aged valid bounds aged unwaited))
  · exact absurd earlier (not_lt.mpr before.le)
  · exact before.ne' same

/-- A job that has not waited its time is behind one just submitted when its member has had
everything and the other's nothing. -/
theorem unaged_precedes {shares : Totals K} (valid : config.validate = .ok ())
    (early : config.wAge * job.waitHours now < config.wFair * config.ageMaxHours)
    (all : shares.of (some job.userId) = 1) (nothing : shares.of (some fresh.userId) = 0)
    (unwaited : (fresh.waitHours now : K) = 0) :
    ¬ Precedes (job, priorityOf job shares now config) (fresh, priorityOf fresh shares now config) := by
  obtain ⟨fair, outweighs, positive⟩ := config.validate_ok valid
  have lower : (priorityOf job shares now config).score < (priorityOf fresh shares now config).score := by
    rw [priorityOf_unwaited unwaited, nothing, sub_zero, mul_one]
    show config.wFair * (1 - shares.of (some job.userId)) +
      config.wAge * min 1 (job.waitHours now / config.ageMaxHours) < _
    rw [all, sub_self, mul_zero, zero_add, mul_min_of_nonneg _ _ (fair.trans outweighs), mul_div_assoc']
    exact (min_le_right _ _).trans_lt ((div_lt_iff₀ positive).mpr early)
  rintro (higher | ⟨level, _⟩)
  · exact absurd higher (not_lt.mpr lower.le)
  · exact lower.ne level

/-! ### A history in which one member has had everything -/

omit [IsStrictOrderedRing K] in
theorem usageShares_idle {ledger : List LedgerEntry} (idle : ∀ currency, config.shareWeight currency ≤ 0) :
    usageShares half ledger now config = [] := by
  have skipped : ∀ (blended : Totals K × K) currency,
      blend half ledger now config blended currency = blended := fun _ currency => if_pos (idle currency)
  unfold usageShares Currency.all
  simp only [List.foldl_cons, List.foldl_nil, skipped, le_refl, if_true]

/-- One unit of every currency, settled for a member at a moment. -/
def settledFor (user : UserId) (moment : Time) : List LedgerEntry :=
  Currency.all.map fun currency =>
    { jobId := none
      userId := some user
      currency
      kind := .settle
      amount := 100
      period := 0
      writtenAt := moment
      resourceHandle := none }

theorem settledFor_settled (user : UserId) (moment : Time) : Settled (settledFor user moment) := by
  intro row member _
  obtain ⟨currency, _, rfl⟩ := List.mem_map.mp member
  exact (by decide : (0 : Cents) ≤ 100)

theorem decayedUsage_settledFor {user : UserId} {moment : Time} (counts : now - config.fairshareWindow ≤ moment)
    (fresh : now ≤ moment) (currency : Currency) :
    decayedUsage half (settledFor user moment) currency now config = [(some user, 1)] := by
  have age : (daysIn (now - moment) : K) ≤ 0 := by
    have cast : ((now - moment : Time) : K) ≤ 0 := by exact_mod_cast sub_nonpos.mpr fresh
    exact div_nonpos_of_nonpos_of_nonneg cast (by norm_num)
  have one : (settlementsSince (settledFor user moment) (now - config.fairshareWindow) currency) =
      [(some user, 100, moment)] := by
    have within : now ≤ moment + config.fairshareWindow := sub_le_iff_le_add.mp counts
    cases currency <;> simp [settlementsSince, settledFor, Currency.all, within]
  unfold decayedUsage
  rw [one]
  simp only [List.foldl_cons, List.foldl_nil, Totals.add, decayWeight, if_pos age]
  norm_num

/-- Shares that are all a member's, beside the weight that was blended. -/
structure AllTo (user : UserId) (blended : Totals K × K) : Prop where
  weight : 0 ≤ blended.2
  shares : ∀ other, blended.1.of (some other) = if other = user then blended.2 else 0

theorem AllTo.blend {user : UserId} {moment : Time} {blended : Totals K × K} (held : AllTo user blended)
    (counts : now - config.fairshareWindow ≤ moment) (fresh : now ≤ moment) (currency : Currency) :
    AllTo user (blend half (settledFor user moment) now config blended currency) ∧
      (blend half (settledFor user moment) now config blended currency).2 =
        blended.2 + max 0 (config.shareWeight currency) := by
  unfold Broker.blend
  simp only [decayedUsage_settledFor counts fresh]
  split
  · next idle => exact ⟨held, by rw [max_eq_left idle, add_zero]⟩
  · next counted =>
    have positive := not_le.mp counted
    have used : ¬ (List.map Prod.snd [(some user, (1 : K))]).sum ≤ 0 := by simp
    rw [if_neg used]
    refine ⟨⟨add_nonneg held.weight positive.le, fun other => ?_⟩, by rw [max_eq_right positive.le]⟩
    simp only [List.foldl_cons, List.foldl_nil]
    rw [Totals.of_add, held.shares]
    by_cases mine : other = user
    · simp [mine]
    · simp [mine]

theorem usageShares_settledFor {user : UserId} {moment : Time} (counts : now - config.fairshareWindow ≤ moment)
    (fresh : now ≤ moment) {currency : Currency} (weighs : 0 < config.shareWeight currency) (other : UserId) :
    (usageShares half (settledFor user moment) now config).of (some other) = if other = user then 1 else 0 := by
  have start : AllTo user (([] : Totals K), (0 : K)) := ⟨le_rfl, fun other => by split <;> rfl⟩
  obtain ⟨first, usd⟩ := @AllTo.blend _ _ _ _ half _ config _ _ _ start counts fresh .usd
  obtain ⟨both, gpuHour⟩ := @AllTo.blend _ _ _ _ half _ config _ _ _ first counts fresh .gpuHour
  have total : 0 < max 0 (config.shareWeight .usd) + max 0 (config.shareWeight .gpuHour) := by
    cases currency with
    | usd => exact add_pos_of_pos_of_nonneg (lt_max_of_lt_right weighs) (le_max_left _ _)
    | gpuHour => exact add_pos_of_nonneg_of_pos (le_max_left _ _) (lt_max_of_lt_right weighs)
  rw [usd, zero_add] at gpuHour
  rw [← gpuHour] at total
  unfold usageShares Currency.all
  simp only [List.foldl_cons, List.foldl_nil, not_le.mpr total, if_false]
  rw [Totals.of_div, both.shares]
  split
  · exact div_self total.ne'
  · exact zero_div _

end Ageing

/-! ### The promise -/

/-- However members have used the pool and whoever else is queued, a job is not placed behind one that is
submitted at the moment. -/
def NeverBehindNew (half : K → K) (config : FairshareConfig K) (now : Time) (job : Job) : Prop :=
  ∀ ledger jobs, Settled ledger → job ∈ jobs → ∀ fresh ∈ jobs, fresh.submittedAt = now →
    (∀ started ∈ fresh.startedAt, started ≤ now) →
      ¬ [fresh, job].Sublist ((orderQueue half jobs ledger now config).map Prod.fst)

section Promise

variable [IsStrictOrderedRing K] {half : K → K} {now : Time} {config : FairshareConfig K} {job : Job}

/-- What the promise comes to for a job that was submitted before the moment. -/
theorem neverBehindNew_iff (halves : ∀ power, 0 ≤ half power) (valid : config.validate = .ok ())
    (before : job.submittedAt < now) : NeverBehindNew half config now job ↔
      (config.wFair * config.ageMaxHours ≤ config.wAge * job.waitHours now ∨
        ∀ currency, config.shareWeight currency ≤ 0) := by
  constructor
  · intro never
    by_contra early
    obtain ⟨unaged, weighs⟩ := not_or.mp early
    obtain ⟨currency, positive⟩ := not_forall.mp weighs
    have weighs : 0 < config.shareWeight currency := not_le.mp positive
    -- The job's own member has had everything, and someone else comes along.
    let moment := max now (now - config.fairshareWindow)
    let fresh : Job := { job with userId := job.userId ++ "'", submittedAt := now, startedAt := none }
    have someone : fresh.userId ≠ job.userId := fun same => by
      have length := congrArg String.length same
      simp [fresh] at length
    have shares := @usageShares_settledFor K _ _ _ half now config job.userId moment (le_max_right _ _)
      (le_max_left _ _) currency weighs
    refine never (settledFor job.userId moment) [job, fresh] (settledFor_settled _ _) List.mem_cons_self fresh
      (List.mem_cons_of_mem _ List.mem_cons_self) rfl nofun ?_
    refine orderQueue_before (List.mem_cons_of_mem _ List.mem_cons_self) List.mem_cons_self
      (fun same => someone (congrArg Job.userId same)) ?_
    refine unaged_precedes valid (not_le.mp unaged) ?_ ?_ (Job.waitHours_fresh rfl nofun)
    · exact (shares _).trans (if_pos rfl)
    · exact (shares _).trans (if_neg someone)
  · intro aged ledger jobs settled _ fresh _ submitted startedBy placed
    refine aged_precedes valid (usageShares_bounds halves settled) (aged.imp_right fun idle => ?_)
      (Job.waitHours_fresh submitted startedBy) (submitted ▸ before) (orderQueue_pair placed)
    rw [usageShares_idle idle]
    rfl

/-- A job that waits in the queue, and has been there for the time the configuration names, is never
placed behind a job submitted at the moment exactly when it was never started, or waited the
part of that time by which age outweighs the share before it first was, or no share counts. -/
theorem aged_neverBehindNew_iff (desk : Desk γ) (settings : BrokerConfig) (cloud : γ) {clock : Nat → Time}
    (forward : Monotone clock) (entries : List (Operation × Nat)) (halves : ∀ power, 0 ≤ half power)
    (valid : config.validate = .ok ()) (now : Time) (id : JobId) (job : Job) :
    let after := desk.after entries (World.new settings cloud clock)
    after.db.jobs.find id = some job → job.state = .queued → after.last ≤ now →
      config.ageMaxHours ≤ hoursIn (timeQueued (after.db.historyOf id) now) →
      (NeverBehindNew half config now job ↔
        ((∀ started ∈ job.startedAt, config.wFair * config.ageMaxHours ≤
            config.wAge * max 0 (hoursIn (started - job.submittedAt))) ∨
          ∀ currency, config.shareWeight currency ≤ 0)) := by
  intro after found queued current aged
  have inOrder : InOrder after := inOrder_run desk settings cloud forward entries
  have traced : Traced (after.db.historyOf id) job := inOrder.tracked.traced id job found
  obtain ⟨_, _, positive⟩ := config.validate_ok valid
  have admitted : job.state ≠ .refused := queued ▸ nofun
  have dated : Forward (after.db.historyOf id) now := (inOrder.rows id job found admitted).until current
  have waited : 0 < timeQueued (after.db.historyOf id) now :=
    not_le.mp fun past => absurd (positive.trans_le aged) (not_lt.mpr (hoursIn_nonpos past))
  have before : job.submittedAt < now := sub_pos.mp (waited.trans_le (traced.timeQueued_le dated))
  rw [neverBehindNew_iff halves valid before]
  refine or_congr_left ?_
  cases started : job.startedAt with
  | some moment => simp [Job.waitHours, started]
  | none =>
      rw [traced.timeQueued queued started] at aged
      refine iff_of_true ?_ nofun
      have long : config.ageMaxHours ≤ job.waitHours now := by
        unfold Job.waitHours
        rw [started]
        exact le_max_of_le_right aged
      exact config.outweighs valid long

end Promise

/-! ### Two queues -/

/-- The configuration as it comes. -/
def FairshareConfig.standard : FairshareConfig ℚ where
  wFair := 1 / 2
  wAge := 1 / 2
  ageMaxHours := 12
  fairshareWindow := 30 * 86400000000
  fairshareHalfLifeDays := 14
  wUsdShare := 7 / 10
  wGpuHourShare := 3 / 10

/-- A half raised to a power, at the whole ones. -/
def halved (power : ℚ) : ℚ := (1 / 2) ^ power.floor.toNat

theorem halved_nonneg (power : ℚ) : 0 ≤ halved power := by
  unfold halved
  positivity

theorem clock_forward : Monotone fun reading : Nat => (reading * twelveMinutes : Time) :=
  fun _ _ below => mul_le_mul_of_nonneg_right (by exact_mod_cast below) (by decide)

/-- The club's job, half a day after it was asked for. -/
theorem aged_neverBehindNew_unstarted :
    ∃ job ∈ (Rack.running.after Operation.opening (World.club .club)).db.jobs.find "job",
      NeverBehindNew halved .standard 45360000000 job := by
  have row : ∃ job ∈ (Rack.running.after Operation.opening (World.club .club)).db.jobs.find "job",
      job.state = .queued ∧ job.startedAt = none ∧
        (Rack.running.after Operation.opening (World.club .club)).last ≤ 45360000000 ∧
        FairshareConfig.standard.ageMaxHours ≤ hoursIn (timeQueued
          ((Rack.running.after Operation.opening (World.club .club)).db.historyOf "job") 45360000000) := by
    decide +kernel
  obtain ⟨job, found, queued, unstarted, current, aged⟩ := row
  have promise := aged_neverBehindNew_iff Rack.running .club ⟨0, 0⟩ clock_forward Operation.opening
    halved_nonneg (by decide +kernel : FairshareConfig.standard.validate = .ok ()) 45360000000 "job" job
  have club : World.club .club = World.new .club ⟨0, 0⟩ fun reading => reading * twelveMinutes := rfl
  rw [← club] at promise
  refine ⟨job, found, (promise found queued current aged).mpr (Or.inl ?_)⟩
  rw [unstarted]
  nofun

/-- A cloud with one slot, whose first machine is taken away at the first look. -/
def Rack.scarce : Desk Rack where
  site :=
    { backends :=
        [{ Rack.backend (fun poll => if poll = 0 then .interrupted else .running) fun _ => [] with
            freeSlots := fun _ rack => (.ok (1 - rack.launches), rack) }]
      latest := none
      score := fun _ _ _ => 0
      evidence := fun _ => "" }
  text _ := "refused"

/-- Ann's job is launched, taken off its machine and requeued; then Bob asks. -/
def Operation.later : List (Operation × Nat) :=
  [(.upsertUser "ann" none none none none, 40), (.upsertUser "bob" none none none none, 40),
    (.submit ⟨"ann-job", "ann", "train", "t4", 4, none, none, "real"⟩, 40)] ++ Operation.ticks 2 ++
  [(.submit ⟨"bob-job", "bob", "train", "t4", 4, none, none, "real"⟩, 40)]

/-- A clock that leaps a fortnight ahead before Bob asks. -/
def fortnight (reading : Nat) : Time :=
  if reading < 21 then reading * twelveMinutes else (reading + 1671) * twelveMinutes

/-- Ann's job has waited a fortnight since it was requeued, and is placed behind the one Bob has just
submitted. -/
theorem requeued_behind_new :
    let after := Rack.scarce.after Operation.later (World.new .club ⟨0, 0⟩ fortnight)
    ∃ requeued ∈ after.db.jobs.find "ann-job", ∃ fresh ∈ after.db.jobs.find "bob-job",
      FairshareConfig.standard.validate = .ok () ∧ requeued.state = .queued ∧
        fresh.submittedAt = after.last ∧
        FairshareConfig.standard.ageMaxHours ≤
          hoursIn (timeQueued (after.db.historyOf "ann-job") after.last) ∧
        [fresh, requeued].Sublist
          ((orderQueue halved after.db.queuedJobs after.db.ledger after.last .standard).map Prod.fst) := by
  intro after
  have scores : ∃ requeued ∈ after.db.jobs.find "ann-job", ∃ fresh ∈ after.db.jobs.find "bob-job",
      FairshareConfig.standard.validate = .ok () ∧ requeued.state = .queued ∧ fresh.state = .queued ∧
        fresh.submittedAt = after.last ∧
        FairshareConfig.standard.ageMaxHours ≤
          hoursIn (timeQueued (after.db.historyOf "ann-job") after.last) ∧
        fresh ≠ requeued ∧
        let shares := usageShares halved after.db.ledger after.last .standard
        ¬ Precedes (requeued, priorityOf requeued shares after.last .standard)
          (fresh, priorityOf fresh shares after.last .standard) := by
    decide +kernel
  obtain ⟨requeued, found, fresh, also, valid, waits, queued, submitted, aged, apart, strict⟩ := scores
  have listed : ∀ {id job}, after.db.jobs.find id = some job → job.state = .queued →
      job ∈ after.db.queuedJobs := fun found queued =>
    Db.mem_listJobs found (by rw [queued]; rfl)
  exact ⟨requeued, found, fresh, also, valid, waits, submitted, aged,
    orderQueue_before (listed also queued) (listed found waits) apart strict⟩

end GpuBroker.Broker
