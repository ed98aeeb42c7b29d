/-
This file is what a pass decides about a queue, whoever takes the decisions: one
for each job and in the order of the queue, under the limit on a member's jobs
and under the cap of each currency.

The walk keeps five rules in one memory, and each decision is made under the
first that applies. What is decided about the rest of a queue is described in
terms of the memory it starts from, and each branch of the walk puts one
decision in front of it.
-/
import GpuBroker.Broker.Plans

namespace GpuBroker.Broker

open Library

variable {γ α : Type}

/-! ### What decisions say -/

/-- A member is off the pool. -/
def Rules.suspends (rules : Rules) (user : UserId) : Bool := (rules.suspended.lookup user).isSome

/-- How many jobs of a member are dispatched. -/
def dispatchedOf (user : UserId) (decisions : List Decision) : Nat :=
  decisions.countP fun decision => decision.action = .dispatch ∧ decision.job.userId = user

/-- What is reserved by the jobs of a currency that are dispatched. -/
def dispatchedIn (currency : Currency) (decisions : List Decision) : Cents :=
  ((decisions.filter fun decision => decision.action = .dispatch ∧ decision.job.currency = currency).map
    fun decision => decision.job.reserved).sum

/-- A job of the currency is held back by the cap. -/
def CapReached (currency : Currency) (decisions : List Decision) : Prop :=
  ∃ decision ∈ decisions, decision.action = .blockedPool ∧ decision.job.currency = currency

/-- What a pass decides about a queue, from a memory on. -/
structure DecidedFrom (rules : Rules) (pass : Pass) (queue : List Job) (decisions : List Decision) : Prop where
  each : decisions.map Decision.job = queue
  unauthorized : ∀ decision ∈ decisions, decision.action = .blockedUnauthorized →
    rules.suspends decision.job.userId = true
  suspended : ∀ before decision after, decisions = before ++ decision :: after →
    rules.suspends decision.job.userId = true →
      (∃ currency, currency ∉ pass.blocked ∧ ¬ CapReached currency before) →
        decision.action = .blockedUnauthorized
  within : ∀ user, 0 < dispatchedOf user decisions →
    rules.count pass user + dispatchedOf user decisions ≤ rules.config.maxRunningJobsPerUser
  stops : ∀ before decision after, decisions = before ++ decision :: after → decision.action = .dispatch →
    decision.job.currency ∉ pass.blocked ∧ ¬ CapReached decision.job.currency before
  beyond : ∀ before decision after, decisions = before ++ decision :: after → decision.action = .blockedPool →
    decision.job.currency ∉ pass.blocked → ¬ CapReached decision.job.currency before →
      pass.remaining decision.job.currency - money (dispatchedIn decision.job.currency before) <
        money decision.job.reserved
  affordable : ∀ currency, (∃ decision ∈ decisions, decision.action = .dispatch ∧
    decision.job.currency = currency) → money (dispatchedIn currency decisions) ≤ pass.remaining currency

theorem dispatchedOf_cons (user : UserId) (decision : Decision) (decisions : List Decision) :
    dispatchedOf user (decision :: decisions) =
      dispatchedOf user decisions +
        if decision.action = .dispatch ∧ decision.job.userId = user then 1 else 0 := by
  simp [dispatchedOf, List.countP_cons]

theorem dispatchedIn_cons (currency : Currency) (decision : Decision) (decisions : List Decision) :
    dispatchedIn currency (decision :: decisions) =
      (if decision.action = .dispatch ∧ decision.job.currency = currency then decision.job.reserved else 0) +
        dispatchedIn currency decisions := by
  unfold dispatchedIn
  rw [List.filter_cons]
  split
  · next chosen =>
    rw [if_pos (of_decide_eq_true chosen), List.map_cons, List.sum_cons]
  · next other =>
    rw [if_neg fun chosen => other (decide_eq_true chosen), zero_add]

theorem capReached_cons {currency : Currency} {decision : Decision} {decisions : List Decision} :
    CapReached currency (decision :: decisions) ↔
      (decision.action = .blockedPool ∧ decision.job.currency = currency) ∨ CapReached currency decisions :=
  List.exists_mem_cons_iff _ _ _

theorem capReached_nil {currency : Currency} : ¬ CapReached currency [] := by
  rintro ⟨decision, absent, _⟩
  cases absent

/-- A decision in front of a list, split at one of the list's own. -/
theorem split_cons {first decision : Decision} {decisions before after : List Decision}
    (split : first :: decisions = before ++ decision :: after) :
    (before = [] ∧ decision = first) ∨
      ∃ rest, before = first :: rest ∧ decisions = rest ++ decision :: after := by
  rcases List.cons_eq_append_iff.mp split with ⟨nothing, same⟩ | ⟨rest, same, later⟩
  · exact Or.inl ⟨nothing, (List.cons.inj same).1⟩
  · exact Or.inr ⟨rest, same, later⟩

/-! ### One more decision in front -/

section Step

variable {rules : Rules} {pass : Pass} {job : Job} {queue : List Job} {decisions : List Decision}

theorem DecidedFrom.nil : DecidedFrom rules pass [] [] := by
  refine ⟨rfl, fun decision absent => absurd absent List.not_mem_nil, ?_, fun user none => ?_, ?_, ?_, ?_⟩
  · rintro before decision after split
    exact absurd split (by simp)
  · exact absurd none (lt_irrefl 0)
  · rintro before decision after split
    exact absurd split (by simp)
  · rintro before decision after split
    exact absurd split (by simp)
  · rintro currency ⟨decision, absent, _⟩
    cases absent

/-- Keeping the count of a member in memory decides nothing. -/
theorem DecidedFrom.counted (user : UserId) (decided : DecidedFrom rules (pass.hold user (rules.count pass user)) queue
    decisions) : DecidedFrom rules pass queue decisions := by
  obtain ⟨each, unauthorized, suspended, within, stops, beyond, affordable⟩ := decided
  refine ⟨each, unauthorized, suspended, fun other some => ?_, stops, beyond, affordable⟩
  have same : rules.count (pass.hold user (rules.count pass user)) other = rules.count pass other := by
    unfold Rules.count Pass.hold
    rw [List.lookup_cons]
    split
    · next mine => rw [beq_iff_eq.mp mine, Option.getD_some]
    · rfl
  rw [← same]
  exact within other some

/-- A job that is held back for another reason than the cap being reached just now leaves the memory as it
is. -/
theorem DecidedFrom.skip {action : Action} (undispatched : action ≠ .dispatch)
    (authorized : action = .blockedUnauthorized ↔ rules.suspends job.userId = true)
    (reached : action = .blockedPool → job.currency ∈ pass.blocked)
    (decided : DecidedFrom rules pass queue decisions) :
    DecidedFrom rules pass (job :: queue) (⟨job, action, none⟩ :: decisions) := by
  have unreached : ∀ {currency before}, ¬ CapReached currency (⟨job, action, none⟩ :: before) →
      ¬ CapReached currency before := fun none reached => none (capReached_cons.mpr (Or.inr reached))
  have same : ∀ currency before, dispatchedIn currency (⟨job, action, none⟩ :: before) =
      dispatchedIn currency before := fun currency before => by
    rw [dispatchedIn_cons, if_neg fun both => undispatched both.1, zero_add]
  have count : ∀ user, dispatchedOf user (⟨job, action, none⟩ :: decisions) = dispatchedOf user decisions :=
    fun user => by rw [dispatchedOf_cons, if_neg fun both => undispatched both.1, add_zero]
  refine ⟨congrArg (job :: ·) decided.each, ?_, ?_, fun user some => ?_, ?_, ?_, ?_⟩
  · intro decision member blocked
    rcases List.mem_cons.mp member with rfl | later
    · exact authorized.mp blocked
    · exact decided.unauthorized decision later blocked
  · rintro before decision after split off ⟨currency, free, none⟩
    rcases split_cons split with ⟨rfl, rfl⟩ | ⟨rest, rfl, later⟩
    · exact authorized.mpr off
    · exact decided.suspended rest decision after later off ⟨currency, free, unreached none⟩
  · rw [count] at some ⊢
    exact decided.within user some
  · rintro before decision after split dispatched
    rcases split_cons split with ⟨rfl, rfl⟩ | ⟨rest, rfl, later⟩
    · exact absurd dispatched undispatched
    · obtain ⟨free, none⟩ := decided.stops rest decision after later dispatched
      refine ⟨free, fun some => ?_⟩
      rcases capReached_cons.mp some with ⟨pool, mine⟩ | early
      · have own : job.currency = decision.job.currency := mine
        exact free (own ▸ reached pool)
      · exact none early
  · rintro before decision after split pool free none
    rcases split_cons split with ⟨rfl, rfl⟩ | ⟨rest, rfl, later⟩
    · exact absurd (reached pool) free
    · rw [same]
      exact decided.beyond rest decision after later pool free (unreached none)
  · rintro currency ⟨decision, member, dispatched, mine⟩
    rcases List.mem_cons.mp member with rfl | later
    · exact absurd dispatched undispatched
    · rw [same]
      exact decided.affordable currency ⟨decision, later, dispatched, mine⟩

/-- The first job of a currency that does not fit blocks the currency. -/
theorem DecidedFrom.block (authorized : rules.suspends job.userId = false)
    (beyond : pass.remaining job.currency < money job.reserved)
    (decided : DecidedFrom rules (pass.block job.currency) queue decisions) :
    DecidedFrom rules pass (job :: queue) (⟨job, .blockedPool, none⟩ :: decisions) := by
  have same : ∀ currency before, dispatchedIn currency (⟨job, .blockedPool, none⟩ :: before) =
      dispatchedIn currency before := fun currency before => by
    rw [dispatchedIn_cons, if_neg nofun, zero_add]
  have count : ∀ user, dispatchedOf user (⟨job, .blockedPool, none⟩ :: decisions) =
      dispatchedOf user decisions := fun user => by rw [dispatchedOf_cons, if_neg nofun, add_zero]
  have freed : ∀ {currency before}, currency ∉ pass.blocked →
      ¬ CapReached currency (⟨job, .blockedPool, none⟩ :: before) →
        currency ∉ (pass.block job.currency).blocked ∧ ¬ CapReached currency before := by
    intro currency before free none
    refine ⟨fun blocked => ?_, fun reached => none (capReached_cons.mpr (Or.inr reached))⟩
    rcases List.mem_cons.mp blocked with mine | earlier
    · exact none (capReached_cons.mpr (Or.inl ⟨rfl, mine.symm⟩))
    · exact free earlier
  refine ⟨congrArg (job :: ·) decided.each, ?_, ?_, fun user some => ?_, ?_, ?_, ?_⟩
  · intro decision member blocked
    rcases List.mem_cons.mp member with rfl | later
    · cases blocked
    · exact decided.unauthorized decision later blocked
  · rintro before decision after split off ⟨currency, free, none⟩
    rcases split_cons split with ⟨rfl, rfl⟩ | ⟨rest, rfl, later⟩
    · exact absurd off (by simp [authorized])
    · exact decided.suspended rest decision after later off ⟨currency, freed free none⟩
  · rw [count] at some ⊢
    exact decided.within user some
  · rintro before decision after split dispatched
    rcases split_cons split with ⟨rfl, rfl⟩ | ⟨rest, rfl, later⟩
    · cases dispatched
    · obtain ⟨free, none⟩ := decided.stops rest decision after later dispatched
      refine ⟨fun blocked => free (List.mem_cons_of_mem _ blocked), fun some => ?_⟩
      rcases capReached_cons.mp some with ⟨_, mine⟩ | early
      · have own : job.currency = decision.job.currency := mine
        exact free (own ▸ List.mem_cons_self)
      · exact none early
  · rintro before decision after split pool free none
    rcases split_cons split with ⟨rfl, rfl⟩ | ⟨rest, rfl, later⟩
    · exact (sub_le_self _ (money_nonneg.mpr le_rfl)).trans_lt beyond
    · rw [same]
      exact decided.beyond rest decision after later pool (freed free none).1 (freed free none).2
  · rintro currency ⟨decision, member, dispatched, mine⟩
    rcases List.mem_cons.mp member with rfl | later
    · cases dispatched
    · rw [same]
      exact decided.affordable currency ⟨decision, later, dispatched, mine⟩

/-- Once every currency is blocked the rest of the queue is held back by the cap. -/
theorem DecidedFrom.stop (every : ∀ currency, currency ∈ pass.blocked) :
    DecidedFrom rules pass queue (queue.map fun other => ⟨other, .blockedPool, none⟩) := by
  have held : ∀ decision ∈ queue.map (fun other => (⟨other, .blockedPool, none⟩ : Decision)),
      decision.action = .blockedPool := by
    intro decision member
    obtain ⟨other, _, rfl⟩ := List.mem_map.mp member
    rfl
  have mine : ∀ {before decision after}, (queue.map fun other => (⟨other, .blockedPool, none⟩ : Decision)) =
      before ++ decision :: after → decision.action = .blockedPool := by
    intro before decision after split
    exact held decision (split ▸ List.mem_append_right _ List.mem_cons_self)
  refine ⟨by simp [Function.comp_def], ?_, ?_, fun user some => ?_, ?_, ?_, ?_⟩
  · intro decision member blocked
    rw [held decision member] at blocked
    cases blocked
  · rintro before decision after split off ⟨currency, free, none⟩
    exact absurd (every currency) free
  · obtain ⟨decision, member, chosen⟩ := List.countP_pos_iff.mp some
    have dispatched := (of_decide_eq_true chosen).1
    rw [held decision member] at dispatched
    cases dispatched
  · rintro before decision after split dispatched
    rw [mine split] at dispatched
    cases dispatched
  · rintro before decision after split pool free
    exact absurd (every _) free
  · rintro currency ⟨decision, member, dispatched, _⟩
    rw [held decision member] at dispatched
    cases dispatched

/-- A job that fits, of a member under the limit, is dispatched. -/
theorem DecidedFrom.dispatch {backend : Option String} (authorized : rules.suspends job.userId = false)
    (free : job.currency ∉ pass.blocked)
    (under : rules.count pass job.userId < rules.config.maxRunningJobsPerUser)
    (fits : money job.reserved ≤ pass.remaining job.currency)
    (decided : DecidedFrom rules (((pass.hold job.userId (rules.count pass job.userId)).hold job.userId
      (rules.count pass job.userId + 1)).commit job) queue decisions) :
    DecidedFrom rules pass (job :: queue) (⟨job, .dispatch, backend⟩ :: decisions) := by
  have spared : ∀ {currency before}, ¬ CapReached currency (⟨job, .dispatch, backend⟩ :: before) →
      ¬ CapReached currency before := fun none reached => none (capReached_cons.mpr (Or.inr reached))
  have left : ∀ currency before,
      (((pass.hold job.userId (rules.count pass job.userId)).hold job.userId
          (rules.count pass job.userId + 1)).commit job).remaining currency -
          money (dispatchedIn currency before) =
        pass.remaining currency -
          money (dispatchedIn currency (⟨job, .dispatch, backend⟩ :: before)) := by
    intro currency before
    rw [Pass.remaining_commit, dispatchedIn_cons, money_add]
    show pass.remaining currency - _ - _ = _
    by_cases mine : currency = job.currency
    · rw [if_pos mine, if_pos ⟨rfl, mine.symm⟩]
      ring
    · rw [if_neg mine, if_neg fun both => mine both.2.symm, money_zero]
      ring
  refine ⟨congrArg (job :: ·) decided.each, ?_, ?_, fun user some => ?_, ?_, ?_, ?_⟩
  · intro decision member blocked
    rcases List.mem_cons.mp member with rfl | later
    · cases blocked
    · exact decided.unauthorized decision later blocked
  · rintro before decision after split off ⟨currency, open_, none⟩
    rcases split_cons split with ⟨rfl, rfl⟩ | ⟨rest, rfl, later⟩
    · exact absurd off (by simp [authorized])
    · exact decided.suspended rest decision after later off ⟨currency, open_, spared none⟩
  · rw [dispatchedOf_cons] at some ⊢
    have counted : rules.count (((pass.hold job.userId (rules.count pass job.userId)).hold job.userId
          (rules.count pass job.userId + 1)).commit job) user =
        if user = job.userId then rules.count pass job.userId + 1 else rules.count pass user := by
      unfold Rules.count Pass.commit Pass.hold
      simp only [List.lookup_cons]
      by_cases mine : user = job.userId
      · simp [mine]
      · rw [beq_eq_false_iff_ne.mpr mine, if_neg mine]
    have later := decided.within user
    rw [counted] at later
    by_cases mine : user = job.userId
    · subst mine
      rw [if_pos rfl] at later
      rw [if_pos ⟨rfl, rfl⟩]
      rcases Nat.eq_zero_or_pos (dispatchedOf job.userId decisions) with none | more
      · omega
      · have bound := later more
        omega
    · rw [if_neg fun both => mine both.2.symm] at some ⊢
      rw [if_neg mine] at later
      exact later some
  · rintro before decision after split dispatched
    rcases split_cons split with ⟨rfl, rfl⟩ | ⟨rest, rfl, later⟩
    · exact ⟨free, capReached_nil⟩
    · obtain ⟨open_, none⟩ := decided.stops rest decision after later dispatched
      refine ⟨open_, fun some => ?_⟩
      rcases capReached_cons.mp some with ⟨pool, _⟩ | early
      · cases pool
      · exact none early
  · rintro before decision after split pool open_ none
    rcases split_cons split with ⟨rfl, rfl⟩ | ⟨rest, rfl, later⟩
    · cases pool
    · rw [← left]
      exact decided.beyond rest decision after later pool open_ (spared none)
  · intro currency some
    have rest : 0 ≤ (((pass.hold job.userId (rules.count pass job.userId)).hold job.userId
          (rules.count pass job.userId + 1)).commit job).remaining currency -
        money (dispatchedIn currency decisions) ∨
          ¬ ∃ decision ∈ decisions, decision.action = .dispatch ∧ decision.job.currency = currency :=
      or_not_of_imp fun more => sub_nonneg.mpr (decided.affordable currency more)
    rcases rest with covered | nothing
    · rw [left] at covered
      exact sub_nonneg.mp covered
    · obtain ⟨decision, member, dispatched, mine⟩ := some
      have first : job.currency = currency := by
        rcases List.mem_cons.mp member with rfl | later
        · exact mine
        · exact absurd ⟨decision, later, dispatched, mine⟩ nothing
      have none : dispatchedIn currency decisions = 0 := by
        unfold dispatchedIn
        rw [List.filter_eq_nil_iff.mpr fun other listed chosen =>
          nothing ⟨other, listed, of_decide_eq_true chosen⟩]
        rfl
      rw [dispatchedIn_cons, if_pos ⟨rfl, first⟩, none, add_zero, ← first]
      exact fits

end Step

/-! ### The walk of the queue -/

section Walking

variable {raises : BrokerError → Prop} {site : Site γ} {world : World γ} {decided : α → List Decision}
  {consume : α → Job → Action → Option (Placement γ) → Op γ α}

/-- A consumer that notes every decision; acting on one changes nothing for the members it is not about,
and only a job that is placed is acted on. -/
def Notes (raises : BrokerError → Prop) (decided : α → List Decision)
    (consume : α → Job → Action → Option (Placement γ) → Op γ α) : Prop :=
  ∀ report job action placement world, Listed world job → (action = .dispatch ↔ placement.isSome = true) →
    Leaves raises (consume report job action placement)
      (fun after next => decided after = decided report ++ [Decision.of job action placement] ∧
        Beside job.userId world next ∧ (placement = none → next.db = world.db)) world

end Walking

/-! ### The decisions of a pass -/

/-- What the decisions of a pass keep to, whatever is queued, suspended, running and left under the
caps. -/
structure ByTheRules (suspended : UserId → Prop) (running : UserId → Nat) (limit : Nat)
    (headroom : Currency → Decimal) (queue : List Job) (decisions : List Decision) : Prop where
  each : decisions.map Decision.job = queue
  unauthorized : ∀ decision ∈ decisions, decision.action = .blockedUnauthorized →
    suspended decision.job.userId
  suspended : ∀ before decision after, decisions = before ++ decision :: after →
    suspended decision.job.userId → (∃ currency, ¬ CapReached currency before) →
      decision.action = .blockedUnauthorized
  within : ∀ user, 0 < dispatchedOf user decisions → running user + dispatchedOf user decisions ≤ limit
  stops : ∀ before decision after, decisions = before ++ decision :: after → decision.action = .dispatch →
    ¬ CapReached decision.job.currency before
  beyond : ∀ before decision after, decisions = before ++ decision :: after → decision.action = .blockedPool →
    ¬ CapReached decision.job.currency before →
      headroom decision.job.currency - money (dispatchedIn decision.job.currency before) <
        money decision.job.reserved
  affordable : ∀ currency, (∃ decision ∈ decisions, decision.action = .dispatch ∧
    decision.job.currency = currency) → money (dispatchedIn currency decisions) ≤ headroom currency

section Pass

variable {world : World γ} {site : Site γ} {now : Time}

theorem DecidedFrom.keeps {queue : List Job} {decisions : List Decision}
    (decided : DecidedFrom world.rules world.opening queue decisions) :
    ByTheRules (fun user => (world.db.suspendedUsers.lookup user).isSome = true) world.db.runningCount
      world.config.maxRunningJobsPerUser world.opening.headroom queue decisions := by
  have remaining : ∀ currency, world.opening.remaining currency = world.opening.headroom currency :=
    fun currency => by
      show world.opening.headroom currency - money 0 = _
      rw [money_zero, sub_zero]
  obtain ⟨each, unauthorized, suspended, within, stops, beyond, affordable⟩ := decided
  refine ⟨each, unauthorized, ?_, within, ?_, ?_, ?_⟩
  · rintro before decision after split off ⟨currency, none⟩
    exact suspended before decision after split off ⟨currency, List.not_mem_nil, none⟩
  · exact fun before decision after split dispatched => (stops before decision after split dispatched).2
  · intro before decision after split pool none
    rw [← remaining]
    exact beyond before decision after split pool List.not_mem_nil none
  · intro currency some
    rw [← remaining]
    exact affordable currency some

end Pass

/-! ### A club that lowers its limits -/

/-- A club with machines of both currencies. -/
def BrokerConfig.mixed : BrokerConfig :=
  { BrokerConfig.club with gpuTypes := [⟨"t4", .usd, 1⟩, ⟨"lab", .gpuHour, 1⟩] }

/-- The club with less to spend, and a machine for each member. -/
def BrokerConfig.lowered : BrokerConfig :=
  { BrokerConfig.mixed with poolBudgetUsd := 2, poolBudgetGpuHours := 0, maxRunningJobsPerUser := 1 }

/-- Ann has two jobs running, Carl asks for one in each currency and Bob for a third; then Bob is
suspended. -/
def Operation.beforeLowering : List (Operation × Nat) :=
  [(.upsertUser "ann" none none none none, 80), (.upsertUser "bob" none none none none, 80),
    (.upsertUser "carl" none none none none, 80),
    (.submit ⟨"ann-one", "ann", "train", "t4", 4, none, none, "real"⟩, 80), (.tick, 80),
    (.submit ⟨"ann-two", "ann", "train", "t4", 4, none, none, "real"⟩, 80), (.tick, 80),
    (.submit ⟨"carl-one", "carl", "train", "t4", 4, none, none, "real"⟩, 80),
    (.submit ⟨"carl-two", "carl", "train", "lab", 4, none, none, "real"⟩, 80),
    (.submit ⟨"bob-job", "bob", "train", "t4", 4, none, none, "real"⟩, 80),
    (.suspendUser "bob" "away" "ann", 80)]

example : Operation.beforeLowering.length = 11 := by decide +kernel

/-- The world of the club when it comes back with its limits lowered. -/
def World.lowered : World Rack :=
  { Rack.running.after Operation.beforeLowering (World.club .mixed) with config := .lowered }

end GpuBroker.Broker
