/-
This file is submissions next to each other, on one database.

Admission reads the queue and the balance, compares, and inserts the job in a
transaction of its own. A member stays within the limits as long as each job is
inserted while what its admission had read is still so; two submissions that
read before either inserts are both admitted on the same room.
-/
import GpuBroker.Broker.Races

namespace GpuBroker.Broker

open Library

variable {γ ι : Type}

/-! ### Accounts -/

/-- The rows of an account in a currency and a month. -/
def ofAccount (user : UserId) (currency : Currency) (period : Period) (row : LedgerEntry) : Bool :=
  row.userId = some user ∧ row.currency = currency ∧ row.period = period

/-- What is committed on an account: what is held and what is spent. -/
def Db.committed (db : Db) (user : UserId) (currency : Currency) (period : Period) : Cents :=
  (db.accountOf user currency period).1 + (db.accountOf user currency period).2

/-- What a row adds to what is committed. -/
def LedgerEntry.committedPart (row : LedgerEntry) : Cents := row.heldPart + row.spentPart

theorem accountOf_eq (db : Db) (user : UserId) (currency : Currency) (period : Period) :
    db.accountOf user currency period =
      (sumWhere LedgerEntry.heldPart (ofAccount user currency period) db.ledger,
        sumWhere LedgerEntry.spentPart (ofAccount user currency period) db.ledger) := by
  rw [Db.accountOf, aggregate_eq]
  rfl

theorem sumWhere_add (part other : LedgerEntry → Cents) (which : LedgerEntry → Bool)
    (ledger : List LedgerEntry) :
    sumWhere part which ledger + sumWhere other which ledger =
      sumWhere (fun row => part row + other row) which ledger := by
  unfold sumWhere
  rw [List.sum_map_add]

theorem committed_eq (db : Db) (user : UserId) (currency : Currency) (period : Period) :
    db.committed user currency period =
      sumWhere LedgerEntry.committedPart (ofAccount user currency period) db.ledger := by
  rw [Db.committed, accountOf_eq, sumWhere_add]
  rfl

theorem committed_hold (config : BrokerConfig) (job : Job) (nonneg : 0 ≤ job.reserved)
    (user : UserId) (currency : Currency) (period : Period) :
    sumWhere LedgerEntry.committedPart (ofAccount user currency period) (admissionHold config job) =
      if job.userId = user ∧ job.currency = currency ∧
          config.calendar.period job.submittedAt = period then job.reserved else 0 := by
  unfold admissionHold
  split
  · simp [insertLedger, ofAccount, LedgerEntry.committedPart, LedgerEntry.heldPart,
      LedgerEntry.spentPart]
  · next unreserved =>
    have none : job.reserved = 0 := le_antisymm (not_lt.mp unreserved) nonneg
    simp [none]

theorem queuedCount_insert {db : Db} {job : Job} {reason : Reason} {hold : List LedgerEntry}
    {other : Db} (inserted : db.insertJob job reason hold = .ok other) (user : UserId) :
    other.queuedCount user =
      db.queuedCount user + if job.userId = user ∧ job.state = .queued then 1 else 0 := by
  obtain ⟨jobs, grown, rfl⟩ := Db.insertJob_eq inserted
  show (jobs.rows.filter _).length = _
  rw [(Table.insert_eq_some grown).2]
  by_cases mine : job.userId = user ∧ job.state = .queued
  · simp [Db.queuedCount, Db.countInStates, mine]
  · rw [if_neg mine]
    simp only [Db.queuedCount, Db.countInStates, List.filter_append, List.length_append]
    rw [List.filter_cons_of_neg (by simpa using mine)]
    rfl

/-! ### Limits -/

/-- What a transaction was computed from is still so, the admission of a job included. -/
def Current (world : World γ) (write : Write) : Prop :=
  Unmoved world write ∧
    match write with
    | .create job read => ReadAt world job read job.submittedAt
    | _ => True

/-- A member is within the limits: in the queue, and in every month's budget. -/
structure InLimits (world : World γ) (user : UserId) : Prop where
  queue : world.db.queuedCount user ≤ world.config.maxQueuedJobsPerUser
  budget : ∀ member, world.db.users.find user = some member → ∀ currency period,
    money (world.db.committed user currency period) ≤ member.budget currency

/-- A member's budgets are whole cents. -/
def WholeBudgets (world : World γ) (user : UserId) : Prop :=
  ∀ member, world.db.users.find user = some member → ∀ currency, ∃ cents : Cents,
    member.budget currency = money cents

/-- A new job commits its reservation, in the month it is submitted in. -/
theorem committed_create {world next : World γ} {job : Job} {read : Admission} (nonneg : 0 ≤ job.reserved)
    (applied : (Write.create job read).apply world = .ok next) (user : UserId) (currency : Currency)
    (period : Period) :
    next.db.committed user currency period = world.db.committed user currency period +
      if job.userId = user ∧ job.currency = currency ∧
        world.config.calendar.period job.submittedAt = period then job.reserved else 0 := by
  rw [committed_eq, committed_eq, Write.ledger_eq applied, sumWhere_append]
  exact congrArg _ (committed_hold world.config job nonneg user currency period)

/-- A job admitted on what there is leaves its member within a budget of whole cents. -/
theorem within_create {world next : World γ} {job : Job} {read : Admission} {user : UserId}
    {member : User} {currency : Currency} {period : Period} {cents : Cents}
    (fresh : Fresh world job read) (current : ReadAt world job read job.submittedAt)
    (found : world.db.users.find user = some member) (whole : member.budget currency = money cents)
    (before : money (world.db.committed user currency period) ≤ member.budget currency)
    (applied : (Write.create job read).apply world = .ok next) :
    money (next.db.committed user currency period) ≤ member.budget currency := by
  rw [committed_create fresh.nonneg applied]
  split
  · next mine =>
    obtain ⟨rfl, rfl, rfl⟩ := mine
    obtain ⟨owner, hasOwner, _, balance⟩ := current
    rw [hasOwner] at found
    cases found
    obtain ⟨asked, _, reserved, affordable⟩ := fresh.affordable
    -- the room is whole cents, so rounding what is asked does not leave it
    have room : read.balance.available = money (cents - world.db.committed job.userId job.currency
        (world.config.calendar.period job.submittedAt)) := by
      have split := money_add (cents - world.db.committed job.userId job.currency
        (world.config.calendar.period job.submittedAt)) (world.db.committed job.userId job.currency
          (world.config.calendar.period job.submittedAt))
      rw [sub_add_cancel] at split
      rw [balance, Balance.available, whole, split]
      exact add_sub_cancel_right _ _
    have fits := quantize_mono (affordable.trans_eq room)
    rw [quantize_money, ← reserved] at fits
    rw [whole, money_le_money]
    linarith
  · rw [add_zero]
    exact before

theorem insertJob_users {db next : Db} {job : Job} {reason : Reason} {hold : List LedgerEntry}
    (inserted : db.insertJob job reason hold = .ok next) : next.users = db.users := by
  obtain ⟨_, _, rfl⟩ := Db.insertJob_eq inserted
  rfl

/-- A job admitted on what there is keeps its member within the limits. -/
theorem InLimits.create {world next : World γ} {job : Job} {read : Admission} {user : UserId}
    (limits : InLimits world user) (whole : WholeBudgets world user) (fresh : Fresh world job read)
    (current : ReadAt world job read job.submittedAt)
    (applied : (Write.create job read).apply world = .ok next) : InLimits next user := by
  obtain ⟨db, written, same⟩ := Write.apply_eq applied
  have database : next.db = db := congrArg World.db same
  have settings : next.config = world.config := by rw [same]; rfl
  refine ⟨?_, fun member hasMember currency period => ?_⟩
  · obtain ⟨_, _, queued, _⟩ := current
    rw [database, settings, queuedCount_insert written]
    split
    · next mine =>
      have waiting := fresh.waiting
      rw [queued, mine.1] at waiting
      exact waiting
    · exact limits.queue
  · rw [database, insertJob_users written] at hasMember
    obtain ⟨cents, exact⟩ := whole member hasMember currency
    exact within_create fresh current hasMember exact (limits.budget member hasMember currency period)
      applied

theorem InLimits.refuse {world next : World γ} {job : Job} {refusal : Refusal} {user : UserId}
    (limits : InLimits world user) (refused : job.state = .refused)
    (applied : (Write.refuse job refusal).apply world = .ok next) : InLimits next user := by
  have ledger := Write.ledger_eq applied
  obtain ⟨db, written, rfl⟩ := Write.apply_eq applied
  refine ⟨?_, fun member hasMember currency period => ?_⟩
  · show db.queuedCount user ≤ world.config.maxQueuedJobsPerUser
    rw [queuedCount_insert written, refused, if_neg (by simp), add_zero]
    exact limits.queue
  · change db.users.find user = some member at hasMember
    rw [insertJob_users written] at hasMember
    show money (db.committed user currency period) ≤ member.budget currency
    rw [committed_eq, show db.ledger = _ from ledger]
    show money (sumWhere _ _ (world.db.ledger ++ [])) ≤ _
    rw [List.append_nil, ← committed_eq]
    exact limits.budget member hasMember currency period

/-! ### Submissions beside each other -/

/-- Submissions, each in a process of its own. -/
def submissions (desk : Desk γ) (requests : ι → Submission) :
    ι → Program (World γ) Write BrokerError Unit :=
  fun one => (Operation.submit (requests one)).program desk.site desk.text

theorem persists_self {world next : World γ} (persists : Persists world next) : Persists world next := persists

theorem attended_still {world next : World γ} (alone : False) (_ : Persists world next) : next = world :=
  alone.elim

theorem attended_unspent {world next : World γ} (calm : False) (_ : Persists world next) :
    ∀ id row, world.db.jobs.find id ≠ none → next.db.jobs.find id = some row → row.state.terminal = false →
      ∀ currency, next.db.jobHolding id currency = world.db.jobHolding id currency :=
  calm.elim

/-- The setting of a submission among others: it only inserts jobs. -/
def submitting (γ : Type) : Setting γ where
  outside := .unknown
  alone := False
  calm := False
  others := Persists
  makes := fun write _ => (∃ job read, write = .create job read) ∨ ∃ job refusal, write = .refuse job refusal
  issues := fun _ => True
  allows := fun write world => Current world write
  raises := fun _ => True
  refl := Persists.refl
  trans := Persists.trans
  persists := @persists_self γ
  still := @attended_still γ
  rests := trivial
  lasts := fun made _ => made
  unspent := @attended_unspent γ
  unmoved := fun allowed _ _ _ => allowed.1
  fails := fun _ _ _ _ _ _ => trivial

theorem submitting_compatible :
    Program.Compatible (fun _ : ι => (submitting γ).contract) Booked where
  invariant := fun _ => rfl
  apart := fun _ guarantee => guarantee_persists guarantee

theorem safe_submissions (desk : Desk γ) (requests : ι → Submission) (world : World γ) (one : ι) :
    (submissions desk requests one).Safe (submitting γ).contract (fun _ _ => True) world := by
  have safe : (submitting γ).Safe (submit (requests one) desk.text) _ world :=
    safe_submit (fun _ => trivial) (fun job read _ => Or.inl ⟨job, read, rfl⟩)
      fun job refusal _ => Or.inr ⟨job, refusal, rfl⟩
  exact Program.Safe.bind safe fun _ _ _ _ _ _ _ => trivial

/-- What one access of a submission keeps of a member's limits. -/
theorem InLimits.moved {world next : World γ} {user : UserId}
    (moved : (submitting γ).contract.Moved world next)
    (held : InLimits world user ∧ WholeBudgets world user) :
    InLimits next user ∧ WholeBudgets next user := by
  obtain ⟨label, allowed, booked, guarantee⟩ := moved
  cases label with
  | none =>
      have quiet := guarantee.1
      refine ⟨⟨?_, ?_⟩, ?_⟩
      · rw [quiet.db, quiet.config]
        exact held.1.queue
      · rw [quiet.db]
        exact held.1.budget
      · unfold WholeBudgets
        rw [quiet.db]
        exact held.2
  | some write =>
      obtain ⟨owes, _, left⟩ := guarantee
      have current := allowed write rfl
      cases applied : write.apply world with
      | error error =>
          rw [left, Write.leaves_error applied]
          exact held
      | ok after =>
          rw [left, Write.leaves_ok applied]
          have users : after.db.users = world.db.users := by
            obtain ⟨db, written, rfl⟩ := Write.apply_eq applied
            rcases owes.makes with ⟨job, read, rfl⟩ | ⟨job, refusal, rfl⟩ <;>
              exact insertJob_users written
          refine ⟨?_, fun member found => held.2 member (users ▸ found)⟩
          rcases owes.makes with ⟨job, read, rfl⟩ | ⟨job, refusal, rfl⟩
          · exact held.1.create held.2 owes.sound current.2 applied
          · exact held.1.refuse owes.sound.2.1 applied

/-- In every interleaving of submissions in which each job is inserted while what its admission had
read is still so, a member whose budgets are whole cents and who starts within the limits stays
within them. -/
theorem submissions_in_limits [DecidableEq ι] (desk : Desk γ) (requests : ι → Submission)
    (config : BrokerConfig) (cloud : γ) (clock : Nat → Time) (entries : List (Operation × Nat))
    (user : UserId) (turns : List ι)
    (start : InLimits (desk.after entries (World.new config cloud clock)) user)
    (whole : WholeBudgets (desk.after entries (World.new config cloud clock)) user)
    (current : Program.TurnsAllowed (fun _ write world => Current world write) turns
      (submissions desk requests) (desk.after entries (World.new config cloud clock))) :
    InLimits (Program.interleave turns (submissions desk requests)
      (desk.after entries (World.new config cloud clock))).2 user := by
  have booked := desk.booked entries (Booked.new config cloud clock)
  have path := (Program.Safe.interleave submitting_compatible
    (safe_submissions desk requests _) booked current).2.2
  generalize (Program.interleave turns (submissions desk requests) _).2 = last at path ⊢
  have kept : InLimits last user ∧ WholeBudgets last user := by
    induction path with
    | refl => exact ⟨start, whole⟩
    | tail _ step held =>
        obtain ⟨_, moved⟩ := step
        exact InLimits.moved moved held
  exact kept.1

instance (world : World γ) (job : Job) (read : Admission) (moment : Time) :
    Decidable (ReadAt world job read moment) :=
  decidable_of_iff (∃ user ∈ world.db.users.find job.userId,
    read.queued = world.db.queuedCount job.userId ∧
      read.balance =
        let account := world.db.accountOf job.userId job.currency
          (world.config.calendar.period moment)
        { budget := user.budget job.currency, held := account.1, spent := account.2 }) Iff.rfl

instance (world : World γ) : ∀ write : Write, Decidable (Current world write)
  | .create job read =>
      inferInstanceAs (Decidable (Unmoved world _ ∧ ReadAt world job read job.submittedAt))
  | .move _ _ _ _ _ | .settle _ _ _ _ | .insertUser _ | .updateUser _ | .suspend _ _ _ _
  | .restore _ | .refuse _ _ | .touch _ _ _ | .sampled _ _ | .notify _ | .abandon _ _ _ _ _ _
  | .applyPrices _ => inferInstanceAs (Decidable (Unmoved world _ ∧ True))

/-- A club whose members may have one job waiting. -/
def BrokerConfig.oneWaiting : BrokerConfig := { BrokerConfig.club with maxQueuedJobsPerUser := 1 }

/-- Ann asks for twenty hours of her budget of twenty-five dollars, from two processes. -/
def Submission.byAnn (second : Bool) : Submission :=
  ⟨if second then "other" else "job", "ann", "train", "t4", 20, none, none, "real"⟩

/-- The database Ann has joined. -/
def World.joined : World Rack :=
  Rack.running.after [(.upsertUser "ann" none none none none, 40)] (World.club .oneWaiting)

theorem World.joined_budget {member : User} (found : World.joined.db.users.find "ann" = some member) :
    member.budget .usd = money 2500 ∧ member.budget .gpuHour = money 800 := by
  have budgets : (World.joined.db.users.find "ann").map (fun member =>
      (member.budgetUsd, member.budgetGpuHours)) = some (25, 8) := by decide +kernel
  rw [found] at budgets
  have both := Prod.ext_iff.mp (Option.some.inj budgets)
  have usd : member.budgetUsd = 25 := both.1
  have gpuHours : member.budgetGpuHours = 8 := both.2
  unfold User.budget money quantum
  rw [usd, gpuHours]
  norm_num

theorem World.joined_limits : InLimits World.joined "ann" ∧ WholeBudgets World.joined "ann" := by
  refine ⟨⟨by decide +kernel, fun member found currency period => ?_⟩, fun member found currency => ?_⟩
  all_goals have budget := World.joined_budget found
  · have nothing : World.joined.db.committed "ann" currency period = 0 := by
      rw [committed_eq, show World.joined.db.ledger = [] by decide +kernel]
      rfl
    rw [nothing]
    cases currency with
    | usd => exact budget.1.symm ▸ money_le_money.mpr (by decide)
    | gpuHour => exact budget.2.symm ▸ money_le_money.mpr (by decide)
  · cases currency with
    | usd => exact ⟨2500, budget.1⟩
    | gpuHour => exact ⟨800, budget.2⟩

/-- One after the other, the second submission is refused. -/
theorem submissions_in_limits_in_turn :
    InLimits (Program.interleave (List.replicate 10 false ++ List.replicate 10 true)
      (submissions Rack.running Submission.byAnn) World.joined).2 "ann" :=
  submissions_in_limits Rack.running Submission.byAnn .oneWaiting ⟨0, 0⟩
    (fun reading => reading * twelveMinutes) [(.upsertUser "ann" none none none none, 40)] "ann"
    (List.replicate 10 false ++ List.replicate 10 true) World.joined_limits.1
    World.joined_limits.2 (by decide +kernel)

/-- Two submissions that both read before either inserts are both admitted: two jobs wait where one
may, and forty dollars are committed of twenty-five. -/
theorem submissions_over_limits :
    let last := (Program.interleave
      (List.replicate 9 false ++ List.replicate 9 true ++ [false, true])
      (submissions Rack.running Submission.byAnn) World.joined).2
    last.db.queuedCount "ann" = 2 ∧ last.config.maxQueuedJobsPerUser = 1 ∧
      last.db.committed "ann" .usd 0 = 4000 ∧
        (last.db.users.find "ann").map (fun member => member.budget .usd) = some 25 := by
  decide +kernel

end GpuBroker.Broker
