/-
This file is the months of an account: what is held and what is spent in each,
over runs that go on from month to month.

A row of the ledger is stamped with the month it is written in. While every row
of a job is written in the month the job was submitted in, what an account holds
in a month is what its jobs of that month hold, and no month spends more than the
budget; a hold that is given back in a later month makes that month's held amount
negative, and leaves room there for more than the budget.
-/
import GpuBroker.Broker.Admission

namespace GpuBroker.Broker

open Library

variable {γ : Type}

/-! ### Rows and the jobs they belong to -/

/-- A row belongs to a job that is there, and is on its account in the month it was submitted in. -/
def Filed (world : World γ) (row : LedgerEntry) : Prop :=
  ∃ id job, row.jobId = some id ∧ world.db.jobs.find id = some job ∧ row.userId = some job.userId ∧
    row.currency = job.currency ∧ row.period = world.config.calendar.period job.submittedAt

theorem Filed.persists {world next : World γ} {row : LedgerEntry} (filed : Filed world row)
    (persists : Persists world next) : Filed next row := by
  obtain ⟨id, job, named, found, user, currency, period⟩ := filed
  obtain ⟨later, hasLater, terms⟩ := persists.jobs id job found
  have same : later.userId = job.userId ∧ later.currency = job.currency ∧
      later.submittedAt = job.submittedAt :=
    ⟨congrArg Terms.userId terms, congrArg Terms.currency terms, congrArg Terms.submittedAt terms⟩
  refine ⟨id, later, named, hasLater, ?_, ?_, ?_⟩
  · rw [same.1]
    exact user
  · rw [same.2.1]
    exact currency
  · rw [same.2.2, persists.calendar]
    exact period

/-- A job of an account, by the month it was submitted in. -/
def ofMember (config : BrokerConfig) (user : UserId) (currency : Currency) (period : Period) (job : Job) :
    Bool :=
  job.userId = user ∧ job.currency = currency ∧ config.calendar.period job.submittedAt = period

/-- What an account holds in a month is what its jobs of that month hold. -/
theorem held_total {world : World γ} {rows : List LedgerEntry} (filed : ∀ row ∈ rows, Filed world row)
    (user : UserId) (currency : Currency) (period : Period) :
    sumWhere LedgerEntry.heldPart (ofAccount user currency period) rows =
      world.db.jobs.total fun job => if ofMember world.config user currency period job then
        sumWhere LedgerEntry.heldPart (ofJobIn job.jobId job.currency) rows else 0 := by
  induction rows with
  | nil =>
      refine (Table.total_zero fun id job _ => ?_).symm
      exact ite_self 0
  | cons row rows inductionHypothesis =>
      obtain ⟨id, job, named, found, owner, unit, month⟩ := filed row (List.mem_cons_self ..)
      have key : job.jobId = id := Table.find_key found
      have account : ofAccount user currency period row = ofMember world.config user currency period job := by
        unfold ofAccount ofMember
        rw [owner, unit, month]
        simp only [Option.some.injEq]
      -- the row counts for its own job, and for no other
      have own : world.db.jobs.total (fun each => if ofMember world.config user currency period each then
          (if ofJobIn each.jobId each.currency row then row.heldPart else 0) else 0) =
          if ofAccount user currency period row then row.heldPart else 0 := by
        refine (Table.total_single found fun other each present differs => ?_).trans ?_
        · have unnamed : ofJobIn each.jobId each.currency row = false := by
            refine decide_eq_false fun both => differs ?_
            rw [← Table.find_key present]
            exact Option.some.inj (both.1.symm.trans named)
          rw [unnamed, if_neg Bool.false_ne_true, ite_self]
        · have itself : ofJobIn job.jobId job.currency row = true :=
            decide_eq_true ⟨key ▸ named, unit⟩
          rw [account, itself, if_pos rfl]
      rw [sumWhere_cons, inductionHypothesis fun each member => filed each (List.mem_cons_of_mem _ member),
        ← own]
      unfold Table.total
      rw [← List.sum_map_add]
      refine congrArg List.sum (List.map_congr_left fun each _ => ?_)
      rw [sumWhere_cons]
      split <;> rfl

/-! ### Runs within the months -/

/-- A budget of whole cents that is not negative. -/
def Plain (budget : Decimal) : Prop := 0 ≤ budget ∧ money (quantize budget) = budget

/-- A transaction within the month its job was submitted in, on a balance of that month; no charge for
abandoned capacity, and budgets of whole cents that are not lowered. -/
def InMonth (write : Write) (world : World γ) : Prop :=
  let month := world.config.calendar.period
  match write with
  | .create job read => ReadAt world job read job.submittedAt
  | .settle job _ _ now => month now = month job.submittedAt
  | .move current _ _ now (some holding) => 0 < holding → month now = month current.submittedAt
  | .abandon _ _ _ _ _ _ => False
  | .insertUser user => ∀ currency, Plain (user.budget currency)
  | .updateUser user => ∀ currency, Plain (user.budget currency) ∧
      ∀ member ∈ world.db.users.find user.userId, member.budget currency ≤ user.budget currency
  | _ => True

instance (budget : Decimal) : Decidable (Plain budget) := inferInstanceAs (Decidable (_ ∧ _))

instance decidableCurrencies {holds : Currency → Prop} [∀ currency, Decidable (holds currency)] :
    Decidable (∀ currency, holds currency) :=
  decidable_of_iff (holds .usd ∧ holds .gpuHour)
    ⟨fun both currency => by cases currency; exacts [both.1, both.2], fun each => ⟨each _, each _⟩⟩

instance (write : Write) (world : World γ) : Decidable (InMonth write world) :=
  match write with
  | .create job read => inferInstanceAs (Decidable (ReadAt world job read job.submittedAt))
  | .settle .. => inferInstanceAs (Decidable (_ = _))
  | .move _ _ _ _ (some _) => inferInstanceAs (Decidable (_ → _ = _))
  | .abandon .. => isFalse id
  | .insertUser user => inferInstanceAs (Decidable (∀ currency, Plain (user.budget currency)))
  | .updateUser user => inferInstanceAs (Decidable (∀ currency, Plain (user.budget currency) ∧
      ∀ member ∈ world.db.users.find user.userId, member.budget currency ≤ user.budget currency))
  | .move _ _ _ _ none | .suspend .. | .restore .. | .refuse .. | .touch .. | .sampled .. | .notify ..
  | .applyPrices .. => isTrue trivial

/-- What is kept along a run: every row is of the month its job was submitted in, and in every month
each account commits no more than its member's budget, and nothing when there is no such member. -/
structure Monthly (world : World γ) : Prop where
  filed : ∀ row ∈ world.db.ledger, Filed world row
  plain : ∀ user member, world.db.users.find user = some member → ∀ currency,
    Plain (member.budget currency)
  funded : ∀ user member, world.db.users.find user = some member → ∀ currency period,
    money (world.db.committed user currency period) ≤ member.budget currency
  unknown : ∀ user, world.db.users.find user = none → ∀ currency period,
    world.db.committed user currency period ≤ 0

/-- A row of a job that is there, in its month. -/
theorem filed_known {world : World γ} {job : Job} {kind : LedgerKind} {amount : Decimal} {now : Time}
    (known : Known world job)
    (month : world.config.calendar.period now = world.config.calendar.period job.submittedAt) :
    Filed world (insertLedger world.config (some job.jobId) (some job.userId) job.currency kind amount now
      none) := by
  obtain ⟨row, found, terms⟩ := known.row
  refine ⟨job.jobId, row, rfl, found, ?_, ?_, ?_⟩
  · exact congrArg some (congrArg Terms.userId terms).symm
  · exact (congrArg Terms.currency terms).symm
  · exact month.trans (congrArg _ (congrArg Terms.submittedAt terms).symm)

/-- The rows a transaction adds are of the month its job was submitted in. -/
theorem filed_lines {world next : World γ} {write : Write} (inMonth : InMonth write world)
    (sound : Sound world write) (applied : write.apply world = .ok next) :
    ∀ row ∈ write.lines world.config, Filed next row := by
  have persists := Write.persists applied
  intro row member
  cases write with
  | create job read =>
      obtain ⟨db, written, rfl⟩ := Write.apply_eq applied
      obtain ⟨jobs, grown, rfl⟩ := Db.insertJob_eq written
      have member : row ∈ admissionHold world.config job := member
      unfold admissionHold at member
      split at member
      · rw [List.mem_singleton.mp member]
        refine ⟨job.jobId, job, rfl, ?_, rfl, rfl, rfl⟩
        show jobs.find job.jobId = some job
        rw [Table.find_insert grown, if_pos rfl]
      · cases member
  | settle job amount accrued now =>
      have settling : Settling world job amount now := sound
      have member : row ∈ settlement world.config job amount now := member
      have month : world.config.calendar.period now = world.config.calendar.period job.submittedAt :=
        inMonth
      refine Filed.persists ?_ persists
      rcases List.mem_pair.mp member with rfl | rfl <;> exact filed_known settling.known month
  | move current target change now outstanding =>
      have moving : Moving world current target change now outstanding := sound
      rw [moving.lines_eq] at member
      refine Filed.persists ?_ persists
      cases outstanding with
      | none => cases member
      | some holding =>
          simp only [ledgerWrites_release] at member
          split at member
          · next positive =>
            rw [List.mem_singleton.mp member]
            exact filed_known moving.known (inMonth positive)
          · cases member
  | abandon => exact inMonth.elim
  | insertUser | updateUser | suspend | restore | refuse | touch | sampled | notify | applyPrices =>
      cases member

/-- The two rows of a settlement are of one account and one month. -/
theorem committed_settlement (config : BrokerConfig) (job : Job) (amount : Cents) (now : Time)
    (user : UserId) (currency : Currency) (period : Period) :
    sumWhere LedgerEntry.committedPart (ofAccount user currency period)
      (settlement config job amount now) = 0 := by
  by_cases mine : job.userId = user ∧ job.currency = currency ∧ config.calendar.period now = period <;>
    simp [settlement, insertLedger, ofAccount, LedgerEntry.committedPart, LedgerEntry.heldPart,
      LedgerEntry.spentPart, mine]

/-- A transaction that is not an admission commits nothing more. -/
theorem committed_less {world next : World γ} {write : Write} (inMonth : InMonth write world)
    (sound : Sound world write) (applied : write.apply world = .ok next)
    (settled : ∀ job read, write ≠ .create job read) (user : UserId) (currency : Currency)
    (period : Period) : next.db.committed user currency period ≤ world.db.committed user currency period := by
  rw [committed_eq, committed_eq, Write.ledger_eq applied, sumWhere_append]
  refine add_le_of_nonpos_right ?_
  cases write with
  | create job read => exact absurd rfl (settled job read)
  | settle job amount accrued now =>
      exact (committed_settlement world.config job amount now _ _ _).le
  | move current target change now outstanding =>
      have moving : Moving world current target change now outstanding := sound
      rw [moving.lines_eq]
      cases outstanding with
      | none => exact le_rfl
      | some holding =>
          simp only [ledgerWrites_release]
          split
          · next positive =>
            simp only [sumWhere_cons, sumWhere_nil, insertLedger, LedgerEntry.committedPart,
              LedgerEntry.heldPart, LedgerEntry.spentPart, quantize_money]
            split <;> simp [positive.le]
          · exact le_rfl
  | abandon => exact inMonth.elim
  | insertUser | updateUser | suspend | restore | refuse | touch | sampled | notify | applyPrices =>
      exact le_rfl

/-- What a transaction that is not an admission may do to the members. -/
structure Raises (world next : World γ) : Prop where
  present : ∀ user member, next.db.users.find user = some member →
    (∀ currency, Plain (member.budget currency)) ∧ ∀ before, world.db.users.find user = some before →
      ∀ currency, before.budget currency ≤ member.budget currency
  absent : ∀ user, next.db.users.find user = none → world.db.users.find user = none

theorem Raises.same {world next : World γ} (monthly : Monthly world)
    (users : next.db.users = world.db.users) : Raises world next := by
  refine ⟨fun user member found => ?_, fun user missing => users ▸ missing⟩
  rw [users] at found
  refine ⟨monthly.plain user member found, fun before hasBefore currency => ?_⟩
  rw [found] at hasBefore
  cases hasBefore
  exact le_rfl

theorem Raises.modify {world next : World γ} (monthly : Monthly world) {id : UserId} {set : User → User}
    (same : ∀ user, (set user).userId = user.userId)
    (users : next.db.users = world.db.users.modify id set same)
    (raised : ∀ member, world.db.users.find id = some member → ∀ currency,
      Plain ((set member).budget currency) ∧ member.budget currency ≤ (set member).budget currency) :
    Raises world next := by
  refine ⟨fun user member found => ?_, fun user missing => ?_⟩
  · rw [users, Table.find_modify] at found
    split at found
    · next chosen =>
      subst chosen
      obtain ⟨before, hasBefore, rfl⟩ := Option.map_eq_some_iff.mp found
      refine ⟨fun currency => (raised before hasBefore currency).1, fun again hasAgain currency => ?_⟩
      rw [hasBefore] at hasAgain
      cases hasAgain
      exact (raised before hasBefore currency).2
    · refine ⟨monthly.plain user member found, fun before hasBefore currency => ?_⟩
      rw [found] at hasBefore
      cases hasBefore
      exact le_rfl
  · rw [users, Table.find_modify] at missing
    split at missing
    · exact Option.map_eq_none_iff.mp missing
    · exact missing

theorem Raises.insert {world next : World γ} (monthly : Monthly world) {user : User}
    (inserted : world.db.users.insert user = some next.db.users)
    (plain : ∀ currency, Plain (user.budget currency)) : Raises world next := by
  refine ⟨fun id member found => ?_, fun id missing => ?_⟩
  · rw [Table.find_insert inserted] at found
    split at found
    · next chosen =>
      cases found
      refine ⟨plain, fun before hasBefore => ?_⟩
      rw [chosen, (Table.insert_eq_some inserted).1] at hasBefore
      cases hasBefore
    · refine ⟨monthly.plain id member found, fun before hasBefore currency => ?_⟩
      rw [found] at hasBefore
      cases hasBefore
      exact le_rfl
  · rw [Table.find_insert inserted] at missing
    split at missing
    · cases missing
    · exact missing

theorem Monthly.raises {world next : World γ} (monthly : Monthly world)
    (filed : ∀ row ∈ next.db.ledger, Filed next row) (raises : Raises world next)
    (less : ∀ user currency period,
      next.db.committed user currency period ≤ world.db.committed user currency period) :
    Monthly next := by
  refine ⟨filed, fun user member found => (raises.present user member found).1,
    fun user member found currency period => ?_, fun user missing currency period => ?_⟩
  · refine (money_le_money.mpr (less user currency period)).trans ?_
    cases before : world.db.users.find user with
    | none =>
        have nothing := money_le_money.mpr (monthly.unknown user before currency period)
        rw [money_zero] at nothing
        exact nothing.trans ((raises.present user member found).1 currency).1
    | some member' =>
        exact (monthly.funded user member' before currency period).trans
          ((raises.present user member found).2 member' before currency)
  · exact (less user currency period).trans
      (monthly.unknown user (raises.absent user missing) currency period)

theorem Monthly.quiet {world next : World γ} (monthly : Monthly world) (quiet : Quiet world next) :
    Monthly next := by
  refine ⟨?_, ?_, ?_, ?_⟩
  · unfold Filed
    rw [quiet.db, quiet.config]
    exact monthly.filed
  · rw [quiet.db]
    exact monthly.plain
  · rw [quiet.db]
    exact monthly.funded
  · rw [quiet.db]
    exact monthly.unknown

theorem Monthly.filed_apply {world next : World γ} {write : Write} (monthly : Monthly world)
    (inMonth : InMonth write world) (sound : Sound world write) (applied : write.apply world = .ok next) :
    ∀ row ∈ next.db.ledger, Filed next row := by
  intro row member
  rw [Write.ledger_eq applied] at member
  rcases List.mem_append.mp member with old | new
  · exact (monthly.filed row old).persists (Write.persists applied)
  · exact filed_lines inMonth sound applied row new

theorem Monthly.create {world next : World γ} {job : Job} {read : Admission} (monthly : Monthly world)
    (fresh : Fresh world job read) (current : ReadAt world job read job.submittedAt)
    (applied : (Write.create job read).apply world = .ok next) : Monthly next := by
  have users : next.db.users = world.db.users := by
    obtain ⟨db, written, rfl⟩ := Write.apply_eq applied
    exact insertJob_users written
  have inMonth : InMonth (.create job read) world := current
  refine ⟨monthly.filed_apply inMonth fresh applied, ?_, fun user member found currency period => ?_,
    fun user missing currency period => ?_⟩
  · rw [users]
    exact monthly.plain
  · rw [users] at found
    exact within_create fresh current found (monthly.plain user member found currency).2.symm
      (monthly.funded user member found currency period) applied
  · rw [users] at missing
    obtain ⟨owner, hasOwner, _⟩ := current
    rw [committed_create fresh.nonneg applied, if_neg, add_zero]
    · exact monthly.unknown user missing currency period
    · rintro ⟨rfl, _⟩
      rw [missing] at hasOwner
      cases hasOwner

/-- One transaction within its month keeps it. -/
theorem Monthly.write {world next : World γ} {write : Write} (monthly : Monthly world)
    (inMonth : InMonth write world) (sound : Sound world write) (applied : write.apply world = .ok next) :
    Monthly next := by
  have filed := monthly.filed_apply inMonth sound applied
  have less := committed_less inMonth sound applied
  obtain ⟨db, written, rfl⟩ := Write.apply_eq applied
  cases write with
  | create job read => exact monthly.create sound inMonth applied
  | insertUser user =>
      refine monthly.raises filed ?_ (less fun _ _ same => by cases same)
      simp only [Write.onDb] at written
      split at written
      · cases written
      · next users inserted =>
        cases written
        exact Raises.insert monthly inserted inMonth
  | updateUser user =>
      refine monthly.raises filed ?_ (less fun _ _ same => by cases same)
      cases written
      refine Raises.modify monthly ?_ rfl fun member found currency => ?_
      · exact fun _ => rfl
      · obtain ⟨plain, raised⟩ := inMonth currency
        cases currency <;> exact ⟨plain, raised member found⟩
  | suspend | restore =>
      refine monthly.raises filed ?_ (less fun _ _ same => by cases same)
      cases written
      refine Raises.modify monthly ?_ rfl fun member found currency => ?_
      · exact fun _ => rfl
      · have plain := monthly.plain _ member found currency
        cases currency <;> exact ⟨plain, le_rfl⟩
  | refuse job refusal =>
      exact monthly.raises filed (Raises.same monthly (insertJob_users written)) (less fun _ _ same => by cases same)
  | move current target change now outstanding =>
      obtain ⟨_, _, _, rfl⟩ := Db.moveJob_eq written
      exact monthly.raises filed (Raises.same monthly rfl) (less fun _ _ same => by cases same)
  | touch job columns now =>
      obtain rfl := Db.touchJob_eq written
      exact monthly.raises filed (Raises.same monthly rfl) (less fun _ _ same => by cases same)
  | settle | abandon | applyPrices =>
      cases written
      exact monthly.raises filed (Raises.same monthly rfl) (less fun _ _ same => by cases same)
  | sampled | notify =>
      refine monthly.raises filed (Raises.same monthly ?_) (less fun _ _ same => by cases same)
      simp only [Write.onDb] at written
      split at written <;> cases written
      rfl

/-- Where an account of a member stands, in one currency and one month. -/
def Db.standing (db : Db) (user : UserId) (member : User) (currency : Currency) (period : Period) :
    Balance where
  budget := member.budget currency
  held := (db.accountOf user currency period).1
  spent := (db.accountOf user currency period).2

/-- In a run whose transactions are each within the month their job was submitted in, an account holds
nothing negative in any month, and spends no more in it than its member's budget. -/
theorem spent_within_budget (desk : Desk γ) (config : BrokerConfig) (cloud : γ) (clock : Nat → Time)
    (entries : List (Operation × Nat)) :
    let world := World.new config cloud clock
    let after := desk.after entries world
    desk.Allows InMonth entries world → ∀ user member currency period,
      after.db.users.find user = some member →
      let balance := after.db.standing user member currency period
      0 ≤ balance.held ∧ balance.spent ≤ balance.committed ∧ money balance.spent ≤ balance.budget := by
  intro world after permitted user member currency period found balance
  have start : Monthly world := by
    refine ⟨fun row member => ?_, fun user member found => ?_, fun user member found => ?_,
      fun _ _ _ _ => le_rfl⟩
    · cases member
    · cases found
    · cases found
  have kept : Booked after ∧ Monthly after :=
    Desk.keeps (runs_unknown desk.site) (Booked.new config cloud clock) permitted start
      (fun _ _ _ quiet _ monthly => monthly.quiet quiet)
      fun _ _ _ _ inMonth sound _ _ applied monthly => monthly.write inMonth sound applied
  obtain ⟨booked, monthly⟩ := kept
  have held : 0 ≤ balance.held := by
    show 0 ≤ (after.db.accountOf user currency period).1
    rw [accountOf_eq]
    show 0 ≤ sumWhere LedgerEntry.heldPart (ofAccount user currency period) after.db.ledger
    rw [held_total monthly.filed]
    refine Table.total_nonneg fun id job found => ?_
    split
    · rw [← jobHolding_eq]
      have money := booked.money id job found
      cases concluded : job.state.terminal with
      | true => exact (money.released concluded).ge
      | false => exact (money.held (by rw [JobState.holdsBudget_eq, concluded]; rfl)).2.1
    · exact le_rfl
  have committed := monthly.funded user member found currency period
  have less : balance.spent ≤ balance.committed := le_add_of_nonneg_left held
  exact ⟨held, less, (money_le_money.mpr less).trans committed⟩

/-- Ann's job runs in the month it was submitted in. -/
theorem spent_within_budget_running :
    let after := Rack.running.after (Operation.opening ++ Operation.ticks 3) (World.club .club)
    after.db.accountOf "ann" .usd 0 = (220, 180) ∧
      ∃ member ∈ after.db.users.find "ann", money 180 ≤ member.budget .usd := by
  have account : (Rack.running.after (Operation.opening ++ Operation.ticks 3)
      (World.club .club)).db.accountOf "ann" .usd 0 = (220, 180) := by decide +kernel
  have joined : ∃ member ∈ (Rack.running.after (Operation.opening ++ Operation.ticks 3)
      (World.club .club)).db.users.find "ann", member.budgetUsd = 25 := by decide +kernel
  obtain ⟨member, found, _⟩ := joined
  have within := (spent_within_budget Rack.running .club ⟨0, 0⟩ (fun reading => reading * twelveMinutes)
    (Operation.opening ++ Operation.ticks 3) (by decide +kernel) "ann" member .usd 0 found).2.2
  exact ⟨account, member, found, (congrArg (fun account => money account.2) account) ▸ within⟩

/-- A clock that shows ten readings of a month and is in the next from then on. -/
def turningClock (reading : Nat) : Time :=
  if reading < 10 then reading * twelveMinutes else 2592000000000 + reading * (20 * twelveMinutes)

example : turningClock 9 + twelveMinutes < turningClock 10 := by decide +kernel

/-- Ann asks for twenty hours. -/
def Operation.twentyHours (job : JobId) : Operation × Nat :=
  (.submit ⟨job, "ann", "train", "t4", 20, none, none, "real"⟩, 40)

/-- A job that was submitted in one month and stopped in the next leaves that month with a negative
hold, in which another is admitted: forty dollars are spent in the month of a budget of twenty-five. -/
theorem spent_over_budget :
    let entries := [(.upsertUser "ann" none none none none, 40), Operation.twentyHours "one"] ++
      Operation.ticks 3 ++ [Operation.twentyHours "two"] ++ Operation.ticks 3
    let after := Rack.running.after entries (World.new .club ⟨0, 0⟩ turningClock)
    after.db.accountOf "ann" .usd 1 = (-2000, 4000) ∧
      (after.db.jobs.rows.map fun job => (job.state, job.reserved)) = [(.failed, 2000), (.failed, 2000)] ∧
      (after.db.users.find "ann").map (fun member => member.budget .usd) = some 25 := by
  decide +kernel

end GpuBroker.Broker
