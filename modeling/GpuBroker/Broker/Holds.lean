/-
This file is the hold a submission takes, against what admission compared.

Admission compares what is asked for as it comes, of any precision; what is
stored is rounded to the cent, a half upwards, and the row of the hold is only
written when something is left. Below half a cent nothing is held, and rounding
up may go past the cap of a job or past what the member has left.
-/
import GpuBroker.Broker.Admission

namespace GpuBroker.Broker

open Library

variable {γ α β : Type}

/-! ### Half a cent -/

/-- What is rounded to nothing is what is less than half a cent. -/
theorem quantize_pos {value : Decimal} : 0 < quantize value ↔ 1 / 200 ≤ value := by
  have scaled : ∀ value : Decimal, value / quantum = value * 100 := fun value => by
    unfold quantum
    ring
  constructor
  · intro positive
    by_contra small
    have half : quantize value ≤ 0 := by
      rcases le_or_gt 0 value with nonneg | negative
      · unfold quantize
        rw [if_pos nonneg, scaled]
        exact Int.lt_add_one_iff.mp (Int.floor_lt.mpr (by push_cast; linarith))
      · exact quantize_zero ▸ quantize_mono negative.le
    exact absurd positive (not_lt.mpr half)
  · intro enough
    have cent : quantize (1 / 200) = 1 := by
      unfold quantize
      rw [if_pos (by norm_num), scaled]
      norm_num
    exact (by decide : (0 : Int) < 1).trans_le (cent ▸ quantize_mono enough)

/-! ### An accepted submission -/

/-- What a submission asks to reserve: the budget that is named, or what its hours cost. -/
def Submission.asked (request : Submission) (config : BrokerConfig) (gpu : GpuType) : Decimal :=
  request.budget.getD (money (defaultReservation config gpu request.hours))

theorem whole_orRaise {value : Except BrokerError β} {rest : β → Op γ α} {world : World γ} {result : α}
    {next : World γ} (ran : (orRaise value >>= rest).whole world = (.ok result, next)) :
    ∃ found, value = .ok found ∧ (rest found).whole world = (.ok result, next) := by
  cases value with
  | error error => cases ran
  | ok found => exact ⟨found, rfl, ran⟩

theorem whole_getUser {user : UserId} {rest : User → Op γ α} {world : World γ} {result : α}
    {next : World γ} (ran : (getUser user >>= rest).whole world = (.ok result, next)) :
    ∃ member, world.db.users.find user = some member ∧ (rest member).whole world = (.ok result, next) := by
  unfold getUser maybeUser at ran
  rw [bind_assoc, whole_query] at ran
  cases found : world.db.users.find user with
  | none =>
      rw [found] at ran
      cases ran
  | some member =>
      rw [found] at ran
      exact ⟨member, rfl, ran⟩

/-- What admission has found when it lets a submission through; it reads the clock once. -/
theorem admitted_of_whole {config : BrokerConfig} {user : User} {currency : Currency} {asked : Decimal}
    {world next : World γ} {read : Admission}
    (ran : (refusalOf config user currency asked).whole world = (.ok (.ok read), next)) :
    0 < asked ∧ asked ≤ config.maxJob currency ∧ next = world.ticked := by
  unfold refusalOf at ran
  split at ran
  · cases ran
  · split at ran
    · cases ran
    · next capped =>
      unfold checkJobCap at capped
      split at capped
      · cases capped
      · next positive =>
        split at capped
        · cases capped
        · next under =>
          rw [whole_query] at ran
          split at ran
          · cases ran
          · unfold balance at ran
            rw [bind_assoc, whole_settings, bind_assoc, whole_now, bind_assoc] at ran
            obtain ⟨member, _, ran⟩ := whole_getUser ran
            rw [bind_assoc, whole_query, pure_bind] at ran
            split at ran
            · cases ran
            · cases ran
              exact ⟨not_le.mp positive, not_lt.mp under, rfl⟩

/-- The row of a job that is accepted, and the transaction that inserts it. -/
theorem accepted_of_whole {request : Submission} {text : Refusal → String} {world next : World γ} {job : Job}
    (ran : (submit request text).whole world = (.ok (job, none), next)) :
    ∃ gpu member read, world.config.gpu request.gpuType = .ok gpu ∧
      world.db.users.find request.userId = some member ∧
      job.userId = request.userId ∧ job.currency = gpu.currency ∧
      job.reserved = quantize (request.asked world.config gpu) ∧
      job.submittedAt = world.ticked.clock world.ticked.asked ∧
      (Write.create job read).apply world.ticked.ticked = .ok next := by
  unfold submit at ran
  rw [whole_settings] at ran
  obtain ⟨gpu, valid, ran⟩ := whole_orRaise ran
  obtain ⟨member, found, ran⟩ := whole_getUser ran
  obtain ⟨answer, current, admitted, ran⟩ := Program.whole_bind_eq_ok ran
  have known : world.config.gpu request.gpuType = .ok gpu := by
    unfold validateRequest at valid
    cases priced : world.config.gpu request.gpuType with
    | error error =>
        rw [priced] at valid
        cases valid
    | ok other =>
        rw [priced] at valid
        simp only [bind, Except.bind] at valid
        split at valid
        · cases valid
        · split at valid
          · cases valid
          · split at valid
            · cases valid
            · exact valid
  cases answer with
  | error refusal =>
      obtain ⟨refused, after, _, ended⟩ := Program.whole_bind_eq_ok ran
      cases ended
  | ok read =>
      obtain ⟨-, -, rfl⟩ := admitted_of_whole admitted
      obtain ⟨created, after, came, ended⟩ := Program.whole_bind_eq_ok ran
      cases ended
      unfold createJob at came
      obtain ⟨owner, _, came⟩ := whole_getUser came
      rw [whole_now] at came
      obtain ⟨rfl, applied⟩ := committed_of_whole came
      exact ⟨gpu, member, read, known, found, rfl, rfl, rfl, rfl, applied⟩

/-! ### The hold -/

/-- What a submission promises of the job it creates: what is reserved is positive, is what the one row of
its hold says, and stays within the cap of a job and the budget of its member. -/
structure HoldAgrees (world next : World γ) (job : Job) (budget : Decimal) : Prop where
  stored : next.db.jobs.find job.jobId = some job
  positive : 0 < job.reserved
  row : ∃ hold, next.db.ledger = world.db.ledger ++ [hold] ∧ hold.kind = .reserve ∧
    hold.jobId = some job.jobId ∧ hold.amount = job.reserved
  within : money (next.db.committed job.userId job.currency
    (world.config.calendar.period job.submittedAt)) ≤ budget
  under : money job.reserved ≤ world.config.maxJob job.currency

theorem admissionHold_row {config : BrokerConfig} {job : Job} (positive : 0 < job.reserved) :
    ∃ hold, admissionHold config job = [hold] ∧ hold.kind = .reserve ∧ hold.jobId = some job.jobId ∧
      hold.amount = job.reserved := by
  unfold admissionHold
  rw [if_pos positive]
  exact ⟨_, rfl, rfl, rfl, quantize_money _⟩

/-- A submission that is accepted creates a job whose hold is as promised exactly when it asked for half a
cent or more, and what it asked for, rounded to the cent, is still no more than the cap of a job and than
what its member has left in the month the job is written in. -/
theorem accepted_hold_agrees_iff {request : Submission} {text : Refusal → String} {world next : World γ}
    {job : Job} {gpu : GpuType} {member : User}
    (accepted : (submit request text).whole world = (.ok (job, none), next))
    (known : world.config.gpu request.gpuType = .ok gpu)
    (found : world.db.users.find request.userId = some member) :
    HoldAgrees world next job (member.budget gpu.currency) ↔
      1 / 200 ≤ request.asked world.config gpu ∧
        money (quantize (request.asked world.config gpu)) ≤ world.config.maxJob gpu.currency ∧
        money (quantize (request.asked world.config gpu)) ≤ member.budget gpu.currency -
          money (world.db.committed request.userId gpu.currency
            (world.config.calendar.period (world.clock (world.asked + 1)))) := by
  obtain ⟨kind, owner, read, priced, hasOwner, user, currency, reserved, submitted, applied⟩ :=
    accepted_of_whole accepted
  cases known.symm.trans priced
  cases found.symm.trans hasOwner
  have moment : job.submittedAt = world.clock (world.asked + 1) := submitted
  have ledger : next.db.ledger = world.db.ledger ++ admissionHold world.config job :=
    Write.ledger_eq applied
  have stored : next.db.jobs.find job.jobId = some job := by
    obtain ⟨db, written, rfl⟩ := Write.apply_eq applied
    obtain ⟨jobs, inserted, rfl⟩ := Db.insertJob_eq written
    exact (Table.sets_insert inserted).find_self
  rw [← quantize_pos, ← reserved, ← user, ← currency, ← moment, le_sub_iff_add_le', ← money_add]
  have total : ∀ positive : 0 < job.reserved,
      next.db.committed job.userId job.currency (world.config.calendar.period job.submittedAt) =
        world.db.committed job.userId job.currency (world.config.calendar.period job.submittedAt) +
          job.reserved := fun positive => by
    rw [committed_create positive.le applied, if_pos ⟨rfl, rfl, rfl⟩]
    rfl
  constructor
  · intro agrees
    exact ⟨agrees.positive, agrees.under, total agrees.positive ▸ agrees.within⟩
  · rintro ⟨positive, under, within⟩
    obtain ⟨hold, only, kind, names, amount⟩ := admissionHold_row positive
    exact ⟨stored, positive, ⟨hold, only ▸ ledger, kind, names, amount⟩, total positive ▸ within, under⟩

/-! ### Fractions of a cent -/

/-- The club with a budget for Ann, and a cap for each job. -/
def World.budgeted (budget cap : Decimal) : World Rack :=
  Rack.running.after [(.upsertUser "ann" none (some budget) none none, 40)]
    (World.club { BrokerConfig.club with maxJobUsd := cap })

/-- Ann asks to reserve an amount. -/
def Submission.reserving (amount : Decimal) : Submission :=
  ⟨"job", "ann", "train", "t4", 4, some amount, none, "real"⟩

/-- What a submission of Ann's comes to. -/
def World.asking (world : World Rack) (amount : Decimal) :
    Except BrokerError (Job × Option Refusal) × World Rack :=
  (submit (.reserving amount) Rack.running.text).whole world

/-- Less than half a cent is accepted and nothing is held; half a cent is accepted of a budget, and under a
cap, of half a cent, and a cent is held. -/
theorem fractions_accepted :
    (∃ job ∈ ((World.budgeted 25 50).asking (4 / 1000)).1.toOption, job.2 = none ∧
      ¬ HoldAgrees (World.budgeted 25 50) ((World.budgeted 25 50).asking (4 / 1000)).2 job.1 25) ∧
    (∃ job ∈ ((World.budgeted (5 / 1000) 50).asking (5 / 1000)).1.toOption, job.2 = none ∧
      ¬ HoldAgrees (World.budgeted (5 / 1000) 50) ((World.budgeted (5 / 1000) 50).asking (5 / 1000)).2 job.1
        (5 / 1000)) ∧
    ∃ job ∈ ((World.budgeted 25 (5 / 1000)).asking (5 / 1000)).1.toOption, job.2 = none ∧
      ¬ HoldAgrees (World.budgeted 25 (5 / 1000)) ((World.budgeted 25 (5 / 1000)).asking (5 / 1000)).2 job.1
        25 := by
  refine ⟨?_, ?_, ?_⟩
  · have held : ∃ job ∈ ((World.budgeted 25 50).asking (4 / 1000)).1.toOption, job.2 = none ∧
        ¬ 0 < job.1.reserved := by decide +kernel
    obtain ⟨job, came, accepted, nothing⟩ := held
    exact ⟨job, came, accepted, fun agrees => nothing agrees.positive⟩
  · have held : ∃ job ∈ ((World.budgeted (5 / 1000) 50).asking (5 / 1000)).1.toOption, job.2 = none ∧
        ¬ money (((World.budgeted (5 / 1000) 50).asking (5 / 1000)).2.db.committed job.1.userId
          job.1.currency ((World.budgeted (5 / 1000) 50).config.calendar.period job.1.submittedAt)) ≤
            5 / 1000 := by decide +kernel
    obtain ⟨job, came, accepted, beyond⟩ := held
    exact ⟨job, came, accepted, fun agrees => beyond agrees.within⟩
  · have held : ∃ job ∈ ((World.budgeted 25 (5 / 1000)).asking (5 / 1000)).1.toOption, job.2 = none ∧
        ¬ money job.1.reserved ≤ (World.budgeted 25 (5 / 1000)).config.maxJob job.1.currency := by
      decide +kernel
    obtain ⟨job, came, accepted, beyond⟩ := held
    exact ⟨job, came, accepted, fun agrees => beyond agrees.under⟩

/-- Two and a half cents are held as three. -/
theorem accepted_hold_agrees_cents :
    ∃ job ∈ ((World.budgeted 25 50).asking (25 / 1000)).1.toOption, job.2 = none ∧
      HoldAgrees (World.budgeted 25 50) ((World.budgeted 25 50).asking (25 / 1000)).2 job.1 25 := by
  have facts : (∃ job ∈ ((World.budgeted 25 50).asking (25 / 1000)).1.toOption, job.2 = none) ∧
      (World.budgeted 25 50).config.gpu "t4" = .ok ⟨"t4", .usd, 1⟩ ∧
      (∃ member ∈ (World.budgeted 25 50).db.users.find "ann", member.budgetUsd = 25) ∧
      money (quantize (25 / 1000)) ≤ (World.budgeted 25 50).config.maxJob .usd ∧
      money (quantize (25 / 1000)) ≤ 25 - money ((World.budgeted 25 50).db.committed "ann" .usd
        ((World.budgeted 25 50).config.calendar.period
          ((World.budgeted 25 50).clock ((World.budgeted 25 50).asked + 1)))) := by
    decide +kernel
  obtain ⟨⟨⟨job, refusal⟩, came, rfl⟩, known, ⟨member, found, budget⟩, under, within⟩ := facts
  have ran : (submit (.reserving (25 / 1000)) Rack.running.text).whole (World.budgeted 25 50) =
      (.ok (job, none), ((World.budgeted 25 50).asking (25 / 1000)).2) :=
    Prod.ext (ok_of_toOption came) rfl
  have room : member.budget .usd = 25 := budget
  have agrees := accepted_hold_agrees_iff ran known found
  rw [room] at agrees
  exact ⟨(job, none), came, rfl, agrees.mpr ⟨by norm_num [Submission.asked, Submission.reserving], under, within⟩⟩

end GpuBroker.Broker
