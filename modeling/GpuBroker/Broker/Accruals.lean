/-
This file is what a tick settles: an accrual, which is the price of the whole
time a job has run, less what the ledger already charges it.

What the ledger charges a job are its settlements and the abandoned machines that
name it, and both count as consumed already. And the whole time is priced anew by
each accrual, at the price of the moment.
-/
import GpuBroker.Broker.Billing

namespace GpuBroker.Broker

open Library

variable {γ : Type}

/-! ### One accrual -/

/-- What a row adds to what is charged for abandoned capacity. -/
def LedgerEntry.abandonedPart (row : LedgerEntry) : Cents :=
  match row.kind with
  | .abandoned => row.amount
  | _ => 0

/-- The sum of the ABANDONED rows that name a job. -/
def abandoned (ledger : List LedgerEntry) (job : JobId) : Cents :=
  sumWhere LedgerEntry.abandonedPart (ofJob job) ledger

/-- What a job has consumed by a moment: the price of the time run, rounded and capped by the
reservation. -/
def consumed (config : BrokerConfig) (gpu : GpuType) (job : Job) (moment : Time) : Cents :=
  min (quantize (gpu.hourlyPrice * job.elapsedHours config.calendar moment)) job.reserved

/-- What is spent on a job is what is settled, and what is charged for abandoned capacity. -/
theorem jobSpend_split (db : Db) (job : JobId) :
    db.jobSpend job = settled db.ledger job + abandoned db.ledger job := by
  rw [jobSpend_eq, settled, abandoned]
  induction db.ledger with
  | nil => rfl
  | cons row rows inductionHypothesis =>
      have parts : row.spentPart = row.settledPart + row.abandonedPart := by
        unfold LedgerEntry.spentPart LedgerEntry.settledPart LedgerEntry.abandonedPart
        cases row.kind <;> simp
      rw [sumWhere_cons, sumWhere_cons, sumWhere_cons, inductionHypothesis, parts]
      split <;> ring

theorem whole_accrue {world : World γ} {job : Job} {gpu : GpuType} {moment : Time}
    (known : world.config.gpu job.gpuType = .ok gpu) :
    (accrue job moment).whole world =
      (.ok (max 0 (consumed world.config gpu job moment - world.db.jobSpend job.jobId)), world) := by
  unfold accrue
  rw [whole_settings, known]
  rfl

/-- A tick's settlement adds what was accrued, and no more. -/
theorem settled_settleAccrued {world : World γ} {job : Job} {gpu : GpuType} {moment : Time}
    (known : world.config.gpu job.gpuType = .ok gpu) :
    settled ((settleAccrued job moment).whole world).2.db.ledger job.jobId =
      settled world.db.ledger job.jobId +
        max 0 (consumed world.config gpu job moment - world.db.jobSpend job.jobId) := by
  unfold settleAccrued
  rw [Program.whole_bind_ok (whole_accrue known)]
  have nonneg : 0 ≤ max 0 (consumed world.config gpu job moment - world.db.jobSpend job.jobId) :=
    le_max_left _ _
  generalize max 0 (consumed world.config gpu job moment - world.db.jobSpend job.jobId) = amount
    at nonneg ⊢
  split
  · next positive =>
    have wrote : ((settle job (money amount) moment).whole world) =
        (.ok (), { world.ticked with db :=
          { world.db with
            jobs := world.db.jobs.modify job.jobId (Job.stamped (world.clock world.asked))
              (Job.stamped_id _)
            ledger := world.db.ledger ++
              settlement world.config job amount (world.clock world.asked) } }) := by
      unfold settle
      rw [quantize_money, if_neg (not_le.mpr positive), whole_now, whole_executing]
      rfl
    rw [Program.whole_bind_ok wrote]
    show settled (world.db.ledger ++ _) job.jobId = _
    rw [settled, sumWhere_append, settled_settlement, if_pos rfl, settled]
  · next none =>
    rw [le_antisymm (not_lt.mp none) nonneg, add_zero]
    rfl

theorem add_gap_iff {before aside total : Int} :
    before + max 0 (total - (before + aside)) = total ↔
      (aside = 0 ∧ before ≤ total) ∨ (0 ≤ aside ∧ before = total) := by
  omega

/-- After a tick's settlement what is settled to a job is what it has consumed exactly when nothing was
charged for abandoned capacity that names it and no more was settled before, or when it was so
before. -/
theorem settled_consumed_iff (world : World γ) (job : Job) (gpu : GpuType) (moment : Time)
    (known : world.config.gpu job.gpuType = .ok gpu) :
    settled ((settleAccrued job moment).whole world).2.db.ledger job.jobId =
        consumed world.config gpu job moment ↔
      (abandoned world.db.ledger job.jobId = 0 ∧
          settled world.db.ledger job.jobId ≤ consumed world.config gpu job moment) ∨
        (0 ≤ abandoned world.db.ledger job.jobId ∧
          settled world.db.ledger job.jobId = consumed world.config gpu job moment) := by
  rw [settled_settleAccrued known, jobSpend_split]
  exact add_gap_iff

/-- A job whose abandoned machine nobody has charged yet. -/
theorem settled_consumed_iff_running :
    let world := Rack.running.after (Operation.opening ++ Operation.ticks 2) (World.club .club)
    ∃ job ∈ world.db.jobs.find "job",
      settled ((settleAccrued job world.last).whole world).2.db.ledger "job" = 160 := by
  intro world
  have running : ∃ job ∈ world.db.jobs.find "job", job.jobId = "job" ∧
      world.config.gpu job.gpuType = .ok ⟨"t4", .usd, 1⟩ ∧ abandoned world.db.ledger job.jobId = 0 ∧
        settled world.db.ledger job.jobId ≤ consumed world.config ⟨"t4", .usd, 1⟩ job world.last ∧
          consumed world.config ⟨"t4", .usd, 1⟩ job world.last = 160 := by
    decide +kernel
  obtain ⟨job, found, id, known, unabandoned, before, now⟩ := running
  refine ⟨job, found, ?_⟩
  rw [← now, ← id]
  exact (settled_consumed_iff world job ⟨"t4", .usd, 1⟩ world.last known).mpr
    (Or.inl ⟨unabandoned, before⟩)

/-- A machine of the job that nobody stopped. -/
def Orphan.leaked : Orphan where
  handle := "i-0"
  jobId := some "job"
  userId := some "ann"
  currency := .usd
  burned := 1 / 2
  costKnown := true

/-- A pass charges half a dollar for a machine that was abandoned, and the job that it names is billed
half a dollar less than it consumes. -/
theorem abandoned_counts_as_consumed :
    let world := Rack.running.after
      (Operation.opening ++ Operation.ticks 2 ++ [(.reap [.leaked], 40)] ++ Operation.ticks 1)
      (World.club .club)
    ∃ job ∈ world.db.jobs.find "job", job.state = .running ∧ abandoned world.db.ledger "job" = 50 ∧
      consumed world.config ⟨"t4", .usd, 1⟩ job world.last = 280 ∧
        settled ((settleAccrued job world.last).whole world).2.db.ledger "job" = 230 := by
  decide +kernel

/-! ### Prices over a run -/

/-- What an hour of a kind of capacity costs. -/
def BrokerConfig.rate (config : BrokerConfig) (name : String) : Decimal :=
  match config.gpu name with
  | .ok gpu => gpu.hourlyPrice
  | .error _ => 0

/-- The worlds in which prices were refreshed, in order. -/
def refreshed : List (Write × World γ) → List (World γ)
  | [] => []
  | (.applyPrices _, world) :: rest => world :: refreshed rest
  | _ :: rest => refreshed rest

/-- What time costs from `ran` hours on, each interval between refreshes at the price in force during
it. -/
def tariff (name : String) (hours : Time → Decimal) (moment : Time) (rate : Decimal) :
    Decimal → List (World γ) → Decimal
  | ran, [] => rate * (hours moment - ran)
  | ran, world :: rest =>
      world.config.rate name * (hours world.last - ran) +
        tariff name hours moment rate (hours world.last) rest

/-- What a job's time until a moment has cost, at the prices of the transactions so far. -/
def costInForce (past : List (Write × World γ)) (world : World γ) (job : Job) (moment : Time) : Decimal :=
  tariff job.gpuType (job.elapsedHours world.config.calendar) moment (world.config.rate job.gpuType) 0
    (refreshed past)

/-- No transaction settles anything to a job. -/
def Unsettling (id : JobId) (steps : List (Write × World γ)) : Prop :=
  ∀ step ∈ steps, step.1.settles id = 0

/-- What is settled to a job is what its time had cost at its last settlement. -/
def SettledInForce (id : JobId) (record : List (Write × World γ)) (total : Cents) : Prop :=
  (Unsettling id record ∧ total = 0) ∨
    ∃ past job amount accrued now world rest,
      record = past ++ (.settle job amount accrued now, world) :: rest ∧ job.jobId = id ∧
        Unsettling id rest ∧
        total = min (quantize (costInForce past world job accrued)) job.reserved

/-- A refresh leaves the price of a job's kind alone while the job is under way, and no abandoned machine
is charged to it. -/
def Unrepriced (id : JobId) (write : Write) (world : World γ) : Prop :=
  match write with
  | .applyPrices book => ∀ row ∈ world.db.jobs.find id, row.startedAt.isSome = true →
      row.state.terminal = false →
        (world.config.applyPrices book).rate row.gpuType = world.config.rate row.gpuType
  | .abandon _ job _ _ _ _ => job ≠ some id
  | _ => True

instance (id : JobId) (write : Write) (world : World γ) : Decidable (Unrepriced id write world) :=
  match write with
  | .applyPrices book => inferInstanceAs (Decidable (∀ row ∈ world.db.jobs.find id,
      row.startedAt.isSome = true → row.state.terminal = false →
        (world.config.applyPrices book).rate row.gpuType = world.config.rate row.gpuType))
  | .abandon .. => inferInstanceAs (Decidable (_ ≠ _))
  | .insertUser .. | .updateUser .. | .suspend .. | .restore .. | .create .. | .refuse .. | .move ..
  | .settle .. | .touch .. | .sampled .. | .notify .. => isTrue trivial

theorem refreshed_append (first second : List (Write × World γ)) :
    refreshed (first ++ second) = refreshed first ++ refreshed second := by
  induction first with
  | nil => rfl
  | cons step rest inductionHypothesis =>
      obtain ⟨write, world⟩ := step
      cases write <;> simp [refreshed, inductionHypothesis]

/-- At one price, time costs that price. -/
theorem tariff_late {name : String} {hours : Time → Decimal} {moment : Time} {rate : Decimal}
    {worlds : List (World γ)} (same : ∀ world ∈ worlds, world.config.rate name = rate) (ran : Decimal) :
    tariff name hours moment rate ran worlds = rate * (hours moment - ran) := by
  induction worlds generalizing ran with
  | nil => rfl
  | cons world rest inductionHypothesis =>
      rw [tariff, same world List.mem_cons_self,
        inductionHypothesis fun each member => same each (List.mem_cons_of_mem _ member)]
      ring

/-- Refreshes before the first hour cost nothing. -/
theorem tariff_early {name : String} {hours : Time → Decimal} {moment : Time} {rate : Decimal}
    {early : List (World γ)} (before : ∀ world ∈ early, hours world.last = 0) (late : List (World γ)) :
    tariff name hours moment rate 0 (early ++ late) = tariff name hours moment rate 0 late := by
  induction early with
  | nil => rfl
  | cons world rest inductionHypothesis =>
      rw [List.cons_append, tariff, before world List.mem_cons_self,
        inductionHypothesis fun each member => before each (List.mem_cons_of_mem _ member)]
      ring

/-! ### Settled in force -/

/-- A record is of a job that was given capacity at a moment, and is not finished. -/
def Job.UnderWay (job : Job) (begun : Time) : Prop :=
  job.startedAt = some begun ∧ job.state.terminal = false

/-- The refreshes since a moment left a price as it is. -/
def Unchanged (past : List (World γ)) (begun : Time) (name : String) (rate : Decimal) : Prop :=
  ∃ early late, past = early ++ late ∧ (∀ world ∈ early, world.last ≤ begun) ∧
    ∀ world ∈ late, world.config.rate name = rate

/-- What is kept along a run: the refreshes so far are past, those since the job is under way left its
price alone, and what is settled is settled in force. -/
structure InForce (id : JobId) (clock : Nat → Time) (past : List (Write × World γ)) (world : World γ) :
    Prop where
  readings : world.clock = clock
  earlier : ∀ step ∈ refreshed past, step.last ≤ world.last
  unabandoned : abandoned world.db.ledger id = 0
  steady : ∀ row begun, world.db.jobs.find id = some row → row.UnderWay begun →
    Unchanged (refreshed past) begun row.gpuType (world.config.rate row.gpuType)
  paid : SettledInForce id past (settled world.db.ledger id)

/-- A job that is under way was so before, or is given capacity now. -/
theorem underWay_apply {outside : Outside γ} {world next : World γ} {write : Write} {id : JobId}
    {later : Job} {begun : Time} (sound : Sound world write) (exactly : Exact outside world write)
    (applied : write.apply world = .ok next) (hasLater : next.db.jobs.find id = some later)
    (underWay : later.UnderWay begun) :
    (∃ row, world.db.jobs.find id = some row ∧ row.UnderWay begun ∧ row.gpuType = later.gpuType) ∨
      begun = world.last := by
  obtain ⟨started, unfinished⟩ := underWay
  cases Write.rowStep applied hasLater with
  | inserted fresh new =>
      have unstarted : later.startedAt = none := by
        cases write with
        | create job read =>
            cases new
            exact Fresh.unstarted sound
        | refuse job refusal =>
            cases new
            exact sound.2.2.2.2.1
        | insertUser | updateUser | suspend | restore | move | settle | touch | sampled | notify | abandon
        | applyPrices => cases new
      rw [unstarted] at started
      cases started
  | moved current target change now outstanding row move mine found state after =>
      subst move mine after
      have moving : Moving world current target change now outstanding := sound
      obtain ⟨⟨again, hasRow, essence⟩, now_eq, _⟩ := exactly
      cases found.symm.trans hasRow
      have live := (JobState.canTransition_spec moving.legal).1
      have same : row.startedAt = current.startedAt := essence_eq essence Job.startedAt fun _ => rfl
      have begins : (if target.active && current.startedAt.isNone then some now
        else current.startedAt) = some begun := started
      split at begins
      · exact Or.inr ((Option.some.inj begins).symm.trans now_eq)
      · exact Or.inl ⟨row, found, ⟨same.trans begins, state ▸ live⟩, rfl⟩
  | touched columns now row touch found after =>
      subst after
      refine Or.inl ⟨row, found, ⟨?_, ?_⟩, ?_⟩
      · rw [← started]
        cases columns <;> rfl
      · rw [← unfinished]
        cases columns <;> rfl
      · cases columns <;> rfl
  | stamped job amount accrued now row settle mine found after =>
      subst after
      exact Or.inl ⟨row, found, ⟨started, unfinished⟩, rfl⟩
  | kept found _ _ => exact Or.inl ⟨later, found, ⟨started, unfinished⟩, rfl⟩

/-- What is charged for abandoned capacity, after a transaction that charges none to the job. -/
theorem abandoned_apply {world next : World γ} {write : Write} {id : JobId} (sound : Sound world write)
    (unrepriced : Unrepriced id write world) (applied : write.apply world = .ok next) :
    abandoned next.db.ledger id = abandoned world.db.ledger id := by
  rw [abandoned, Write.ledger_eq applied, sumWhere_append, ← abandoned]
  refine add_eq_left.mpr ?_
  cases write with
  | create job read =>
      show sumWhere _ _ (admissionHold world.config job) = 0
      unfold admissionHold
      split <;> simp [insertLedger, LedgerEntry.abandonedPart]
  | move current target change now outstanding =>
      have moving : Moving world current target change now outstanding := sound
      rw [moving.lines_eq]
      cases outstanding with
      | none => rfl
      | some holding =>
          simp only [ledgerWrites_release]
          split <;> simp [insertLedger, LedgerEntry.abandonedPart]
  | settle job amount accrued now =>
      simp [Write.lines, settlement, insertLedger, LedgerEntry.abandonedPart]
  | abandon handle job user currency amount now =>
      have other : job ≠ some id := unrepriced
      simp [Write.lines, insertLedger, ofJob, other]
  | insertUser | updateUser | suspend | restore | refuse | touch | sampled | notify | applyPrices => rfl

theorem Unchanged.begins {past : List (World γ)} {begun : Time} {name : String} {rate : Decimal}
    (before : ∀ world ∈ past, world.last ≤ begun) : Unchanged past begun name rate :=
  ⟨past, [], (List.append_nil past).symm, before, (fun _ none => by cases none)⟩

theorem Unchanged.grow {past : List (World γ)} {begun : Time} {name : String} {rate : Decimal}
    {world : World γ} (unchanged : Unchanged past begun name rate) (same : world.config.rate name = rate) :
    Unchanged (past ++ [world]) begun name rate := by
  obtain ⟨early, late, rfl, before, after⟩ := unchanged
  refine ⟨early, late ++ [world], List.append_assoc _ _ _, before, fun each member => ?_⟩
  rcases List.mem_append.mp member with earlier | last
  · exact after each earlier
  · rw [List.mem_singleton.mp last]
    exact same

/-- A job whose price was left alone costs that price for all its time. -/
theorem Unchanged.cost {past : List (Write × World γ)} {world : World γ} {job : Job} {begun : Time}
    (unchanged : Unchanged (refreshed past) begun job.gpuType (world.config.rate job.gpuType))
    (started : job.startedAt = some begun) (unfinished : job.finishedAt = none) (moment : Time) :
    costInForce past world job moment =
      world.config.rate job.gpuType * job.elapsedHours world.config.calendar moment := by
  obtain ⟨early, late, whole, before, after⟩ := unchanged
  unfold costInForce
  rw [whole, tariff_early fun each member => ?_, tariff_late after, sub_zero]
  unfold Job.elapsedHours
  rw [started, unfinished]
  exact world.config.calendar.hours_zero _ (sub_nonpos.mpr (before each member))

theorem SettledInForce.extend {id : JobId} {record : List (Write × World γ)} {total : Cents}
    {step : Write × World γ} (held : SettledInForce id record total) (none : step.1.settles id = 0) :
    SettledInForce id (record ++ [step]) total := by
  have unsettling : ∀ {steps : List (Write × World γ)}, Unsettling id steps →
      Unsettling id (steps ++ [step]) := by
    intro steps unsettling each member
    rcases List.mem_append.mp member with earlier | last
    · exact unsettling each earlier
    · rw [List.mem_singleton.mp last]
      exact none
  rcases held with ⟨quiet, nothing⟩ | ⟨past, job, amount, accrued, now, world, rest, rfl, mine, quiet, same⟩
  · exact Or.inl ⟨unsettling quiet, nothing⟩
  · refine Or.inr ⟨past, job, amount, accrued, now, world, rest ++ [step], ?_, mine, unsettling quiet, same⟩
    rw [List.append_assoc, List.cons_append]

/-- A settlement brings what is settled to what the job's time has cost. -/
theorem InForce.settle {outside : Outside γ} {id : JobId} {clock : Nat → Time}
    {past : List (Write × World γ)} {world : World γ} {job : Job} {amount : Cents} {accrued now : Time}
    (inForce : InForce id clock past world) (booked : Booked world) (mine : job.jobId = id)
    (settling : Settling world job amount now)
    (exactly : Exact outside world (.settle job amount accrued now)) :
    settled world.db.ledger id + amount = min (quantize (costInForce past world job accrued)) job.reserved := by
  obtain ⟨⟨row, found, essence⟩, _, _, gpu, known, total⟩ := exactly
  have state : row.state = job.state := essence_eq essence Job.state fun _ => rfl
  have kind : row.gpuType = job.gpuType := essence_eq essence Job.gpuType fun _ => rfl
  have active : row.state.active = true := state ▸ settling.active
  have live := JobState.active_holdsBudget active
  have mineBooked := booked.jobs _ row found
  obtain ⟨begun, started⟩ := Option.isSome_iff_exists.mp (mineBooked.begun active)
  have unfinished : job.finishedAt = none :=
    (essence_eq essence Job.finishedAt fun _ => rfl).symm.trans (mineBooked.unfinished live)
  have begins : job.startedAt = some begun :=
    (essence_eq essence Job.startedAt fun _ => rfl).symm.trans started
  have unchanged := inForce.steady row begun (mine ▸ found) ⟨started, live⟩
  rw [kind] at unchanged
  have price : world.config.rate job.gpuType = gpu.hourlyPrice := by
    unfold BrokerConfig.rate
    rw [known]
  have positive := settling.positive
  rw [unchanged.cost begins unfinished, price]
  rw [jobSpend_split, mine, inForce.unabandoned, add_zero] at total
  rw [total] at positive ⊢
  rw [max_eq_right ((lt_max_iff.mp positive).resolve_left (lt_irrefl _)).le]
  ring

theorem InForce.quiet {id : JobId} {clock : Nat → Time} {past : List (Write × World γ)}
    {world next : World γ} (monotone : Monotone clock) (inForce : InForce id clock past world)
    (quiet : Quiet world next) : InForce id clock past next := by
  have later : world.last ≤ next.last := by
    unfold World.last
    rw [quiet.clock, inForce.readings]
    exact monotone (Nat.sub_le_sub_right quiet.asked 1)
  refine ⟨quiet.clock.trans inForce.readings, fun step member => (inForce.earlier step member).trans later,
    ?_, ?_, ?_⟩
  · rw [quiet.db]
    exact inForce.unabandoned
  · rw [quiet.db, quiet.config]
    exact inForce.steady
  · rw [quiet.db]
    exact inForce.paid

/-- A transaction that is rolled back is no refresh and settles nothing. -/
theorem rolledBack_settles {world : World γ} {write : Write} {error : BrokerError}
    (failed : write.apply world = .error error) (id : JobId) :
    refreshed [(write, world)] = [] ∧ write.settles id = 0 := by
  cases write with
  | applyPrices | settle => cases failed
  | insertUser | updateUser | suspend | restore | create | refuse | move | touch | sampled | notify
  | abandon => exact ⟨rfl, rfl⟩

theorem InForce.rolledBack {id : JobId} {clock : Nat → Time} {past : List (Write × World γ)}
    {world : World γ} {write : Write} {error : BrokerError} (inForce : InForce id clock past world)
    (failed : write.apply world = .error error) : InForce id clock (past ++ [(write, world)]) world := by
  obtain ⟨none, nothing⟩ := rolledBack_settles failed id
  have same : refreshed (past ++ [(write, world)]) = refreshed past := by
    rw [refreshed_append, none, List.append_nil]
  refine ⟨inForce.readings, ?_, inForce.unabandoned, ?_, inForce.paid.extend nothing⟩
  · rw [same]
    exact inForce.earlier
  · rw [same]
    exact inForce.steady

/-- The refreshes so far, after a transaction: the price of a job under way is what it was. -/
theorem Unchanged.write {id : JobId} {past : List (Write × World γ)} {world next : World γ}
    {write : Write} {row : Job} {begun : Time} (unrepriced : Unrepriced id write world)
    (applied : write.apply world = .ok next) (found : world.db.jobs.find id = some row)
    (underWay : row.UnderWay begun)
    (unchanged : Unchanged (refreshed past) begun row.gpuType (world.config.rate row.gpuType)) :
    Unchanged (refreshed (past ++ [(write, world)])) begun row.gpuType
      (next.config.rate row.gpuType) := by
  obtain ⟨db, written, rfl⟩ := Write.apply_eq applied
  rw [refreshed_append]
  cases write with
  | applyPrices book =>
      have same := unrepriced row found (by rw [underWay.1]; rfl) underWay.2
      show Unchanged (_ ++ [world]) _ _ ((world.config.applyPrices book).rate row.gpuType)
      rw [same]
      exact unchanged.grow rfl
  | insertUser | updateUser | suspend | restore | create | refuse | move | settle | touch | sampled
  | notify | abandon =>
      rw [show refreshed [(_, world)] = [] from rfl, List.append_nil]
      exact unchanged

/-- One transaction keeps it. -/
theorem InForce.write {outside : Outside γ} {id : JobId} {clock : Nat → Time}
    {past : List (Write × World γ)} {world next : World γ} {write : Write}
    (inForce : InForce id clock past world) (booked : Booked world)
    (unrepriced : Unrepriced id write world) (sound : Sound world write)
    (exactly : Exact outside world write) (applied : write.apply world = .ok next) :
    InForce id clock (past ++ [(write, world)]) next := by
  have persists := Write.persists applied
  have earlier : ∀ step ∈ refreshed (past ++ [(write, world)]), step.last ≤ next.last := by
    intro step member
    rw [refreshed_append] at member
    rw [apply_last applied]
    rcases List.mem_append.mp member with before | now
    · exact inForce.earlier step before
    · cases write with
      | applyPrices book => exact List.mem_singleton.mp now ▸ le_rfl
      | insertUser | updateUser | suspend | restore | create | refuse | move | settle | touch | sampled
      | notify | abandon => cases now
  refine ⟨persists.clock.trans inForce.readings, earlier, ?_, fun later begun hasLater underWay => ?_, ?_⟩
  · rw [abandoned_apply sound unrepriced applied]
    exact inForce.unabandoned
  · rcases underWay_apply sound exactly applied hasLater underWay with ⟨row, found, before, kind⟩ | rfl
    · rw [← kind]
      exact (inForce.steady row begun found before).write unrepriced applied found before
    · rw [← apply_last applied]
      exact Unchanged.begins earlier
  · rw [settled_apply sound applied]
    by_cases settles : write.settles id = 0
    · rw [settles, add_zero]
      exact inForce.paid.extend settles
    · obtain ⟨job, amount, accrued, now, rfl, mine, paid⟩ := settles_cases settles
      rw [paid]
      exact Or.inr ⟨past, job, amount, accrued, now, world, [], rfl, mine, (fun _ none => by cases none),
        inForce.settle booked mine sound exactly⟩

/-- In a run in which no refresh changes the price of a job's kind while the job is under way, and no
abandoned machine is charged to it, what is settled to the job is what its time has cost by its last
settlement, each interval between refreshes at the price in force. -/
theorem settled_in_force (desk : Desk γ) (config : BrokerConfig) (cloud : γ) (clock : Nat → Time)
    (monotone : Monotone clock) (entries : List (Operation × Nat)) (id : JobId) :
    let world := World.new config cloud clock
    desk.Allows (Unrepriced id) entries world →
      SettledInForce id (desk.record entries world) (settled (desk.after entries world).db.ledger id) := by
  intro world permitted
  have start : InForce id clock [] world := by
    refine ⟨rfl, (fun _ none => ?_), rfl, (fun _ _ none => ?_), Or.inl ⟨fun _ none => ?_, rfl⟩⟩ <;>
      cases none
  have held : InForce id clock (desk.record entries world) (desk.after entries world) := by
    refine Desk.history (runs_unknown desk.site) (Booked.new config cloud clock) permitted start ?_ ?_ ?_
    · intro past before next quiet _ held
      exact held.quiet monotone quiet
    · intro past write before error _ _ _ failed held
      exact held.rolledBack failed
    · intro past write before next booked unrepriced sound exactly applied held
      exact held.write booked unrepriced sound exactly applied
  exact held.paid

/-- The price is doubled while the job still waits in the queue. -/
theorem settled_in_force_waiting :
    let entries := Operation.opening ++ [(.refreshPrices [("t4", 2)], 40)] ++ Operation.ticks 2
    let record := Rack.running.record entries (World.club .club)
    let after := Rack.running.after entries (World.club .club)
    settled after.db.ledger "job" = 120 ∧ SettledInForce "job" record (settled after.db.ledger "job") :=
  ⟨by decide +kernel, settled_in_force Rack.running .club ⟨0, 0⟩ (fun reading => reading * twelveMinutes)
    twelveMinutes_monotone _ "job" (by decide +kernel)⟩

/-- What the time of the job that is settled last had cost, at the prices in force. -/
def lastCost (record : List (Write × World γ)) : Option Decimal :=
  match record.getLast? with
  | some (.settle job _ accrued _, world) => some (costInForce record.dropLast world job accrued)
  | _ => none

/-- The price is doubled after an hour and thirty-six minutes, and twelve minutes later a job of two
dollars' worth is billed three dollars and sixty cents. -/
theorem raise_is_retroactive :
    let entries := Operation.opening ++ Operation.ticks 2 ++ [(.refreshPrices [("t4", 2)], 40)] ++
      Operation.ticks 1
    let record := Rack.running.record entries (World.club .club)
    let after := Rack.running.after entries (World.club .club)
    (∃ job ∈ after.db.jobs.find "job", job.state = .running ∧ job.reserved = 400 ∧ job.attempts = 1) ∧
      (refreshed record).length = 1 ∧ lastCost record = some 2 ∧ settled after.db.ledger "job" = 360 := by
  decide +kernel

end GpuBroker.Broker
