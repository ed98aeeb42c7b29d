/-
This file is what a job is billed for: the time it has been active, as its own
history tells it, against the time since it was first given capacity, which is
what the broker multiplies by the price.

The two agree as long as no job is launched again after a wait. A meter is read
off the history of a job; the rows a transaction adds move it, and at the moment
they are written they change nothing of what it reads.
-/
import GpuBroker.Broker.Ceilings
import GpuBroker.Broker.Rows

namespace GpuBroker.Broker

open Library

variable {γ : Type}

/-! ### The meter of a job -/

/-- The time a job has been active: since when it is, and how long it was before. -/
structure Meter where
  since : Option Time
  run : Duration
  deriving DecidableEq

/-- The meter of a job that was never active. -/
def Meter.zero : Meter := ⟨none, 0⟩

/-- What a row of a job's history makes of its meter. -/
def Meter.note (meter : Meter) (row : Transition) : Meter :=
  match meter.since with
  | none => if row.toState.active then { meter with since := some row.writtenAt } else meter
  | some begun => if row.toState.active then meter else ⟨none, meter.run + (row.writtenAt - begun)⟩

/-- What a meter reads at a moment. -/
def Meter.reads (meter : Meter) (moment : Time) : Duration :=
  match meter.since with
  | none => meter.run
  | some begun => meter.run + (moment - begun)

/-- The meter of a job, read off its history. -/
def Db.meter (db : Db) (id : JobId) : Meter :=
  (db.transitions.filter fun row => row.jobId = id).foldl Meter.note .zero

/-- The total time a job has been active. -/
def World.activeTime (world : World γ) (id : JobId) : Duration :=
  (world.db.meter id).reads world.last

/-- The price of the total time a job has been active, rounded. -/
def World.activeCost (world : World γ) (gpu : GpuType) (id : JobId) : Cents :=
  quantize (gpu.hourlyPrice * world.config.calendar.hours (world.activeTime id))

/-- A row changes nothing of what the meter reads when it is written. -/
theorem Meter.reads_note (meter : Meter) (row : Transition) :
    (meter.note row).reads row.writtenAt = meter.reads row.writtenAt := by
  obtain ⟨since, run⟩ := meter
  unfold Meter.note Meter.reads
  cases since <;> by_cases active : row.toState.active = true <;> simp [active]

theorem Meter.reads_mono (meter : Meter) : Monotone meter.reads := by
  intro one other before
  unfold Meter.reads
  cases meter.since with
  | none => exact le_rfl
  | some begun => linarith

/-- What a transaction makes of the meter of a job. -/
theorem meter_apply {world next : World γ} {write : Write} (applied : write.apply world = .ok next)
    (id : JobId) :
    next.db.meter id = (write.history id).elim (world.db.meter id) (world.db.meter id).note := by
  show (next.db.historyOf id).foldl Meter.note .zero = _
  rw [historyOf_apply applied, List.foldl_append]
  cases write.history id <;> rfl

/-! ### The meter and the record -/

/-- A launch of a job finds that it has not waited since it was first given capacity, and prices stay
as they are. -/
def Unwaited (write : Write) (world : World γ) : Prop :=
  match write with
  | .move current target _ now _ => current.state = .queued → target.active = true →
      ∀ row ∈ world.db.jobs.find current.jobId, ∀ begun ∈ row.startedAt,
        now - begun ≤ (world.db.meter current.jobId).reads now
  | .applyPrices book => (world.config.applyPrices book).gpuTypes = world.config.gpuTypes
  | _ => True

instance (write : Write) (world : World γ) : Decidable (Unwaited write world) :=
  match write with
  | .move current target _ now _ => inferInstanceAs (Decidable (current.state = .queued →
      target.active = true → ∀ row ∈ world.db.jobs.find current.jobId, ∀ begun ∈ row.startedAt,
        now - begun ≤ (world.db.meter current.jobId).reads now))
  | .applyPrices _ => inferInstanceAs (Decidable (_ = _))
  | .insertUser .. | .updateUser .. | .suspend .. | .restore .. | .create .. | .refuse ..
  | .settle .. | .touch .. | .sampled .. | .notify .. | .abandon .. => isTrue trivial

/-- A record beside the meter of its job: while the job is active, the time since it was first given
capacity is no longer than what the meter reads. -/
structure Metered (meter : Meter) (row : Job) : Prop where
  unlaunched : row.startedAt = none → meter = .zero
  stopped : row.state.active = false → meter.since = none
  active : row.state.active = true → ∃ begun since, row.startedAt = some begun ∧
    meter.since = some since ∧ since - begun ≤ meter.run

theorem Metered.elapsed {meter : Meter} {row : Job} (metered : Metered meter row)
    (active : row.state.active = true) {begun : Time} (started : row.startedAt = some begun)
    (moment : Time) : moment - begun ≤ meter.reads moment := by
  obtain ⟨first, since, hasFirst, hasSince, within⟩ := metered.active active
  cases started.symm.trans hasFirst
  unfold Meter.reads
  rw [hasSince]
  show moment - begun ≤ meter.run + (moment - since)
  linarith

/-- A record that gains a machine, when it has not waited. -/
theorem Metered.launched {run : Duration} {row later : Job} {now : Time}
    (metered : Metered ⟨none, run⟩ row) (active : later.state.active = true)
    (started : later.startedAt = some (row.startedAt.getD now))
    (unwaited : ∀ begun ∈ row.startedAt, now - begun ≤ run) : Metered ⟨some now, run⟩ later := by
  refine ⟨fun none => ?_, fun stopped => ?_, fun _ => ⟨_, now, started, rfl, ?_⟩⟩
  · rw [started] at none
    cases none
  · rw [active] at stopped
    cases stopped
  · cases first : row.startedAt with
    | none =>
        have unrun : run = 0 := congrArg Meter.run (metered.unlaunched first)
        rw [unrun, Option.getD_none, sub_self]
    | some begun => exact unwaited begun first

/-- A move of a record keeps it beside its meter. -/
theorem Metered.moved {meter : Meter} {row current : Job} {target : JobState} {change : Change}
    {now : Time} (metered : Metered meter row)
    (essence : row.essence = current.essence) (legal : current.state.canTransition target = true)
    (unwaited : current.state = .queued → target.active = true → ∀ begun ∈ row.startedAt,
      now - begun ≤ meter.reads now) :
    Metered (meter.note ⟨current.jobId, some current.state, target, now, change.reason⟩)
      ((current.movedTo target change now).writtenOver row) := by
  have state : row.state = current.state := essence_eq essence Job.state fun _ => rfl
  have started : row.startedAt = current.startedAt := essence_eq essence Job.startedAt fun _ => rfl
  have after : ((current.movedTo target change now).writtenOver row).startedAt =
      if target.active && row.startedAt.isNone then some now else row.startedAt := by
    rw [started]
    rfl
  generalize hasLater : (current.movedTo target change now).writtenOver row = later at after ⊢
  have reached : later.state = target := hasLater ▸ rfl
  clear hasLater
  obtain ⟨since, run⟩ := meter
  by_cases active : target.active = true
  · rw [active, Bool.true_and] at after
    rcases JobState.canTransition_active legal active with before | ⟨queued, _⟩
    · obtain ⟨first, since, hasFirst, hasSince, within⟩ := metered.active (state ▸ before)
      cases hasSince
      have same : Meter.note ⟨some since, run⟩ ⟨current.jobId, some current.state, target, now,
          change.reason⟩ = ⟨some since, run⟩ := if_pos active
      have kept : later.startedAt = some first := by
        rw [after, hasFirst]
        rfl
      rw [same]
      refine ⟨fun none => ?_, fun stopped => ?_, fun _ => ⟨first, since, kept, rfl, within⟩⟩
      · rw [kept] at none
        cases none
      · rw [reached, active] at stopped
        cases stopped
    · have stopped : since = none := metered.stopped (by rw [state, queued]; rfl)
      subst stopped
      have fresh : Meter.note ⟨none, run⟩ ⟨current.jobId, some current.state, target, now,
          change.reason⟩ = ⟨some now, run⟩ := if_pos active
      rw [fresh]
      refine metered.launched (reached ▸ active) ?_ (unwaited queued active)
      rw [after]
      cases row.startedAt <;> rfl
  · have inactive : target.active = false := Bool.eq_false_iff.mpr active
    have kept : later.startedAt = row.startedAt := by
      rw [after, inactive]
      rfl
    refine ⟨fun none => ?_, fun _ => ?_, fun again => ?_⟩
    · have unlaunched := metered.unlaunched (kept ▸ none)
      rw [unlaunched]
      exact if_neg active
    · cases since with
      | none => exact congrArg Meter.since (if_neg active)
      | some => exact congrArg Meter.since (if_neg active)
    · rw [reached, inactive] at again
      cases again

/-- A record in the same state since the same time. -/
theorem Metered.same {meter : Meter} {row later : Job} (metered : Metered meter row)
    (state : later.state = row.state) (started : later.startedAt = row.startedAt) : Metered meter later :=
  ⟨fun none => metered.unlaunched (started ▸ none), fun stopped => metered.stopped (state ▸ stopped),
    fun active => started ▸ metered.active (state ▸ active)⟩

/-! ### What is settled -/

/-- What a transaction settles to a job. -/
def Write.settles (id : JobId) : Write → Cents
  | .settle job amount _ _ => if job.jobId = id then amount else 0
  | _ => 0

theorem settled_apply {world next : World γ} {write : Write} (sound : Sound world write)
    (applied : write.apply world = .ok next) (id : JobId) :
    settled next.db.ledger id = settled world.db.ledger id + write.settles id := by
  rw [settled, Write.ledger_eq applied, sumWhere_append]
  refine congrArg _ ?_
  cases write with
  | create job read => exact settled_hold _ _ _
  | move current target change now outstanding =>
      have moving : Moving world current target change now outstanding := sound
      rw [moving.lines_eq]
      cases outstanding with
      | none => rfl
      | some holding => exact settled_release _ _ _ _ _
  | settle job amount accrued now => exact settled_settlement _ _ _ _ _
  | abandon handle job user currency amount now =>
      simp [Write.lines, insertLedger, LedgerEntry.settledPart, Write.settles]
  | insertUser | updateUser | suspend | restore | refuse | touch | sampled | notify | applyPrices => rfl

/-- A transaction that settles something to a job is a settlement of it. -/
theorem settles_cases {write : Write} {id : JobId} (settles : write.settles id ≠ 0) :
    ∃ job amount accrued now, write = .settle job amount accrued now ∧ job.jobId = id ∧
      write.settles id = amount := by
  cases write with
  | settle job amount accrued now =>
      by_cases mine : job.jobId = id
      · exact ⟨job, amount, accrued, now, rfl, mine, if_pos mine⟩
      · exact absurd (if_neg mine) settles
  | insertUser | updateUser | suspend | restore | create | refuse | move | touch | sampled | notify
  | abandon | applyPrices => exact absurd rfl settles

theorem settles_missing {world : World γ} {write : Write} {id : JobId} (sound : Sound world write)
    (missing : world.db.jobs.find id = none) : write.settles id = 0 := by
  by_contra settles
  obtain ⟨job, amount, accrued, now, rfl, rfl, _⟩ := settles_cases settles
  have settling : Settling world job amount now := sound
  obtain ⟨row, found, _⟩ := settling.known.row
  rw [missing] at found
  cases found

/-- A transaction on a job changes nothing of what its meter reads now. -/
theorem reads_apply {outside : Outside γ} {world next : World γ} {write : Write} {id : JobId} {row : Job}
    (exactly : Exact outside world write) (found : world.db.jobs.find id = some row)
    (applied : write.apply world = .ok next) :
    (next.db.meter id).reads world.last = (world.db.meter id).reads world.last := by
  rw [meter_apply applied]
  cases noted : write.history id with
  | none => rfl
  | some line =>
      obtain ⟨current, target, change, now, outstanding, rfl, _, rfl⟩ :=
        history_moves found applied noted
      have written : now = world.last := exactly.2.1
      rw [← written]
      exact Meter.reads_note _ ⟨current.jobId, some current.state, target, now, change.reason⟩

/-! ### Along a run -/

/-- What is kept along a run: prices stay, every record is beside its meter, and no job is billed more
than the time it has been active. -/
structure Billed (config : BrokerConfig) (clock : Nat → Time) (world : World γ) : Prop where
  settings : world.config = config
  readings : world.clock = clock
  metered : ∀ id row, world.db.jobs.find id = some row → Metered (world.db.meter id) row
  absent : ∀ id, world.db.jobs.find id = none → world.db.meter id = .zero
  within : ∀ id row gpu, world.db.jobs.find id = some row → config.gpu row.gpuType = .ok gpu →
    settled world.db.ledger id ≤ world.activeCost gpu id

theorem gpu_mem {config : BrokerConfig} {name : String} {gpu : GpuType}
    (found : config.gpu name = .ok gpu) : gpu ∈ config.gpuTypes := by
  unfold BrokerConfig.gpu at found
  split at found
  · next listed =>
    cases found
    exact List.mem_of_find?_eq_some listed
  · cases found

/-- The price of more time is no less. -/
theorem cost_mono {config : BrokerConfig} {gpu : GpuType} (price : 0 ≤ gpu.hourlyPrice)
    {one other : Duration} (below : one ≤ other) :
    quantize (gpu.hourlyPrice * config.calendar.hours one) ≤
      quantize (gpu.hourlyPrice * config.calendar.hours other) :=
  quantize_mono (mul_le_mul_of_nonneg_left (config.calendar.hours_mono below) price)

theorem Billed.quiet {config : BrokerConfig} {clock : Nat → Time} {world next : World γ}
    (priced : ∀ gpu ∈ config.gpuTypes, 0 ≤ gpu.hourlyPrice)
    (monotone : ∀ one other, one ≤ other → clock one ≤ clock other) (billed : Billed config clock world)
    (quiet : Quiet world next) : Billed config clock next := by
  have later : world.last ≤ next.last := by
    unfold World.last
    rw [quiet.clock, billed.readings]
    exact monotone _ _ (Nat.sub_le_sub_right quiet.asked 1)
  refine ⟨quiet.config.trans billed.settings, quiet.clock.trans billed.readings, ?_, ?_, ?_⟩
  · rw [quiet.db]
    exact billed.metered
  · rw [quiet.db]
    exact billed.absent
  · intro id row gpu found known
    have same : next.activeCost gpu id =
        quantize (gpu.hourlyPrice * config.calendar.hours ((world.db.meter id).reads next.last)) := by
      rw [World.activeCost, World.activeTime, quiet.config, billed.settings, quiet.db]
    have before : world.activeCost gpu id =
        quantize (gpu.hourlyPrice * config.calendar.hours ((world.db.meter id).reads world.last)) := by
      rw [World.activeCost, World.activeTime, billed.settings]
    rw [quiet.db] at found ⊢
    rw [same]
    refine (billed.within id row gpu found known).trans ?_
    rw [before]
    exact cost_mono (priced gpu (gpu_mem known)) (Meter.reads_mono _ later)

/-- An active job has run no longer, since it was first given capacity, than it has been active. -/
theorem Billed.elapsed {config : BrokerConfig} {clock : Nat → Time} {world : World γ} {job : Job}
    {moment : Time} (monotone : ∀ one other, one ≤ other → clock one ≤ clock other)
    (billed : Billed config clock world) (booked : Booked world) (inStep : InStep world job)
    (active : job.state.active = true) (shown : world.Shown moment) :
    job.elapsedHours config.calendar moment ≤ config.calendar.hours (world.activeTime job.jobId) := by
  obtain ⟨row, found, essence⟩ := inStep
  have running : row.state.active = true :=
    (essence_eq essence Job.state fun _ => rfl).symm ▸ active
  have metered := billed.metered job.jobId row found
  obtain ⟨begun, started⟩ := Option.isSome_iff_exists.mp ((booked.jobs _ row found).begun running)
  have unfinished : row.finishedAt = none := by
    refine (booked.jobs _ row found).unfinished ?_
    revert running
    cases row.state <;> decide
  obtain ⟨reading, before, rfl⟩ := shown
  have past : world.clock reading ≤ world.last := by
    unfold World.last
    rw [billed.readings]
    exact monotone _ _ (by omega)
  unfold Job.elapsedHours
  rw [← essence_eq essence Job.startedAt fun _ => rfl, started,
    ← essence_eq essence Job.finishedAt fun _ => rfl, unfinished]
  refine config.calendar.hours_mono ?_
  exact (sub_le_sub_right past begun).trans (metered.elapsed running started world.last)

/-- A settlement brings what is settled to no more than the price of the time active. -/
theorem Billed.settle {outside : Outside γ} {config : BrokerConfig} {clock : Nat → Time} {world : World γ}
    {job : Job} {amount : Cents} {accrued now : Time} {gpu : GpuType}
    (priced : ∀ gpu ∈ config.gpuTypes, 0 ≤ gpu.hourlyPrice)
    (monotone : ∀ one other, one ≤ other → clock one ≤ clock other)
    (billed : Billed config clock world) (booked : Booked world)
    (settling : Settling world job amount now)
    (exactly : Exact outside world (.settle job amount accrued now))
    (known : config.gpu job.gpuType = .ok gpu) :
    settled world.db.ledger job.jobId + amount ≤ world.activeCost gpu job.jobId := by
  obtain ⟨inStep, _, shown, other, hasOther, rfl⟩ := exactly
  rw [billed.settings, known] at hasOther
  cases hasOther
  have positive := settling.positive
  have spent := settled_le_spend booked.positive job.jobId
  have elapsed := billed.elapsed monotone booked inStep settling.active shown
  have cost : quantize (gpu.hourlyPrice * job.elapsedHours world.config.calendar accrued) ≤
      world.activeCost gpu job.jobId := by
    unfold World.activeCost
    rw [billed.settings]
    exact quantize_mono (mul_le_mul_of_nonneg_left elapsed (priced gpu (gpu_mem known)))
  have accrual := (lt_max_iff.mp positive).resolve_left (lt_irrefl _)
  rw [max_eq_right accrual.le]
  have capped := min_le_left (quantize (gpu.hourlyPrice *
    job.elapsedHours world.config.calendar accrued)) job.reserved
  linarith

/-- A transaction that stops a job at its ceiling finds that the price of the time it has been active
has reached its reservation. -/
def StopsInTime (write : Write) (world : World γ) : Prop :=
  ∀ current target change now outstanding reserved elapsed,
    write = .move current target change now outstanding → change.reason = .ceiling reserved elapsed →
      ∃ gpu, world.config.gpu current.gpuType = .ok gpu ∧
        current.reserved ≤ world.activeCost gpu current.jobId

theorem Billed.stops {outside : Outside γ} {config : BrokerConfig} {clock : Nat → Time} {world : World γ}
    {write : Write} (priced : ∀ gpu ∈ config.gpuTypes, 0 ≤ gpu.hourlyPrice)
    (monotone : ∀ one other, one ≤ other → clock one ≤ clock other)
    (billed : Billed config clock world) (booked : Booked world) (exactly : Exact outside world write) :
    StopsInTime write world := by
  rintro current target change now outstanding reserved elapsed rfl ceiling
  obtain ⟨inStep, _, _, _, stops⟩ := exactly
  obtain ⟨active, gpu, known, moment, shown, reached⟩ := stops reserved elapsed ceiling
  refine ⟨gpu, known, (of_decide_eq_true reached).trans ?_⟩
  unfold World.activeCost
  rw [billed.settings] at known ⊢
  exact quantize_mono (mul_le_mul_of_nonneg_left
    (billed.elapsed monotone booked inStep active shown) (priced gpu (gpu_mem known)))

/-- A new record waits, and so says the first row of its history. -/
theorem inserted_waits {world : World γ} {write : Write} {later : Job} (sound : Sound world write)
    (new : write.inserts = some later) : later.state.active = false := by
  cases write with
  | create job read =>
      cases new
      rw [Fresh.queued sound]
      rfl
  | refuse job refusal =>
      cases new
      rw [sound.2.1]
      rfl
  | insertUser | updateUser | suspend | restore | move | settle | touch | sampled | notify | abandon
  | applyPrices => cases new

/-- Every record a transaction leaves is beside its meter. -/
theorem Billed.beside {outside : Outside γ} {config : BrokerConfig} {clock : Nat → Time}
    {world next : World γ} {write : Write} {id : JobId} {later : Job} (billed : Billed config clock world)
    (unwaited : Unwaited write world) (sound : Sound world write)
    (exactly : Exact outside world write) (applied : write.apply world = .ok next)
    (hasLater : next.db.jobs.find id = some later) : Metered (next.db.meter id) later := by
  have untouched : write.history id = none → next.db.meter id = world.db.meter id := fun none => by
    rw [meter_apply applied, none]
    rfl
  cases Write.rowStep applied hasLater with
  | inserted fresh new =>
      have waits : later.state.active = false := inserted_waits sound new
      have unrun : next.db.meter id = .zero := by
        obtain ⟨line, noted, state⟩ := history_inserted new
        have mine := Table.find_key hasLater
        rw [mine] at noted
        rw [meter_apply applied, noted, billed.absent id fresh]
        refine if_neg ?_
        rw [state, waits]
        exact Bool.false_ne_true
      rw [unrun]
      exact ⟨fun _ => rfl, fun _ => rfl, fun active => by
        rw [waits] at active
        cases active⟩
  | moved current target change now outstanding row move mine found state after =>
      subst move mine after
      obtain ⟨inStep, _⟩ := exactly
      have moving : Moving world current target change now outstanding := sound
      obtain ⟨again, hasRow, essence⟩ := inStep
      rw [found] at hasRow
      cases hasRow
      rw [meter_apply applied]
      show Metered (Option.elim (if _ then _ else _) _ _) _
      rw [if_pos rfl]
      exact (billed.metered _ row found).moved essence moving.legal
        fun queued active => unwaited queued active row found
  | touched columns now row touch found after =>
      subst touch after
      rw [untouched rfl]
      refine (billed.metered id row found).same ?_ ?_ <;> cases columns <;> rfl
  | stamped job amount accrued now row settle mine found after =>
      subst settle after
      rw [untouched rfl]
      exact (billed.metered id row found).same rfl rfl
  | kept found unmoved _ =>
      rw [untouched (history_unmoved found applied unmoved)]
      exact billed.metered id later found

theorem apply_config {world next : World γ} {write : Write} (unwaited : Unwaited write world)
    (applied : write.apply world = .ok next) : next.config = world.config := by
  obtain ⟨db, _, rfl⟩ := Write.apply_eq applied
  cases write with
  | applyPrices book =>
      have same : (world.config.applyPrices book).gpuTypes = world.config.gpuTypes := unwaited
      show { world.config with gpuTypes := (world.config.applyPrices book).gpuTypes } = world.config
      rw [same]
  | insertUser | updateUser | suspend | restore | create | refuse | move | settle | touch | sampled
  | notify | abandon => rfl

theorem apply_last {world next : World γ} {write : Write} (applied : write.apply world = .ok next) :
    next.last = world.last := by
  obtain ⟨db, _, rfl⟩ := Write.apply_eq applied
  rfl

/-- One transaction keeps it. -/
theorem Billed.write {outside : Outside γ} {config : BrokerConfig} {clock : Nat → Time}
    {world next : World γ} {write : Write} (priced : ∀ gpu ∈ config.gpuTypes, 0 ≤ gpu.hourlyPrice)
    (monotone : ∀ one other, one ≤ other → clock one ≤ clock other)
    (billed : Billed config clock world) (booked : Booked world) (unwaited : Unwaited write world)
    (sound : Sound world write) (exactly : Exact outside world write)
    (applied : write.apply world = .ok next) : Billed config clock next := by
  have persists := Write.persists applied
  refine ⟨(apply_config unwaited applied).trans billed.settings, persists.clock.trans billed.readings,
    fun id later found => billed.beside unwaited sound exactly applied found, fun id missing => ?_,
    fun id later gpu found known => ?_⟩
  · have before : world.db.jobs.find id = none := by
      by_contra present
      obtain ⟨row, found⟩ := Option.ne_none_iff_exists'.mp present
      obtain ⟨later, hasLater, _⟩ := persists.jobs id row found
      rw [missing] at hasLater
      cases hasLater
    rw [meter_apply applied, history_missing applied missing]
    exact billed.absent id before
  · rw [settled_apply sound applied]
    cases before : world.db.jobs.find id with
    | none =>
        have unsettled : settled world.db.ledger id = 0 := by
          refine sumWhere_none fun line member => ?_
          exact decide_eq_false (booked.absent before line member)
        have price := priced gpu (gpu_mem known)
        have cost : 0 ≤ next.activeCost gpu id :=
          quantize_nonneg (mul_nonneg price (Calendar.hours_nonneg _ _))
        rw [unsettled, zero_add, settles_missing sound before]
        exact cost
    | some row =>
        obtain ⟨again, hasAgain, terms⟩ := persists.jobs id row before
        cases found.symm.trans hasAgain
        have kind : row.gpuType = later.gpuType := (congrArg Terms.gpuType terms).symm
        have same : next.activeCost gpu id = world.activeCost gpu id := by
          rw [World.activeCost, World.activeTime, apply_config unwaited applied, apply_last applied,
            reads_apply exactly before applied]
          rfl
        rw [same]
        by_cases settles : write.settles id = 0
        · rw [settles, add_zero]
          exact billed.within id row gpu before (kind ▸ known)
        · obtain ⟨job, amount, accrued, now, rfl, mine, paid⟩ := settles_cases settles
          obtain ⟨again, hasRow, essence⟩ := exactly.1
          rw [mine, before] at hasRow
          cases hasRow
          rw [paid, ← mine]
          refine Billed.settle priced monotone billed booked sound exactly ?_
          rw [← essence_eq essence Job.gpuType fun _ => rfl, kind]
          exact known

theorem Billed.new (config : BrokerConfig) (cloud : γ) (clock : Nat → Time) :
    Billed config clock (World.new config cloud clock) := by
  refine ⟨rfl, rfl, fun id row found => ?_, fun _ _ => rfl, fun id row gpu found => ?_⟩ <;> cases found

end GpuBroker.Broker
